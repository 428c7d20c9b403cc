/-
The matcher on a well-nested token stream.

Running the pass over the instructions of a tree succeeds, and the table it leaves links
every construct the way the tree does. The run over a statement list changes nothing
before the list, except that the labels of the list are appended to the chain of the
switch around it.
-/
import DXBCSandbox.Cfg.Flow
import DXBCSandbox.Cfg.FlowTree

namespace DXBCSandbox

open List Option USILOpcode FlowTree FlowMatcher

/-- The program has these opcodes from position `i` on. -/
def Spells (program : USILProgram) : ℕ → List USILOpcode → Prop
  | _, [] => True
  | i, opcode :: opcodes => program.opcode i = opcode ∧ Spells program (i + 1) opcodes

variable {i : ℕ}

lemma spells_append {program : USILProgram} {xs ys : List USILOpcode} :
    Spells program i (xs ++ ys) ↔ Spells program i xs ∧ Spells program (i + xs.length) ys := by
  induction xs generalizing i with
  | nil => simp [Spells]
  | cons x xs ih =>
    rw [cons_append, Spells, Spells, ih, length_cons, and_assoc,
      show i + 1 + xs.length = i + (xs.length + 1) by omega]

/-- What spells a construct and the rest behind it. -/
lemma spells_block {program : USILProgram} {opener closer : USILOpcode} {body : FlowTree}
    {opcodes : List USILOpcode} :
    Spells program i (opener :: (body.tokens ++ closer :: opcodes)) ↔
      program.opcode i = opener ∧ Spells program (i + 1) body.tokens ∧
        program.opcode (i + body.size + 1) = closer ∧
        Spells program (i + body.size + 1 + 1) opcodes := by
  rw [Spells, spells_append, Spells, length_tokens, Nat.add_right_comm i 1]

/-! ## A table that follows a tree -/

def CaseChain (flow : ℕ → HLSLInstructionFlow) : Option ℕ → List ℕ → Prop
  | link, [] => link = none
  | link, label :: labels => link = some label ∧ CaseChain flow (flow label).next_case labels

/-- The table links the constructs of a list that starts at `i` the way the tree does.
`onBreak` and `onContinue` are the openers that the jumps of the list leave. -/
def LaidOut (flow : ℕ → HLSLInstructionFlow) : FlowTree → ℕ → Option ℕ → Option ℕ → Prop
  | .nil, _, _, _ => True
  | .op opcode rest, i, onBreak, onContinue =>
    (isBreak opcode → (flow i).jump_scope = onBreak) ∧
    (isContinue opcode → (flow i).jump_scope = onContinue) ∧
    LaidOut flow rest (i + 1) onBreak onContinue
  | .ifThen body rest, i, onBreak, onContinue =>
    let e := i + body.size + 1
    (flow i).end_ = some e ∧ (flow i).alternate = none ∧
    LaidOut flow body (i + 1) onBreak onContinue ∧ LaidOut flow rest (e + 1) onBreak onContinue
  | .ifElse body alternate rest, i, onBreak, onContinue =>
    let a := i + body.size + 1
    let e := a + alternate.size + 1
    (flow i).alternate = some a ∧ (flow a).end_ = some e ∧
    LaidOut flow body (i + 1) onBreak onContinue ∧
    LaidOut flow alternate (a + 1) onBreak onContinue ∧
    LaidOut flow rest (e + 1) onBreak onContinue
  | .loop body rest, i, onBreak, onContinue =>
    let e := i + body.size + 1
    (flow i).end_ = some e ∧ (flow e).jump_scope = some i ∧
    LaidOut flow body (i + 1) (some i) (some i) ∧ LaidOut flow rest (e + 1) onBreak onContinue
  | .switch body rest, i, onBreak, onContinue =>
    let e := i + body.size + 1
    (flow i).end_ = some e ∧ (flow i).has_default = decide (0 < body.defaults) ∧
    CaseChain flow (flow i).first_case (body.labels (i + 1)) ∧
    LaidOut flow body (i + 1) (some i) onContinue ∧ LaidOut flow rest (e + 1) onBreak onContinue

variable {labels : List ℕ} {flow flow' : ℕ → HLSLInstructionFlow}

lemma CaseChain.congr {link : Option ℕ} (h : CaseChain flow link labels)
    (heq : ∀ label ∈ labels, flow' label = flow label) : CaseChain flow' link labels := by
  induction labels generalizing link with
  | nil => exact h
  | cons label labels ih =>
    obtain ⟨hlink, hrest⟩ := h
    refine ⟨hlink, ?_⟩
    rw [heq label (by simp)]
    exact ih hrest fun l hl => heq l (by simp [hl])

variable {t : FlowTree}

namespace FlowTree

lemma labels_bounds {label : ℕ} (h : label ∈ t.labels i) : i ≤ label ∧ label < i + t.size := by
  induction t generalizing i with
  | nil => simp [labels] at h
  | op opcode rest ih =>
    simp only [labels] at h
    simp only [size]
    split_ifs at h
    · rcases mem_cons.mp h with rfl | h
      · omega
      · have := ih h
        omega
    · have := ih h
      omega
  | ifThen body rest ihb ihr =>
    have := ihr h
    simp only [size]
    omega
  | ifElse body alternate rest ihb iha ihr =>
    have := ihr h
    simp only [size]
    omega
  | loop body rest ihb ihr =>
    have := ihr h
    simp only [size]
    omega
  | switch body rest ihb ihr =>
    have := ihr h
    simp only [size]
    omega

end FlowTree

lemma LaidOut.congr {onBreak onContinue : Option ℕ} (h : LaidOut flow t i onBreak onContinue)
    (heq : ∀ k, i ≤ k → k < i + t.size → flow' k = flow k) :
    LaidOut flow' t i onBreak onContinue := by
  induction t generalizing i onBreak onContinue with
  | nil => trivial
  | op opcode rest ih =>
    simp only [size] at heq
    obtain ⟨hb, hc, hr⟩ := h
    refine ⟨?_, ?_, ih hr fun k h1 h2 => heq k (by omega) (by omega)⟩
    · rw [heq i (by omega) (by omega)]
      exact hb
    · rw [heq i (by omega) (by omega)]
      exact hc
  | ifThen body rest ihb ihr =>
    simp only [size] at heq
    obtain ⟨he, ha, hb, hr⟩ := h
    refine ⟨?_, ?_, ihb hb fun k h1 h2 => heq k (by omega) (by omega),
      ihr hr fun k h1 h2 => heq k (by omega) (by omega)⟩
    · rw [heq i (by omega) (by omega), he]
    · rw [heq i (by omega) (by omega), ha]
  | ifElse body alternate rest ihb iha ihr =>
    simp only [size] at heq
    obtain ⟨ha, he, hb, hal, hr⟩ := h
    refine ⟨?_, ?_, ihb hb fun k h1 h2 => heq k (by omega) (by omega),
      iha hal fun k h1 h2 => heq k (by omega) (by omega),
      ihr hr fun k h1 h2 => heq k (by omega) (by omega)⟩
    · rw [heq i (by omega) (by omega), ha]
    · rw [heq _ (by omega) (by omega), he]
  | loop body rest ihb ihr =>
    simp only [size] at heq
    obtain ⟨he, hj, hb, hr⟩ := h
    refine ⟨?_, ?_, ihb hb fun k h1 h2 => heq k (by omega) (by omega),
      ihr hr fun k h1 h2 => heq k (by omega) (by omega)⟩
    · rw [heq i (by omega) (by omega), he]
    · rw [heq _ (by omega) (by omega), hj]
  | switch body rest ihb ihr =>
    simp only [size] at heq
    obtain ⟨he, hd, hc, hb, hr⟩ := h
    refine ⟨?_, ?_, ?_, ihb hb fun k h1 h2 => heq k (by omega) (by omega),
      ihr hr fun k h1 h2 => heq k (by omega) (by omega)⟩
    · rw [heq i (by omega) (by omega), he]
    · rw [heq i (by omega) (by omega), hd]
    · rw [heq i (by omega) (by omega)]
      refine hc.congr fun label hlabel => ?_
      have := labels_bounds hlabel
      exact heq label (by omega) (by omega)

/-! ## What a run over a list changes -/

def OpenScope.nextLabel (scope : OpenScope) (flow : ℕ → HLSLInstructionFlow) : Option ℕ :=
  match scope.last_case with
  | some label => (flow label).next_case
  | none => (flow scope.opener).first_case

/-- The stack after a list with these labels. -/
def advance : List OpenScope → List ℕ → List OpenScope
  | [], _ => []
  | scope :: outer, labels => ⟨scope.opener, labels.getLast?.or scope.last_case⟩ :: outer

/-- An entry before a list, after a list with these labels. -/
def relink : List OpenScope → List ℕ → ℕ → ℕ → HLSLInstructionFlow → HLSLInstructionFlow
  | [], _, _, _, entry => entry
  | scope :: _, labels, defaults, k, entry =>
    { entry with
      has_default := entry.has_default || (decide (k = scope.opener) && decide (0 < defaults))
      first_case :=
        if scope.last_case = none ∧ k = scope.opener then entry.first_case.or labels.head?
        else entry.first_case
      next_case :=
        if scope.last_case = some k then entry.next_case.or labels.head? else entry.next_case }

lemma relink_nil (stack : List OpenScope) (k : ℕ) (entry : HLSLInstructionFlow) :
    relink stack [] 0 k entry = entry := by
  cases stack with
  | nil => rfl
  | cons scope outer => simp [relink]

lemma advance_nil (stack : List OpenScope) : advance stack [] = stack := by
  cases stack with
  | nil => rfl
  | cons scope outer => simp [advance]

variable {scope : OpenScope} {defaults k : ℕ} {outer : List OpenScope}

/-- Away from the innermost switch and its last label nothing changes either. -/
theorem relink_other (entry : HLSLInstructionFlow) (hk : k ≠ scope.opener)
    (hl : scope.last_case ≠ some k) :
    relink (scope :: outer) labels defaults k entry = entry := by
  simp [relink, hk, hl]

lemma relink_label (labels : List ℕ) (entry : HLSLInstructionFlow) {first : ℕ} (hk : i ≠ k) :
    relink (⟨scope.opener, some i⟩ :: outer) labels defaults k
        (relink (scope :: outer) [i] first k entry) =
      relink (scope :: outer) (i :: labels) (defaults + first) k entry := by
  have hor : (decide (0 < first) || decide (0 < defaults)) = decide (0 < defaults + first) := by
    rw [← Bool.decide_or]
    exact decide_eq_decide.mpr (by omega)
  simp [relink, hk, Bool.or_assoc, ← Bool.and_or_distrib_left, hor]

/-- The state in front of a list: nothing is recorded yet from `i` on, the innermost
construct is before `i` and waits for its next label, and the stack offers what the
surroundings `c` promise. -/
structure Ready (program : USILProgram) (c : Enclosing) (s : FlowMatcher) (i defaults : ℕ) :
    Prop where
  unlinked : ∀ k, i ≤ k → s.flow k = .unlinked
  opener_lt : ∀ scope ∈ s.stack.head?, scope.opener < i
  last_case_lt : ∀ scope ∈ s.stack.head?, ∀ label ∈ scope.last_case, label < i
  nextLabel : ∀ scope ∈ s.stack.head?, scope.nextLabel s.flow = none
  inSwitch : c.inSwitch → ∃ scope ∈ s.stack.head?, program.opcode scope.opener = SWITCH ∧
    defaults + (s.flow scope.opener).has_default.toNat ≤ 1
  inBreakable : c.inBreakable → (jump_target program false s.stack).isSome
  inLoop : c.inLoop → (jump_target program true s.stack).isSome

structure Matched (program : USILProgram) (s : FlowMatcher) (t : FlowTree) (i : ℕ)
    (s' : FlowMatcher) : Prop where
  stack : s'.stack = advance s.stack (t.labels i)
  unlinked : ∀ k, i + t.size ≤ k → s'.flow k = .unlinked
  frame : ∀ k, k < i → s'.flow k = relink s.stack (t.labels i) t.defaults k (s.flow k)
  laid : LaidOut s'.flow t i (jump_target program false s.stack)
    (jump_target program true s.stack)
  chain : ∀ scope ∈ s.stack.head?, CaseChain s'.flow (scope.nextLabel s'.flow) (t.labels i)

/-- A run over the entries from `i` up to `m` that left everything else alone. -/
structure Skips (s s' : FlowMatcher) (i m : ℕ) : Prop where
  le : i ≤ m
  stack : s'.stack = s.stack
  unlinked : ∀ k, m ≤ k → s'.flow k = .unlinked
  frame : ∀ k, k < i → s'.flow k = s.flow k

section Skips

variable {program : USILProgram} {c : Enclosing} {s s₁ s' : FlowMatcher} {t rest : FlowTree}
  {i m defaults : ℕ}

lemma Skips.nextLabel (h : Skips s s₁ i m) (hr : Ready program c s i defaults)
    (hscope : scope ∈ s.stack.head?) :
    scope.nextLabel s₁.flow = scope.nextLabel s.flow := by
  cases hl : scope.last_case with
  | none =>
    simp only [OpenScope.nextLabel, hl]
    rw [h.frame _ (hr.opener_lt scope hscope)]
  | some label =>
    simp only [OpenScope.nextLabel, hl]
    rw [h.frame _ (hr.last_case_lt scope hscope label hl)]

lemma Skips.ready (h : Skips s s₁ i m) (hr : Ready program c s i defaults) :
    Ready program c s₁ m defaults where
  unlinked := h.unlinked
  opener_lt := by
    rw [h.stack]
    exact fun scope hscope => Nat.lt_of_lt_of_le (hr.opener_lt scope hscope) h.le
  last_case_lt := by
    rw [h.stack]
    exact fun scope hscope label hl =>
      Nat.lt_of_lt_of_le (hr.last_case_lt scope hscope label hl) h.le
  nextLabel := by
    rw [h.stack]
    intro scope hscope
    rw [h.nextLabel hr hscope, hr.nextLabel scope hscope]
  inSwitch := by
    intro hc
    obtain ⟨scope, hscope, hop, hd⟩ := hr.inSwitch hc
    refine ⟨scope, by rw [h.stack]; exact hscope, hop, ?_⟩
    rwa [h.frame _ (hr.opener_lt scope hscope)]
  inBreakable := by
    rw [h.stack]
    exact hr.inBreakable
  inLoop := by
    rw [h.stack]
    exact hr.inLoop

/-- What the skipped entries hold stays there during the rest of the list. -/
theorem Skips.keeps (h : Skips s s₁ i m) (hr : Ready program c s i defaults)
    (hm : Matched program s₁ rest m s') (hik : i ≤ k) (hkm : k < m) :
    s'.flow k = s₁.flow k := by
  rw [hm.frame k hkm, h.stack]
  cases hs : s.stack with
  | nil => rfl
  | cons scope outer =>
    have hscope : scope ∈ s.stack.head? := by rw [hs]; rfl
    have hopener := hr.opener_lt scope hscope
    apply relink_other
    · omega
    · intro hl
      have := hr.last_case_lt scope hscope k hl
      omega

/-- A list that begins with something that skips is matched when its rest is. -/
theorem Skips.matched (h : Skips s s₁ i m) (hm : Matched program s₁ rest m s')
    (hlabels : t.labels i = rest.labels m) (hdflts : t.defaults = rest.defaults)
    (hsize : i + t.size = m + rest.size)
    (hlaid : LaidOut s'.flow t i (jump_target program false s.stack)
      (jump_target program true s.stack)) :
    Matched program s t i s' where
  stack := by rw [hm.stack, h.stack, hlabels]
  unlinked := by
    rw [hsize]
    exact hm.unlinked
  frame := by
    intro k hk
    rw [hm.frame k (Nat.lt_of_lt_of_le hk h.le), h.stack, h.frame k hk, hlabels, hdflts]
  laid := hlaid
  chain := by
    rw [hlabels, ← h.stack]
    exact hm.chain

end Skips

/-! ## One iteration on each kind of instruction -/

variable {last_case : Option ℕ} {e : ℕ}

section Steps

variable {program : USILProgram} {s : FlowMatcher} {i : ℕ}

lemma match_flow_step_open
    (hop : program.opcode i = IF ∨ program.opcode i = LOOP ∨ program.opcode i = SWITCH)
    (hdepth : s.stack.length < MAX_FLOW_DEPTH) :
    match_flow_step program s i = some ⟨⟨i, none⟩ :: s.stack, (s.enter i).flow⟩ := by
  have hne : (s.enter i).stack.length ≠ MAX_FLOW_DEPTH := by
    rw [enter_stack]
    omega
  rw [match_flow_step, if_pos hop, match_open, if_neg hne]
  rfl

/-- An instruction that is neither a delimiter, a label nor a jump only gets its
parent. -/
theorem match_flow_step_plain (hd : isDelimiter (program.opcode i) = false)
    (hl : isLabel (program.opcode i) = false) (hb : isBreak (program.opcode i) = false)
    (hc : isContinue (program.opcode i) = false) :
    match_flow_step program s i = some (s.enter i) := by
  simp only [isDelimiter, isLabel, isBreak, isContinue, Bool.or_eq_false_iff,
    decide_eq_false_iff_not] at hd hl hb hc
  simp [match_flow_step, hd, hl, hb, hc]

lemma match_flow_step_jump {opener : ℕ} {loop_only : Bool}
    (hop : if loop_only then isContinue (program.opcode i) else isBreak (program.opcode i))
    (htgt : jump_target program loop_only s.stack = some opener) :
    match_flow_step program s i =
      some ((s.enter i).modify i fun e => { e with jump_scope := some opener }) := by
  -- The four jumps differ in the kind of scope they look for, which is `loop_only`.
  cases loop_only with
  | false =>
    have hop' : program.opcode i = BREAK ∨ program.opcode i = BREAKC := by
      simpa [isBreak] using hop
    rcases hop' with h | h <;> simp [match_flow_step, match_jump, h, htgt]
  | true =>
    have hop' : program.opcode i = CONTINUE ∨ program.opcode i = CONTINUEC := by
      simpa [isContinue] using hop
    rcases hop' with h | h <;> simp [match_flow_step, match_jump, h, htgt]

variable {outer : List OpenScope}

lemma match_flow_step_else (hop : program.opcode i = ELSE) (hstack : s.stack = scope :: outer)
    (hif : program.opcode scope.opener = IF) (hlt : scope.opener < i)
    (halt : (s.flow scope.opener).alternate = none) :
    ∃ s', match_flow_step program s i = some s' ∧ s'.stack = s.stack ∧
      s'.flow scope.opener = { s.flow scope.opener with alternate := some i } ∧
      ∀ k, k ≠ scope.opener → k ≠ i → s'.flow k = s.flow k := by
  have hne : scope.opener ≠ i := by omega
  have hguard : ¬ (program.opcode scope.opener ≠ IF ∨
      ((s.enter i).flow scope.opener).alternate.isSome) := by
    simp [hif, hne, halt]
  have hstep : match_flow_step program s i = match_else program (s.enter i) i := by
    simp [match_flow_step, hop]
  rw [hstep, match_else]
  simp only [enter_stack, hstack]
  rw [if_neg hguard]
  refine ⟨_, rfl, hstack, ?_, ?_⟩
  · simp [hne]
  · intro k hk hki
    simp [hk, hki]

/-- The closing instruction of the innermost construct: the opener and its alternate
learn their end, and the construct leaves the stack. -/
theorem match_flow_step_close {opener : ℕ}
    (hop : program.opcode e = ENDIF ∨ program.opcode e = ENDLOOP ∨ program.opcode e = ENDSWITCH)
    (hstack : s.stack = ⟨opener, last_case⟩ :: outer)
    (hreq : program.opcode opener = required_opener (program.opcode e)) (hlt : opener < e) :
    ∃ s', match_flow_step program s e = some s' ∧ s'.stack = outer ∧
      (s'.flow e).jump_scope = some opener ∧
      ∀ k, k ≠ e → s'.flow k =
        if k = opener ∨ (s.flow opener).alternate = some k then { s.flow k with end_ := some e }
        else s.flow k := by
  have hne : opener ≠ e := by omega
  have hstep : match_flow_step program s e = match_end program (s.enter e) e := by
    rcases hop with h | h | h <;> simp [match_flow_step, h]
  rw [hstep, match_end]
  simp only [enter_stack, hstack, hreq, not_true_eq_false, ne_eq, if_false,
    modify_flow, enter_flow, hne, if_true]
  refine ⟨_, rfl, rfl, ?_, ?_⟩
  · rw [modify_flow, if_pos rfl]
  · intro k hk
    cases halt : (s.flow opener).alternate with
    | none =>
      by_cases hko : k = opener
      · subst hko
        simp [hk]
      · simp [hk, hko]
    | some a =>
      by_cases hka : k = a
      · subst hka
        by_cases hko : k = opener
        · subst hko
          simp [hk]
        · simp [hk, hko]
      · by_cases hko : k = opener
        · subst hko
          simp [hk, hka]
        · simp [hk, hko, hka, Ne.symm hka]

lemma match_flow_step_label (hop : isLabel (program.opcode i)) (hstack : s.stack = scope :: outer)
    (hswitch : program.opcode scope.opener = SWITCH) (hlt : scope.opener < i)
    (hlast : ∀ label ∈ scope.last_case, label < i) (hnext : scope.nextLabel s.flow = none)
    (hdflt : program.opcode i = DEFAULT → (s.flow scope.opener).has_default = false) :
    ∃ s', match_flow_step program s i = some s' ∧ s'.stack = ⟨scope.opener, some i⟩ :: outer ∧
      (∀ k, k < i → s'.flow k =
        relink s.stack [i] (if program.opcode i = DEFAULT then 1 else 0) k (s.flow k)) ∧
      (s'.flow i).next_case = (s.flow i).next_case ∧
      ∀ k, i < k → s'.flow k = s.flow k := by
  have hne : scope.opener ≠ i := by omega
  have hstep : match_flow_step program s i = match_label program (s.enter i) i := by
    have hop' : program.opcode i = CASE ∨ program.opcode i = DEFAULT := by
      simpa [isLabel] using hop
    rcases hop' with h | h <;> simp [match_flow_step, h]
  have hguard : ¬ (program.opcode scope.opener ≠ SWITCH ∨
      (program.opcode i = DEFAULT ∧ ((s.enter i).flow scope.opener).has_default)) := by
    rw [enter_flow, if_neg hne]
    rintro (h | ⟨h, hd⟩)
    · exact h hswitch
    · rw [hdflt h] at hd
      exact absurd hd (by decide)
  rw [hstep, match_label]
  simp only [enter_stack, hstack]
  rw [if_neg hguard]
  refine ⟨_, rfl, rfl, ?_⟩
  cases hl : scope.last_case with
  | none =>
    have hfst : (s.flow scope.opener).first_case = none := by
      simpa [OpenScope.nextLabel, hl] using hnext
    refine ⟨?_, ?_, ?_⟩
    · intro k hk
      have hki : k ≠ i := by omega
      by_cases hd : program.opcode i = DEFAULT <;> by_cases hko : k = scope.opener
      · subst hko
        simp [relink, hd, hl, hki, hfst]
      · simp [relink, hd, hl, hki, hko]
      · subst hko
        simp [relink, hd, hl, hki, hfst]
      · simp [relink, hd, hl, hki, hko]
    · by_cases hd : program.opcode i = DEFAULT <;> simp [hd, Ne.symm hne]
    · intro k hk
      have hki : k ≠ i := by omega
      have hko : k ≠ scope.opener := by omega
      by_cases hd : program.opcode i = DEFAULT <;> simp [hd, hki, hko]
  | some label =>
    have hlabel : label < i := hlast label hl
    have hnc : (s.flow label).next_case = none := by
      simpa [OpenScope.nextLabel, hl] using hnext
    refine ⟨?_, ?_, ?_⟩
    · intro k hk
      have hki : k ≠ i := by omega
      by_cases hkl : label = k
      · subst hkl
        by_cases hko : label = scope.opener
        · rw [hko] at hnc
          by_cases hd : program.opcode i = DEFAULT <;> simp [relink, hd, hl, hne, hko, hnc]
        · by_cases hd : program.opcode i = DEFAULT <;> simp [relink, hd, hl, hki, hko, hnc]
      · by_cases hko : k = scope.opener
        · rw [hko] at hkl
          by_cases hd : program.opcode i = DEFAULT <;>
            simp [relink, hd, hl, hne, hko, hkl, Ne.symm hkl]
        · by_cases hd : program.opcode i = DEFAULT <;>
            simp [relink, hd, hl, hki, hko, hkl, Ne.symm hkl]
    · have hil : i ≠ label := by omega
      by_cases hd : program.opcode i = DEFAULT <;> simp [hd, Ne.symm hne, hil]
    · intro k hk
      have hki : k ≠ i := by omega
      have hko : k ≠ scope.opener := by omega
      have hkl : k ≠ label := by omega
      by_cases hd : program.opcode i = DEFAULT <;> simp [hd, hki, hko, hkl]

end Steps

/-! ## The run over a tree -/

section Runs

variable {program : USILProgram} {c : Enclosing} {s s₁ s₂ s₃ s' : FlowMatcher} {i m n : ℕ}

lemma match_flow_loop_step (h : match_flow_step program s i = some s₁) :
    match_flow_loop program s i (n + 1) = match_flow_loop program s₁ (i + 1) n := by
  rw [match_flow_loop_succ, h, bind_some]

lemma match_flow_loop_run (h : match_flow_loop program s i m = some s₁) :
    match_flow_loop program s i (m + n) = match_flow_loop program s₁ (i + m) n := by
  rw [match_flow_loop_add, h, bind_some]

/-- The state inside a construct that was just opened. -/
def opened (s : FlowMatcher) (i : ℕ) : FlowMatcher := ⟨⟨i, none⟩ :: s.stack, (s.enter i).flow⟩

lemma opened_flow_of_ne (hk : k ≠ i) : (opened s i).flow k = s.flow k := by
  rw [opened, enter_flow, if_neg hk]

lemma Ready.opened_flow (hr : Ready program c s i defaults) :
    (opened s i).flow i = { HLSLInstructionFlow.unlinked with parent := s.parent } := by
  rw [opened, enter_flow, if_pos rfl, hr.unlinked i (Nat.le_refl i)]

lemma jump_target_opened (loop_only : Bool) : jump_target program loop_only (opened s i).stack =
      if is_jump_scope loop_only (program.opcode i) then some i
      else jump_target program loop_only s.stack := by
  simp only [jump_target, opened, map_cons, find?_cons]
  split <;> simp_all

lemma Ready.opened {bodyDefaults : ℕ} {body : Enclosing} (hr : Ready program c s i defaults)
    (hswitch : body.inSwitch → program.opcode i = SWITCH ∧ bodyDefaults ≤ 1)
    (hbreak : body.inBreakable → (jump_target program false (opened s i).stack).isSome)
    (hloop : body.inLoop → (jump_target program true (opened s i).stack).isSome) :
    Ready program body (opened s i) (i + 1) bodyDefaults where
  unlinked := by
    intro k hk
    rw [opened_flow_of_ne (by omega), hr.unlinked k (by omega)]
  opener_lt := by
    intro scope hscope
    simp only [DXBCSandbox.opened, head?_cons, mem_some_iff] at hscope
    rw [← hscope]
    exact Nat.lt_succ_self i
  last_case_lt := by
    intro scope hscope label hl
    simp only [DXBCSandbox.opened, head?_cons, mem_some_iff] at hscope
    rw [← hscope] at hl
    simp at hl
  nextLabel := by
    intro scope hscope
    simp only [DXBCSandbox.opened, head?_cons, mem_some_iff] at hscope
    rw [← hscope, OpenScope.nextLabel, hr.opened_flow]
    rfl
  inSwitch := by
    intro hb
    refine ⟨⟨i, none⟩, rfl, (hswitch hb).1, ?_⟩
    rw [hr.opened_flow]
    exact (hswitch hb).2
  inBreakable := hbreak
  inLoop := hloop

/-- An `IF` is not a jump scope, so jumps of an arm leave what surrounds it. -/
theorem jump_target_opened_if {loop_only : Bool} (hif : program.opcode i = IF) :
    jump_target program loop_only (opened s i).stack = jump_target program loop_only s.stack := by
  rw [jump_target_opened, hif]
  cases loop_only <;> rfl

lemma Ready.opened_arm {bodyDefaults : ℕ} (hr : Ready program c s i defaults)
    (hif : program.opcode i = IF) :
    Ready program c.arm (DXBCSandbox.opened s i) (i + 1) bodyDefaults := by
  refine hr.opened (fun h => ?_) ?_ ?_
  · cases h
  · rw [jump_target_opened_if hif]
    exact hr.inBreakable
  · rw [jump_target_opened_if hif]
    exact hr.inLoop

lemma Matched.of_no_labels (h : Matched program s t i s')
    (hl : t.labels i = [] ∧ t.defaults = 0) :
    s'.stack = s.stack ∧ ∀ k, k < i → s'.flow k = s.flow k := by
  refine ⟨?_, ?_⟩
  · rw [h.stack, hl.1, advance_nil]
  · intro k hk
    rw [h.frame k hk, hl.1, hl.2, relink_nil]

/-- Closing a construct. Outside its own entries nothing has changed since before its
opener. -/
theorem match_flow_step_close_skips
    (hop : program.opcode e = ENDIF ∨ program.opcode e = ENDLOOP ∨ program.opcode e = ENDSWITCH)
    (hreq : program.opcode i = required_opener (program.opcode e)) (hlt : i < e)
    (hstack : s₂.stack = ⟨i, last_case⟩ :: s.stack) (hframe : ∀ k, k < i → s₂.flow k = s.flow k)
    (hunlinked : ∀ k, e ≤ k → s₂.flow k = .unlinked)
    (halt : ∀ a, (s₂.flow i).alternate = some a → i < a ∧ a < e) :
    ∃ s₃, match_flow_step program s₂ e = some s₃ ∧ Skips s s₃ i (e + 1) ∧
      (s₃.flow e).jump_scope = some i ∧
      ∀ k, k ≠ e → s₃.flow k =
        if k = i ∨ (s₂.flow i).alternate = some k then { s₂.flow k with end_ := some e }
        else s₂.flow k := by
  obtain ⟨s₃, hstep, hstack₃, hjump, hflow⟩ := match_flow_step_close hop hstack hreq hlt
  -- Entries outside the construct are neither its opener nor its alternate.
  have hout : ∀ k, k < i ∨ e < k → s₃.flow k = s₂.flow k := by
    intro k hk
    rw [hflow k (by omega), if_neg]
    rintro (h | h)
    · omega
    · have := halt k h
      omega
  refine ⟨s₃, hstep, ?_, hjump, hflow⟩
  exact {
    le := by omega
    stack := hstack₃
    unlinked := fun k hk => by rw [hout k (by omega), hunlinked k (by omega)]
    frame := fun k hk => by rw [hout k (by omega), hframe k hk] }

/-- What is proved of every tree: the run over its instructions succeeds and links
them. -/
def Runs (program : USILProgram) (t : FlowTree) : Prop :=
  ∀ (c : Enclosing) (s : FlowMatcher) (i : ℕ), Spells program i t.tokens →
    t.wellNested c → s.stack.length + t.depth ≤ MAX_FLOW_DEPTH →
    Ready program c s i t.defaults →
    ∃ s', match_flow_loop program s i t.size = some s' ∧ Matched program s t i s'

lemma skips_one (hr : Ready program c s i defaults) (hstack : s₁.stack = s.stack)
    (hflow : ∀ k, k ≠ i → s₁.flow k = s.flow k) : Skips s s₁ i (i + 1) where
  le := Nat.le_succ i
  stack := hstack
  unlinked := fun k hk => by rw [hflow k (by omega), hr.unlinked k (by omega)]
  frame := fun k hk => hflow k (by omega)

variable {opcode : USILOpcode} {rest : FlowTree}

lemma runs_op_of_step (ih : Runs program rest) (hop : program.opcode i = opcode)
    (hspell : Spells program (i + 1) rest.tokens) (hwf : rest.wellNested c)
    (hdepth : s.stack.length + rest.depth ≤ MAX_FLOW_DEPTH) (hl : isLabel opcode = false)
    (hr : Ready program c s i rest.defaults) (hstep : match_flow_step program s i = some s₁)
    (hskip : Skips s s₁ i (i + 1))
    (hbreak : isBreak opcode → (s₁.flow i).jump_scope = jump_target program false s.stack)
    (hcontd : isContinue opcode → (s₁.flow i).jump_scope = jump_target program true s.stack) :
    ∃ s', match_flow_loop program s i (op opcode rest).size = some s' ∧
      Matched program s (.op opcode rest) i s' := by
  obtain ⟨s', hrun, hm⟩ := ih c s₁ (i + 1) hspell hwf (by rw [hskip.stack]; exact hdepth)
    (hskip.ready hr)
  have hkeep : s'.flow i = s₁.flow i := hskip.keeps hr hm (Nat.le_refl i) (Nat.lt_succ_self i)
  have hd : opcode ≠ DEFAULT := by
    rintro rfl
    exact absurd hl (by decide)
  refine ⟨s', ?_, hskip.matched hm ?_ ?_ ?_ ⟨?_, ?_, ?_⟩⟩
  · rw [size, match_flow_loop_step hstep, hrun]
  · simp [labels, hl]
  · simp [defaults, hd]
  · rw [size]
    omega
  · rw [hkeep]
    exact hbreak
  · rw [hkeep]
    exact hcontd
  · rw [← hskip.stack]
    exact hm.laid

lemma runs_label (ih : Runs program rest) (hop : program.opcode i = opcode)
    (hspell : Spells program (i + 1) rest.tokens) (hwf : rest.wellNested c)
    (hdepth : s.stack.length + rest.depth ≤ MAX_FLOW_DEPTH) (hl : isLabel opcode) (hin : c.inSwitch)
    (hr : Ready program c s i (op opcode rest).defaults) :
    ∃ s', match_flow_loop program s i (op opcode rest).size = some s' ∧
      Matched program s (.op opcode rest) i s' := by
  obtain ⟨scope, hscope, hswitch, hdef⟩ := hr.inSwitch hin
  obtain ⟨outer, hstack⟩ : ∃ outer, s.stack = scope :: outer := by
    cases hs : s.stack with
    | nil => simp [hs] at hscope
    | cons top outer =>
      rw [hs, head?_cons, mem_some_iff] at hscope
      exact ⟨outer, by rw [hscope]⟩
  have hlt := hr.opener_lt scope hscope
  obtain ⟨s₁, hstep, hstack₁, hframe, hnext, habove⟩ :=
    match_flow_step_label (by rw [hop]; exact hl) hstack hswitch hlt
      (hr.last_case_lt scope hscope) (hr.nextLabel scope hscope) (by
        intro hd
        rw [hop] at hd
        simp only [defaults, hd, if_true] at hdef
        cases hdf : (s.flow scope.opener).has_default with
        | false => rfl
        | true =>
          rw [hdf] at hdef
          simp at hdef)
  rw [hstack] at hframe
  -- The new link to the next label is empty, and `DEFAULT` is now counted in the table.
  have hready : Ready program c s₁ (i + 1) rest.defaults := {
    unlinked := fun k hk => by rw [habove k hk, hr.unlinked k (by omega)]
    opener_lt := by
      rw [hstack₁]
      intro sc hsc
      rw [head?_cons, mem_some_iff] at hsc
      rw [← hsc]
      exact Nat.lt_succ_of_lt hlt
    last_case_lt := by
      rw [hstack₁]
      intro sc hsc label hlabel
      rw [head?_cons, mem_some_iff] at hsc
      rw [← hsc, mem_some_iff] at hlabel
      omega
    nextLabel := by
      rw [hstack₁]
      intro sc hsc
      rw [head?_cons, mem_some_iff] at hsc
      have hempty : (s₁.flow i).next_case = none := by
        rw [hnext, hr.unlinked i (Nat.le_refl i)]
        rfl
      rw [← hsc]
      exact hempty
    inSwitch := by
      intro _
      refine ⟨⟨scope.opener, some i⟩, by rw [hstack₁]; rfl, hswitch, ?_⟩
      rw [hframe _ hlt]
      simp only [defaults] at hdef
      by_cases hd : opcode = DEFAULT
      · rw [if_pos hd] at hdef
        simp only [relink, hop, hd, if_true, decide_true, Bool.and_self, Nat.zero_lt_one,
          Bool.or_true, Bool.toNat_true]
        omega
      · rw [if_neg hd] at hdef
        simpa [relink, hop, hd] using hdef
    inBreakable := by
      intro hb
      have := hr.inBreakable hb
      rw [hstack] at this
      rw [hstack₁]
      exact this
    inLoop := by
      intro hb
      have := hr.inLoop hb
      rw [hstack] at this
      rw [hstack₁]
      exact this }
  obtain ⟨s', hrun, hm⟩ := ih c s₁ (i + 1) hspell hwf (by
    rw [hstack₁]
    rw [hstack] at hdepth
    exact hdepth) hready
  have hlabels : (op opcode rest).labels i = i :: rest.labels (i + 1) := by
    simp [labels, hl]
  have hd : (op opcode rest).defaults =
      rest.defaults + if program.opcode i = DEFAULT then 1 else 0 := by
    rw [defaults, hop]
  have hframe' : ∀ k, k < i → s'.flow k = relink (scope :: outer) (i :: rest.labels (i + 1))
      (op opcode rest).defaults k (s.flow k) := by
    intro k hk
    rw [hm.frame k (by omega), hstack₁, hframe k hk, relink_label _ _ (by omega), hd]
  refine ⟨s', ?_, ?_, ?_, ?_, ⟨?_, ?_, ?_⟩, ?_⟩
  · rw [size, match_flow_loop_step hstep, hrun]
  · rw [hm.stack, hstack₁, hlabels, hstack, advance, advance]
    cases hrl : (rest.labels (i + 1)).getLast? with
    | none => simp [getLast?_cons, hrl]
    | some l => simp [getLast?_cons, hrl]
  · intro k hk
    rw [size] at hk
    exact hm.unlinked k (by omega)
  · rw [hlabels, hstack]
    exact hframe'
  · intro hb
    cases opcode <;> simp [isLabel, isBreak] at hl hb
  · intro hb
    cases opcode <;> simp [isLabel, isContinue] at hl hb
  · have hlaid := hm.laid
    rw [hstack₁] at hlaid
    rw [hstack]
    exact hlaid
  · rw [hlabels, hstack]
    intro sc hsc
    rw [head?_cons, mem_some_iff] at hsc
    subst hsc
    refine ⟨?_, ?_⟩
    · have hnone := hr.nextLabel scope hscope
      cases hlc : scope.last_case with
      | none =>
        simp only [OpenScope.nextLabel, hlc] at hnone ⊢
        rw [hframe' _ hlt]
        simp [relink, hlc, hnone]
      | some label =>
        simp only [OpenScope.nextLabel, hlc] at hnone ⊢
        rw [hframe' _ (hr.last_case_lt scope hscope label hlc)]
        simp [relink, hlc, hnone]
    · exact hm.chain ⟨scope.opener, some i⟩ (by rw [hstack₁]; rfl)

lemma runs_op (ih : Runs program rest) : Runs program (.op opcode rest) := by
  intro c s i hspell hwf hdepth hr
  obtain ⟨hop, hspell⟩ := hspell
  simp only [wellNested, Bool.and_eq_true] at hwf
  obtain ⟨hall, hwf⟩ := hwf
  by_cases hl : isLabel opcode
  · rw [Enclosing.allows, if_pos hl] at hall
    exact runs_label ih hop hspell hwf hdepth hl hall hr
  rw [Enclosing.allows, if_neg hl] at hall
  rw [Bool.not_eq_true] at hl
  have hd : (op opcode rest).defaults = rest.defaults := by
    have hne : opcode ≠ DEFAULT := by
      rintro rfl
      exact absurd hl (by decide)
    simp [defaults, hne]
  rw [hd] at hr
  -- What is left are the statements that touch their own entry only.
  by_cases hb : isBreak opcode
  · rw [if_pos hb] at hall
    obtain ⟨opener, htgt⟩ := isSome_iff_exists.mp (hr.inBreakable hall)
    have hstep := match_flow_step_jump (by rw [hop]; exact hb) htgt
    refine runs_op_of_step ih hop hspell hwf hdepth hl hr hstep
      (skips_one hr rfl fun k hk => ?_) (fun _ => ?_) (fun hc => ?_)
    · simp [hk]
    · simp [htgt]
    · cases opcode <;> simp [isBreak, isContinue] at hb hc
  rw [if_neg hb] at hall
  by_cases hc : isContinue opcode
  · rw [if_pos hc] at hall
    obtain ⟨opener, htgt⟩ := isSome_iff_exists.mp (hr.inLoop hall)
    have hstep := match_flow_step_jump (by rw [hop]; exact hc) htgt
    refine runs_op_of_step ih hop hspell hwf hdepth hl hr hstep
      (skips_one hr rfl fun k hk => ?_) (fun hb' => absurd hb' hb) (fun _ => ?_)
    · simp [hk]
    · simp [htgt]
  rw [if_neg hc, Bool.not_eq_true'] at hall
  rw [Bool.not_eq_true] at hb hc
  have hstep : match_flow_step program s i = some (s.enter i) := by
    rw [← hop] at hall hl hb hc
    exact match_flow_step_plain hall hl hb hc
  refine runs_op_of_step ih hop hspell hwf hdepth hl hr hstep
    (skips_one hr rfl fun k hk => ?_) (fun hb' => ?_) (fun hc' => ?_)
  · simp [hk]
  · simp [hb] at hb'
  · simp [hc] at hc'

variable {body : FlowTree}

/-- The state after the body of a construct that was just opened: only the labels of a
switch are recorded in the opener, and nothing before it has changed. -/
theorem Matched.of_opened (h : Matched program (opened s i) body (i + 1) s₂) :
    (∃ last_case, s₂.stack = ⟨i, last_case⟩ :: s.stack) ∧ (∀ k, k < i → s₂.flow k = s.flow k) ∧
      s₂.flow i = relink (opened s i).stack (body.labels (i + 1)) body.defaults i
        ((opened s i).flow i) := by
  refine ⟨⟨_, h.stack⟩, ?_, h.frame i (Nat.lt_succ_self i)⟩
  intro k hk
  rw [h.frame k (by omega), opened_flow_of_ne (by omega)]
  exact relink_other _ (by simp; omega) (by simp)

lemma match_flow_loop_construct {cb : Enclosing} (he : e = i + body.size + 1)
    (ihb : Runs program body)
    (hopen : program.opcode i = IF ∨ program.opcode i = LOOP ∨ program.opcode i = SWITCH)
    (hclose : program.opcode e = ENDIF ∨ program.opcode e = ENDLOOP ∨ program.opcode e =
      ENDSWITCH) (hreq : program.opcode i = required_opener (program.opcode e))
    (hspell : Spells program (i + 1) body.tokens) (hwf : body.wellNested cb)
    (hdepth : s.stack.length + (body.depth + 1) ≤ MAX_FLOW_DEPTH)
    (hr : Ready program c s i defaults)
    (hrb : Ready program cb (opened s i) (i + 1) body.defaults) :
    ∃ s₃, match_flow_loop program s i (body.size + 2) = some s₃ ∧ Skips s s₃ i (e + 1) ∧
      (s₃.flow i).end_ = some e ∧ (s₃.flow i).alternate = none ∧
      (s₃.flow i).has_default = decide (0 < body.defaults) ∧ (s₃.flow e).jump_scope = some i ∧
      CaseChain s₃.flow (s₃.flow i).first_case (body.labels (i + 1)) ∧
      LaidOut s₃.flow body (i + 1) (jump_target program false (opened s i).stack)
        (jump_target program true (opened s i).stack) := by
  obtain ⟨s₂, hbody, hm⟩ := ihb cb (opened s i) (i + 1) hspell hwf
    (by simp only [opened, length_cons]; omega) hrb
  obtain ⟨⟨last_case, hstack⟩, hframe, hent⟩ := hm.of_opened
  rw [hr.opened_flow] at hent
  have halt : (s₂.flow i).alternate = none := by
    rw [hent]
    rfl
  obtain ⟨s₃, hstep, hskip, hjump, hflow⟩ := match_flow_step_close_skips (s := s) hclose hreq
    (by omega) hstack hframe (fun k hk => hm.unlinked k (by omega))
    (fun a ha => by rw [halt] at ha; exact absurd ha (by simp))
  have hi : s₃.flow i = { s₂.flow i with end_ := some e } := by
    rw [hflow i (by omega), if_pos (.inl rfl)]
  -- The close touches the opener and the end only, so the body stays laid out.
  have hin : ∀ k, i < k → k < e → s₃.flow k = s₂.flow k := by
    intro k h1 h2
    rw [hflow k (by omega), if_neg]
    rintro (h | h)
    · omega
    · rw [halt] at h
      simp at h
  refine ⟨s₃, ?_, hskip, ?_, ?_, ?_, hjump, ?_, ?_⟩
  · have hopened : match_flow_step program s i = some (opened s i) :=
      match_flow_step_open hopen (by omega)
    rw [show body.size + 2 = body.size + 1 + 1 by omega, match_flow_loop_step hopened,
      match_flow_loop_run hbody, show i + 1 + body.size = e by omega, match_flow_loop_step hstep,
      match_flow_loop]
  · rw [hi]
  · rw [hi]
    exact halt
  · rw [hi, hent]
    simp [relink, opened, HLSLInstructionFlow.unlinked]
  · have hchain := hm.chain ⟨i, none⟩ rfl
    rw [hi]
    refine CaseChain.congr hchain fun label hlabel => ?_
    have := labels_bounds hlabel
    exact hin label (by omega) (by omega)
  · exact hm.laid.congr fun k h1 h2 => hin k (by omega) (by omega)

lemma Skips.runs {size : ℕ} (hskip : Skips s s₁ i m) (ihr : Runs program rest)
    (hrun : match_flow_loop program s i size = some s₁) (hm : m = i + size)
    (hspell : Spells program m rest.tokens) (hwf : rest.wellNested c)
    (hdepth : s.stack.length + rest.depth ≤ MAX_FLOW_DEPTH) (hr : Ready program c s i rest.defaults)
    (hlabels : t.labels i = rest.labels m) (hdflts : t.defaults = rest.defaults)
    (hsize : t.size = size + rest.size)
    (hlaid : ∀ s' : FlowMatcher, (∀ k, i ≤ k → k < m → s'.flow k = s₁.flow k) → LaidOut s'.flow
    rest m (jump_target program false s.stack) (jump_target program true s.stack) → LaidOut
      s'.flow t i (jump_target program false s.stack) (jump_target program true s.stack)) :
    ∃ s', match_flow_loop program s i t.size = some s' ∧ Matched program s t i s' := by
  obtain ⟨s', hrest, hm'⟩ := ihr c s₁ m hspell hwf (by rw [hskip.stack]; exact hdepth)
    (hskip.ready hr)
  refine ⟨s', ?_, hskip.matched hm' hlabels hdflts (by omega) ?_⟩
  · rw [hsize, match_flow_loop_run hrun, ← hm, hrest]
  · refine hlaid s' (fun k h1 h2 => hskip.keeps hr hm' h1 h2) ?_
    have hlaid' := hm'.laid
    rwa [hskip.stack] at hlaid'

lemma runs_ifThen (ihb : Runs program body) (ihr : Runs program rest) :
    Runs program (.ifThen body rest) := by
  intro c s i hspell hwf hdepth hr
  obtain ⟨hif, hsb, hend, hsr⟩ := spells_block.mp hspell
  simp only [wellNested, Bool.and_eq_true] at hwf
  have hdb : body.depth + 1 ≤ (FlowTree.ifThen body rest).depth := Nat.le_max_left _ _
  have hdr : rest.depth ≤ (FlowTree.ifThen body rest).depth := Nat.le_max_right _ _
  have hrb : Ready program c.arm (opened s i) (i + 1) body.defaults := hr.opened_arm hif
  obtain ⟨s₃, hrun, hskip, he, ha, -, -, -, hb⟩ :=
    match_flow_loop_construct rfl ihb (.inl hif) (.inl hend) (by rw [hif, hend]; rfl) hsb hwf.1
      (by omega) hr hrb
  refine hskip.runs ihr hrun (by omega) hsr hwf.2 (by omega) hr rfl rfl ?_ ?_
  · rw [size]
    omega
  · intro s' hkeep hlaid
    refine ⟨?_, ?_, ?_, hlaid⟩
    · rw [hkeep i (by omega) (by omega), he]
    · rw [hkeep i (by omega) (by omega), ha]
    · simp only [jump_target_opened_if hif] at hb
      exact hb.congr fun k h1 h2 => hkeep k (by omega) (by omega)

lemma runs_loop (ihb : Runs program body) (ihr : Runs program rest) :
    Runs program (.loop body rest) := by
  intro c s i hspell hwf hdepth hr
  obtain ⟨hop, hsb, hend, hsr⟩ := spells_block.mp hspell
  simp only [wellNested, Bool.and_eq_true] at hwf
  have hdb : body.depth + 1 ≤ (FlowTree.loop body rest).depth := Nat.le_max_left _ _
  have hdr : rest.depth ≤ (FlowTree.loop body rest).depth := Nat.le_max_right _ _
  -- Both kinds of jump of the body leave this loop.
  have hjump : ∀ loop_only, jump_target program loop_only (opened s i).stack = some i := by
    intro loop_only
    rw [jump_target_opened, hop]
    cases loop_only <;> rfl
  have hrb : Ready program .loopBody (opened s i) (i + 1) body.defaults := by
    refine hr.opened (fun h => ?_) ?_ ?_
    · cases h
    · rw [hjump]
      exact fun _ => rfl
    · rw [hjump]
      exact fun _ => rfl
  obtain ⟨s₃, hrun, hskip, he, -, -, hj, -, hb⟩ :=
    match_flow_loop_construct rfl ihb (.inr (.inl hop)) (.inr (.inl hend))
      (by rw [hop, hend]; rfl) hsb hwf.1 (by omega) hr hrb
  refine hskip.runs ihr hrun (by omega) hsr hwf.2 (by omega) hr rfl rfl ?_ ?_
  · rw [size]
    omega
  · intro s' hkeep hlaid
    refine ⟨?_, ?_, ?_, hlaid⟩
    · rw [hkeep i (by omega) (by omega), he]
    · rw [hkeep (i + body.size + 1) (by omega) (by omega), hj]
    · rw [hjump, hjump] at hb
      exact hb.congr fun k h1 h2 => hkeep k (by omega) (by omega)

lemma runs_switch (ihb : Runs program body) (ihr : Runs program rest) :
    Runs program (.switch body rest) := by
  intro c s i hspell hwf hdepth hr
  obtain ⟨hop, hsb, hend, hsr⟩ := spells_block.mp hspell
  simp only [wellNested, Bool.and_eq_true, decide_eq_true_eq] at hwf
  have hdb : body.depth + 1 ≤ (FlowTree.switch body rest).depth := Nat.le_max_left _ _
  have hdr : rest.depth ≤ (FlowTree.switch body rest).depth := Nat.le_max_right _ _
  -- `BREAK` leaves this switch, `CONTINUE` looks further out.
  have hbreak : jump_target program false (opened s i).stack = some i := by
    rw [jump_target_opened, hop]
    rfl
  have hcontd : jump_target program true (opened s i).stack = jump_target program true s.stack := by
    rw [jump_target_opened, hop]
    rfl
  have hrb : Ready program c.switchBody (opened s i) (i + 1) body.defaults := by
    refine hr.opened (fun _ => ⟨hop, hwf.1.2⟩) ?_ ?_
    · rw [hbreak]
      exact fun _ => rfl
    · rw [hcontd]
      exact hr.inLoop
  obtain ⟨s₃, hrun, hskip, he, -, hd, -, hchain, hb⟩ :=
    match_flow_loop_construct rfl ihb (.inr (.inr hop)) (.inr (.inr hend))
      (by rw [hop, hend]; rfl) hsb hwf.1.1 (by omega) hr hrb
  refine hskip.runs ihr hrun (by omega) hsr hwf.2 (by omega) hr rfl rfl ?_ ?_
  · rw [size]
    omega
  · intro s' hkeep hlaid
    refine ⟨?_, ?_, ?_, ?_, hlaid⟩
    · rw [hkeep i (by omega) (by omega), he]
    · rw [hkeep i (by omega) (by omega), hd]
    · rw [hkeep i (by omega) (by omega)]
      refine hchain.congr fun label hlabel => ?_
      have := labels_bounds hlabel
      exact hkeep label (by omega) (by omega)
    · rw [hbreak, hcontd] at hb
      exact hb.congr fun k h1 h2 => hkeep k (by omega) (by omega)

lemma runs_ifElse {alternate : FlowTree} (ihb : Runs program body) (iha : Runs program alternate)
    (ihr : Runs program rest) :
    Runs program (.ifElse body alternate rest) := by
  intro c s i hspell hwf hdepth hr
  obtain ⟨a, ha⟩ : ∃ a, a = i + body.size + 1 := ⟨_, rfl⟩
  obtain ⟨e, he⟩ : ∃ e, e = a + alternate.size + 1 := ⟨_, rfl⟩
  obtain ⟨hif, hsb, helse, hrest⟩ := spells_block.mp hspell
  obtain ⟨-, hsa, hend, hsr⟩ := spells_block.mp ⟨helse, hrest⟩
  rw [← ha] at helse hsa hend hsr
  rw [← he] at hend hsr
  simp only [wellNested, Bool.and_eq_true] at hwf
  obtain ⟨⟨hwb, hwa⟩, hwr⟩ := hwf
  have hdb : body.depth + 1 ≤ (FlowTree.ifElse body alternate rest).depth := by
    rw [depth]
    omega
  have hda : alternate.depth + 1 ≤ (FlowTree.ifElse body alternate rest).depth := by
    rw [depth]
    omega
  have hdr : rest.depth ≤ (FlowTree.ifElse body alternate rest).depth := Nat.le_max_right _ _
  -- The first arm.
  have hrb : Ready program c.arm (opened s i) (i + 1) body.defaults := hr.opened_arm hif
  have hopen : match_flow_step program s i = some (opened s i) :=
    match_flow_step_open (.inl hif) (by omega)
  obtain ⟨s₁, hbody, hmb⟩ := ihb c.arm (opened s i) (i + 1) hsb hwb
    (by simp only [opened, length_cons]; omega) hrb
  obtain ⟨hstack₁, hframe₁⟩ := hmb.of_no_labels (labels_eq_nil hwb rfl (i + 1))
  have hi₁ : s₁.flow i = { HLSLInstructionFlow.unlinked with parent := s.parent } := by
    rw [hframe₁ i (by omega), hr.opened_flow]
  -- `ELSE` and the second arm, over the same open `IF`.
  obtain ⟨s₂, hstep₂, hstack₂, hi₂, hflow₂⟩ := match_flow_step_else helse hstack₁ hif
    (show i < a by omega) (by rw [hi₁]; rfl)
  rw [hstack₁] at hstack₂
  have hra : Ready program c.arm s₂ (a + 1) alternate.defaults := {
    unlinked := fun k hk => by
      rw [hflow₂ k (by simp; omega) (by omega), hmb.unlinked k (by omega)]
    opener_lt := by
      rw [hstack₂]
      intro scope hscope
      have := hrb.opener_lt scope hscope
      omega
    last_case_lt := by
      rw [hstack₂]
      intro scope hscope label hl
      have := hrb.last_case_lt scope hscope label hl
      omega
    nextLabel := by
      rw [hstack₂]
      intro scope hscope
      simp only [opened, head?_cons, mem_some_iff] at hscope
      rw [← hscope, OpenScope.nextLabel, hi₂, hi₁]
      rfl
    inSwitch := fun h => absurd h Bool.false_ne_true
    inBreakable := by
      rw [hstack₂]
      exact hrb.inBreakable
    inLoop := by
      rw [hstack₂]
      exact hrb.inLoop }
  obtain ⟨s₃, halternate, hma⟩ := iha c.arm s₂ (a + 1) hsa hwa
    (by rw [hstack₂]; simp only [opened, length_cons]; omega) hra
  obtain ⟨hstack₃, hframe₃⟩ := hma.of_no_labels (labels_eq_nil hwa rfl (a + 1))
  have hi₃ : s₃.flow i = { s₁.flow i with alternate := some a } := by
    rw [hframe₃ i (by omega), hi₂]
  have halt : (s₃.flow i).alternate = some a := by rw [hi₃]
  -- The end of both arms.
  obtain ⟨s₄, hclose, hskip, -, hflow₄⟩ := match_flow_step_close_skips (s := s) (i := i)
    (.inl hend) (by rw [hif, hend]; rfl) (by omega) (hstack₃.trans hstack₂)
    (fun k hk => by
      rw [hframe₃ k (by omega), hflow₂ k (by simp; omega) (by omega), hframe₁ k (by omega),
        opened_flow_of_ne (by omega)])
    (fun k hk => hma.unlinked k (by omega))
    (fun b hb => by rw [halt, some.injEq] at hb; omega)
  have hin : ∀ k, i < k → k ≠ a → k < e → s₄.flow k = s₃.flow k := by
    intro k h1 h2 h3
    rw [hflow₄ k (by omega), if_neg]
    rintro (h | h)
    · omega
    · rw [halt, some.injEq] at h
      omega
  have hrun : match_flow_loop program s i (body.size + alternate.size + 3) = some s₄ := by
    rw [show body.size + alternate.size + 3 = body.size + (alternate.size + 1 + 1) + 1 by omega,
      match_flow_loop_step hopen, match_flow_loop_run hbody,
      show i + 1 + body.size = a by omega, match_flow_loop_step hstep₂,
      match_flow_loop_run halternate, show a + 1 + alternate.size = e by omega,
      match_flow_loop_step hclose, match_flow_loop]
  refine hskip.runs ihr hrun (by omega) hsr hwr (by omega) hr ?_ rfl ?_ ?_
  · rw [labels, he, ha]
  · rw [size]
    omega
  · intro s' hkeep hlaid
    have hlb := hmb.laid
    have hla := hma.laid
    simp only [jump_target_opened_if hif] at hlb
    simp only [hstack₂, jump_target_opened_if hif] at hla
    simp only [LaidOut, ← ha, ← he]
    refine ⟨?_, ?_, ?_, ?_, hlaid⟩
    · rw [hkeep i (by omega) (by omega), hflow₄ i (by omega), if_pos (.inl rfl)]
      exact halt
    · rw [hkeep a (by omega) (by omega), hflow₄ a (by omega), if_pos (.inr halt)]
    · refine hlb.congr fun k h1 h2 => ?_
      rw [hkeep k (by omega) (by omega), hin k (by omega) (by omega) (by omega),
        hframe₃ k (by omega), hflow₂ k (by simp; omega) (by omega)]
    · exact hla.congr fun k h1 h2 => by
        rw [hkeep k (by omega) (by omega), hin k (by omega) (by omega) (by omega)]

/-- **Every tree runs.** The pass over a well-nested token stream succeeds and links the
constructs the way the tree does. -/
theorem runs_tree (program : USILProgram) (t : FlowTree) : Runs program t := by
  induction t with
  | nil =>
    intro c s i _ _ _ hr
    refine ⟨s, rfl, ⟨(advance_nil s.stack).symm, hr.unlinked, ?_, trivial, hr.nextLabel⟩⟩
    intro k _
    exact (relink_nil s.stack k (s.flow k)).symm
  | op opcode rest ih => exact runs_op ih
  | ifThen body rest ihb ihr => exact runs_ifThen ihb ihr
  | ifElse body alternate rest ihb iha ihr => exact runs_ifElse ihb iha ihr
  | loop body rest ihb ihr => exact runs_loop ihb ihr
  | switch body rest ihb ihr => exact runs_switch ihb ihr

end Runs

end DXBCSandbox
