/-
The control-flow graph is exact.

The table of the matcher gives every instruction the targets that the structured
meaning of the program gives it. All targets start a block, so the edge loop accepts
them, and the graph steps exactly like the program.
-/
import DXBCSandbox.Cfg.FlowAccept
import DXBCSandbox.Cfg.Blocks
import DXBCSandbox.Cfg.Edges

namespace DXBCSandbox

open List Option Prod USILOpcode FlowTree
open Bool (or_eq_true false_ne_true and_eq_true)

/-! ## The targets of a table are the steps of the tree -/

def stepTargets (program : USILProgram) (flow : ℕ → HLSLInstructionFlow) (k : ℕ) :
    List (Option ℕ) :=
  (if program.opcode k = RET ∨ program.opcode k = DISCARD then [none] else []) ++
    (edge_targets program flow k).map fun target => some target.toNat

/-- The steps of `size` instructions from `i` on are those of the table, and every target
of theirs is an index. -/
structure Follows (program : USILProgram) (flow : ℕ → HLSLInstructionFlow) (i size : ℕ)
    (steps : List (ℕ × Option ℕ)) : Prop where
  steps : steps = (List.range' i size).flatMap fun k =>
    (stepTargets program flow k).map (k, ·)
  nonneg : ∀ k, i ≤ k → k < i + size → ∀ target ∈ edge_targets program flow k, 0 ≤ target

variable {t : FlowTree} {j : JumpTargets} {c : Enclosing} {opcode : USILOpcode}

section Follows

variable {program : USILProgram} {flow : ℕ → HLSLInstructionFlow} {i : ℕ}

lemma Follows.nil : Follows program flow i 0 [] := ⟨rfl, fun k h1 h2 => by omega⟩

lemma Follows.append {m n : ℕ} {xs ys : List (ℕ × Option ℕ)}
    (hx : Follows program flow i m xs) (hy : Follows program flow (i + m) n ys) :
    Follows program flow i (m + n) (xs ++ ys) := by
  refine ⟨?_, ?_⟩
  · rw [← range'_append_1, flatMap_append, ← hx.steps, ← hy.steps]
  · intro k h1 h2
    rcases Nat.lt_or_ge k (i + m) with hlt | hge
    · exact hx.nonneg k h1 hlt
    · exact hy.nonneg k hge (by omega)

variable {targets : List ℕ}

lemma follows_one (h : edge_targets program flow i = targets.map Int.ofNat) :
    Follows program flow i 1
      (((if program.opcode i = RET ∨ program.opcode i = DISCARD then [none] else []) ++
        targets.map some).map (i, ·)) := by
  refine ⟨?_, ?_⟩
  · simp only [List.range'_one, List.flatMap_cons, List.flatMap_nil, List.append_nil, stepTargets,
      h, List.map_map]
    rfl
  · intro k h1 h2 target htgt
    obtain rfl : k = i := by omega
    rw [h] at htgt
    obtain ⟨t, -, rfl⟩ := mem_map.mp htgt
    exact Int.natCast_nonneg t

lemma follows_edges (hret : program.opcode i ≠ RET) (hdiscard : program.opcode i ≠ DISCARD)
    (h : edge_targets program flow i = targets.map Int.ofNat) :
    Follows program flow i 1 (targets.map fun target => (i, some target)) := by
  have hone := follows_one h
  rw [if_neg (not_or.mpr ⟨hret, hdiscard⟩), List.nil_append, List.map_map] at hone
  exact hone

variable {labels : List ℕ}

lemma CaseChain.case_labels {fuel : ℕ} {link : Option ℕ} (h : CaseChain flow link labels)
    (hfuel : labels.length ≤ fuel) :
    case_labels flow fuel link = labels := by
  induction labels generalizing link fuel with
  | nil =>
    obtain rfl : link = none := h
    cases fuel <;> rfl
  | cons label labels ih =>
    obtain ⟨rfl, hrest⟩ := h
    cases fuel with
    | zero => simp at hfuel
    | succ fuel =>
      rw [DXBCSandbox.case_labels, ih hrest (by simpa using hfuel)]

variable {e : ℕ}

lemma edge_targets_switch (hop : program.opcode i = SWITCH) (hend : (flow i).end_ = some e)
    (hchain : CaseChain flow (flow i).first_case labels)
    (hlen : labels.length ≤ program.instruction_count) :
    edge_targets program flow i =
      (labels ++ if (flow i).has_default then [] else [e + 1]).map Int.ofNat := by
  rw [edge_targets]
  simp only [hop, reduceCtorEq, if_false, if_true, hchain.case_labels hlen, hend, link_index]
  cases (flow i).has_default <;> simp

lemma edge_targets_if (hop : program.opcode i = IF)
    (h : (flow i).alternate = some e ∨ ((flow i).alternate = none ∧ (flow i).end_ = some e)) :
    edge_targets program flow i = [i + 1, e + 1].map Int.ofNat := by
  rw [edge_targets]
  simp only [hop, reduceCtorEq, if_false, if_true]
  rcases h with h | ⟨h, h'⟩
  · simp [h, link_index]
  · simp [h, h', link_index]

lemma edge_targets_else (hop : program.opcode i = ELSE) (h : (flow i).end_ = some e) :
    edge_targets program flow i = [e + 1].map Int.ofNat := by
  simp [edge_targets, hop, h, link_index]

lemma edge_targets_endloop {o : ℕ} (hop : program.opcode i = ENDLOOP)
    (h : (flow i).jump_scope = some o) :
    edge_targets program flow i = [o + 1].map Int.ofNat := by
  simp [edge_targets, hop, h, link_index]

/-- Everything that is not a jump, a return or an opener with a choice falls through. -/
theorem edge_targets_next (h : program.opcode i ≠ RET ∧ program.opcode i ≠ SWITCH ∧
      program.opcode i ≠ IF ∧ program.opcode i ≠ ELSE ∧ isBreak (program.opcode i) = false ∧
      isContinue (program.opcode i) = false ∧ program.opcode i ≠ ENDLOOP) :
    edge_targets program flow i = [i + 1].map Int.ofNat := by
  obtain ⟨h1, h2, h3, h4, h5, h6, h7⟩ := h
  simp only [isBreak, isContinue, Bool.or_eq_false_iff, decide_eq_false_iff_not] at h5 h6
  simp [edge_targets, h1, h2, h3, h4, h5, h6, h7]

/-- The jump targets of a list are those of the scopes that its jumps leave. -/
structure JumpsTo (flow : ℕ → HLSLInstructionFlow) (c : Enclosing)
    (onBreak onContinue : Option ℕ) (j : JumpTargets) : Prop where
  onBreak : c.inBreakable → ∃ o e, onBreak = some o ∧ (flow o).end_ = some e ∧ j.onBreak = e + 1
  onContinue : c.inLoop → ∃ o e, onContinue = some o ∧ (flow o).end_ = some e ∧ j.onContinue = e

/-- A jump goes past the end of the scope it leaves or, for `CONTINUE`, to the end. -/
theorem edge_targets_jump {o : ℕ} (hop : isBreak (program.opcode i) ∨ isContinue (program.opcode i))
    (hscope : (flow i).jump_scope = some o) (hend : (flow o).end_ = some e) :
    edge_targets program flow i =
      ((if program.opcode i = BREAKC ∨ program.opcode i = CONTINUEC then [i + 1] else []) ++
        [if isContinue (program.opcode i) then e else e + 1]).map Int.ofNat := by
  simp only [isBreak, isContinue, or_eq_true, decide_eq_true_eq] at hop
  rcases hop with (h | h) | (h | h) <;> simp [edge_targets, h, hscope, hend, link_index, isContinue]

variable {onBreak : Option ℕ}

lemma follows_op {onContinue : Option ℕ} (hop : program.opcode i = opcode)
    (hall : c.allows opcode) (hbreak : isBreak opcode → (flow i).jump_scope = onBreak)
    (hcontd : isContinue opcode → (flow i).jump_scope = onContinue)
    (hj : JumpsTo flow c onBreak onContinue j) :
    Follows program flow i 1 ((opTargets opcode i j).map (i, ·)) := by
  by_cases hb : isBreak opcode
  · have hl : isLabel opcode = false := by cases opcode <;> simp [isBreak, isLabel] at hb ⊢
    rw [Enclosing.allows, hl, if_neg Bool.false_ne_true, if_pos hb] at hall
    obtain ⟨o, e, rfl, hend, he⟩ := hj.onBreak hall
    have hedge := edge_targets_jump (.inl (by rw [hop]; exact hb)) (hbreak hb) hend
    have hb' : opcode = BREAK ∨ opcode = BREAKC := by simpa [isBreak] using hb
    rcases hb' with rfl | rfl
    · have h := follows_edges (by rw [hop]; decide) (by rw [hop]; decide) hedge
      simpa [opTargets, he, hop, isContinue] using h
    · have h := follows_edges (by rw [hop]; decide) (by rw [hop]; decide) hedge
      simpa [opTargets, he, hop, isContinue] using h
  by_cases hc : isContinue opcode
  · have hl : isLabel opcode = false := by cases opcode <;> simp [isContinue, isLabel] at hc ⊢
    rw [Enclosing.allows, hl, if_neg Bool.false_ne_true, if_neg hb, if_pos hc] at hall
    obtain ⟨o, e, rfl, hend, he⟩ := hj.onContinue hall
    have hedge := edge_targets_jump (.inr (by rw [hop]; exact hc)) (hcontd hc) hend
    have hc' : opcode = CONTINUE ∨ opcode = CONTINUEC := by simpa [isContinue] using hc
    rcases hc' with rfl | rfl
    · have h := follows_edges (by rw [hop]; decide) (by rw [hop]; decide) hedge
      simpa [opTargets, he, hop, isContinue] using h
    · have h := follows_edges (by rw [hop]; decide) (by rw [hop]; decide) hedge
      simpa [opTargets, he, hop, isContinue] using h
  by_cases hret : opcode = RET
  · have hedge : edge_targets program flow i = ([] : List ℕ).map Int.ofNat := by
      simp [edge_targets, hop, hret]
    have h := follows_one hedge
    simpa [opTargets, hop, hret] using h
  -- What is left falls through; `DISCARD` may also leave.
  have hd : isDelimiter opcode = false := by
    by_cases hl : isLabel opcode
    · cases opcode <;> simp [isLabel, isDelimiter] at hl ⊢
    · simpa [Enclosing.allows, hl, hb, hc] using hall
  rw [Bool.not_eq_true] at hb hc
  have hedge : edge_targets program flow i = [i + 1].map Int.ofNat := by
    simp only [isDelimiter, Bool.or_eq_false_iff, decide_eq_false_iff_not] at hd
    refine edge_targets_next ⟨?_, ?_, ?_, ?_, ?_, ?_, ?_⟩ <;> rw [hop] <;> tauto
  have h := follows_one hedge
  simp only [isBreak, isContinue, Bool.or_eq_false_iff, decide_eq_false_iff_not] at hb hc
  by_cases hdis : opcode = DISCARD
  · simpa [opTargets, hop, hdis] using h
  · simpa [opTargets, hop, hret, hdis, hb, hc] using h

lemma follows_next (flow : ℕ → HLSLInstructionFlow) (hop : program.opcode i = ENDIF ∨ program.opcode i = ENDSWITCH ∨
    program.opcode i = LOOP) : Follows program flow i 1 [(i, some (i + 1))] := by
  have hedge : edge_targets program flow i = [i + 1].map Int.ofNat := by
    rcases hop with h | h | h <;> exact edge_targets_next (by rw [h]; decide)
  have hret : program.opcode i ≠ RET ∧ program.opcode i ≠ DISCARD := by
    rcases hop with h | h | h <;> rw [h] <;> decide
  exact follows_edges hret.1 hret.2 hedge

lemma FlowTree.length_labels_le (t : FlowTree) (i : ℕ) : (t.labels i).length ≤ t.size := by
  induction t generalizing i with
  | nil => rfl
  | op opcode rest ih =>
    have := ih (i + 1)
    simp only [labels, size]
    split_ifs
    · rw [length_cons]
      omega
    · omega
  | ifThen body rest ihb ihr =>
    have := ihr (i + body.size + 1 + 1)
    simp only [labels, size]
    omega
  | ifElse body alternate rest ihb iha ihr =>
    have := ihr (i + body.size + 1 + alternate.size + 1 + 1)
    simp only [labels, size]
    omega
  | loop body rest ihb ihr =>
    have := ihr (i + body.size + 1 + 1)
    simp only [labels, size]
    omega
  | switch body rest ihb ihr =>
    have := ihr (i + body.size + 1 + 1)
    simp only [labels, size]
    omega

/-- **The table has the steps of the tree.** -/
theorem LaidOut.follows {onContinue : Option ℕ} (h : LaidOut flow t i onBreak onContinue)
    (hspell : Spells program i t.tokens) (hwf : t.wellNested c)
    (hj : JumpsTo flow c onBreak onContinue j) (hcnt : i + t.size ≤ program.instruction_count) :
    Follows program flow i t.size (t.steps i j) := by
  induction t generalizing i c onBreak onContinue j with
  | nil => exact .nil
  | op opcode rest ih =>
    obtain ⟨hb, hc, hlaid⟩ := h
    obtain ⟨hop, hsr⟩ := hspell
    simp only [wellNested, and_eq_true] at hwf
    simp only [size] at hcnt
    have hone := follows_op hop hwf.1 hb hc hj
    have hrest := ih hlaid hsr hwf.2 hj (by omega)
    rw [size, Nat.add_comm]
    exact hone.append hrest
  | ifThen body rest ihb ihr =>
    obtain ⟨hend, halt, hlb, hlr⟩ := h
    obtain ⟨hop, hsb, hop', hsr⟩ := spells_block.mp hspell
    simp only [wellNested, and_eq_true] at hwf
    simp only [size] at hcnt
    have hopen := follows_edges (by rw [hop]; decide) (by rw [hop]; decide)
      (edge_targets_if hop (.inr ⟨halt, hend⟩))
    have hbody := ihb hlb hsb hwf.1 (c := c.arm) ⟨hj.onBreak, hj.onContinue⟩ (by omega)
    have hclose := follows_next flow (.inl hop')
    have hrest := ihr hlr hsr hwf.2 hj (by omega)
    have heq : i + 1 + body.size = i + body.size + 1 := by omega
    rw [← heq] at hclose hrest
    have hall := hopen.append (hbody.append (hclose.append hrest))
    rw [size, show body.size + rest.size + 2 = 1 + (body.size + (1 + rest.size)) by omega]
    simpa [steps, heq] using hall
  | ifElse body alternate rest ihb iha ihr =>
    obtain ⟨halt, hend, hlb, hla, hlr⟩ := h
    obtain ⟨hop, hsb, hop', hsrest⟩ := spells_block.mp hspell
    obtain ⟨-, hsa, hop'', hsr⟩ := spells_block.mp ⟨hop', hsrest⟩
    have ha : i + 1 + body.size = i + body.size + 1 := by omega
    have he : i + body.size + 1 + 1 + alternate.size =
      i + body.size + 1 + alternate.size + 1 := by omega
    simp only [wellNested, and_eq_true] at hwf
    simp only [size] at hcnt
    have hopen := follows_edges (by rw [hop]; decide) (by rw [hop]; decide)
      (edge_targets_if hop (.inl halt))
    have hbody := ihb hlb hsb hwf.1.1 (c := c.arm) ⟨hj.onBreak, hj.onContinue⟩ (by omega)
    have helse := follows_edges (by rw [hop']; decide) (by rw [hop']; decide)
      (edge_targets_else hop' hend)
    have halternate := iha hla hsa hwf.1.2 (c := c.arm) ⟨hj.onBreak, hj.onContinue⟩ (by omega)
    have hclose := follows_next flow (.inl hop'')
    have hrest := ihr hlr hsr hwf.2 hj (by omega)
    rw [← he] at hclose hrest
    rw [← ha] at helse halternate hclose hrest
    have hall := hopen.append
      (hbody.append (helse.append (halternate.append (hclose.append hrest))))
    rw [size, show body.size + alternate.size + rest.size + 3 =
      1 + (body.size + (1 + (alternate.size + (1 + rest.size)))) by omega]
    simpa [steps, ha, he] using hall
  | loop body rest ihb ihr =>
    obtain ⟨hend, hscope, hlb, hlr⟩ := h
    obtain ⟨hop, hsb, hop', hsr⟩ := spells_block.mp hspell
    have he : i + 1 + body.size = i + body.size + 1 := by omega
    simp only [wellNested, and_eq_true] at hwf
    simp only [size] at hcnt
    have hopen := follows_next flow (.inr (.inr hop))
    have hbody := ihb hlb hsb hwf.1 (j := ⟨i + body.size + 1 + 1, i + body.size + 1⟩)
      ⟨fun _ => ⟨i, _, rfl, hend, rfl⟩, fun _ => ⟨i, _, rfl, hend, rfl⟩⟩ (by omega)
    have hclose := follows_edges (by rw [hop']; decide) (by rw [hop']; decide)
      (edge_targets_endloop hop' hscope)
    have hrest := ihr hlr hsr hwf.2 hj (by omega)
    rw [← he] at hclose hrest
    have hall := hopen.append (hbody.append (hclose.append hrest))
    rw [size, show body.size + rest.size + 2 = 1 + (body.size + (1 + rest.size)) by omega]
    simpa [steps, he] using hall
  | switch body rest ihb ihr =>
    obtain ⟨hend, hdflt, hchain, hlb, hlr⟩ := h
    obtain ⟨hop, hsb, hop', hsr⟩ := spells_block.mp hspell
    have he : i + 1 + body.size = i + body.size + 1 := by omega
    simp only [wellNested, and_eq_true] at hwf
    simp only [size] at hcnt
    have hlen := body.length_labels_le (i + 1)
    have hopen := follows_edges (by rw [hop]; decide) (by rw [hop]; decide)
      (edge_targets_switch hop hend hchain (by omega))
    have hpast : (if (flow i).has_default then [] else [i + body.size + 1 + 1]) =
        if body.defaults = 0 then [i + body.size + 1 + 1] else [] := by
      rw [hdflt]
      by_cases h0 : body.defaults = 0
      · simp [h0]
      · simp [h0, Nat.pos_of_ne_zero h0]
    rw [hpast] at hopen
    have hbody := ihb hlb hsb hwf.1.1 (j := { j with onBreak := i + body.size + 1 + 1 })
      ⟨fun _ => ⟨i, _, rfl, hend, rfl⟩, hj.onContinue⟩ (by omega)
    have hclose := follows_next flow (.inr (.inl hop'))
    have hrest := ihr hlr hsr hwf.2 hj (by omega)
    rw [← he] at hclose hrest
    have hall := hopen.append (hbody.append (hclose.append hrest))
    rw [size, show body.size + rest.size + 2 = 1 + (body.size + (1 + rest.size)) by omega]
    simpa only [steps, he, cons_append, nil_append] using hall

end Follows

/-! ## Targets start blocks -/

/-- A position of the range that is at or right after a boundary. -/
def Landing (program : USILProgram) (first last target : ℕ) : Prop :=
  first < target ∧ target ≤ last ∧
    (is_boundary (program.opcode target) ∨ is_boundary (program.opcode (target - 1)))

section Landing

variable {program : USILProgram} {first last i : ℕ}

lemma landing_after {k : ℕ} (h1 : first ≤ k) (h2 : k < last)
    (hb : is_boundary (program.opcode k)) : Landing program first last (k + 1) :=
  ⟨by omega, by omega, .inr (by simpa using hb)⟩

lemma isLabel_of_mem_labels (hspell : Spells program i t.tokens) {label : ℕ}
    (h : label ∈ t.labels i) : isLabel (program.opcode label) := by
  induction t generalizing i with
  | nil => simp [labels] at h
  | op opcode rest ih =>
    obtain ⟨hop, hsr⟩ := hspell
    simp only [labels] at h
    split_ifs at h with hl
    · rcases mem_cons.mp h with rfl | h
      · rw [hop]
        exact hl
      · exact ih hsr h
    · exact ih hsr h
  | ifThen body rest ihb ihr =>
    exact ihr (spells_block.mp hspell).2.2.2 h
  | ifElse body alternate rest ihb iha ihr =>
    have hrest := (spells_block.mp hspell).2.2
    exact ihr (spells_block.mp hrest).2.2.2 h
  | loop body rest ihb ihr =>
    exact ihr (spells_block.mp hspell).2.2.2 h
  | switch body rest ihb ihr =>
    exact ihr (spells_block.mp hspell).2.2.2 h

lemma FlowTree.mem_opTargets {target : ℕ} (h : some target ∈ opTargets opcode i j) :
    target = i + 1 ∨ (isBreak opcode ∧ target = j.onBreak) ∨
      (isContinue opcode ∧ target = j.onContinue) := by
  simp only [opTargets] at h
  split_ifs at h with h1 h2 h3 h4 h5 h6 <;> simp at h
  · exact .inl h
  · exact .inr (.inl ⟨by rw [h3]; rfl, h⟩)
  · exact h.imp_right fun h => .inl ⟨by rw [h4]; rfl, h⟩
  · exact .inr (.inr ⟨by rw [h5]; rfl, h⟩)
  · exact h.imp_right fun h => .inr ⟨by rw [h6]; rfl, h⟩
  · exact .inl h

/-- A step goes to the next instruction or lands at or after a boundary. -/
theorem FlowTree.steps_landing (hspell : Spells program i t.tokens) (hwf : t.wellNested c)
    (hfst : first ≤ i) (hlast : i + t.size ≤ last)
    (hbreak : c.inBreakable → Landing program first last j.onBreak)
    (hcontd : c.inLoop → Landing program first last j.onContinue) {k target : ℕ}
    (h : (k, some target) ∈ t.steps i j) : target = k + 1 ∨ Landing program first last target := by
  induction t generalizing i c j with
  | nil => simp [steps] at h
  | op opcode rest ih =>
    obtain ⟨hop, hsr⟩ := hspell
    simp only [wellNested, and_eq_true] at hwf
    simp only [size] at hlast
    simp only [steps, List.mem_append, List.mem_map, mk.injEq] at h
    rcases h with ⟨target', htgt, rfl, rfl⟩ | h
    · have hall := hwf.1
      rcases mem_opTargets htgt with h | ⟨hb, h⟩ | ⟨hc, h⟩
      · exact .inl h
      · have hl : isLabel opcode = false := by cases opcode <;> simp [isBreak, isLabel] at hb ⊢
        rw [Enclosing.allows, hl, if_neg Bool.false_ne_true, if_pos hb] at hall
        rw [h]
        exact .inr (hbreak hall)
      · have hl : isLabel opcode = false ∧ isBreak opcode = false := by
          cases opcode <;> simp [isContinue, isLabel, isBreak] at hc ⊢
        rw [Enclosing.allows, hl.1, if_neg Bool.false_ne_true, hl.2, if_neg Bool.false_ne_true,
          if_pos hc] at hall
        rw [h]
        exact .inr (hcontd hall)
    · exact ih hsr hwf.2 (by omega) (by omega) hbreak hcontd h
  | ifThen body rest ihb ihr =>
    obtain ⟨hop, hsb, hop', hsr⟩ := spells_block.mp hspell
    simp only [wellNested, and_eq_true] at hwf
    simp only [size] at hlast
    simp only [steps, List.mem_append, List.mem_cons, mk.injEq, some.injEq,
      List.not_mem_nil, or_false] at h
    rcases h with (⟨rfl, rfl⟩ | ⟨rfl, rfl⟩) | h | ⟨rfl, rfl⟩ | h
    · exact .inl rfl
    · exact .inr (landing_after (by omega) (by omega) (by rw [hop']; rfl))
    · exact ihb hsb hwf.1 (by omega) (by omega) hbreak hcontd h
    · exact .inl rfl
    · exact ihr hsr hwf.2 (by omega) (by omega) hbreak hcontd h
  | ifElse body alternate rest ihb iha ihr =>
    obtain ⟨hop, hsb, hop', hrest⟩ := spells_block.mp hspell
    obtain ⟨-, hsa, hop'', hsr⟩ := spells_block.mp ⟨hop', hrest⟩
    simp only [wellNested, and_eq_true] at hwf
    simp only [size] at hlast
    simp only [steps, List.mem_append, List.mem_cons, mk.injEq, some.injEq,
      List.not_mem_nil, or_false] at h
    rcases h with (⟨rfl, rfl⟩ | ⟨rfl, rfl⟩) | h | ⟨rfl, rfl⟩ | h | ⟨rfl, rfl⟩ | h
    · exact .inl rfl
    · exact .inr (landing_after (by omega) (by omega) (by rw [hop']; rfl))
    · exact ihb hsb hwf.1.1 (by omega) (by omega) hbreak hcontd h
    · exact .inr (landing_after (by omega) (by omega) (by rw [hop'']; rfl))
    · exact iha hsa hwf.1.2 (by omega) (by omega) hbreak hcontd h
    · exact .inl rfl
    · exact ihr hsr hwf.2 (by omega) (by omega) hbreak hcontd h
  | loop body rest ihb ihr =>
    obtain ⟨hop, hsb, hop', hsr⟩ := spells_block.mp hspell
    simp only [wellNested, and_eq_true] at hwf
    simp only [size] at hlast
    simp only [steps, List.mem_append, List.mem_cons, mk.injEq, some.injEq,
      List.not_mem_nil, or_false] at h
    have hafter : Landing program first last (i + body.size + 1 + 1) :=
      landing_after (by omega) (by omega) (by rw [hop']; rfl)
    have hat : Landing program first last (i + body.size + 1) :=
      ⟨by omega, by omega, .inl (by rw [hop']; rfl)⟩
    rcases h with ⟨rfl, rfl⟩ | h | ⟨rfl, rfl⟩ | h
    · exact .inl rfl
    · exact ihb hsb hwf.1 (by omega) (by omega) (fun _ => hafter) (fun _ => hat) h
    · exact .inr (landing_after (by omega) (by omega) (by rw [hop]; rfl))
    · exact ihr hsr hwf.2 (by omega) (by omega) hbreak hcontd h
  | switch body rest ihb ihr =>
    obtain ⟨hop, hsb, hop', hsr⟩ := spells_block.mp hspell
    simp only [wellNested, and_eq_true] at hwf
    simp only [size] at hlast
    simp only [steps, List.mem_append, List.mem_map, List.mem_cons, mk.injEq,
      some.injEq, List.not_mem_nil, or_false] at h
    have hafter : Landing program first last (i + body.size + 1 + 1) :=
      landing_after (by omega) (by omega) (by rw [hop']; rfl)
    rcases h with ⟨label, hlabel | hpast, rfl, rfl⟩ | h | ⟨rfl, rfl⟩ | h
    · -- A label is a boundary itself.
      have hbnds := labels_bounds hlabel
      have hl := isLabel_of_mem_labels hsb hlabel
      refine .inr ⟨by omega, by omega, .inl ?_⟩
      simp only [isLabel, or_eq_true, decide_eq_true_eq] at hl
      rcases hl with hl | hl <;> rw [hl] <;> rfl
    · split_ifs at hpast
      · rw [mem_singleton] at hpast
        rw [hpast]
        exact .inr hafter
      · simp at hpast
    · exact ihb hsb hwf.1.1 (by omega) (by omega)
        (j := { j with onBreak := i + body.size + 1 + 1 }) (fun _ => hafter) hcontd h
    · exact .inl rfl
    · exact ihr hsr hwf.2 (by omega) (by omega) hbreak hcontd h

end Landing

/-! ## The graph of a range -/

/-- One step of the graph: to the next instruction of the block or, from the last one, to
the first instruction of a successor or out of the program. -/
def HLSLControlFlowGraph.Step (cfg : HLSLControlFlowGraph) (k : ℕ) (target : Option ℕ) : Prop :=
  ∃ b, b < cfg.block_count ∧ (cfg.blocks b).Covers k ∧
    if k < (cfg.blocks b).last_instruction then target = some (k + 1)
    else (∃ c ∈ (cfg.blocks b).successors, target = some (cfg.blocks c).first_instruction) ∨
      ((cfg.blocks b).may_exit ∧ target = none)

/-- The graph is the control flow of the tree that starts at `first`. -/
structure ExactGraph (first last : ℕ) (t : FlowTree) (cfg : HLSLControlFlowGraph) : Prop where
  /-- The blocks partition the range. -/
  tiles : BlockTiling cfg.blocks cfg.block_count first last
  instruction_block : ∀ k b,
    cfg.instruction_block k = some b ↔ b < cfg.block_count ∧ (cfg.blocks b).Covers k
  successors_lt : ∀ b, b < cfg.block_count →
    ∀ c ∈ (cfg.blocks b).successors, c < cfg.block_count
  /-- A jump goes to the first instruction of a successor. -/
  jump_first : ∀ b, b < cfg.block_count → ∀ target,
    t.Step first (cfg.blocks b).last_instruction (some target) →
    ∃ c ∈ (cfg.blocks b).successors, (cfg.blocks c).first_instruction = target
  /-- The graph and the program have the same steps. -/
  step : ∀ k target, cfg.Step k target ↔ t.Step first k target
  mem_predecessors : ∀ b c, c < cfg.block_count →
    (b ∈ (cfg.blocks c).predecessors ↔ b < cfg.block_count ∧ c ∈ (cfg.blocks b).successors)
  nodup : ∀ b, b < cfg.block_count →
    (cfg.blocks b).successors.Nodup ∧ (cfg.blocks b).predecessors.Nodup

section Graph

variable {program : USILProgram} {first last : ℕ} {t : FlowTree} {flow : ℕ → HLSLInstructionFlow}
  {k : ℕ} {target : Option ℕ}

lemma Follows.mem_steps {size : ℕ} {steps : List (ℕ × Option ℕ)}
    (h : Follows program flow first size steps) :
    (k, target) ∈ steps ↔ (first ≤ k ∧ k < first + size) ∧ target ∈ stepTargets program flow k := by
  rw [h.steps, mem_flatMap]
  constructor
  · rintro ⟨k', hk', hmem⟩
    obtain ⟨target', htgt, heq⟩ := mem_map.mp hmem
    obtain ⟨rfl, rfl⟩ := mk.inj heq
    exact ⟨mem_range'_1.mp hk', htgt⟩
  · rintro ⟨hk, htgt⟩
    exact ⟨k, mem_range'_1.mpr hk, mem_map.mpr ⟨target, htgt, rfl⟩⟩

lemma mem_stepTargets : target ∈ stepTargets program flow k ↔
      (target = none ∧ (program.opcode k = RET ∨ program.opcode k = DISCARD)) ∨
      ∃ τ ∈ edge_targets program flow k, target = some τ.toNat := by
  rw [stepTargets, List.mem_append, List.mem_map]
  constructor
  · rintro (h | ⟨τ, hτ, rfl⟩)
    · split_ifs at h with hop
      · exact .inl ⟨mem_singleton.mp h, hop⟩
      · simp at h
    · exact .inr ⟨τ, hτ, rfl⟩
  · rintro (⟨rfl, hop⟩ | ⟨τ, hτ, rfl⟩)
    · rw [if_pos hop]
      exact .inl (mem_singleton.mpr rfl)
    · exact .inr ⟨τ, hτ, rfl⟩

lemma edge_targets_of_not_boundary (flow : ℕ → HLSLInstructionFlow)
    (h : is_boundary (program.opcode k) = false) :
    edge_targets program flow k = [(k : ℤ) + 1] ∧ program.opcode k ≠ RET ∧
      program.opcode k ≠ DISCARD := by
  cases hop : program.opcode k <;> rw [hop] at h <;> simp [is_boundary] at h <;>
    simp [edge_targets, hop]

variable (hw : WellNestedRange program first last t)

include hw

lemma WellNestedRange.follows (hlt : first < last) (hlast : last ≤ program.instruction_count)
    (hlaid : LaidOut flow t first none none) :
    Follows program flow first t.size (t.steps first ⟨0, 0⟩) := by
  have hsize := hw.size
  exact hlaid.follows (hw.tokens ▸ spells_range' program first (last - first)) hw.wellNested
    ⟨fun h => absurd h false_ne_true, fun h => absurd h false_ne_true⟩ (by omega)

variable {blocks : ℕ → HLSLBasicBlock} {count : ℕ}

/-- The targets of a block are the end of the range or the first instruction of a
block. -/
theorem target_first (hlt : first < last) (hlast : last ≤ program.instruction_count)
    (hlaid : LaidOut flow t first none none) (htiles : BlockTiling blocks count first last)
    (hleader : ∀ k, first ≤ k → k < last → (IsLeader program first k ↔ ∃ b, b < count ∧ (blocks
      b).first_instruction = k)) {b : ℕ} (hb : b < count) {τ : ℤ}
    (hτ : τ ∈ blockTargets program flow blocks b) :
    τ = last ∨ (first ≤ τ ∧ τ < last ∧
      ∃ c, c < count ∧ (blocks c).first_instruction = τ.toNat) := by
  have hsize := hw.size
  have hf := hw.follows hlt hlast hlaid
  have hcover := htiles.covers_bounds hb ⟨htiles.nonempty b hb, Nat.le_refl _⟩
  have hnn := hf.nonneg _ hcover.1 (by omega) τ hτ
  have hmem : ((blocks b).last_instruction, some τ.toNat) ∈ t.steps first ⟨0, 0⟩ :=
    hf.mem_steps.mpr ⟨⟨hcover.1, by omega⟩, mem_stepTargets.mpr (.inr ⟨τ, hτ, rfl⟩)⟩
  have hland : τ.toNat = (blocks b).last_instruction + 1 ∨ Landing program first last τ.toNat :=
    steps_landing (hw.tokens ▸ spells_range' program first (last - first))
      hw.wellNested (Nat.le_refl first) (by omega) (fun h => absurd h false_ne_true)
      (fun h => absurd h false_ne_true) hmem
  by_cases hend : τ.toNat = last
  · exact .inl (by omega)
  right
  rcases hland with hnext | ⟨h1, h2, hbnd⟩
  · -- The block falls through to the next one.
    have hmore : b + 1 < count := by
      by_contra hge
      have hstop := htiles.stop (by omega)
      obtain rfl : b = count - 1 := by omega
      omega
    have hfst := htiles.next b hmore
    exact ⟨by omega, by omega, b + 1, hmore, by omega⟩
  · refine ⟨by omega, by omega, (hleader τ.toNat (by omega) (by omega)).mp ?_⟩
    rcases hbnd with hbnd | hbnd
    · exact .inr (.inl hbnd)
    · exact .inr (.inr ⟨by omega, hbnd⟩)

/-- All blocks together have at most three targets for each instruction. -/
theorem sum_targets_le (hlt : first < last) (hlast : last ≤ program.instruction_count)
    (hlaid : LaidOut flow t first none none) (htiles : BlockTiling blocks count first last) :
    ∑ b ∈ Finset.range count, (blockTargets program flow blocks b).length ≤
      program.instruction_count * 3 := by
  have hsize := hw.size
  have hf := hw.follows hlt hlast hlaid
  -- The last instructions of the blocks are different instructions of the range.
  have himage : ∑ k ∈ (Finset.range count).image (fun b => (blocks b).last_instruction),
      (edge_targets program flow k).length =
      ∑ b ∈ Finset.range count, (blockTargets program flow blocks b).length := by
    refine Finset.sum_image fun b hb c hc heq => ?_
    have hb := Finset.mem_range.mp hb
    have hc := Finset.mem_range.mp hc
    refine htiles.unique hb hc ⟨htiles.nonempty b hb, Nat.le_refl _⟩ ?_
    rw [heq]
    exact ⟨htiles.nonempty c hc, Nat.le_refl _⟩
  have hsubset : (Finset.range count).image (fun b => (blocks b).last_instruction) ⊆
      (List.range' first t.size).toFinset := by
    intro k hk
    obtain ⟨b, hb, rfl⟩ := Finset.mem_image.mp hk
    have hb := Finset.mem_range.mp hb
    have := htiles.covers_bounds hb ⟨htiles.nonempty b hb, Nat.le_refl _⟩
    rw [List.mem_toFinset, List.mem_range'_1]
    omega
  have hsteps := t.length_steps_le first ⟨0, 0⟩
  rw [hf.steps, length_flatMap] at hsteps
  calc ∑ b ∈ Finset.range count, (blockTargets program flow blocks b).length
      ≤ ∑ k ∈ (List.range' first t.size).toFinset, (edge_targets program flow k).length := by
        rw [← himage]
        exact Finset.sum_le_sum_of_subset hsubset
    _ = ((List.range' first t.size).map fun k => (edge_targets program flow k).length).sum :=
        sum_toFinset _ nodup_range'
    _ ≤ ((List.range' first t.size).map fun k =>
          ((stepTargets program flow k).map (k, ·)).length).sum := by
        refine sum_le_sum fun k _ => ?_
        rw [length_map, stepTargets, length_append, length_map]
        exact Nat.le_add_left _ _
    _ ≤ 3 * t.size := by omega
    _ ≤ program.instruction_count * 3 := by omega

omit hw

/-- A block ends at every boundary, so inside a block control goes to the next
instruction. -/
theorem not_boundary_of_lt_last (htiles : BlockTiling blocks count first last)
    (hleader : ∀ k, first ≤ k → k < last →
      (IsLeader program first k ↔ ∃ b, b < count ∧ (blocks b).first_instruction = k)) {b : ℕ}
    (hb : b < count) (hk : (blocks b).Covers k) (hlt : k < (blocks b).last_instruction) :
    is_boundary (program.opcode k) = false := by
  by_contra hbnd
  rw [Bool.not_eq_false] at hbnd
  have hbnds := htiles.covers_bounds hb hk
  have hlast := htiles.last_lt hb
  -- Otherwise the next instruction would start a block inside this one.
  obtain ⟨c, hc, hfst⟩ := (hleader (k + 1) (by omega) (by omega)).mp
    (.inr (.inr ⟨by omega, by simpa using hbnd⟩))
  have hkb := hk.1
  have heq : b = c := htiles.unique hb hc (k := k + 1) ⟨by omega, by omega⟩
    ⟨by omega, by have := htiles.nonempty c hc; omega⟩
  rw [← heq] at hfst
  omega

lemma Follows.step_iff (hf : Follows program flow first t.size (t.steps first ⟨0, 0⟩))
    (hlast : first + t.size = last) (h1 : first ≤ k) (h2 : k < last) :
    t.Step first k target ↔
      (target = none ∧ (program.opcode k = RET ∨ program.opcode k = DISCARD)) ∨
      (target = none ∧ (last : ℤ) ∈ edge_targets program flow k) ∨
      ∃ τ ∈ edge_targets program flow k, τ ≠ last ∧ target = some τ.toNat := by
  have hnn := hf.nonneg k h1 (by omega)
  simp only [FlowTree.Step, hf.mem_steps, mem_stepTargets, hlast]
  constructor
  · rintro ⟨target', ⟨-, ⟨rfl, hop⟩ | ⟨τ, hτ, rfl⟩⟩, rfl⟩
    · exact .inl ⟨by simp, hop⟩
    · have := hnn τ hτ
      by_cases heq : τ = last
      · rw [heq] at hτ
        exact .inr (.inl ⟨by simp [heq], hτ⟩)
      · have hne : some τ.toNat ≠ some last := by
          rw [ne_eq, some.injEq]
          omega
        exact .inr (.inr ⟨τ, hτ, heq, if_neg hne⟩)
  · rintro (⟨rfl, hop⟩ | ⟨rfl, hτ⟩ | ⟨τ, hτ, hne, rfl⟩)
    · exact ⟨none, ⟨⟨h1, by omega⟩, .inl ⟨rfl, hop⟩⟩, by simp⟩
    · exact ⟨some last, ⟨⟨h1, by omega⟩, .inr ⟨last, hτ, by simp⟩⟩, by simp⟩
    · have := hnn τ hτ
      have hne : some τ.toNat ≠ some last := by
        rw [ne_eq, some.injEq]
        omega
      exact ⟨some τ.toNat, ⟨⟨h1, by omega⟩, .inr ⟨τ, hτ, rfl⟩⟩, (if_neg hne).symm⟩

variable {cfg : HLSLControlFlowGraph}

/-- A graph whose blocks end at the boundaries and whose edges are the targets of their
last instructions steps like the program. -/
theorem graph_step_iff (htiles : BlockTiling cfg.blocks cfg.block_count first last)
    (hleader : ∀ k, first ≤ k → k < last → (IsLeader program first k ↔ ∃ b, b < cfg.block_count
      ∧ (cfg.blocks b).first_instruction = k))
    (hf : Follows program flow first t.size (t.steps first ⟨0, 0⟩)) (hsize : first + t.size = last)
    (hsucc : ∀ b, b < cfg.block_count → ∀ k, (∃ c ∈ (cfg.blocks b).successors, (cfg.blocks
    c).first_instruction = k) ↔ ∃ τ ∈ blockTargets program flow cfg.blocks b, τ ≠ last ∧ k =
      τ.toNat)
    (hexit : ∀ b, b < cfg.block_count → (cfg.blocks b).may_exit = (blockReturns program
      cfg.blocks b || decide ((last : ℤ) ∈ blockTargets program flow cfg.blocks b))) (k : ℕ)
    (target : Option ℕ) : cfg.Step k target ↔ t.Step first k target := by
  rw [HLSLControlFlowGraph.Step]
  constructor
  · rintro ⟨b, hb, hk, hstep⟩
    have hbnds := htiles.covers_bounds hb hk
    rw [hf.step_iff hsize hbnds.1 hbnds.2]
    by_cases hlt : k < (cfg.blocks b).last_instruction
    · rw [if_pos hlt] at hstep
      have hlast := htiles.last_lt hb
      obtain ⟨hedge, -⟩ := edge_targets_of_not_boundary flow
        (not_boundary_of_lt_last htiles hleader hb hk hlt)
      rw [hedge]
      exact .inr (.inr ⟨k + 1, mem_singleton.mpr rfl, by omega, by rw [hstep]; congr 1⟩)
    · obtain rfl : k = (cfg.blocks b).last_instruction := Nat.le_antisymm hk.2 (by omega)
      rw [if_neg hlt] at hstep
      rcases hstep with ⟨c, hc, rfl⟩ | ⟨hmay, rfl⟩
      · obtain ⟨τ, hτ, hne, heq⟩ := (hsucc b hb _).mp ⟨c, hc, rfl⟩
        exact .inr (.inr ⟨τ, hτ, hne, by rw [heq]⟩)
      · rw [hexit b hb, or_eq_true, decide_eq_true_eq, blockReturns, or_eq_true,
          decide_eq_true_eq, decide_eq_true_eq] at hmay
        rcases hmay with hop | hτ
        · exact .inl ⟨rfl, hop⟩
        · exact .inr (.inl ⟨rfl, hτ⟩)
  · intro hstep
    have hrange : first ≤ k ∧ k < last := by
      obtain ⟨target', hmem, -⟩ := hstep
      have := (hf.mem_steps.mp hmem).1
      omega
    rw [hf.step_iff hsize hrange.1 hrange.2] at hstep
    obtain ⟨b, hb, hk⟩ := htiles.exists_covers hrange.1 hrange.2
    refine ⟨b, hb, hk, ?_⟩
    by_cases hlt : k < (cfg.blocks b).last_instruction
    · have hlast := htiles.last_lt hb
      obtain ⟨hedge, hret, hdis⟩ := edge_targets_of_not_boundary flow
        (not_boundary_of_lt_last htiles hleader hb hk hlt)
      rw [if_pos hlt]
      rw [hedge] at hstep
      rcases hstep with ⟨-, hop⟩ | ⟨-, hτ⟩ | ⟨τ, hτ, -, rfl⟩
      · exact absurd hop (not_or.mpr ⟨hret, hdis⟩)
      · have := mem_singleton.mp hτ
        omega
      · rw [mem_singleton.mp hτ]
        congr 1
    · obtain rfl : k = (cfg.blocks b).last_instruction := Nat.le_antisymm hk.2 (by omega)
      rw [if_neg hlt]
      have hmay : program.opcode (cfg.blocks b).last_instruction = RET ∨
          program.opcode (cfg.blocks b).last_instruction = DISCARD ∨
          (last : ℤ) ∈ edge_targets program flow (cfg.blocks b).last_instruction →
          (cfg.blocks b).may_exit := by
        intro h
        rw [hexit b hb, or_eq_true, decide_eq_true_eq, blockReturns, or_eq_true,
          decide_eq_true_eq, decide_eq_true_eq]
        exact or_assoc.mpr h
      rcases hstep with ⟨rfl, hop⟩ | ⟨rfl, hτ⟩ | ⟨τ, hτ, hne, rfl⟩
      · exact .inr ⟨hmay (hop.imp_right .inl), rfl⟩
      · exact .inr ⟨hmay (.inr (.inr hτ)), rfl⟩
      · obtain ⟨c, hc, heq⟩ := (hsucc b hb _).mpr ⟨τ, hτ, hne, rfl⟩
        exact .inl ⟨c, hc, by rw [heq]⟩

/-- What the edge loop leaves is exact when all targets start blocks. `cfg` is the graph
made of it. -/
theorem exactGraph_of_edges {map : BlockMap} {s : EdgeBuilder} (hend : map.end_instruction = last)
    (hcnt : map.block_count = cfg.block_count)
    (hblocks : cfg.blocks = fill_predecessors cfg.block_count s.blocks)
    (hmap : cfg.instruction_block = map.instruction_block)
    (htiles : BlockTiling blocks cfg.block_count first last)
    (hleader : ∀ k, first ≤ k → k < last → (IsLeader program first k ↔ ∃ b, b < cfg.block_count
      ∧ (blocks b).first_instruction = k))
    (hf : Follows program flow first t.size (t.steps first ⟨0, 0⟩)) (hsize : first + t.size = last)
    (hib : ∀ k b, map.instruction_block k = some b ↔ b < cfg.block_count ∧ (blocks b).Covers k)
    (htgt : ∀ b, b < cfg.block_count → ∀ τ ∈ blockTargets program flow blocks b, τ ≠ last → ∃
      c, map.instruction_block τ.toNat = some c ∧ (blocks c).first_instruction = τ.toNat)
    (he : EdgesBelow program flow map blocks cfg.block_count s) :
    ExactGraph first last t cfg ∧
      ∀ b, (cfg.blocks b).first_instruction = (blocks b).first_instruction := by
  have hfill : ∀ b, cfg.blocks b = { s.blocks b with
      predecessors := (range' 0 cfg.block_count).filter
        fun a => b ∈ (s.blocks a).successors } := by
    intro b
    rw [hblocks]
    exact fill_predecessors_spec he.nodup he.predecessors b
  -- The finished blocks differ from the cut ones in their edges only.
  have hfst : ∀ b, (cfg.blocks b).first_instruction = (blocks b).first_instruction :=
    fun b => by rw [hfill, he.first_instruction]
  have hlast : ∀ b, (cfg.blocks b).last_instruction = (blocks b).last_instruction :=
    fun b => by rw [hfill, he.last_instruction]
  have hsucc : ∀ b, (cfg.blocks b).successors = (s.blocks b).successors :=
    fun b => by rw [hfill]
  have htargets : ∀ b, blockTargets program flow cfg.blocks b =
      blockTargets program flow blocks b := fun b => by rw [blockTargets, blockTargets, hlast]
  have htilesG := htiles.congr hfst hlast
  -- The successors are found by the first instructions of the targets.
  have hedges : ∀ b, b < cfg.block_count → ∀ k,
      (∃ c ∈ (cfg.blocks b).successors, (cfg.blocks c).first_instruction = k) ↔
      ∃ τ ∈ blockTargets program flow cfg.blocks b, τ ≠ last ∧ k = τ.toNat := by
    intro b hb k
    simp only [hsucc, hfst, htargets]
    constructor
    · rintro ⟨c, hc, rfl⟩
      obtain ⟨τ, hτ, hne, hc⟩ := (he.mem b hb c).mp hc
      rw [hend] at hne
      obtain ⟨d, hd, heq⟩ := htgt b hb τ hτ hne
      rw [hd, some.injEq] at hc
      exact ⟨τ, hτ, hne, hc ▸ heq⟩
    · rintro ⟨τ, hτ, hne, rfl⟩
      obtain ⟨d, hd, heq⟩ := htgt b hb τ hτ hne
      exact ⟨d, (he.mem b hb d).mpr ⟨τ, hτ, by rwa [hend], hd⟩, heq⟩
  have hexit : ∀ b, b < cfg.block_count → (cfg.blocks b).may_exit =
      (blockReturns program cfg.blocks b ||
        decide ((last : ℤ) ∈ blockTargets program flow cfg.blocks b)) := by
    intro b hb
    have hmay := he.may_exit b hb
    rw [hend] at hmay
    rw [htargets, blockReturns, hlast, hfill]
    exact hmay
  have hstep := graph_step_iff htilesG
    (fun k h1 h2 => by simp only [hfst]; exact hleader k h1 h2) hf hsize hedges hexit
  refine ⟨⟨htilesG, ?_, ?_, ?_, hstep, ?_, ?_⟩, hfst⟩
  · intro k b
    rw [hmap, hib, HLSLBasicBlock.Covers, HLSLBasicBlock.Covers, hfst, hlast]
  · intro b _
    rw [hsucc, ← hcnt]
    exact he.valid b
  · intro b hb target hs
    rw [← hstep] at hs
    obtain ⟨c, hc, hcover, hs⟩ := hs
    obtain rfl : c = b := htilesG.unique hc hb hcover ⟨htilesG.nonempty b hb, Nat.le_refl _⟩
    rw [if_neg (Nat.lt_irrefl _)] at hs
    rcases hs with ⟨d, hd, heq⟩ | ⟨-, h⟩
    · exact ⟨d, hd, (some.inj heq).symm⟩
    · simp at h
  · intro b c _
    rw [hfill c, hsucc, mem_filter, mem_range'_1, decide_eq_true_eq]
    simp
  · intro b _
    rw [hfill b]
    exact ⟨he.nodup b, List.Nodup.filter _ nodup_range'⟩

include hw

/-- **The graph of a well-nested range.** The builder accepts the range, and its graph is
exact. Every leader starts a block. -/
theorem build_graph_exact (hlt : first < last) (hlast : last ≤ program.instruction_count) :
    ∃ cfg, build_graph program first last = some cfg ∧ ExactGraph first last t cfg ∧
      ∀ k, first ≤ k → k < last → IsLeader program first k →
        ∃ b, b < cfg.block_count ∧ (cfg.blocks b).first_instruction = k := by
  obtain ⟨flow, hflow, hlaid⟩ := match_flow_structure_of_tree hw
  have hsize := hw.size
  have hmark : ∀ k, first ≤ k → k < last →
      (mark_leaders program first last k ↔ IsLeader program first k) :=
    fun k h1 h2 => mark_leaders_spec program h1 h2
  obtain ⟨htiles, hleaders, hfresh⟩ := split_blocks_spec hlt
    ((hmark first (Nat.le_refl first) hlt).mpr (.inl rfl))
  generalize hspl : split_blocks (mark_leaders program first last) first last = split
    at htiles hleaders hfresh
  have hleader : ∀ k, first ≤ k → k < last → (IsLeader program first k ↔
      ∃ b, b < split.block_count ∧ (split.blocks b).first_instruction = k) :=
    fun k h1 h2 => (hmark k h1 h2).symm.trans (hleaders k h1 h2)
  have hib : ∀ k b, assign_blocks split k = some b ↔
      b < split.block_count ∧ (split.blocks b).Covers k := fun k b => assign_blocks_spec htiles
  -- Every target starts a block, and that block is found for it.
  have htgt : ∀ b, b < split.block_count →
      ∀ τ ∈ blockTargets program flow split.blocks b, τ = last ∨ (first ≤ τ ∧ τ < last ∧
        ∃ c, c < split.block_count ∧ assign_blocks split τ.toNat = some c ∧
          (split.blocks c).first_instruction = τ.toNat) := by
    intro b hb τ hτ
    refine (target_first hw hlt hlast hlaid htiles hleader hb hτ).imp_right ?_
    rintro ⟨h1, h2, c, hc, hfst⟩
    refine ⟨h1, h2, c, hc, (hib _ _).mpr ⟨hc, Nat.le_of_eq hfst, ?_⟩, hfst⟩
    rw [← hfst]
    exact htiles.nonempty c hc
  have hmax : split.block_count ≤ INT_MAX := by
    have h1 := htiles.count_le
    have h2 := program.instruction_count_le
    omega
  obtain ⟨s, hrun, he⟩ := emit_edges_spec program flow
    ⟨first, last, program.instruction_count, split.block_count, assign_blocks split⟩ hmax hfresh
    (fun b hb τ hτ => (htgt b hb τ hτ).imp_right
      fun ⟨h1, h2, c, hc, hblock, _⟩ => ⟨h1, h2, c, hc, hblock⟩)
    (sum_targets_le hw hlt hlast hlaid htiles)
  simp only at hrun he
  rw [build_graph, hflow]
  simp only [hspl, hrun]
  have hstarts : ∀ b, b < split.block_count → ∀ τ ∈ blockTargets program flow split.blocks b,
      τ ≠ last → ∃ c, assign_blocks split τ.toNat = some c ∧
        (split.blocks c).first_instruction = τ.toNat := by
    intro b hb τ hτ hne
    rcases htgt b hb τ hτ with h | ⟨-, -, c, -, hblock, hfst⟩
    · exact absurd h hne
    · exact ⟨c, hblock, hfst⟩
  refine ⟨_, rfl, And.imp_right ?_ (exactGraph_of_edges rfl rfl rfl rfl htiles hleader
    (hw.follows hlt hlast hlaid) (by omega) hib hstarts he)⟩
  intro hfst k h1 h2 hk
  obtain ⟨b, hb, hbk⟩ := (hleader k h1 h2).mp hk
  exact ⟨b, hb, (hfst b).trans hbk⟩

end Graph

/-! ## The builder -/

section Builder

variable {program : USILProgram} {first last : ℤ} {cfg : HLSLControlFlowGraph}

lemma valid_range_iff : valid_range program first last ↔ 0 ≤ first ∧ first ≤ last ∧
    last ≤ program.instruction_count ∧ ¬ (first = last ∧ program.instruction_count ≠ 0) := by
  rw [valid_range, decide_eq_true_iff]

lemma exactGraph_zeroed (h : t.size = 0) : ExactGraph 0 0 t HLSLControlFlowGraph.zeroed := by
  obtain rfl : t = .nil := by
    cases t <;> simp [size] at h ⊢
  refine ⟨⟨fun h => absurd h (by simp), fun h => absurd h (Nat.lt_irrefl 0),
    fun b hb => absurd hb (Nat.not_lt_zero b), fun b hb => absurd hb (Nat.not_lt_zero _),
    fun h => absurd h (Nat.lt_irrefl 0)⟩, ?_, fun b hb => absurd hb (Nat.not_lt_zero b),
    fun b hb => absurd hb (Nat.not_lt_zero b), ?_, fun b c hc => absurd hc (Nat.not_lt_zero c),
    fun b hb => absurd hb (Nat.not_lt_zero b)⟩
  · intro k b
    constructor
    · intro h
      exact absurd h (by simp [HLSLControlFlowGraph.zeroed])
    · rintro ⟨hb, -⟩
      exact absurd hb (Nat.not_lt_zero b)
  · intro k target
    constructor
    · rintro ⟨b, hb, -⟩
      exact absurd hb (Nat.not_lt_zero b)
    · rintro ⟨target', hmem, -⟩
      simp [steps] at hmem

variable (h : build_control_flow_graph_range program .zeroed first last = some cfg)

include h

lemma exists_tree_of_build : ∃ t, WellNestedRange program first.toNat last.toNat t := by
  rw [build_control_flow_graph_range] at h
  split_ifs at h with hvalid hempty
  · rw [Bool.not_eq_true', Bool.not_eq_false, valid_range_iff] at hvalid
    refine ⟨.nil, ?_, rfl, Nat.zero_le _⟩
    rw [show last.toNat - first.toNat = 0 by omega]
    rfl
  · rw [build_graph] at h
    cases hflow : match_flow_structure program first.toNat last.toNat with
    | none => simp [hflow] at h
    | some flow => exact exists_tree_of_match_flow_structure hflow

omit h in
lemma build_of_tree (hvalid : valid_range program first last)
    (hw : WellNestedRange program first.toNat last.toNat t) :
    ∃ cfg, build_control_flow_graph_range program .zeroed first last = some cfg ∧
      ExactGraph first.toNat last.toNat t cfg := by
  have hrange := valid_range_iff.mp hvalid
  have hsize := hw.size
  rw [build_control_flow_graph_range, hvalid, if_neg (by decide)]
  by_cases hempty : program.instruction_count = 0
  · rw [if_pos hempty]
    refine ⟨_, rfl, ?_⟩
    rw [show first.toNat = 0 by omega, show last.toNat = 0 by omega]
    exact exactGraph_zeroed (by omega)
  · rw [if_neg hempty, if_neg (by decide)]
    obtain ⟨cfg, hcfg, hex, -⟩ := build_graph_exact hw (by omega) (by omega)
    exact ⟨cfg, hcfg, hex⟩

lemma valid_range_of_build : valid_range program first last := by
  rw [build_control_flow_graph_range] at h
  by_contra hvalid
  rw [Bool.not_eq_true] at hvalid
  simp [hvalid] at h

lemma exactGraph_of_build (hw : WellNestedRange program first.toNat last.toNat t) :
    ExactGraph first.toNat last.toNat t cfg := by
  obtain ⟨cfg', hbuild, hex⟩ := build_of_tree (valid_range_of_build h) hw
  rw [h, some.injEq] at hbuild
  rwa [hbuild]

end Builder

/-- **The control-flow graph is exact.** What the builder accepts spells a well-nested
tree, and the graph is that of the tree: the blocks partition the range, jumps go to the
first instruction of a successor, the steps of the graph are the steps of the tree, and
the predecessor lists are the inverse of the successor lists. A range of the program is
refused only if it spells no well-nested tree of at most 64 nested constructs. -/
theorem build_control_flow_graph_range_exact (program : USILProgram) (first last : ℤ) :
    (∀ cfg, build_control_flow_graph_range program .zeroed first last = some cfg →
      (∃ t, WellNestedRange program first.toNat last.toNat t) ∧
      ∀ t, WellNestedRange program first.toNat last.toNat t →
        ExactGraph first.toNat last.toNat t cfg) ∧
    (valid_range program first last →
      build_control_flow_graph_range program .zeroed first last = none →
      ¬ ∃ t, WellNestedRange program first.toNat last.toNat t) := by
  refine ⟨fun cfg h => ⟨exists_tree_of_build h, fun t hw => exactGraph_of_build h hw⟩, ?_⟩
  rintro hvalid hnone ⟨t, hw⟩
  obtain ⟨cfg, hbuild, -⟩ := build_of_tree hvalid hw
  rw [hnone] at hbuild
  simp at hbuild

def programOfOpcodes (opcodes : List USILOpcode) (h : opcodes.length ≤ INT_MAX) : USILProgram where
  instructions := opcodes.map fun opcode => { USILInstruction.zeroed with opcode }
  temp_count := 0
  count_le := by simpa using h

/-- A loop with a conditional break, and an `ELSE` without an `IF`. -/
theorem loop_with_break_graph : (∃ cfg, build_control_flow_graph_range
        (programOfOpcodes [LOOP, IF, BREAK, ENDIF, ENDLOOP, RET] (by decide)) .zeroed 0 6 =
          some cfg ∧
      ∀ t, WellNestedRange (programOfOpcodes [LOOP, IF, BREAK, ENDIF, ENDLOOP, RET] (by decide))
        0 6 t → ExactGraph 0 6 t cfg) ∧
    ¬ ∃ t, WellNestedRange (programOfOpcodes [ELSE] (by decide)) 0 1 t := by
  have hsome : (build_control_flow_graph_range
      (programOfOpcodes [LOOP, IF, BREAK, ENDIF, ENDLOOP, RET] (by decide)) .zeroed 0 6).isSome := by
    decide +kernel
  obtain ⟨cfg, hcfg⟩ := isSome_iff_exists.mp hsome
  refine ⟨⟨cfg, hcfg, ((build_control_flow_graph_range_exact _ 0 6).1 cfg hcfg).2⟩, ?_⟩
  exact (build_control_flow_graph_range_exact (programOfOpcodes [ELSE] (by decide)) 0 1).2
    (by decide) rfl

end DXBCSandbox
