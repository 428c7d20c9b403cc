/-
What the matcher accepts is well nested.

An accepted run is read backwards: in front of the end nothing is open, and each
instruction either starts a statement of the innermost open construct or closes it. The
instructions still to come therefore complete every open construct, and with nothing
open they are a tree.
-/
import DXBCSandbox.Cfg.FlowLayout

namespace DXBCSandbox

open List Option USILOpcode

/-! ## Open constructs and what completes them -/

/-- An open construct, as far as it decides what may come next. -/
inductive Frame where
  | ifOpen
  | elseOpen
  | loop
  | switch (defaulted : Bool)
  deriving DecidableEq

namespace Frame

def closer : Frame → USILOpcode
  | ifOpen | elseOpen => ENDIF
  | loop => ENDLOOP
  | switch _ => ENDSWITCH

/-- What surrounds a statement, from the open constructs around it. -/
def inside : List Frame → Enclosing
  | [] => .top
  | ifOpen :: outer | elseOpen :: outer => (inside outer).arm
  | loop :: _ => .loopBody
  | switch _ :: outer => (inside outer).switchBody

end Frame

/-- The instructions complete the open constructs: the innermost one gets the rest of
its statements and its end, and what follows completes the others. -/
inductive Completes : List Frame → List USILOpcode → Prop
  | top (t : FlowTree) : t.wellNested .top → t.depth ≤ MAX_FLOW_DEPTH → Completes [] t.tokens
  | close (f : Frame) (outer : List Frame) (t : FlowTree) (rest : List USILOpcode) :
      t.wellNested (Frame.inside (f :: outer)) → t.depth + (outer.length + 1) ≤ MAX_FLOW_DEPTH →
      (∀ d, f = .switch d → t.defaults + d.toNat ≤ 1) → Completes outer rest →
      Completes (f :: outer) (t.tokens ++ f.closer :: rest)
  | alternate (outer : List Frame) (t : FlowTree) (rest : List USILOpcode) :
      t.wellNested (Frame.inside (.ifOpen :: outer)) →
      t.depth + (outer.length + 1) ≤ MAX_FLOW_DEPTH → Completes (.elseOpen :: outer) rest →
      Completes (.ifOpen :: outer) (t.tokens ++ ELSE :: rest)

namespace Completes

variable {frames : List Frame} {opcodes : List USILOpcode}

/-- A statement in front of the rest of the innermost construct. `g` puts the statement
in front of a list. -/
theorem prepend (h : Completes frames opcodes) (g : FlowTree → FlowTree)
    (before : List USILOpcode) (depth : ℕ) (htokens : ∀ t, (g t).tokens = before ++ t.tokens)
    (hwf : ∀ t : FlowTree, t.wellNested (Frame.inside frames) →
      (g t).wellNested (Frame.inside frames))
    (hdepth : ∀ t, (g t).depth = max depth t.depth)
    (hbnd : depth + frames.length ≤ MAX_FLOW_DEPTH)
    (hdflts : ∀ t, (g t).defaults = t.defaults) : Completes frames (before ++ opcodes) := by
  cases h with
  | top t ht hd =>
    rw [← htokens]
    refine .top (g t) (hwf t ht) ?_
    rw [hdepth]
    simp only [length_nil] at hbnd
    omega
  | close f outer t rest ht hd hdef hrest =>
    rw [← append_assoc, ← htokens]
    refine .close f outer (g t) rest (hwf t ht) ?_ (by rwa [hdflts]) hrest
    rw [hdepth]
    simp only [length_cons] at hbnd
    omega
  | alternate outer t rest ht hd hrest =>
    rw [← append_assoc, ← htokens]
    refine .alternate outer (g t) rest (hwf t ht) ?_ hrest
    rw [hdepth]
    simp only [length_cons] at hbnd
    omega

lemma op (h : Completes frames opcodes) (hlen : frames.length ≤ MAX_FLOW_DEPTH)
    {opcode : USILOpcode} (hall : (Frame.inside frames).allows opcode)
    (hdflt : opcode ≠ DEFAULT) : Completes frames (opcode :: opcodes) := by
  refine h.prepend (.op opcode) [opcode] 0 (fun t => rfl) (fun t ht => ?_) (fun t => ?_)
    (by omega) (fun t => ?_)
  · rw [FlowTree.wellNested, hall, ht]
    rfl
  · rw [FlowTree.depth]
    omega
  · simp [FlowTree.defaults, hdflt]

lemma default {outer : List Frame} (h : Completes (.switch true :: outer) opcodes) :
    Completes (.switch false :: outer) (DEFAULT :: opcodes) := by
  cases h with
  | close f outer t rest ht hd hdef hrest =>
    refine .close (.switch false) outer (.op DEFAULT t) rest ?_ hd ?_ hrest
    · have hall : (Frame.inside (.switch false :: outer)).allows DEFAULT = true := rfl
      rw [FlowTree.wellNested, hall]
      exact ht
    · intro d hd'
      obtain rfl : false = d := Frame.switch.inj hd'
      have := hdef true rfl
      simp only [Bool.toNat_true] at this
      simp only [FlowTree.defaults, Bool.toNat_false, if_true]
      omega

lemma ifOpen (h : Completes (.ifOpen :: frames) opcodes) : Completes frames (IF :: opcodes) := by
  cases h with
  | close f outer t rest ht hd hdef hrest =>
    have hbefore := hrest.prepend (.ifThen t) (IF :: (t.tokens ++ [ENDIF])) (t.depth + 1)
      (fun u => by simp [FlowTree.tokens])
      (fun u hu => by
        rw [FlowTree.wellNested, hu, Bool.and_true]
        exact ht)
      (fun u => rfl) (by omega) (fun u => rfl)
    simpa [Frame.closer] using hbefore
  | alternate outer t rest ht hd hrest =>
    cases hrest with
    | close f outer u rest hu hd' hdef hrest =>
      have hbefore := hrest.prepend (.ifElse t u)
        (IF :: (t.tokens ++ ELSE :: (u.tokens ++ [ENDIF]))) (max t.depth u.depth + 1)
        (fun v => by simp [FlowTree.tokens])
        (fun v hv => by
          rw [FlowTree.wellNested, hv, Bool.and_true, Bool.and_eq_true]
          exact ⟨ht, hu⟩)
        (fun v => rfl) (by omega) (fun v => rfl)
      simpa [Frame.closer] using hbefore

lemma loop (h : Completes (.loop :: frames) opcodes) : Completes frames (LOOP :: opcodes) := by
  cases h with
  | close f outer t rest ht hd hdef hrest =>
    have hbefore := hrest.prepend (.loop t) (LOOP :: (t.tokens ++ [ENDLOOP])) (t.depth + 1)
      (fun u => by simp [FlowTree.tokens])
      (fun u hu => by
        rw [FlowTree.wellNested, hu, Bool.and_true]
        exact ht)
      (fun u => rfl) (by omega) (fun u => rfl)
    simpa [Frame.closer] using hbefore

lemma switch (h : Completes (.switch false :: frames) opcodes) :
    Completes frames (SWITCH :: opcodes) := by
  cases h with
  | close f outer t rest ht hd hdef hrest =>
    have hone : t.defaults ≤ 1 := hdef false rfl
    have hbefore := hrest.prepend (.switch t) (SWITCH :: (t.tokens ++ [ENDSWITCH]))
      (t.depth + 1) (fun u => by simp [FlowTree.tokens])
      (fun u hu => by
        rw [FlowTree.wellNested, hu, Bool.and_true, Bool.and_eq_true, decide_eq_true_eq]
        exact ⟨ht, hone⟩)
      (fun u => rfl) (by omega) (fun u => rfl)
    simpa [Frame.closer] using hbefore

lemma closing (h : Completes frames opcodes) (f : Frame)
    (hlen : (f :: frames).length ≤ MAX_FLOW_DEPTH) :
    Completes (f :: frames) (f.closer :: opcodes) := by
  refine .close f frames .nil opcodes rfl ?_ ?_ h
  · simp only [length_cons] at hlen
    simp only [FlowTree.depth]
    omega
  · intro d _
    cases d <;> simp [FlowTree.defaults]

lemma exists_tree (h : Completes [] opcodes) :
    ∃ t : FlowTree, opcodes = t.tokens ∧ t.wellNested .top ∧ t.depth ≤ MAX_FLOW_DEPTH := by
  cases h with
  | top t ht hd => exact ⟨t, rfl, ht, hd⟩

lemma elseOpen (h : Completes (.elseOpen :: frames) opcodes)
    (hlen : frames.length + 1 ≤ MAX_FLOW_DEPTH) :
    Completes (.ifOpen :: frames) (ELSE :: opcodes) :=
  .alternate frames .nil opcodes rfl (by simp only [FlowTree.depth]; omega) h

end Completes

/-! ## The frames of a matcher state -/

def FlowMatcher.openers (s : FlowMatcher) : List ℕ := s.stack.map OpenScope.opener

/-- The open construct behind an opener. -/
def frameOf (program : USILProgram) (s : FlowMatcher) (opener : ℕ) : Frame :=
  if program.opcode opener = LOOP then .loop
  else if program.opcode opener = SWITCH then .switch (s.flow opener).has_default
  else if (s.flow opener).alternate.isSome then .elseOpen
  else .ifOpen

def framesOf (program : USILProgram) (s : FlowMatcher) : List Frame :=
  s.openers.map (frameOf program s)

/-- What holds between two iterations: the openers are opening instructions before `i`,
all different, and nothing is recorded from `i` on. -/
structure Open (program : USILProgram) (s : FlowMatcher) (i : ℕ) : Prop where
  opening : ∀ o ∈ s.openers, program.opcode o = IF ∨ program.opcode o = LOOP ∨
    program.opcode o = SWITCH
  lt : ∀ o ∈ s.openers, o < i
  nodup : s.openers.Nodup
  alternate : ∀ k, i ≤ k → (s.flow k).alternate = none
  has_default : ∀ k, i ≤ k → (s.flow k).has_default = false
  length : s.openers.length ≤ MAX_FLOW_DEPTH

/-- What one successful iteration can do to the frames. -/
inductive StepKind (program : USILProgram) (s : FlowMatcher) (i : ℕ) (s' : FlowMatcher) : Prop
  | statement : s'.openers = s.openers →
      (∀ k, (s'.flow k).alternate = (s.flow k).alternate) →
      (∀ k, (s'.flow k).has_default = (s.flow k).has_default) →
      (Frame.inside (framesOf program s)).allows (program.opcode i) →
      program.opcode i ≠ DEFAULT → StepKind program s i s'
  | default (o : ℕ) (outer : List ℕ) : s.openers = o :: outer → s'.openers = s.openers →
      program.opcode i = DEFAULT → program.opcode o = SWITCH →
      (s.flow o).has_default = false → (s'.flow o).has_default = true →
      (∀ k, (s'.flow k).alternate = (s.flow k).alternate) →
      (∀ k, k ≠ o → (s'.flow k).has_default = (s.flow k).has_default) → StepKind program s i s'
  | opening : s'.openers = i :: s.openers →
      (∀ k, (s'.flow k).alternate = (s.flow k).alternate) →
      (∀ k, (s'.flow k).has_default = (s.flow k).has_default) →
      (program.opcode i = IF ∨ program.opcode i = LOOP ∨ program.opcode i = SWITCH) →
      s.openers.length < MAX_FLOW_DEPTH → StepKind program s i s'
  | alternate (o : ℕ) (outer : List ℕ) : s.openers = o :: outer → s'.openers = s.openers →
      program.opcode i = ELSE → program.opcode o = IF →
      (s.flow o).alternate = none → (s'.flow o).alternate = some i →
      (∀ k, k ≠ o → (s'.flow k).alternate = (s.flow k).alternate) →
      (∀ k, (s'.flow k).has_default = (s.flow k).has_default) → StepKind program s i s'
  | closing (o : ℕ) : s.openers = o :: s'.openers →
      (program.opcode i = ENDIF ∨ program.opcode i = ENDLOOP ∨ program.opcode i = ENDSWITCH) →
      program.opcode o = required_opener (program.opcode i) →
      (∀ k, (s'.flow k).alternate = (s.flow k).alternate) →
      (∀ k, (s'.flow k).has_default = (s.flow k).has_default) → StepKind program s i s'

section Frames

variable {program : USILProgram} {s s' : FlowMatcher} {i : ℕ}

/-- The frames of openers whose alternate and default did not change. -/
theorem map_frameOf_congr {openers : List ℕ}
    (ha : ∀ o ∈ openers, (s'.flow o).alternate = (s.flow o).alternate)
    (hd : ∀ o ∈ openers, (s'.flow o).has_default = (s.flow o).has_default) :
    openers.map (frameOf program s') = openers.map (frameOf program s) := by
  refine map_congr_left fun o ho => ?_
  rw [frameOf, frameOf, ha o ho, hd o ho]

/-- The stack offers a scope to a jump exactly when the frames promise one. -/
theorem jump_target_frames {stack : List OpenScope}
    (hopening : ∀ o ∈ stack.map OpenScope.opener, program.opcode o = IF ∨
      program.opcode o = LOOP ∨ program.opcode o = SWITCH) :
    (jump_target program false stack).isSome = (Frame.inside
        ((stack.map OpenScope.opener).map (frameOf program s))).inBreakable ∧
      (jump_target program true stack).isSome = (Frame.inside
        ((stack.map OpenScope.opener).map (frameOf program s))).inLoop := by
  induction stack with
  | nil => exact ⟨rfl, rfl⟩
  | cons scope outer ih =>
    obtain ⟨ihb, ihl⟩ := ih (forall_mem_cons.mp hopening).2
    simp only [jump_target, map_cons, find?_cons] at ihb ihl ⊢
    rcases hopening scope.opener mem_cons_self with h | h | h
    · have harm : Frame.inside (frameOf program s scope.opener ::
          (outer.map OpenScope.opener).map (frameOf program s)) =
          (Frame.inside ((outer.map OpenScope.opener).map (frameOf program s))).arm := by
        simp only [frameOf, h, reduceCtorEq, if_false]
        split_ifs <;> rfl
      rw [harm, h]
      exact ⟨ihb, ihl⟩
    · simp [frameOf, h, is_jump_scope, Frame.inside, Enclosing.loopBody]
    · have hframe : frameOf program s scope.opener = .switch (s.flow scope.opener).has_default := by
        simp [frameOf, h]
      rw [hframe, h]
      exact ⟨rfl, ihl⟩

lemma Open.jump_target (ho : Open program s i) : (jump_target program false s.stack).isSome =
        (Frame.inside (framesOf program s)).inBreakable ∧
      (jump_target program true s.stack).isSome = (Frame.inside (framesOf program s)).inLoop :=
  jump_target_frames ho.opening

lemma modify_alternate {index : ℕ} {f : HLSLInstructionFlow → HLSLInstructionFlow}
    (hf : ∀ e, (f e).alternate = e.alternate) (k : ℕ) :
    ((s.modify index f).flow k).alternate = (s.flow k).alternate := by
  rw [FlowMatcher.modify_flow]
  split_ifs with h
  · rw [hf, h]
  · rfl

lemma modify_has_default {index : ℕ} {f : HLSLInstructionFlow → HLSLInstructionFlow}
    (hf : ∀ e, (f e).has_default = e.has_default) (k : ℕ) :
    ((s.modify index f).flow k).has_default = (s.flow k).has_default := by
  rw [FlowMatcher.modify_flow]
  split_ifs with h
  · rw [hf, h]
  · rfl

lemma enter_alternate (k : ℕ) : ((s.enter i).flow k).alternate = (s.flow k).alternate := by
  simp only [FlowMatcher.enter, modify_alternate, implies_true]

lemma enter_has_default (k : ℕ) : ((s.enter i).flow k).has_default = (s.flow k).has_default := by
  simp only [FlowMatcher.enter, modify_has_default, implies_true]

lemma stepKind_open (hop : program.opcode i = IF ∨ program.opcode i = LOOP ∨
    program.opcode i = SWITCH) (ho : Open program s i) (h : match_open (s.enter i) i = some s') :
    StepKind program s i s' := by
  rw [match_open] at h
  by_cases hlen : (s.enter i).stack.length = MAX_FLOW_DEPTH
  · rw [if_pos hlen] at h
    simp at h
  rw [if_neg hlen] at h
  obtain rfl := some.inj h
  have hlen' := ho.length
  rw [FlowMatcher.openers, length_map] at hlen'
  rw [FlowMatcher.enter_stack] at hlen
  refine .opening rfl enter_alternate enter_has_default hop ?_
  rw [FlowMatcher.openers, length_map]
  omega

lemma stepKind_else (hop : program.opcode i = ELSE)
    (h : match_else program (s.enter i) i = some s') : StepKind program s i s' := by
  simp only [match_else, FlowMatcher.enter_stack] at h
  cases hs : s.stack with
  | nil => simp [hs] at h
  | cons scope outer =>
    simp only [hs] at h
    split_ifs at h with hguard
    obtain rfl := some.inj h
    rw [not_or, not_not, enter_alternate, not_isSome_iff_eq_none] at hguard
    refine .alternate scope.opener (outer.map OpenScope.opener) ?_ rfl hop hguard.1 hguard.2
      ?_ (fun k hk => ?_) (fun k => ?_)
    · rw [FlowMatcher.openers, hs]
      rfl
    · simp only [modify_alternate, implies_true]
      rw [FlowMatcher.modify_flow, if_pos rfl]
    · simp only [modify_alternate, implies_true]
      rw [FlowMatcher.modify_flow, if_neg hk, enter_alternate]
    · simp only [modify_has_default, enter_has_default, implies_true]

lemma stepKind_end (hop : program.opcode i = ENDIF ∨ program.opcode i = ENDLOOP ∨
    program.opcode i = ENDSWITCH) (h : match_end program (s.enter i) i = some s') :
    StepKind program s i s' := by
  simp only [match_end, FlowMatcher.enter_stack] at h
  cases hs : s.stack with
  | nil => simp [hs] at h
  | cons scope outer =>
    simp only [hs] at h
    split_ifs at h with hguard
    obtain rfl := some.inj h
    rw [not_not] at hguard
    refine .closing scope.opener ?_ hop hguard (fun k => ?_) (fun k => ?_)
    · rw [FlowMatcher.openers, hs]
      rfl
    · split <;> simp only [modify_alternate, enter_alternate, implies_true]
    · split <;> simp only [modify_has_default, enter_has_default, implies_true]

lemma stepKind_label (hop : program.opcode i = CASE ∨ program.opcode i = DEFAULT)
    (h : match_label program (s.enter i) i = some s') : StepKind program s i s' := by
  simp only [match_label, FlowMatcher.enter_stack] at h
  cases hs : s.stack with
  | nil => simp [hs] at h
  | cons scope outer =>
    simp only [hs] at h
    split_ifs at h with hguard hd
    all_goals
      obtain rfl := some.inj h
      rw [not_or, not_not, enter_has_default] at hguard
      have hopeners : s.openers = scope.opener :: outer.map OpenScope.opener := by
        rw [FlowMatcher.openers, hs]
        rfl
    · refine .default scope.opener (outer.map OpenScope.opener) hopeners hopeners.symm hd
        hguard.1 (by simpa [hd] using hguard.2) ?_ (fun k => ?_) (fun k hk => ?_)
      · split <;> simp only [modify_has_default, implies_true] <;>
          rw [FlowMatcher.modify_flow, if_pos rfl]
      · split <;> simp only [modify_alternate, enter_alternate, implies_true]
      · split <;> simp only [modify_has_default, implies_true] <;>
          rw [FlowMatcher.modify_flow, if_neg hk, enter_has_default]
    · refine .statement hopeners.symm (fun k => ?_) (fun k => ?_) ?_ hd
      · split <;> simp only [modify_alternate, enter_alternate, implies_true]
      · split <;> simp only [modify_has_default, enter_has_default, implies_true]
      · have hcase : program.opcode i = CASE := hop.resolve_right hd
        rw [framesOf, hopeners, map_cons, frameOf, if_neg (by rw [hguard.1]; decide),
          if_pos hguard.1, hcase]
        rfl

lemma stepKind_jump (hop : program.opcode i = BREAK ∨ program.opcode i = BREAKC ∨
    program.opcode i = CONTINUE ∨ program.opcode i = CONTINUEC) (ho : Open program s i)
    (h : match_jump program (s.enter i) i = some s') : StepKind program s i s' := by
  obtain ⟨hbreak, hloop⟩ := ho.jump_target
  simp only [match_jump, FlowMatcher.enter_stack] at h
  cases htgt : jump_target program
      (program.opcode i = CONTINUE || program.opcode i = CONTINUEC) s.stack with
  | none => simp [htgt] at h
  | some opener =>
    simp only [htgt, some.injEq] at h
    subst h
    refine .statement rfl (fun k => ?_) (fun k => ?_) ?_ ?_
    · simp only [modify_alternate, enter_alternate, implies_true]
    · simp only [modify_has_default, enter_has_default, implies_true]
    · rcases hop with h | h | h | h <;> simp only [h] at htgt ⊢
      · exact hbreak.symm.trans (by rw [show jump_target program false s.stack = _ from htgt]; rfl)
      · exact hbreak.symm.trans (by rw [show jump_target program false s.stack = _ from htgt]; rfl)
      · exact hloop.symm.trans (by rw [show jump_target program true s.stack = _ from htgt]; rfl)
      · exact hloop.symm.trans (by rw [show jump_target program true s.stack = _ from htgt]; rfl)
    · rcases hop with h | h | h | h <;> rw [h] <;> decide

lemma match_flow_step_kind (ho : Open program s i)
    (h : match_flow_step program s i = some s') : StepKind program s i s' := by
  rw [match_flow_step] at h
  split_ifs at h with hopen helse hend hlabel hjump
  · exact stepKind_open hopen ho h
  · exact stepKind_else helse h
  · exact stepKind_end hend h
  · exact stepKind_label hlabel h
  · exact stepKind_jump hjump ho h
  · obtain rfl := some.inj h
    refine .statement rfl enter_alternate enter_has_default ?_ (fun hd => hlabel (.inr hd))
    simp only [not_or] at hopen helse hend hlabel hjump
    simp [Enclosing.allows, isLabel, isBreak, isContinue, isDelimiter, hopen, helse, hend, hlabel,
      hjump]

lemma StepKind.open (h : StepKind program s i s') (ho : Open program s i) :
    Open program s' (i + 1) := by
  -- Four kinds keep what is recorded above `i`; only the openers differ.
  have hlt : ∀ o ∈ s.openers, o < i + 1 := fun o hm => Nat.lt_succ_of_lt (ho.lt o hm)
  cases h with
  | statement hs ha hd =>
    rw [← hs] at hlt
    exact ⟨hs ▸ ho.opening, hlt, hs ▸ ho.nodup, fun k hk => by rw [ha, ho.alternate k (by omega)],
      fun k hk => by rw [hd, ho.has_default k (by omega)], hs ▸ ho.length⟩
  | default o outer hs hs' hop hsw hd hd' ha hne =>
    have ho' : o < i := ho.lt o (by rw [hs]; exact mem_cons_self)
    rw [← hs'] at hlt
    exact ⟨hs' ▸ ho.opening, hlt, hs' ▸ ho.nodup, fun k hk => by rw [ha, ho.alternate k (by omega)],
      fun k hk => by rw [hne k (by omega), ho.has_default k (by omega)], hs' ▸ ho.length⟩
  | opening hs ha hd hop hlen =>
    refine ⟨?_, ?_, ?_, fun k hk => by rw [ha, ho.alternate k (by omega)],
      fun k hk => by rw [hd, ho.has_default k (by omega)], ?_⟩
    · rw [hs]
      intro o hm
      rcases mem_cons.mp hm with rfl | hm
      · exact hop
      · exact ho.opening o hm
    · rw [hs]
      intro o hm
      rcases mem_cons.mp hm with rfl | hm
      · exact Nat.lt_succ_self _
      · exact hlt o hm
    · rw [hs, nodup_cons]
      exact ⟨fun hm => Nat.lt_irrefl i (ho.lt i hm), ho.nodup⟩
    · rw [hs, length_cons]
      omega
  | alternate o outer hs hs' hop hif ha ha' hne hd =>
    have ho' : o < i := ho.lt o (by rw [hs]; exact mem_cons_self)
    rw [← hs'] at hlt
    exact ⟨hs' ▸ ho.opening, hlt, hs' ▸ ho.nodup,
      fun k hk => by rw [hne k (by omega), ho.alternate k (by omega)],
      fun k hk => by rw [hd, ho.has_default k (by omega)], hs' ▸ ho.length⟩
  | closing o hs hop hreq ha hd =>
    have hmem : ∀ o' ∈ s'.openers, o' ∈ s.openers := by
      rw [hs]
      exact fun o' hm => mem_cons_of_mem _ hm
    have hnodup := ho.nodup
    have hlen := ho.length
    rw [hs] at hnodup hlen
    exact ⟨fun o' hm => ho.opening o' (hmem o' hm), fun o' hm => hlt o' (hmem o' hm),
      (nodup_cons.mp hnodup).2, fun k hk => by rw [ha, ho.alternate k (by omega)],
      fun k hk => by rw [hd, ho.has_default k (by omega)],
      Nat.le_of_succ_le hlen⟩

/-- If the instructions after `i` complete the constructs open there, the instructions
from `i` on complete those open before. -/
theorem StepKind.completes (h : StepKind program s i s') (ho : Open program s i)
    {opcodes : List USILOpcode} (hc : Completes (framesOf program s') opcodes) :
    Completes (framesOf program s) (program.opcode i :: opcodes) := by
  have hlen : (framesOf program s).length ≤ MAX_FLOW_DEPTH := by
    rw [framesOf, length_map]
    exact ho.length
  cases h with
  | statement hs ha hd hall hne =>
    rw [framesOf, hs, map_frameOf_congr (fun o _ => ha o) (fun o _ => hd o)] at hc
    exact hc.op hlen hall hne
  | default o outer hs hs' hop hsw hd hd' ha hne =>
    have hnodup := ho.nodup
    rw [hs, nodup_cons] at hnodup
    have hframe : framesOf program s' = .switch true :: outer.map (frameOf program s) := by
      rw [framesOf, hs', hs, map_cons, map_frameOf_congr (s := s) (fun o' _ => ha o')
        (fun o' hm => hne o' (fun h => hnodup.1 (h ▸ hm)))]
      simp [frameOf, hsw, hd']
    have hframe' : framesOf program s = .switch false :: outer.map (frameOf program s) := by
      rw [framesOf, hs, map_cons]
      simp [frameOf, hsw, hd]
    rw [hframe] at hc
    rw [hframe', hop]
    exact hc.default
  | opening hs ha hd hop _ =>
    have hframe : framesOf program s' = frameOf program s i :: framesOf program s := by
      rw [framesOf, hs, map_frameOf_congr (s := s) (fun o _ => ha o) (fun o _ => hd o),
        map_cons, framesOf]
    rw [hframe, frameOf, ho.alternate i (Nat.le_refl i), ho.has_default i (Nat.le_refl i)] at hc
    rcases hop with hop | hop | hop <;> rw [hop] at hc ⊢
    · exact hc.ifOpen
    · exact hc.loop
    · exact hc.switch
  | alternate o outer hs hs' hop hif ha ha' hne hd =>
    have hnodup := ho.nodup
    rw [hs, nodup_cons] at hnodup
    have hframe : framesOf program s' = .elseOpen :: outer.map (frameOf program s) := by
      rw [framesOf, hs', hs, map_cons, map_frameOf_congr (s := s)
        (fun o' hm => hne o' (fun h => hnodup.1 (h ▸ hm))) (fun o' _ => hd o')]
      simp [frameOf, hif, ha']
    have hframe' : framesOf program s = .ifOpen :: outer.map (frameOf program s) := by
      rw [framesOf, hs, map_cons]
      simp [frameOf, hif, ha]
    rw [hframe', length_cons] at hlen
    rw [hframe] at hc
    rw [hframe', hop]
    exact hc.elseOpen hlen
  | closing o hs hop hreq ha hd =>
    have hframe : framesOf program s = frameOf program s o :: framesOf program s' := by
      rw [framesOf, hs, map_cons, framesOf,
        map_frameOf_congr (s := s) (fun o _ => ha o) (fun o _ => hd o)]
    have hcloser : (frameOf program s o).closer = program.opcode i := by
      rcases hop with hop | hop | hop <;> rw [hop] at hreq ⊢ <;>
        simp only [frameOf, hreq, required_opener, reduceCtorEq, if_true, if_false]
      · split_ifs <;> rfl
      · rfl
      · rfl
    rw [hframe] at hlen ⊢
    rw [← hcloser]
    exact hc.closing _ hlen

lemma match_flow_loop_completes {count : ℕ} (ho : Open program s i)
    (h : match_flow_loop program s i count = some s') (hend : s'.stack = []) :
    Completes (framesOf program s) ((List.range' i count).map program.opcode) := by
  induction count generalizing s i with
  | zero =>
    obtain rfl := some.inj h
    have hframes : framesOf program s = [] := by
      rw [framesOf, FlowMatcher.openers, hend]
      rfl
    rw [hframes]
    exact .top .nil rfl (by decide)
  | succ count ih =>
    rw [match_flow_loop_succ] at h
    obtain ⟨s₁, hstep, hrest⟩ := bind_eq_some_iff.mp h
    have hkind := match_flow_step_kind ho hstep
    rw [range'_succ, map_cons]
    exact hkind.completes ho (ih (hkind.open ho) hrest)

end Frames

/-! ## The language of the matcher -/

/-- The instructions from `first` up to `last` spell the tree, which is well nested and
at most 64 constructs deep. -/
structure WellNestedRange (program : USILProgram) (first last : ℕ) (t : FlowTree) : Prop where
  tokens : (List.range' first (last - first)).map program.opcode = t.tokens
  wellNested : t.wellNested .top
  depth : t.depth ≤ MAX_FLOW_DEPTH

lemma spells_range' (program : USILProgram) (i n : ℕ) :
    Spells program i ((List.range' i n).map program.opcode) := by
  induction n generalizing i with
  | zero => trivial
  | succ n ih =>
    rw [range'_succ, map_cons]
    exact ⟨rfl, ih (i + 1)⟩

lemma WellNestedRange.size {program : USILProgram} {first last : ℕ} {t : FlowTree}
    (h : WellNestedRange program first last t) : t.size = last - first := by
  rw [← FlowTree.length_tokens, ← h.tokens, length_map, length_range']

/-- **The matcher accepts exactly the well-nested streams.** What it accepts spells a
tree. -/
theorem exists_tree_of_match_flow_structure {program : USILProgram} {first last : ℕ}
    {flow : ℕ → HLSLInstructionFlow} (h : match_flow_structure program first last = some flow) :
    ∃ t, WellNestedRange program first last t := by
  rw [match_flow_structure] at h
  cases hrun : match_flow_loop program ⟨[], fun _ => .unlinked⟩ first (last - first) with
  | none => simp [hrun] at h
  | some s' =>
    rw [hrun] at h
    have hend : s'.stack = [] := by
      by_contra hne
      simp [hne] at h
    have ho : Open program ⟨[], fun _ => .unlinked⟩ first :=
      ⟨by simp [FlowMatcher.openers], by simp [FlowMatcher.openers],
        by simp [FlowMatcher.openers], fun _ _ => rfl, fun _ _ => rfl,
        by simp [FlowMatcher.openers]⟩
    obtain ⟨t, htokens, hwf, hdepth⟩ := (match_flow_loop_completes ho hrun hend).exists_tree
    exact ⟨t, htokens, hwf, hdepth⟩

/-- The other direction, with the table: a stream that spells a tree is accepted, and the
table links it the way the tree does. -/
theorem match_flow_structure_of_tree {program : USILProgram} {first last : ℕ} {t : FlowTree}
    (h : WellNestedRange program first last t) :
    ∃ flow, match_flow_structure program first last = some flow ∧
      LaidOut flow t first none none := by
  have hr : Ready program .top ⟨[], fun _ => .unlinked⟩ first t.defaults :=
    ⟨fun _ _ => rfl, by simp, by simp, by simp, by simp [Enclosing.top], by simp [Enclosing.top],
      by simp [Enclosing.top]⟩
  obtain ⟨s', hrun, hm⟩ := runs_tree program t .top ⟨[], fun _ => .unlinked⟩ first
    (h.tokens ▸ spells_range' program first (last - first)) h.wellNested
    (by simpa using h.depth) hr
  refine ⟨s'.flow, ?_, hm.laid⟩
  rw [match_flow_structure, ← h.size, hrun]
  exact if_pos hm.stack

end DXBCSandbox
