/-
What the registry of semantic lifts keeps (`src/translation/hlsl_semantic.c`).

A registration that passes its checks adds one lift at the end of the list and enters it in the
tables where nothing has been before. So the tables are the inverse of the list after any number of
registrations, and a refusal is only counted.
-/
import DXBCSandbox.Hlsl.SemanticRegistry

namespace DXBCSandbox

open List

namespace HlslSemantic

/-! ## One registration -/

/-- What a candidate needs: free anchors, free claims in range, and room in the list. -/
structure Admits (instruction_count : ℕ) (semantic : HLSLSemanticProgram)
    (candidate : HLSLSemanticLift) : Prop where
  trigger : 0 ≤ candidate.trigger_instruction → candidate.trigger_instruction < instruction_count ∧
    semantic.before_lift candidate.trigger_instruction = none
  anchor : 0 ≤ candidate.after_instruction → candidate.after_instruction < instruction_count ∧
    semantic.after_lift candidate.after_instruction = none
  claims : ∀ i ∈ candidate.claimed, 0 ≤ i ∧ i < instruction_count ∧ semantic.claim_owner i = none
  room : semantic.lifts.length < semantic.lift_capacity

variable {n : ℕ} {table : ℤ → Option ℕ}

lemma anchor_conflicts_eq_false {anchor : ℤ} : ¬ anchor_conflicts n table anchor = true ↔
      (0 ≤ anchor → anchor < n ∧ table anchor = none) := by
  simp [anchor_conflicts]

lemma claim_conflicts_eq_false {instruction : ℤ} : ¬ claim_conflicts n table instruction = true ↔
      0 ≤ instruction ∧ instruction < n ∧ table instruction = none := by
  simp [claim_conflicts]

/-- **Claims.** The loop over the claims writes the owners and the skipped instructions, and nothing
else. -/
theorem foldl_claim_instruction (lift_id : ℕ) (trigger : ℤ) (claimed : List ℤ)
    (semantic : HLSLSemanticProgram) :
    claimed.foldl (claim_instruction lift_id trigger) semantic =
      { semantic with
        claim_owner := fun i => if i ∈ claimed then some lift_id else semantic.claim_owner i
        skip_instruction := fun i =>
          semantic.skip_instruction i || (i ∈ claimed ∧ i ≠ trigger) } := by
  induction claimed generalizing semantic with
  | nil => simp
  | cons c claimed ih =>
    rw [foldl_cons, ih]
    congr 1
    · funext i
      by_cases hi : i = c
      · subst hi
        simp [claim_instruction]
      · simp [claim_instruction, hi]
    · funext i
      by_cases hc : c = trigger
      · subst hc
        by_cases hi : i = c
        · subst hi
          simp [claim_instruction]
        · simp [claim_instruction, hi]
      · by_cases hi : i = c
        · subst hi
          simp [claim_instruction, hc]
        · simp [claim_instruction, hc, hi]

def withLift (semantic : HLSLSemanticProgram) (candidate : HLSLSemanticLift) :
    HLSLSemanticProgram where
  lifts := semantic.lifts ++ [candidate]
  lift_capacity := semantic.lift_capacity
  before_lift := set_anchor semantic.before_lift candidate.trigger_instruction semantic.lifts.length
  after_lift := set_anchor semantic.after_lift candidate.after_instruction semantic.lifts.length
  claim_owner i := if i ∈ candidate.claimed then some semantic.lifts.length
    else semantic.claim_owner i
  conflict_count := semantic.conflict_count
  skip_instruction i := semantic.skip_instruction i ||
    (i ∈ candidate.claimed ∧ i ≠ candidate.trigger_instruction)

/-- **One registration.** A candidate that the registry admits is entered everywhere. Any other one
is refused, and only the count of conflicts may change. -/
theorem register_lift_cases (n : ℕ) (semantic : HLSLSemanticProgram)
    (candidate : HLSLSemanticLift) :
    (Admits n semantic candidate ∧
      register_lift n semantic candidate = (true, withLift semantic candidate)) ∨
    (¬ Admits n semantic candidate ∧ ∃ conflict_count,
      (conflict_count = semantic.conflict_count ∨ conflict_count = semantic.conflict_count + 1) ∧
      register_lift n semantic candidate = (false, { semantic with conflict_count })) := by
  unfold register_lift
  split_ifs with htrigger hanchor hclaims hroom
  · exact .inr ⟨fun h => anchor_conflicts_eq_false.mpr h.trigger htrigger, _, .inr rfl, rfl⟩
  · exact .inr ⟨fun h => anchor_conflicts_eq_false.mpr h.anchor hanchor, _, .inr rfl, rfl⟩
  · refine .inr ⟨fun h => ?_, _, .inr rfl, rfl⟩
    obtain ⟨i, hi, hconf⟩ := any_eq_true.mp hclaims
    exact claim_conflicts_eq_false.mpr (h.claims i hi) hconf
  · exact .inr ⟨fun h => absurd h.room (by omega), _, .inl rfl, rfl⟩
  · refine .inl ⟨⟨anchor_conflicts_eq_false.mp htrigger, anchor_conflicts_eq_false.mp hanchor,
      fun i hi => claim_conflicts_eq_false.mp fun hconf =>
        hclaims (any_eq_true.mpr ⟨i, hi, hconf⟩), by omega⟩, ?_⟩
    dsimp only
    rw [foldl_claim_instruction]
    rfl

/-! ## The invariant -/

/-- **The registry.** The tables are the inverse of the list, and everything in the list is in
range. -/
structure Registered (n : ℕ) (skip : ℤ → Bool) (semantic : HLSLSemanticProgram) : Prop where
  owner_iff : ∀ i id, semantic.claim_owner i = some id ↔
    ∃ lift, semantic.lifts[id]? = some lift ∧ i ∈ lift.claimed
  before_iff : ∀ i id, semantic.before_lift i = some id ↔
    0 ≤ i ∧ ∃ lift, semantic.lifts[id]? = some lift ∧ lift.trigger_instruction = i
  after_iff : ∀ i id, semantic.after_lift i = some id ↔
    0 ≤ i ∧ ∃ lift, semantic.lifts[id]? = some lift ∧ lift.after_instruction = i
  in_range : ∀ lift ∈ semantic.lifts, lift.trigger_instruction < n ∧ lift.after_instruction < n ∧
    ∀ i ∈ lift.claimed, 0 ≤ i ∧ i < n
  capacity : semantic.lift_capacity = n * 2 + 8
  count_le : semantic.lifts.length ≤ semantic.lift_capacity
  skip_iff : ∀ i, semantic.skip_instruction i = true ↔
    skip i = true ∨ ∃ lift ∈ semantic.lifts, i ∈ lift.claimed ∧ i ≠ lift.trigger_instruction

lemma registered_initial (n : ℕ) (skip : ℤ → Bool) : Registered n skip (.initial n skip) where
  owner_iff i id := by simp [HLSLSemanticProgram.initial]
  before_iff i id := by simp [HLSLSemanticProgram.initial]
  after_iff i id := by simp [HLSLSemanticProgram.initial]
  in_range lift h := absurd h (by simp [HLSLSemanticProgram.initial])
  capacity := rfl
  count_le := Nat.zero_le _
  skip_iff i := by simp [HLSLSemanticProgram.initial]

variable {candidate lift : HLSLSemanticLift}

lemma getElem?_concat_iff {lifts : List HLSLSemanticLift} {id : ℕ} :
    (lifts ++ [candidate])[id]? = some lift ↔
      lifts[id]? = some lift ∨ (id = lifts.length ∧ lift = candidate) := by
  rcases Nat.lt_trichotomy id lifts.length with hlt | heq | hgt
  · rw [getElem?_append_left hlt]
    constructor
    · exact .inl
    · rintro (h | ⟨rfl, -⟩)
      · exact h
      · omega
  · subst heq
    simp [eq_comm]
  · rw [getElem?_eq_none (by simp; omega), getElem?_eq_none (by omega)]
    simp
    omega

lemma set_anchor_iff {lifts : List HLSLSemanticLift} (anchorOf : HLSLSemanticLift → ℤ)
    (htable : ∀ i id, table i = some id ↔
      0 ≤ i ∧ ∃ lift, lifts[id]? = some lift ∧ anchorOf lift = i)
    (hfree : 0 ≤ anchorOf candidate → table (anchorOf candidate) = none) (i : ℤ) (id : ℕ) :
    set_anchor table (anchorOf candidate) lifts.length i = some id ↔
      0 ≤ i ∧ ∃ lift, (lifts ++ [candidate])[id]? = some lift ∧ anchorOf lift = i := by
  have hnew : (0 ≤ i ∧ ∃ lift, (lifts ++ [candidate])[id]? = some lift ∧ anchorOf lift = i) ↔
      table i = some id ∨ (0 ≤ i ∧ id = lifts.length ∧ anchorOf candidate = i) := by
    rw [htable]
    constructor
    · rintro ⟨hi, lift, hlift, hanchor⟩
      rcases getElem?_concat_iff.mp hlift with h | ⟨hid, rfl⟩
      · exact .inl ⟨hi, lift, h, hanchor⟩
      · exact .inr ⟨hi, hid, hanchor⟩
    · rintro (⟨hi, lift, hlift, hanchor⟩ | ⟨hi, hid, hanchor⟩)
      · exact ⟨hi, lift, getElem?_concat_iff.mpr (.inl hlift), hanchor⟩
      · exact ⟨hi, candidate, getElem?_concat_iff.mpr (.inr ⟨hid, rfl⟩), hanchor⟩
  rw [hnew, set_anchor]
  by_cases hpos : 0 ≤ anchorOf candidate
  · rw [if_pos hpos]
    by_cases hi : i = anchorOf candidate
    · rw [hi, Function.update_self, hfree hpos]
      simp [hpos, eq_comm]
    · rw [Function.update_of_ne hi]
      simp [Ne.symm hi]
  · rw [if_neg hpos]
    constructor
    · exact .inl
    · rintro (h | ⟨hi, -, rfl⟩)
      · exact h
      · exact absurd hi hpos

variable {skip : ℤ → Bool} {semantic : HLSLSemanticProgram}

/-- **A registration keeps the invariant.** -/
theorem Registered.withLift (h : Registered n skip semantic) (hadm : Admits n semantic candidate) :
    Registered n skip (withLift semantic candidate) where
  owner_iff i id := by
    show (if i ∈ candidate.claimed then some semantic.lifts.length else semantic.claim_owner i) =
      some id ↔ ∃ lift, (semantic.lifts ++ [candidate])[id]? = some lift ∧ i ∈ lift.claimed
    simp only [getElem?_concat_iff, or_and_right, exists_or, ← h.owner_iff]
    by_cases hi : i ∈ candidate.claimed
    · rw [if_pos hi, (hadm.claims i hi).2.2, Option.some_inj]
      constructor
      · rintro rfl
        exact .inr ⟨candidate, ⟨rfl, rfl⟩, hi⟩
      · rintro (hnone | ⟨lift, ⟨hid, -⟩, -⟩)
        · simp at hnone
        · exact hid.symm
    · rw [if_neg hi]
      constructor
      · exact .inl
      · rintro (howner | ⟨lift, ⟨-, rfl⟩, hmem⟩)
        · exact howner
        · exact absurd hmem hi
  before_iff := set_anchor_iff HLSLSemanticLift.trigger_instruction h.before_iff
    fun hpos => (hadm.trigger hpos).2
  after_iff := set_anchor_iff HLSLSemanticLift.after_instruction h.after_iff
    fun hpos => (hadm.anchor hpos).2
  in_range lift hlift := by
    rcases mem_append.mp hlift with hold | hnew
    · exact h.in_range lift hold
    · obtain rfl := mem_singleton.mp hnew
      refine ⟨?_, ?_, fun i hi => ⟨(hadm.claims i hi).1, (hadm.claims i hi).2.1⟩⟩
      · rcases Int.lt_or_le lift.trigger_instruction 0 with hneg | hpos
        · omega
        · exact (hadm.trigger hpos).1
      · rcases Int.lt_or_le lift.after_instruction 0 with hneg | hpos
        · omega
        · exact (hadm.anchor hpos).1
  capacity := h.capacity
  count_le := by
    show (semantic.lifts ++ [candidate]).length ≤ semantic.lift_capacity
    rw [length_append, length_singleton]
    exact hadm.room
  skip_iff i := by
    show (semantic.skip_instruction i ||
      decide (i ∈ candidate.claimed ∧ i ≠ candidate.trigger_instruction)) = true ↔
      skip i = true ∨ ∃ lift ∈ semantic.lifts ++ [candidate],
        i ∈ lift.claimed ∧ i ≠ lift.trigger_instruction
    rw [Bool.or_eq_true, h.skip_iff, decide_eq_true_iff]
    simp only [mem_append, mem_singleton, or_and_right, exists_or, exists_eq_left, or_assoc]

lemma Registered.register_lift (h : Registered n skip semantic) (candidate : HLSLSemanticLift) :
    Registered n skip (register_lift n semantic candidate).2 := by
  rcases register_lift_cases n semantic candidate with ⟨hadm, hrun⟩ | ⟨-, count, -, hrun⟩
  · rw [hrun]
    exact h.withLift hadm
  · rw [hrun]
    exact ⟨h.owner_iff, h.before_iff, h.after_iff, h.in_range, h.capacity, h.count_le, h.skip_iff⟩

/-- **Any sequence of registrations.** -/
theorem Registered.registerAll (h : Registered n skip semantic) (candidates : List HLSLSemanticLift)
    : Registered n skip (registerAll n semantic candidates) := by
  induction candidates generalizing semantic with
  | nil => exact h
  | cons candidate candidates ih => exact ih (h.register_lift candidate)

lemma mem_registerAll {candidates : List HLSLSemanticLift}
    (h : lift ∈ (registerAll n semantic candidates).lifts) :
    lift ∈ semantic.lifts ∨ lift ∈ candidates := by
  induction candidates generalizing semantic with
  | nil => exact .inl h
  | cons candidate candidates ih =>
    rcases ih h with hstep | hrest
    · dsimp only at hstep
      rcases register_lift_cases n semantic candidate with ⟨-, hrun⟩ | ⟨-, count, -, hrun⟩
      · rw [hrun] at hstep
        rcases mem_append.mp hstep with hold | hnew
        · exact .inl hold
        · exact .inr (mem_cons.mpr (.inl (mem_singleton.mp hnew)))
      · rw [hrun] at hstep
        exact .inl hstep
    · exact .inr (mem_cons_of_mem _ hrest)

lemma Registered.claims_disjoint (h : Registered n skip semantic) {id id' : ℕ}
    {lift' : HLSLSemanticLift} (hlift : semantic.lifts[id]? = some lift)
    (hlift' : semantic.lifts[id']? = some lift') (hne : id ≠ id') :
    ∀ i ∈ lift.claimed, i ∉ lift'.claimed := by
  intro i hi hi'
  have howner := (h.owner_iff i id).mpr ⟨lift, hlift, hi⟩
  rw [(h.owner_iff i id').mpr ⟨lift', hlift', hi'⟩, Option.some_inj] at howner
  exact hne howner.symm

end HlslSemantic

end DXBCSandbox
