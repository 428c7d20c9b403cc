/-
What masking, merging and selecting compute.

The walks are those of sorted sets, so merging is a union and masking an intersection. A score
depends on a request only through the keywords that it shares with a candidate. The candidates lie
within the pass mask, so the mask changes no score.
-/
import DXBCSandbox.Lib.Checks
import DXBCSandbox.Lib.SortedMerge
import DXBCSandbox.Shaderlab.VariantDomain
import Mathlib.Data.Fintype.Card
import Mathlib.Tactic.NormNum

namespace DXBCSandbox

open List Checks SortedMerge

/-! ## States -/

def CArray.set (state : ShaderLabVariantState) : Finset KeywordIndex := state.keywords.toFinset

variable {indices : List KeywordIndex}

lemma strictly_increasing_iff : strictly_increasing indices = true ↔ Increasing indices := by
  rw [Increasing, ← isChain_iff_pairwise]
  induction indices with
  | nil => simp [strictly_increasing]
  | cons a indices ih =>
    cases indices with
    | nil => simp [strictly_increasing]
    | cons b indices =>
      rw [strictly_increasing, isChain_cons_cons, ← ih]
      by_cases h : b ≤ a
      · rw [if_pos h]
        exact iff_of_false Bool.false_ne_true fun h' => absurd h'.1 (not_lt.mpr h)
      · rw [if_neg h]
        exact ⟨fun h' => ⟨not_le.mp h, h'⟩, fun h' => h'.2⟩

section Canonical

variable {state : ShaderLabVariantState} (h : shaderlab_variant_state_is_canonical state = true)

include h

lemma increasing_of_canonical : Increasing state.keywords := by
  unfold shaderlab_variant_state_is_canonical at h
  by_cases hnull : state.count ≠ 0 ∧ state.values = none
  · rw [if_pos hnull] at h
    cases h
  · rw [if_neg hnull] at h
    exact strictly_increasing_iff.mp h

lemma count_of_canonical : state.count = state.keywords.length := by
  unfold shaderlab_variant_state_is_canonical at h
  cases hvals : state.values with
  | none =>
    have hkws : state.keywords = [] := by rw [CArray.keywords, hvals, Option.getD_none]
    rw [hkws, length_nil]
    by_contra hcnt
    rw [if_pos ⟨hcnt, hvals⟩] at h
    cases h
  | some indices =>
    rw [CArray.keywords, hvals, Option.getD_some, state.count_eq indices hvals]

lemma card_set_of_canonical : state.set.card = state.keywords.length :=
  toFinset_card_of_nodup (increasing_of_canonical h).nodup

end Canonical

def stateOf (indices : List KeywordIndex) : ShaderLabVariantState where
  values := some indices
  count := indices.length
  count_eq := fun l h => by rw [Option.some.inj h]

lemma canonical_stateOf (h : Increasing indices) :
    shaderlab_variant_state_is_canonical (stateOf indices) = true := by
  rw [shaderlab_variant_state_is_canonical, if_neg]
  · exact strictly_increasing_iff.mpr h
  · exact nofun

/-! ## The walks -/

lemma mask_indices_eq (request mask : List KeywordIndex) :
    mask_indices request mask = inter request mask := by
  induction request, mask using walk_induction with
  | nil_left mask => rw [mask_indices, inter_nil_left]
  | nil_right request => cases request <;> rw [mask_indices, inter_nil_right]
  | lt r request m mask h ih => rw [mask_indices, if_pos h, inter_of_lt h, ih]
  | gt r request m mask h ih => rw [mask_indices, if_neg h.asymm, if_pos h, inter_of_gt h, ih]
  | eq r request mask ih =>
    rw [mask_indices, if_neg (lt_irrefl r), if_neg (lt_irrefl r), inter_of_eq, ih]

lemma mask_count_eq (request mask : List KeywordIndex) (count : ℕ) :
    mask_count request mask count = count + (inter request mask).length := by
  induction request, mask using walk_induction generalizing count with
  | nil_left mask => rw [mask_count, inter_nil_left, length_nil, Nat.add_zero]
  | nil_right request =>
    cases request <;> rw [mask_count, inter_nil_right, length_nil, Nat.add_zero]
  | lt r request m mask h ih => rw [mask_count, if_pos h, inter_of_lt h, ih]
  | gt r request m mask h ih => rw [mask_count, if_neg h.asymm, if_pos h, inter_of_gt h, ih]
  | eq r request mask ih =>
    rw [mask_count, if_neg (lt_irrefl r), if_neg (lt_irrefl r), inter_of_eq, ih, length_cons]
    omega

lemma merge_indices_eq (globals locals : List KeywordIndex) :
    merge_indices globals locals = union globals locals := by
  induction globals, locals using walk_induction with
  | nil_left locals =>
    rw [union_nil_left]
    induction locals with
    | nil => rw [merge_indices]
    | cons l locals ih => rw [merge_indices, ih]
  | nil_right globals =>
    rw [union_nil_right]
    induction globals with
    | nil => rw [merge_indices]
    | cons g globals ih => rw [merge_indices, ih]
  | lt g globals l locals h ih => rw [merge_indices, if_pos h, union_of_lt h, ih]
  | gt g globals l locals h ih =>
    rw [merge_indices, if_neg h.asymm, if_pos h, union_of_gt h, ih]
  | eq g globals locals ih =>
    rw [merge_indices, if_neg (lt_irrefl g), if_neg (lt_irrefl g), union_of_eq, ih]

lemma merge_count_eq (globals locals : List KeywordIndex) (count : ℕ) :
    merge_count globals locals count = count + (union globals locals).length := by
  induction globals, locals using walk_induction generalizing count with
  | nil_left locals =>
    rw [union_nil_left]
    induction locals generalizing count with
    | nil =>
      rw [merge_count]
      rfl
    | cons l locals ih =>
      rw [merge_count, ih, length_cons]
      omega
  | nil_right globals =>
    rw [union_nil_right]
    induction globals generalizing count with
    | nil =>
      rw [merge_count]
      rfl
    | cons g globals ih =>
      rw [merge_count, ih, length_cons]
      omega
  | lt g globals l locals h ih =>
    rw [merge_count, if_pos h, union_of_lt h, ih, length_cons]
    omega
  | gt g globals l locals h ih =>
    rw [merge_count, if_neg h.asymm, if_pos h, union_of_gt h, ih, length_cons]
    omega
  | eq g globals locals ih =>
    rw [merge_count, if_neg (lt_irrefl g), if_neg (lt_irrefl g), union_of_eq, ih, length_cons]
    omega

lemma common_count_eq (request candidate : List KeywordIndex) {common : ℕ} (h : common < 2 ^ 32) :
    common_count request candidate common = (common + (inter request candidate).length) % 2 ^ 32 := by
  induction request, candidate using walk_induction generalizing common with
  | nil_left candidate =>
    rw [common_count, inter_nil_left, length_nil, Nat.add_zero, Nat.mod_eq_of_lt h]
  | nil_right request =>
    cases request <;>
      rw [common_count, inter_nil_right, length_nil, Nat.add_zero, Nat.mod_eq_of_lt h]
  | lt r request c candidate hlt ih => rw [common_count, if_pos hlt, inter_of_lt hlt, ih h]
  | gt r request c candidate hlt ih =>
    rw [common_count, if_neg hlt.asymm, if_pos hlt, inter_of_gt hlt, ih h]
  | eq r request candidate ih =>
    rw [common_count, if_neg (lt_irrefl r), if_neg (lt_irrefl r), inter_of_eq,
      ih (Nat.mod_lt _ (by norm_num)), length_cons, Nat.mod_add_mod]
    congr 1
    omega

lemma state_is_subset_iff {state superset : List KeywordIndex} (hs : Increasing state)
    (ht : Increasing superset) :
    state_is_subset state superset = true ↔ ∀ a ∈ state, a ∈ superset := by
  induction state, superset using walk_induction with
  | nil_left superset => simp [state_is_subset]
  | nil_right state =>
    cases state with
    | nil => simp [state_is_subset]
    | cons s state =>
      rw [state_is_subset]
      apply iff_of_false Bool.false_ne_true
      intro hall
      exact absurd (hall s mem_cons_self) not_mem_nil
  | lt s state t superset h ih =>
    rw [state_is_subset, if_pos h]
    apply iff_of_false Bool.false_ne_true
    intro hall
    exact not_mem_of_lt_head ht h (hall s mem_cons_self)
  | gt s state t superset h ih =>
    rw [state_is_subset, if_neg h.asymm, if_pos h, ih hs ht.of_cons]
    constructor
    · exact fun hall a ha => mem_cons_of_mem t (hall a ha)
    · intro hall a ha
      rcases mem_cons.mp (hall a ha) with rfl | hmem
      · exact absurd ha (not_mem_of_lt_head hs h)
      · exact hmem
  | eq s state superset ih =>
    rw [state_is_subset, if_neg (lt_irrefl s), if_neg (lt_irrefl s), ih hs.of_cons ht.of_cons]
    constructor
    · intro hall a ha
      rcases mem_cons.mp ha with rfl | ha
      · exact mem_cons_self
      · exact mem_cons_of_mem s (hall a ha)
    · intro hall a ha
      rcases mem_cons.mp (hall a (mem_cons_of_mem s ha)) with rfl | hmem
      · exact absurd ha fun hmem => lt_irrefl a (rel_of_pairwise_cons hs hmem)
      · exact hmem

/-! ## Outputs -/

/-- A call that produces the indices: without an output it tells their number, into an output
with room for them it writes them, and a smaller output is left as it was. -/
structure FillsOutput (call : CArray KeywordIndex → IndexOutput) (indices : List KeywordIndex) :
    Prop where
  sizing : ∀ out, out.values = none → out.count = 0 →
    call out = ⟨true, some indices.length, out⟩
  filling : ∀ out old, out.values = some old → indices.length ≤ out.count →
    (call out).success = true ∧ (call out).out_count = some indices.length ∧
      (call out).out_indices.values = some (indices ++ old.drop indices.length)
  short : ∀ out, out.values ≠ none → out.count < indices.length →
    call out = ⟨false, some indices.length, out⟩

lemma fills_of_write {call : CArray KeywordIndex → IndexOutput}
    (h : ∀ out, ¬ (out.values = none ∧ out.count ≠ 0) → call out = write_indices out
      indices.length indices) : FillsOutput call indices where
  sizing := by
    intro out hnull hcnt
    rw [h out (fun hbad => hbad.2 hcnt), write_indices, if_pos hnull]
  filling := by
    intro out old hold hroom
    have hsome : ¬ out.values = none := by
      rw [hold]
      exact Option.some_ne_none old
    have hlen : old.length = out.count := out.count_eq old hold
    rw [h out (fun hbad => hsome hbad.1), write_indices, if_neg hsome, if_neg (not_lt.mpr hroom)]
    refine ⟨decide_eq_true rfl, rfl, ?_⟩
    show out.values.map _ = _
    rw [hold, Option.map_some, take_of_length_le]
    rw [length_append, length_drop]
    omega
  short := by
    intro out hsome hroom
    rw [h out (fun hbad => hsome hbad.1), write_indices, if_neg hsome, if_pos hroom]

variable {pass_mask request : ShaderLabVariantState}

/-- **Masking is intersecting.** -/
theorem fills_apply_pass_mask (hreq : shaderlab_variant_state_is_canonical request = true)
    (hmask : shaderlab_variant_state_is_canonical pass_mask = true) :
    FillsOutput (shaderlab_variant_apply_pass_mask request pass_mask)
      (inter request.keywords pass_mask.keywords) := by
  apply fills_of_write
  intro out hout
  rw [shaderlab_variant_apply_pass_mask, if_neg, mask_count_eq, mask_indices_eq, Nat.zero_add]
  exact not_or.mpr ⟨not_not.mpr hreq, not_or.mpr ⟨not_not.mpr hmask, hout⟩⟩

/-- **Merging is uniting.** -/
theorem fills_merge_scopes {scoped_state : ShaderLabVariantScopedState}
    (hglobal : shaderlab_variant_state_is_canonical scoped_state.global_keywords = true)
    (hlocal : shaderlab_variant_state_is_canonical scoped_state.local_keywords = true) :
    FillsOutput (shaderlab_variant_merge_scopes scoped_state)
      (union scoped_state.global_keywords.keywords scoped_state.local_keywords.keywords) := by
  apply fills_of_write
  intro out hout
  rw [shaderlab_variant_merge_scopes, if_neg]
  · dsimp only
    rw [merge_count_eq, merge_indices_eq, Nat.zero_add]
  · exact not_or.mpr ⟨not_not.mpr hglobal, not_or.mpr ⟨not_not.mpr hlocal, hout⟩⟩

/-! ## Scores -/

/-- The score of a candidate: its keywords in the request, and 16 off for each other one. -/
def exactScore (request candidate : ShaderLabVariantState) : ℤ :=
  ((request.set ∩ candidate.set).card : ℤ) - 16 * ((candidate.set \ request.set).card : ℤ)

lemma int32_eq_ok {x : ℤ} (h : INT32_MIN ≤ x) (h' : x ≤ INT32_MAX) : int32 x = .ok x :=
  if_pos ⟨h, h'⟩

/-- **The score is exact.** There are at most 65536 keywords, so no number leaves 32 bits. -/
theorem match_score_eq {candidate : ShaderLabVariantState}
    (hreq : shaderlab_variant_state_is_canonical request = true)
    (hcand : shaderlab_variant_state_is_canonical candidate = true) :
    shaderlab_variant_match_score request candidate = .ok (exactScore request candidate) := by
  have hr := increasing_of_canonical hreq
  have hc := increasing_of_canonical hcand
  have hcom := length_inter hr hc
  have hspl := Finset.card_sdiff_add_card_inter candidate.set request.set
  rw [Finset.inter_comm, card_set_of_canonical hcand] at hspl
  have hbnd : candidate.set.card ≤ 65536 := (Finset.card_le_univ _).trans (Fintype.card_fin _).le
  rw [card_set_of_canonical hcand] at hbnd
  change (inter request.keywords candidate.keywords).length =
    (request.set ∩ candidate.set).card at hcom
  rw [shaderlab_variant_match_score, if_neg]
  · dsimp only
    rw [common_count_eq _ _ (by norm_num), hcom, count_of_canonical hcand, Nat.zero_add,
      Nat.mod_eq_of_lt (by omega)]
    have hmiss : (candidate.keywords.length % 2 ^ 32 + 2 ^ 32 -
        (request.set ∩ candidate.set).card) % 2 ^ 32 = (candidate.set \ request.set).card := by
      omega
    rw [hmiss, int32_eq_ok (by unfold INT32_MIN; omega) (by unfold INT32_MAX; omega)]
    show (do
      let missing ← int32 ((candidate.set \ request.set).card : ℕ)
      let penalty ← int32 (16 * missing)
      int32 (((request.set ∩ candidate.set).card : ℕ) - penalty)) = _
    rw [int32_eq_ok (by unfold INT32_MIN; omega) (by unfold INT32_MAX; omega)]
    show (do
      let penalty ← int32 (16 * ((candidate.set \ request.set).card : ℕ))
      int32 (((request.set ∩ candidate.set).card : ℕ) - penalty)) = _
    rw [int32_eq_ok (by unfold INT32_MIN; omega) (by unfold INT32_MAX; omega)]
    exact int32_eq_ok (by unfold INT32_MIN; omega) (by unfold INT32_MAX; omega)
  · exact not_or.mpr ⟨not_not.mpr hreq, not_not.mpr hcand⟩

/-- **The mask does not show in the score** of a candidate that lies within it. -/
theorem exactScore_masked {masked candidate : ShaderLabVariantState}
    (hmasked : masked.set = request.set ∩ pass_mask.set) (hsubset : candidate.set ⊆ pass_mask.set) :
    exactScore masked candidate = exactScore request candidate := by
  have hcom : masked.set ∩ candidate.set = request.set ∩ candidate.set := by
    rw [hmasked, Finset.inter_assoc, Finset.inter_eq_right.mpr hsubset]
  have hmiss : candidate.set \ masked.set = candidate.set \ request.set := by
    rw [← Finset.sdiff_inter_self_right, hcom, Finset.sdiff_inter_self_right]
  rw [exactScore, exactScore, hcom, hmiss]

/-! ## Selection -/

variable {candidates : CArray ShaderLabVariantCandidate}

lemma authority_iff (h : shaderlab_variant_pass_authority_is_valid pass_mask candidates = true) :
    shaderlab_variant_state_is_canonical pass_mask = true ∧
      ∀ c ∈ candidates.values.getD [], shaderlab_variant_state_is_canonical c.state = true ∧
        c.state.set ⊆ pass_mask.set := by
  unfold shaderlab_variant_pass_authority_is_valid at h
  by_cases hbad : ¬ shaderlab_variant_state_is_canonical pass_mask = true ∨
      (candidates.count ≠ 0 ∧ candidates.values.isNone = true)
  · rw [if_pos hbad] at h
    cases h
  · rw [if_neg hbad, all_eq_true] at h
    have hmask := not_not.mp (not_or.mp hbad).1
    refine ⟨hmask, ?_⟩
    intro c hc
    have hvalid := h c hc
    rw [Bool.and_eq_true] at hvalid
    refine ⟨hvalid.1, ?_⟩
    intro a ha
    rw [CArray.set, mem_toFinset] at ha ⊢
    exact (state_is_subset_iff (increasing_of_canonical hvalid.1)
      (increasing_of_canonical hmask)).mp hvalid.2 a ha

/-- The smallest index among the supported candidates with the greatest score. -/
structure FirstBest (request : ShaderLabVariantState)
    (candidates : List ShaderLabVariantCandidate) (i : ℕ) (score : ℤ) : Prop where
  candidate : ∃ c, candidates[i]? = some c ∧ c.supported = true ∧ exactScore request c.state = score
  maximal : ∀ (j : ℕ) c, candidates[j]? = some c → c.supported = true →
    exactScore request c.state ≤ score ∧ (exactScore request c.state = score → i ≤ j)

def BestSoFar (request : ShaderLabVariantState) (done : List ShaderLabVariantCandidate)
    (best : VariantMatch) : Prop :=
  match best.candidate_index with
  | none => ∀ c ∈ done, c.supported = false
  | some i => FirstBest request done i best.score

section Loop

variable {request : ShaderLabVariantState} {done : List ShaderLabVariantCandidate}
  {c : ShaderLabVariantCandidate} {best : VariantMatch}

lemma FirstBest.lt_length {i : ℕ} {score : ℤ} (h : FirstBest request done i score) :
    i < done.length := by
  obtain ⟨c, hc, -⟩ := h.candidate
  exact (List.getElem?_eq_some_iff.mp hc).1

/-- A candidate of a longer list is one of the old candidates or the new one. -/
theorem getElem?_concat_cases {α : Type} {xs : List α} {x y : α} {j : ℕ}
    (h : (xs ++ [x])[j]? = some y) : xs[j]? = some y ∨ j = xs.length ∧ y = x := by
  by_cases hj : j < xs.length
  · rw [getElem?_append_left hj] at h
    exact .inl h
  · rw [getElem?_append_right (not_lt.mp hj), getElem?_singleton] at h
    by_cases hzero : j - xs.length = 0
    · rw [if_pos hzero] at h
      exact .inr ⟨by omega, (Option.some.inj h).symm⟩
    · rw [if_neg hzero] at h
      nomatch h

lemma BestSoFar.skip (h : BestSoFar request done best) (hc : c.supported = false) :
    BestSoFar request (done ++ [c]) best := by
  unfold BestSoFar at h ⊢
  cases hidx : best.candidate_index with
  | none =>
    rw [hidx] at h
    intro d hd
    rcases mem_append.mp hd with hd | hd
    · exact h d hd
    · rw [mem_singleton.mp hd]
      exact hc
  | some i =>
    rw [hidx] at h
    dsimp only at h ⊢
    refine ⟨?_, ?_⟩
    · obtain ⟨d, hd, hsupp⟩ := h.candidate
      exact ⟨d, by rw [getElem?_append_left h.lt_length, hd], hsupp⟩
    · intro j d hd hsupp
      rcases getElem?_concat_cases hd with hd | ⟨-, rfl⟩
      · exact h.maximal j d hd hsupp
      · exact absurd (hc.symm.trans hsupp) Bool.false_ne_true

lemma BestSoFar.take (h : BestSoFar request done best) (hc : c.supported = true)
    (hbetter : best.candidate_index = none ∨ best.score < exactScore request c.state) :
    BestSoFar request (done ++ [c]) ⟨some done.length, exactScore request c.state⟩ := by
  refine ⟨⟨c, getElem?_concat_length, hc, rfl⟩, ?_⟩
  intro j d hd hsupp
  rcases getElem?_concat_cases hd with hd | ⟨rfl, rfl⟩
  · unfold BestSoFar at h
    cases hidx : best.candidate_index with
    | none =>
      rw [hidx] at h
      have hfalse := h d (mem_of_getElem? hd)
      exact absurd (hfalse.symm.trans hsupp) Bool.false_ne_true
    | some i =>
      rw [hidx] at h
      have hle := (h.maximal j d hd hsupp).1
      have hlt := hbetter.resolve_left (by rw [hidx]; exact Option.some_ne_none i)
      have hworse : exactScore request d.state < exactScore request c.state := hle.trans_lt hlt
      exact ⟨hworse.le, fun heq => absurd heq hworse.ne⟩
  · exact ⟨le_refl _, fun _ => le_refl _⟩

lemma BestSoFar.keep (h : BestSoFar request done best)
    (hworse : ¬ (best.candidate_index = none ∨ best.score < exactScore request c.state)) :
    BestSoFar request (done ++ [c]) best := by
  rw [not_or] at hworse
  unfold BestSoFar at h ⊢
  cases hidx : best.candidate_index with
  | none => exact absurd hidx hworse.1
  | some i =>
    rw [hidx] at h
    dsimp only at h ⊢
    refine ⟨?_, ?_⟩
    · obtain ⟨d, hd, hsupp⟩ := h.candidate
      exact ⟨d, by rw [getElem?_append_left h.lt_length, hd], hsupp⟩
    · intro j d hd hsupp
      rcases getElem?_concat_cases hd with hd | ⟨rfl, rfl⟩
      · exact h.maximal j d hd hsupp
      · exact ⟨not_lt.mp hworse.2, fun _ => h.lt_length.le⟩

/-- **The loop finds the first best candidate.** -/
theorem select_candidates_eq {rest : List ShaderLabVariantCandidate}
    (hscore : ∀ c ∈ rest, shaderlab_variant_match_score request c.state =
      .ok (exactScore request c.state)) (h : BestSoFar request done best) :
    ∃ best', select_candidates request rest done.length best = .ok best' ∧
      BestSoFar request (done ++ rest) best' := by
  induction rest generalizing done best with
  | nil => exact ⟨best, rfl, by rw [append_nil]; exact h⟩
  | cons c rest ih =>
    have hrest : ∀ c ∈ rest, shaderlab_variant_match_score request c.state =
        .ok (exactScore request c.state) := (forall_mem_cons.mp hscore).2
    have hdone : done ++ c :: rest = done ++ [c] ++ rest := by rw [append_assoc]; rfl
    rw [select_candidates, hdone]
    by_cases hsupp : c.supported = true
    · rw [if_neg (not_not.mpr hsupp), hscore c mem_cons_self]
      by_cases hbetter : best.candidate_index = none ∨ best.score < exactScore request c.state
      · have hnext := ih hrest (h.take hsupp hbetter)
        rw [length_append, length_singleton] at hnext
        obtain ⟨best', hrun, hbest⟩ := hnext
        refine ⟨best', ?_, hbest⟩
        rw [← hrun]
        exact if_pos hbetter
      · have hnext := ih hrest (h.keep hbetter)
        rw [length_append, length_singleton] at hnext
        obtain ⟨best', hrun, hbest⟩ := hnext
        refine ⟨best', ?_, hbest⟩
        rw [← hrun]
        exact if_neg hbetter
    · have hnext := ih hrest (h.skip (c := c) (Bool.eq_false_iff.mpr hsupp))
      rw [length_append, length_singleton] at hnext
      rw [if_pos hsupp]
      exact hnext

end Loop

lemma select_candidates_congr {request' : ShaderLabVariantState}
    {candidates : List ShaderLabVariantCandidate} {i : ℕ} {best : VariantMatch}
    (h : ∀ c ∈ candidates, shaderlab_variant_match_score request c.state =
      shaderlab_variant_match_score request' c.state) :
    select_candidates request candidates i best = select_candidates request' candidates i best := by
  induction candidates generalizing i best with
  | nil => rfl
  | cons c candidates ih =>
    have ih := fun {i best} => @ih i best (forall_mem_cons.mp h).2
    rw [select_candidates, select_candidates, h c mem_cons_self, ih]
    simp only [ih]

/-- A selection of the first best candidate, or none where no candidate is supported. -/
theorem select_best_cases (hreq : shaderlab_variant_state_is_canonical request = true)
    (hauth : shaderlab_variant_pass_authority_is_valid pass_mask candidates = true) :
    (∃ i score, shaderlab_variant_select_best request pass_mask candidates = .ok (i, score) ∧
        FirstBest request (candidates.values.getD []) i score) ∨
      shaderlab_variant_select_best request pass_mask candidates = .error .refused ∧
        ∀ c ∈ candidates.values.getD [], c.supported = false := by
  obtain ⟨hmask, hcands⟩ := authority_iff hauth
  have hscore : ∀ c ∈ candidates.values.getD [],
      shaderlab_variant_match_score request c.state = .ok (exactScore request c.state) :=
    fun c hc => match_score_eq hreq (hcands c hc).1
  have hstart : BestSoFar request [] ⟨none, INT32_MIN⟩ := nofun
  obtain ⟨best, hrun, hbest⟩ := select_candidates_eq hscore hstart
  have hgate : ¬ (¬ shaderlab_variant_state_is_canonical request = true ∨
      ¬ shaderlab_variant_state_is_canonical pass_mask = true ∨
      ¬ shaderlab_variant_pass_authority_is_valid pass_mask candidates = true) :=
    not_or.mpr ⟨not_not.mpr hreq, not_or.mpr ⟨not_not.mpr hmask, not_not.mpr hauth⟩⟩
  rw [length_nil] at hrun
  rw [nil_append] at hbest
  rw [shaderlab_variant_select_best, if_neg hgate, hrun]
  unfold BestSoFar at hbest
  cases hidx : best.candidate_index with
  | none =>
    rw [hidx] at hbest
    refine .inr ⟨?_, hbest⟩
    show (match best.candidate_index with
      | none => Except.error VariantMatchFailure.refused
      | some i => .ok (i, best.score)) = _
    rw [hidx]
  | some i =>
    rw [hidx] at hbest
    refine .inl ⟨i, best.score, ?_, hbest⟩
    show (match best.candidate_index with
      | none => Except.error VariantMatchFailure.refused
      | some i => .ok (i, best.score)) = _
    rw [hidx]

/-- **Selection on the unmasked request.** For a pass that is accepted, masking the request first
selects the same candidate with the same score: the first of the supported candidates with the
greatest score, every score being exact in 32 bits. Masking leaves the sorted intersection, and
merging two scopes the sorted union, with the same count whether or not there is an output. -/
theorem shaderlab_variant_select_best_unmasked (request pass_mask : ShaderLabVariantState)
    (candidates : CArray ShaderLabVariantCandidate)
    (hrequest : shaderlab_variant_state_is_canonical request = true)
    (hauthority : shaderlab_variant_pass_authority_is_valid pass_mask candidates = true) :
    (∃ masked, FillsOutput (shaderlab_variant_apply_pass_mask request pass_mask) masked ∧
      Increasing masked ∧ masked.toFinset = request.set ∩ pass_mask.set ∧
      shaderlab_variant_select_best (stateOf masked) pass_mask candidates =
        shaderlab_variant_select_best request pass_mask candidates) ∧
    (∀ c ∈ candidates.values.getD [],
      shaderlab_variant_match_score request c.state = .ok (exactScore request c.state)) ∧
    ((∃ i score, shaderlab_variant_select_best request pass_mask candidates = .ok (i, score) ∧
        FirstBest request (candidates.values.getD []) i score) ∨
      shaderlab_variant_select_best request pass_mask candidates = .error .refused ∧
        ∀ c ∈ candidates.values.getD [], c.supported = false) ∧
    ∀ scoped_state : ShaderLabVariantScopedState,
      shaderlab_variant_state_is_canonical scoped_state.global_keywords = true →
      shaderlab_variant_state_is_canonical scoped_state.local_keywords = true →
      ∃ merged, FillsOutput (shaderlab_variant_merge_scopes scoped_state) merged ∧
        Increasing merged ∧
        merged.toFinset = scoped_state.global_keywords.set ∪ scoped_state.local_keywords.set := by
  obtain ⟨hmask, hcandidates⟩ := authority_iff hauthority
  refine ⟨?_, ?_, select_best_cases hrequest hauthority, ?_⟩
  · have hr := increasing_of_canonical hrequest
    have hm := increasing_of_canonical hmask
    have hmasked : (inter request.keywords pass_mask.keywords).toFinset =
        request.set ∩ pass_mask.set := toFinset_inter hr hm
    have hstate : (stateOf (inter request.keywords pass_mask.keywords)).set =
        request.set ∩ pass_mask.set := hmasked
    have hcanonical := canonical_stateOf (@increasing_inter _ _ _ pass_mask.keywords hr)
    refine ⟨_, fills_apply_pass_mask hrequest hmask, increasing_inter hr, hmasked, ?_⟩
    have hscores : ∀ c ∈ candidates.values.getD [], shaderlab_variant_match_score
        (stateOf (inter request.keywords pass_mask.keywords)) c.state =
        shaderlab_variant_match_score request c.state := by
      intro c hc
      rw [match_score_eq hcanonical (hcandidates c hc).1,
        match_score_eq hrequest (hcandidates c hc).1,
        exactScore_masked hstate (hcandidates c hc).2]
    rw [shaderlab_variant_select_best, shaderlab_variant_select_best, hrequest, hcanonical,
      select_candidates_congr hscores]
  · exact fun c hc => match_score_eq hrequest (hcandidates c hc).1
  · intro scoped_state hglobal hlocal
    refine ⟨_, fills_merge_scopes hglobal hlocal,
      increasing_union (increasing_of_canonical hglobal) (increasing_of_canonical hlocal), ?_⟩
    ext a
    rw [mem_toFinset, Finset.mem_union, mem_union, CArray.set, CArray.set,
      mem_toFinset, mem_toFinset]

/-- A request, a pass mask and three candidates, of which the last two are equally good. -/
def sampleCandidates : CArray ShaderLabVariantCandidate where
  values := some [⟨stateOf [1, 5], false⟩, ⟨stateOf [1], true⟩, ⟨stateOf [2], true⟩]
  count := 3
  count_eq := fun l h => by
    rw [← Option.some.inj h]
    rfl

/-- The second candidate is selected, with or without the mask. -/
theorem shaderlab_variant_select_best_sample :
    ∃ masked, Increasing masked ∧ masked.toFinset = {1, 2} ∧
      shaderlab_variant_select_best (stateOf masked) (stateOf [1, 2, 5]) sampleCandidates =
        shaderlab_variant_select_best (stateOf [1, 2, 9]) (stateOf [1, 2, 5]) sampleCandidates ∧
      ∃ score, FirstBest (stateOf [1, 2, 9]) (sampleCandidates.values.getD []) 1 score := by
  obtain ⟨⟨masked, -, hincreasing, hset, hselect⟩, -, hbest, -⟩ :=
    shaderlab_variant_select_best_unmasked (stateOf [1, 2, 9]) (stateOf [1, 2, 5])
      sampleCandidates (by decide) (by decide)
  refine ⟨masked, hincreasing, hset.trans (by decide), hselect, ?_⟩
  have hindex : shaderlab_variant_select_best (stateOf [1, 2, 9]) (stateOf [1, 2, 5])
      sampleCandidates = .ok (1, 1) := by decide +kernel
  rw [hindex] at hbest
  rcases hbest with ⟨i, score, hok, hfirst⟩ | ⟨hrefused, -⟩
  · obtain ⟨rfl, rfl⟩ := Prod.mk.inj (Except.ok.inj hok)
    exact ⟨_, hfirst⟩
  · nomatch hrefused

end DXBCSandbox
