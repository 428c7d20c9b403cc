/-
What the planner says about two subprograms in conflict.

Two D3D subprograms of the reference tier with the same keywords are an error that names both.
The first of them is looked up by the number of reference states before it. That number is its
place among all planned variants as long as no variant of another tier stands before it, and only
then does the diagnostic name the right subprogram.
-/
import DXBCSandbox.Shaderlab.VariantPlanSpec

namespace DXBCSandbox

open List Option Checks

namespace VariantPlan

/-! ## Diagnostics that name one subprogram -/

section Quiet

variable {α β : Type}

def Quiet (m : Planning α) : Prop :=
  ∀ diagnostic, m = .error diagnostic → diagnostic.conflicting_subprogram_index = -1

lemma quiet_ok (a : α) : Quiet (.ok a : Planning α) := by
  intro diagnostic h
  nomatch h

lemma quiet_error {status : ShaderLabVariantPlanStatus} {stage_index subprogram_index raw : ℤ} :
    Quiet (.error ⟨status, stage_index, subprogram_index, -1, raw⟩ : Planning α) := by
  intro diagnostic h
  rw [← Except.error.inj h]

variable {m : Planning α}

lemma Quiet.bind {f : α → Planning β} (hm : Quiet m) (hf : ∀ a, m = .ok a → Quiet (f a)) :
    Quiet (m >>= f) := by
  intro diagnostic h
  cases hrun : m with
  | error e =>
    rw [hrun] at h
    rw [← Except.error.inj h]
    exact hm e hrun
  | ok a =>
    rw [hrun] at h
    exact hf a hrun diagnostic h

lemma quiet_ite {c : Prop} [Decidable c] {m' : Planning α} (h : Quiet m) (h' : Quiet m') :
    Quiet (if c then m else m') := by
  split_ifs
  · exact h
  · exact h'

end Quiet

lemma quiet_validate_keyword_names (keywords : List (Option CString)) (i : ℕ) :
    Quiet (validate_keyword_names i keywords) := by
  induction keywords generalizing i with
  | nil => exact quiet_ok ()
  | cons keyword keywords ih => exact quiet_ite quiet_error (ih (i + 1))

lemma quiet_validate_shader_authority (shader : SerializedShader) :
    Quiet (validate_shader_authority shader) :=
  quiet_ite quiet_error (quiet_ite quiet_error (quiet_ite quiet_error
    (quiet_validate_keyword_names _ 0)))

lemma quiet_validate_mask_indices (keyword_count : ℤ) (indices : List KeywordIndex) :
    Quiet (validate_mask_indices keyword_count indices) := by
  induction indices with
  | nil => exact quiet_ok ()
  | cons index indices ih => exact quiet_ite quiet_error ih

lemma quiet_validate_pass_mask (shader : SerializedShader) (pass : SerializedPass) :
    Quiet (validate_pass_mask shader pass) :=
  quiet_ite quiet_error (quiet_ite quiet_error
    ((quiet_validate_mask_indices _ _).bind fun _ _ => quiet_ok _))

lemma quiet_validate_raw_indices (shader : SerializedShader) (stage_index subprogram_index : ℤ)
    (scope_conflict : ℤ → Bool) (indices : List ℤ) :
    Quiet (validate_raw_indices shader stage_index subprogram_index scope_conflict indices) := by
  induction indices with
  | nil => exact quiet_ok ()
  | cons raw rest ih => exact quiet_ite quiet_error (quiet_ite quiet_error ih)

lemma quiet_merge_raw_scopes (stage_index subprogram_index : ℤ) (globals locals : List ℤ) :
    Quiet (merge_raw_scopes stage_index subprogram_index globals locals) := by
  induction globals, locals using merge_raw_scopes.induct with
  | case1 =>
    rw [merge_raw_scopes]
    exact quiet_ok []
  | case2 g globals ih =>
    rw [merge_raw_scopes]
    exact ih.bind fun _ _ => quiet_ok _
  | case3 l locals ih =>
    rw [merge_raw_scopes]
    exact ih.bind fun _ _ => quiet_ok _
  | case4 g globals l locals hlt ih =>
    rw [merge_raw_scopes, if_pos hlt]
    exact ih.bind fun _ _ => quiet_ok _
  | case5 g globals l locals hlt hgt ih =>
    rw [merge_raw_scopes, if_neg hlt, if_pos hgt]
    exact ih.bind fun _ _ => quiet_ok _
  | case6 g globals l locals hlt hgt =>
    rw [merge_raw_scopes, if_neg hlt, if_neg hgt]
    exact quiet_error

lemma quiet_require_in_mask (pass_mask state : List KeywordIndex)
    (stage_index subprogram_index : ℤ) :
    Quiet (require_in_mask pass_mask stage_index subprogram_index state) :=
  quiet_ite quiet_error (quiet_ok state)

lemma quiet_identity_to_state (shader : SerializedShader)
    (identity : SerializedSubProgramIdentity) (pass_mask : List KeywordIndex)
    (stage_index subprogram_index : ℤ) :
    Quiet (identity_to_state shader identity pass_mask stage_index subprogram_index) := by
  refine quiet_ite (quiet_ite quiet_error ?_) (quiet_ite quiet_error ?_)
  · exact (quiet_validate_raw_indices _ _ _ _ _).bind fun _ _ => quiet_require_in_mask _ _ _ _
  · refine (quiet_validate_raw_indices _ _ _ _ _).bind fun _ _ => ?_
    refine (quiet_validate_raw_indices _ _ _ _ _).bind fun _ _ => ?_
    exact (quiet_merge_raw_scopes _ _ _ _).bind fun _ _ => quiet_require_in_mask _ _ _ _

lemma quiet_plan_variants (shader : SerializedShader) (pass : SerializedPass)
    (pass_mask : List KeywordIndex) (stage : Fin SERIALIZED_STAGE_COUNT)
    (identities : List SerializedSubProgramIdentity) (i : ℕ) :
    Quiet (plan_variants shader pass pass_mask stage i identities) := by
  induction identities generalizing i with
  | nil => exact quiet_ok []
  | cons identity rest ih =>
    refine quiet_ite (ih (i + 1)) (quiet_ite quiet_error ?_)
    refine (quiet_identity_to_state _ _ _ _ _).bind fun _ _ => ?_
    exact (ih (i + 1)).bind fun _ _ => quiet_ok _

lemma quiet_match_tier (stage : Fin SERIALIZED_STAGE_COUNT) (tier : ℤ)
    (ordered_states : List (List KeywordIndex)) (variants : List ShaderLabPlannedVariant)
    (state_index : ℕ) : Quiet (match_tier stage tier ordered_states state_index variants) := by
  induction variants generalizing state_index with
  | nil => exact quiet_ite quiet_error (quiet_ok ())
  | cons variant rest ih =>
    exact quiet_ite (ih state_index) (quiet_ite quiet_error (ih (state_index + 1)))

/-! ## The reference states -/

variable {variants : List ShaderLabPlannedVariant} {u v : ShaderLabPlannedVariant} {tier : ℤ}

section Order

variable {stage : Fin SERIALIZED_STAGE_COUNT} {reference_tier : ℤ}
  {all done rest : List ShaderLabPlannedVariant}

def ofTier (tier : ℤ) (variants : List ShaderLabPlannedVariant) : List ShaderLabPlannedVariant :=
  variants.filter fun v => v.hardware_tier_group = tier

lemma mem_ofTier : v ∈ ofTier tier variants ↔ v ∈ variants ∧ v.hardware_tier_group = tier := by
  unfold ofTier
  rw [mem_filter, decide_eq_true_iff]

lemma ofTier_concat_self (h : v.hardware_tier_group = reference_tier) :
    ofTier reference_tier (done ++ [v]) = ofTier reference_tier done ++ [v] := by
  rw [ofTier, filter_append, filter_singleton, decide_eq_true h]
  rfl

lemma ofTier_concat_other (h : v.hardware_tier_group ≠ reference_tier) :
    ofTier reference_tier (done ++ [v]) = ofTier reference_tier done := by
  rw [ofTier, filter_append, filter_singleton, decide_eq_false h]
  exact append_nil _

def DistinctStates (tier : ℤ) (variants : List ShaderLabPlannedVariant) : Prop :=
  ((ofTier tier variants).map (·.keyword_indices)).Nodup

/-- `v` repeats the state of `u`, the first variant that any variant repeats, and the diagnostic
looks up the second subprogram at the place of `u` among the reference states. -/
structure FirstRepeat (all : List ShaderLabPlannedVariant) (tier : ℤ)
    (done : List ShaderLabPlannedVariant) (u v : ShaderLabPlannedVariant)
    (conflicting : ℤ) : Prop where
  all_eq : ∃ rest, all = done ++ v :: rest
  tier_eq : v.hardware_tier_group = tier
  distinct : DistinctStates tier done
  same : u.keyword_indices = v.keyword_indices
  place : ∃ previous : ℕ, (ofTier tier done)[previous]? = some u ∧
    conflicting = (all[previous]?.elim 0 ShaderLabPlannedVariant.subprogram_index : ℕ)

/-- **The reference states.** They are all distinct, or the first repetition is reported. -/
theorem order_states_cases (hall : all = done ++ rest)
    (hdist : DistinctStates reference_tier done) :
    (order_states stage all reference_tier rest
        ((ofTier reference_tier done).map (·.keyword_indices)) =
      .ok ((ofTier reference_tier all).map (·.keyword_indices)) ∧
        DistinctStates reference_tier all) ∨
    ∃ before u v conflicting, FirstRepeat all reference_tier before u v conflicting ∧
      order_states stage all reference_tier rest
        ((ofTier reference_tier done).map (·.keyword_indices)) =
          .error ⟨.tierDomainMismatch, stage.val, v.subprogram_index, conflicting, -1⟩ := by
  induction rest generalizing done with
  | nil =>
    rw [hall, append_nil]
    exact .inl ⟨rfl, hdist⟩
  | cons v rest ih =>
    have hall' : all = (done ++ [v]) ++ rest := by
      rw [hall, append_assoc]
      rfl
    rw [order_states]
    by_cases htier : v.hardware_tier_group = reference_tier
    · rw [if_neg (not_not.mpr htier)]
      cases hfind : ((ofTier reference_tier done).map (·.keyword_indices)).findIdx?
          (· = v.keyword_indices) with
      | none =>
        have hnew : v.keyword_indices ∉ (ofTier reference_tier done).map (·.keyword_indices) := by
          intro hmem
          exact of_decide_eq_false (findIdx?_eq_none_iff.mp hfind _ hmem) rfl
        have hstates : (ofTier reference_tier (done ++ [v])).map (·.keyword_indices) =
            (ofTier reference_tier done).map (·.keyword_indices) ++ [v.keyword_indices] := by
          rw [ofTier_concat_self htier, map_append]
          rfl
        have hdist' : DistinctStates reference_tier (done ++ [v]) := by
          rw [DistinctStates, hstates]
          exact nodup_append.mpr ⟨hdist, nodup_singleton _, fun a ha b hb hab =>
            hnew (by rwa [← mem_singleton.mp hb, ← hab])⟩
        dsimp only
        rw [← hstates]
        exact ih hall' hdist'
      | some previous =>
        right
        obtain ⟨hlt, heq, -⟩ := findIdx?_eq_some_iff_getElem.mp hfind
        have hlt' : previous < (ofTier reference_tier done).length := by
          rwa [length_map] at hlt
        refine ⟨done, (ofTier reference_tier done)[previous], v, _,
          ⟨⟨rest, hall⟩, htier, hdist, ?_, previous, getElem?_eq_getElem hlt', rfl⟩, rfl⟩
        rw [getElem_map] at heq
        exact of_decide_eq_true heq
    · rw [if_pos htier]
      have hstates : ofTier reference_tier (done ++ [v]) = ofTier reference_tier done :=
        ofTier_concat_other htier
      rw [← hstates]
      refine ih hall' ?_
      rw [DistinctStates, hstates]
      exact hdist

/-- The place of a variant among those of its tier counts the variants of the tier before it. -/
theorem exists_split_of_place {place : ℕ} (h : (ofTier tier variants)[place]? = some u) :
    ∃ before behind, variants = before ++ u :: behind ∧ (ofTier tier before).length = place := by
  have hlt := (List.getElem?_eq_some_iff.mp h).1
  have hspl : ofTier tier variants = (ofTier tier variants).take place ++
      u :: (ofTier tier variants).drop (place + 1) := by
    rw [← (List.getElem?_eq_some_iff.mp h).2, getElem_cons_drop, take_append_drop]
  obtain ⟨first, second, hvars, hfst, hsnd⟩ := filter_eq_append_iff.mp hspl
  obtain ⟨skipped, behind, hsnd, hskipped, -, -⟩ := filter_eq_cons_iff.mp hsnd
  refine ⟨first ++ skipped, behind, by rw [hvars, hsnd, append_assoc], ?_⟩
  have hnone : ofTier tier skipped = [] := filter_eq_nil_iff.mpr hskipped
  rw [ofTier, filter_append, length_append]
  show (ofTier tier first).length + (ofTier tier skipped).length = place
  rw [hnone]
  show (first.filter _).length + 0 = place
  rw [hfst, length_take]
  omega

end Order

/-! ## Twins -/

/-- Two D3D subprograms of one tier with the same keywords. -/
def Twins (pass : SerializedPass) (stage : Fin SERIALIZED_STAGE_COUNT) (tier : ℤ) (i j : ℕ) : Prop :=
  i < j ∧ ∃ keywords, D3dVariant pass stage i tier keywords ∧ D3dVariant pass stage j tier keywords

/-- A tier that the ordered states can come from. -/
def ReferenceTier (tier : ℤ) : Prop := tier = 0 ∨ tier = 3

def OnlyReference (variants : List ShaderLabPlannedVariant) (tier : ℤ) : Prop :=
  ReferenceTier tier ∧
    ∀ w ∈ variants, ReferenceTier w.hardware_tier_group → w.hardware_tier_group = tier

/-- The first repetition of a pass: no earlier stage has twins, and `j` is the first subprogram of
the stage with a twin before it. -/
structure FirstTwins (pass : SerializedPass) (stage : Fin SERIALIZED_STAGE_COUNT) (tier : ℤ)
    (i j : ℕ) : Prop where
  reference : ReferenceTier tier
  twins : Twins pass stage tier i j
  first : ∀ tier' i' j', ReferenceTier tier' → Twins pass stage tier' i' j' → j ≤ j'
  first_stage : ∀ stage' < stage, ∀ tier' i' j', ReferenceTier tier' →
    ¬ Twins pass stage' tier' i' j'

section Stage

variable {pass : SerializedPass} {stage : Fin SERIALIZED_STAGE_COUNT} {tier : ℤ}
  {variants : List ShaderLabPlannedVariant}

lemma DistinctStates.eq_of_same (h : DistinctStates tier variants) (hu : u ∈ variants)
    (hv : v ∈ variants) (hutier : u.hardware_tier_group = tier)
    (hvtier : v.hardware_tier_group = tier) (hsame : u.keyword_indices = v.keyword_indices) :
    u = v :=
  inj_on_of_nodup_map h (mem_ofTier.mpr ⟨hu, hutier⟩) (mem_ofTier.mpr ⟨hv, hvtier⟩) hsame

lemma Planned.exists_of_twins {i j : ℕ} (h : Planned pass stage 0 variants)
    (htwins : Twins pass stage tier i j) :
    ∃ u ∈ variants, ∃ v ∈ variants, u.subprogram_index = i ∧ v.subprogram_index = j ∧
      u.hardware_tier_group = tier ∧ v.hardware_tier_group = tier ∧
      u.keyword_indices = v.keyword_indices := by
  obtain ⟨-, keywords, hi, hj⟩ := htwins
  obtain ⟨u, hu, rfl, hutier, hukeywords⟩ := h.exists_mem (Nat.zero_le i) hi
  obtain ⟨v, hv, rfl, hvtier, hvkeywords⟩ := h.exists_mem (Nat.zero_le j) hj
  refine ⟨u, hu, v, hv, rfl, rfl, hutier, hvtier, ?_⟩
  exact stateSet_inj (h.sound u hu).2.1 (h.sound v hv).2.1 (hukeywords.trans hvkeywords.symm)

lemma Planned.not_twins (h : Planned pass stage 0 variants)
    (hdist : DistinctStates tier variants) (i j : ℕ) : ¬ Twins pass stage tier i j := by
  intro htwins
  obtain ⟨u, hu, v, hv, hui, hvj, hutier, hvtier, hsame⟩ := h.exists_of_twins htwins
  have heq := hdist.eq_of_same hu hv hutier hvtier hsame
  have hlt := htwins.1
  rw [heq] at hui
  omega

variable {reference : ℤ} {before : List ShaderLabPlannedVariant} {u v : ShaderLabPlannedVariant}
  {conflicting : ℤ} (h : FirstRepeat variants reference before u v conflicting)

include h

lemma FirstRepeat.mem_before : u ∈ before ∧ u.hardware_tier_group = reference := by
  obtain ⟨previous, hprev, -⟩ := h.place
  exact mem_ofTier.mp (mem_of_getElem? hprev)

variable (hplanned : Planned pass stage 0 variants)

include hplanned

lemma FirstRepeat.mem_before_iff {w : ShaderLabPlannedVariant} (hw : w ∈ variants) :
    w ∈ before ↔ w.subprogram_index < v.subprogram_index := by
  obtain ⟨rest, hall⟩ := h.all_eq
  have hordered := hplanned.ordered
  rw [hall, pairwise_append] at hordered
  obtain ⟨-, hrest, hcross⟩ := hordered
  constructor
  · exact fun hw => hcross w hw v mem_cons_self
  · intro hlt
    rw [hall] at hw
    rcases mem_append.mp hw with hw | hw
    · exact hw
    rcases mem_cons.mp hw with rfl | hw
    · exact absurd hlt (lt_irrefl _)
    · exact absurd hlt (rel_of_pairwise_cons hrest hw).asymm

omit hplanned in
lemma FirstRepeat.mem : u ∈ variants ∧ v ∈ variants := by
  obtain ⟨rest, hall⟩ := h.all_eq
  rw [hall]
  exact ⟨mem_append_left _ h.mem_before.1, mem_append_right _ mem_cons_self⟩

lemma FirstRepeat.twins : Twins pass stage reference u.subprogram_index v.subprogram_index := by
  obtain ⟨hu, hv⟩ := h.mem
  refine ⟨(h.mem_before_iff hplanned hu).mp h.mem_before.1, stateSet u.keyword_indices, ?_, ?_⟩
  · rw [← h.mem_before.2]
    exact (hplanned.sound u hu).2.2
  · rw [h.same, ← h.tier_eq]
    exact (hplanned.sound v hv).2.2

lemma FirstRepeat.first (honly : OnlyReference variants reference) {i j : ℕ}
    (htier : ReferenceTier tier) (htwins : Twins pass stage tier i j) :
    v.subprogram_index ≤ j ∧ (j = v.subprogram_index → i = u.subprogram_index ∧ tier = reference) := by
  obtain ⟨a, ha, b, hb, rfl, rfl, hatier, hbtier, hsame⟩ := hplanned.exists_of_twins htwins
  have href : tier = reference := by
    rw [← hatier]
    exact honly.2 a ha (hatier ▸ htier)
  constructor
  · by_contra hlt
    have hbefore := (h.mem_before_iff hplanned hb).mpr (not_le.mp hlt)
    have habefore := (h.mem_before_iff hplanned ha).mpr (htwins.1.trans (not_le.mp hlt))
    have heq := h.distinct.eq_of_same habefore hbefore (hatier.trans href) (hbtier.trans href) hsame
    have hne := htwins.1
    rw [heq] at hne
    exact lt_irrefl _ hne
  · intro hj
    refine ⟨?_, href⟩
    have habefore := (h.mem_before_iff hplanned ha).mpr (hj ▸ htwins.1)
    -- The second twin is `v`, as an index has one subprogram.
    have hbv : stateSet b.keyword_indices = stateSet v.keyword_indices := by
      have hbd3d := (hplanned.sound b hb).2.2
      rw [hj] at hbd3d
      exact ((hplanned.sound v h.mem.2).2.2.unique hbd3d).2
    have hstate := stateSet_inj (hplanned.sound b hb).2.1 (hplanned.sound v h.mem.2).2.1 hbv
    have heq := h.distinct.eq_of_same habefore h.mem_before.1 (hatier.trans href)
      h.mem_before.2 (hsame.trans (hstate.trans h.same.symm))
    rw [heq]

/-- **The second subprogram of the diagnostic.** It is the first twin where only variants of the
reference tier stand before that one, and a variant before it otherwise. -/
theorem FirstRepeat.conflicting_cases : (conflicting = u.subprogram_index ∧ ∀ w ∈ variants,
      w.subprogram_index < u.subprogram_index → w.hardware_tier_group = reference) ∨
    (∃ w ∈ variants, w.subprogram_index < u.subprogram_index ∧ conflicting = w.subprogram_index) ∧
      ∃ w ∈ variants, w.subprogram_index < u.subprogram_index ∧
        w.hardware_tier_group ≠ reference := by
  obtain ⟨place, hplace, hconf⟩ := h.place
  obtain ⟨rest, hall⟩ := h.all_eq
  obtain ⟨first, behind, hbefore, hlen⟩ := exists_split_of_place hplace
  have hvars : variants = first ++ u :: (behind ++ v :: rest) := by
    rw [hall, hbefore]
    simp
  have hordered := hplanned.ordered
  rw [hvars, pairwise_append] at hordered
  obtain ⟨-, hrest, hcross⟩ := hordered
  have hfst : ∀ w ∈ variants, w.subprogram_index < u.subprogram_index ↔ w ∈ first := by
    intro w hw
    refine ⟨fun hlt => ?_, fun hw => hcross w hw u mem_cons_self⟩
    rw [hvars] at hw
    rcases mem_append.mp hw with hw | hw
    · exact hw
    rcases mem_cons.mp hw with rfl | hw
    · exact absurd hlt (lt_irrefl _)
    · exact absurd hlt (rel_of_pairwise_cons hrest hw).asymm
  have hle : (ofTier reference first).length ≤ first.length := length_filter_le _ _
  by_cases hsame : place = first.length
  · left
    have hu : variants[place]? = some u := by
      rw [hvars, hsame, getElem?_append_right (le_refl _), Nat.sub_self]
      rfl
    refine ⟨by rw [hconf, hu]; rfl, ?_⟩
    intro w hw hlt
    have hall_tier := length_filter_eq_length_iff.mp (hlen.trans hsame)
    exact of_decide_eq_true (hall_tier w ((hfst w hw).mp hlt))
  · right
    have hlt : place < first.length := by omega
    have hw : variants[place]? = some first[place] := by
      rw [hvars, getElem?_append_left hlt, getElem?_eq_getElem hlt]
    have hmem : first[place] ∈ first := getElem_mem hlt
    have hsub : ∀ w ∈ first, w ∈ variants := by
      intro w hw
      rw [hvars]
      exact mem_append_left _ hw
    refine ⟨⟨first[place], hsub _ hmem, hcross _ hmem u mem_cons_self, ?_⟩, ?_⟩
    · rw [hconf, hw]
      rfl
    · by_contra hnone
      push Not at hnone
      apply hsame
      rw [← hlen]
      apply length_filter_eq_length_iff.mpr
      intro w hw
      exact decide_eq_true (hnone w (hsub w hw) (hcross w hw u mem_cons_self))

end Stage

/-! ## The stages -/

section Collect

variable {shader : SerializedShader} {pass : SerializedPass} {pass_mask : List KeywordIndex}

lemma distinctStates_of_none (h : ∀ w ∈ variants, w.hardware_tier_group ≠ tier) :
    DistinctStates tier variants := by
  have hnone : ofTier tier variants = [] :=
    filter_eq_nil_iff.mpr fun w hw => by simpa using h w hw
  rw [DistinctStates, hnone]
  exact nodup_nil

lemma countP_tier_eq_zero (h : (variants.countP fun v => v.hardware_tier_group = tier) = 0) :
    ∀ w ∈ variants, w.hardware_tier_group ≠ tier := by
  intro w hw
  simpa using countP_eq_zero.mp h w hw

/-- The states of a planned stage are distinct, and where they are not, the first repetition is
reported. No other failure names a second subprogram. -/
theorem plan_stage_cases (stage : Fin SERIALIZED_STAGE_COUNT)
    (variants : List ShaderLabPlannedVariant) :
    (Quiet (plan_stage stage variants) ∧ ∀ plan, plan_stage stage variants = .ok plan →
      ∀ tier, ReferenceTier tier → DistinctStates tier variants) ∨
    ∃ reference before u v conflicting, OnlyReference variants reference ∧
      FirstRepeat variants reference before u v conflicting ∧
      plan_stage stage variants =
        .error ⟨.tierDomainMismatch, stage.val, v.subprogram_index, conflicting, -1⟩ := by
  unfold plan_stage
  dsimp only
  generalize href :
    (if (variants.countP fun v => v.hardware_tier_group = 3) ≠ 0 then (3 : ℤ) else 0) = reference
  split
  · refine .inl ⟨quiet_error, ?_⟩
    intro plan h
    nomatch h
  rename_i hmixed
  -- One of the tiers 0 and 3 has no variants, and the other is the reference tier.
  have honly : OnlyReference variants reference := by
    rw [← href]
    split_ifs with hgeneric
    · refine ⟨.inr rfl, fun w hw htier => htier.resolve_left ?_⟩
      exact countP_tier_eq_zero (by tauto) w hw
    · refine ⟨.inl rfl, fun w hw htier => htier.resolve_right ?_⟩
      exact countP_tier_eq_zero (not_not.mp hgeneric) w hw
  rcases @order_states_cases stage reference variants [] variants rfl nodup_nil with
    ⟨hrun, hdist⟩ | ⟨before, u, v, conflicting, hrepeat, hrun⟩
  · left
    have hrun : order_states stage variants reference variants [] = _ := hrun
    rw [hrun]
    constructor
    · refine (quiet_ok _).bind fun ordered_states _ => quiet_ite quiet_error (quiet_ite ?_ ?_)
      · refine (quiet_match_tier _ _ _ _ _).bind fun _ _ => ?_
        exact (quiet_match_tier _ _ _ _ _).bind fun _ _ => quiet_ok _
      · exact quiet_ok _
    · intro plan _ tier htier
      by_cases hsame : tier = reference
      · rwa [hsame]
      · apply distinctStates_of_none
        intro w hw hwtier
        exact hsame (hwtier ▸ honly.2 w hw (hwtier ▸ htier))
  · right
    have hrun : order_states stage variants reference variants [] = _ := hrun
    refine ⟨reference, before, u, v, conflicting, honly, hrepeat, ?_⟩
    rw [hrun]
    rfl

lemma stage_collect_cases (stage : Fin SERIALIZED_STAGE_COUNT) :
    (Quiet (stage_collect_variants shader pass pass_mask stage) ∧
      ∀ plan, stage_collect_variants shader pass pass_mask stage = .ok plan →
        ∀ tier i j, ReferenceTier tier → ¬ Twins pass stage tier i j) ∨
    ∃ variants reference before u v conflicting, Planned pass stage 0 variants ∧
      OnlyReference variants reference ∧
      FirstRepeat variants reference before u v conflicting ∧
      stage_collect_variants shader pass pass_mask stage =
        .error ⟨.tierDomainMismatch, stage.val, v.subprogram_index, conflicting, -1⟩ := by
  unfold stage_collect_variants
  dsimp only
  split_ifs with harrays hnone
  · refine .inl ⟨quiet_error, ?_⟩
    intro plan h
    nomatch h
  · refine .inl ⟨quiet_ok _, ?_⟩
    intro plan _ tier i j _ htwins
    obtain ⟨-, keywords, hi, -⟩ := htwins
    exact hnone i (lt_of_is_platform hi.is_platform) hi.is_platform
  · cases hvars : plan_variants shader pass pass_mask stage 0
        (((pass.stages stage).identities.getD []).take
          (pass.stages stage).subprograms.count.toNat) with
    | error diagnostic =>
      refine .inl ⟨?_, ?_⟩
      · intro diagnostic' h
        rw [← Except.error.inj h]
        exact quiet_plan_variants _ _ _ _ _ _ _ hvars
      · intro plan h
        nomatch h
    | ok variants =>
      have hplanned : Planned pass stage 0 variants := plan_variants_eq_ok rfl hvars
      rcases plan_stage_cases stage variants with
        ⟨hquiet, hdist⟩ | ⟨reference, before, u, v, conflicting, honly, hrepeat, hrun⟩
      · refine .inl ⟨hquiet, ?_⟩
        intro plan h tier i j htier
        exact hplanned.not_twins (hdist plan h tier htier) i j
      · exact .inr ⟨variants, reference, before, u, v, conflicting, hplanned, honly, hrepeat, hrun⟩

/-- A failure names one subprogram, or it comes from a stage whose predecessors were collected. -/
theorem collect_stages_error {stages : List (Fin SERIALIZED_STAGE_COUNT)} {tier_mode : Option Bool}
    {diagnostic : ShaderLabVariantPlanDiagnostic}
    (h : collect_stages shader pass pass_mask stages tier_mode = .error diagnostic) :
    diagnostic.conflicting_subprogram_index = -1 ∨
    ∃ before stage behind, stages = before ++ stage :: behind ∧
      stage_collect_variants shader pass pass_mask stage = .error diagnostic ∧
      ∀ s ∈ before, ∃ plan, stage_collect_variants shader pass pass_mask s = .ok plan := by
  induction stages generalizing tier_mode with
  | nil => nomatch h
  | cons stage rest ih =>
    rw [collect_stages] at h
    cases hstage : stage_collect_variants shader pass pass_mask stage with
    | error diagnostic' =>
      rw [hstage] at h
      have hsame : diagnostic' = diagnostic := Except.error.inj h
      exact .inr ⟨[], stage, rest, rfl, hsame ▸ hstage, nofun⟩
    | ok plan =>
      rw [hstage] at h
      have hrest : ∀ mode, collect_stages shader pass pass_mask rest mode = .error diagnostic →
          diagnostic.conflicting_subprogram_index = -1 ∨
          ∃ before stage' behind, stage :: rest = before ++ stage' :: behind ∧
            stage_collect_variants shader pass pass_mask stage' = .error diagnostic ∧
            ∀ s ∈ before, ∃ plan, stage_collect_variants shader pass pass_mask s = .ok plan := by
        intro mode hrun
        rcases ih hrun with hquiet | ⟨before, stage', behind, hspl, herror, hbefore⟩
        · exact .inl hquiet
        · refine .inr ⟨stage :: before, stage', behind, by rw [hspl]; rfl, herror, ?_⟩
          intro s hs
          rcases mem_cons.mp hs with rfl | hs
          · exact ⟨plan, hstage⟩
          · exact hbefore s hs
      have hbind : ∀ {mode : Option Bool}
          {f : List ShaderLabPassStageVariantPlan × Option Bool →
            List ShaderLabPassStageVariantPlan × Option Bool},
          (do let result ← collect_stages shader pass pass_mask rest mode
              pure (f result)) = Except.error diagnostic →
            collect_stages shader pass pass_mask rest mode = .error diagnostic := by
        intro mode f hrun
        cases hcoll : collect_stages shader pass pass_mask rest mode with
        | error diagnostic' =>
          rw [hcoll] at hrun
          exact hrun
        | ok result =>
          rw [hcoll] at hrun
          nomatch hrun
      change (if ¬ plan.active then _ else _) = _ at h
      split_ifs at h
      · left
        rw [← Except.error.inj h]
      · exact hrest _ (hbind h)
      · exact hrest _ (hbind h)

end Collect

/-- The two subprograms of a diagnostic are different D3D subprograms of its stage, with one tier
and the same keywords. -/
def NamesTwins (pass : SerializedPass) (diagnostic : ShaderLabVariantPlanDiagnostic) : Prop :=
  ∃ (stage : Fin SERIALIZED_STAGE_COUNT) (i j : ℕ) (tier : ℤ) (keywords : Set ℤ),
    diagnostic.stage_index = stage.val ∧ diagnostic.subprogram_index = i ∧
    diagnostic.conflicting_subprogram_index = j ∧ i ≠ j ∧
    D3dVariant pass stage i tier keywords ∧ D3dVariant pass stage j tier keywords

/-- No D3D subprogram of another tier stands before the first repetition of the pass. -/
def OthersBehind (pass : SerializedPass) : Prop :=
  ∃ stage tier i j, FirstTwins pass stage tier i j ∧
    ∀ k < i, ∀ tier' keywords, D3dVariant pass stage k tier' keywords → tier' = tier

section Repeat

variable {pass : SerializedPass} {stage : Fin SERIALIZED_STAGE_COUNT} {reference : ℤ}
  {variants before : List ShaderLabPlannedVariant} {u v : ShaderLabPlannedVariant}
  {conflicting : ℤ}

lemma FirstRepeat.conflicting_eq_of_names
    (h : FirstRepeat variants reference before u v conflicting)
    (hplanned : Planned pass stage 0 variants)
    (hnames : NamesTwins pass
      ⟨.tierDomainMismatch, stage.val, v.subprogram_index, conflicting, -1⟩) :
    ∀ w ∈ variants, w.subprogram_index < u.subprogram_index →
      w.hardware_tier_group = reference := by
  rcases h.conflicting_cases hplanned with ⟨-, hbefore⟩ | ⟨⟨w, hw, hlt, hconf⟩, -⟩
  · exact hbefore
  exfalso
  obtain ⟨stage', i, j, tier, keywords, hstage, hi, hj, -, hdi, hdj⟩ := hnames
  obtain rfl : stage = stage' := Fin.ext (Int.ofNat.inj hstage)
  obtain rfl : v.subprogram_index = i := Int.ofNat.inj hi
  obtain rfl : w.subprogram_index = j := Int.ofNat.inj (hconf.symm.trans hj)
  obtain ⟨hvtier, hvkeywords⟩ := hdi.unique (hplanned.sound v h.mem.2).2.2
  obtain ⟨hwtier, hwkeywords⟩ := hdj.unique (hplanned.sound w hw).2.2
  -- Then `w` is a variant of the reference tier with the state of `u`.
  have hstate := stateSet_inj (hplanned.sound w hw).2.1 (hplanned.sound v h.mem.2).2.1
    (hwkeywords.trans hvkeywords.symm)
  have hwbefore := (h.mem_before_iff hplanned hw).mpr (hlt.trans (h.twins hplanned).1)
  have heq := h.distinct.eq_of_same hwbefore h.mem_before.1
    (hwtier.trans (hvtier.symm.trans h.tier_eq)) h.mem_before.2 (hstate.trans h.same.symm)
  rw [heq] at hlt
  exact lt_irrefl _ hlt

/-- **The diagnostic of a stage.** It names the twins when no other tier stands before them. -/
theorem FirstRepeat.namesTwins_iff (h : FirstRepeat variants reference before u v conflicting)
    (hplanned : Planned pass stage 0 variants) (honly : OnlyReference variants reference)
    (hstages : ∀ stage' < stage, ∀ tier i j, ReferenceTier tier → ¬ Twins pass stage' tier i j) :
    NamesTwins pass ⟨.tierDomainMismatch, stage.val, v.subprogram_index, conflicting, -1⟩ ↔
      OthersBehind pass := by
  have htwins := h.twins hplanned
  constructor
  · intro hnames
    refine ⟨stage, reference, u.subprogram_index, v.subprogram_index,
      ⟨honly.1, htwins, fun tier' i' j' htier' h' => (h.first hplanned honly htier' h').1,
        hstages⟩, ?_⟩
    intro k hk tier' keywords hd3d
    obtain ⟨w, hw, rfl, rfl, -⟩ := hplanned.exists_mem (Nat.zero_le k) hd3d
    exact h.conflicting_eq_of_names hplanned hnames w hw hk
  · rintro ⟨stage', tier, i, j, hfst, hothers⟩
    have hstage : stage' = stage := by
      rcases lt_trichotomy stage' stage with hlt | heq | hlt
      · exact absurd hfst.twins (hstages stage' hlt tier i j hfst.reference)
      · exact heq
      · exact absurd htwins (hfst.first_stage stage hlt reference _ _ honly.1)
    subst hstage
    obtain ⟨hle, hsame⟩ := h.first hplanned honly hfst.reference hfst.twins
    obtain ⟨rfl, rfl⟩ := hsame (le_antisymm (hfst.first _ _ _ honly.1 htwins) hle)
    rcases h.conflicting_cases hplanned with ⟨hconf, -⟩ | ⟨-, w, hw, hlt, htier⟩
    · obtain ⟨hlt, keywords, hu, hv⟩ := htwins
      exact ⟨stage', _, _, _, keywords, rfl, rfl, hconf, hlt.ne', hv, hu⟩
    · exact absurd (hothers _ hlt _ _ (hplanned.sound w hw).2.2) htier

end Repeat

lemma lt_of_mem_planned {before behind : List (Fin SERIALIZED_STAGE_COUNT)}
    {stage stage' : Fin SERIALIZED_STAGE_COUNT} (h : PLANNED_STAGES = before ++ stage :: behind)
    (hlt : stage' < stage) : stage' ∈ before := by
  have hsorted : PLANNED_STAGES.Pairwise (· < ·) := by decide
  have hclosed : ∀ s ∈ PLANNED_STAGES, ∀ s' < s, s' ∈ PLANNED_STAGES := by decide
  have hmem : stage' ∈ PLANNED_STAGES := by
    refine hclosed stage ?_ stage' hlt
    rw [h]
    exact mem_append_right _ mem_cons_self
  rw [h] at hsorted hmem
  obtain ⟨-, hbehind, -⟩ := pairwise_append.mp hsorted
  rcases mem_append.mp hmem with hmem | hmem
  · exact hmem
  rcases mem_cons.mp hmem with rfl | hmem
  · exact absurd hlt (lt_irrefl _)
  · exact absurd hlt (rel_of_pairwise_cons hbehind hmem).asymm

end VariantPlan

open VariantPlan

/-- **Two subprograms in conflict.** The planner reports a repetition of the reference tier with
the indices of two subprograms. They are the two equal ones exactly when no D3D subprogram of
another tier stands before the first of them. -/
theorem shaderlab_variant_plan_build_names_twins_iff
    (plan_axes : ShaderLabVariantPlan → Planning ShaderLabVariantPlan)
    (hplan_axes : ∀ plan diagnostic, plan_axes plan = .error diagnostic →
      diagnostic.status ≠ .tierDomainMismatch)
    (shader : SerializedShader) (pass : SerializedPass)
    (diagnostic : ShaderLabVariantPlanDiagnostic)
    (hbuild : shaderlab_variant_plan_build plan_axes shader pass = .error diagnostic)
    (hstatus : diagnostic.status = .tierDomainMismatch)
    (hconflicting : 0 ≤ diagnostic.conflicting_subprogram_index) :
    NamesTwins pass diagnostic ↔ OthersBehind pass := by
  have hloud : diagnostic.conflicting_subprogram_index ≠ -1 := by omega
  unfold shaderlab_variant_plan_build at hbuild
  cases hauthority : validate_shader_authority shader with
  | error diagnostic' =>
    rw [hauthority] at hbuild
    obtain rfl : diagnostic' = diagnostic := Except.error.inj hbuild
    exact absurd (quiet_validate_shader_authority shader _ hauthority) hloud
  | ok _ =>
  rw [hauthority] at hbuild
  change (if _ then _ else _) = _ at hbuild
  split at hbuild
  · exact absurd (quiet_error _ hbuild) hloud
  cases hmask : validate_pass_mask shader pass with
  | error diagnostic' =>
    rw [hmask] at hbuild
    obtain rfl : diagnostic' = diagnostic := Except.error.inj hbuild
    exact absurd (quiet_validate_pass_mask shader pass _ hmask) hloud
  | ok pass_mask =>
  rw [hmask] at hbuild
  change (collect_stages shader pass pass_mask PLANNED_STAGES none >>= _) = _ at hbuild
  cases hcollect : collect_stages shader pass pass_mask PLANNED_STAGES none with
  | ok result =>
    -- What follows the collection never reports a mismatch of tiers.
    obtain ⟨stages, tier_mode⟩ := result
    rw [hcollect] at hbuild
    cases tier_mode with
    | none => exact absurd (quiet_error _ hbuild) hloud
    | some mode => exact absurd hstatus (hplan_axes _ _ hbuild)
  | error diagnostic' =>
    rw [hcollect] at hbuild
    obtain rfl : diagnostic' = diagnostic := Except.error.inj hbuild
    obtain ⟨before, stage, behind, hstages, herror, hbefore⟩ :=
      (collect_stages_error hcollect).resolve_left hloud
    rcases stage_collect_cases stage with
      ⟨hquiet, -⟩ | ⟨variants, reference, done, u, v, conflicting, hplanned, honly, hrepeat, hrun⟩
    · exact absurd (hquiet _ herror) hloud
    obtain rfl := Except.error.inj (hrun.symm.trans herror)
    apply hrepeat.namesTwins_iff hplanned honly
    intro stage' hlt tier i j htier htwins
    obtain ⟨plan, hplan⟩ := hbefore stage' (lt_of_mem_planned hstages hlt)
    rcases stage_collect_cases stage' with
      ⟨-, hnone⟩ | ⟨_, _, _, _, _, _, -, -, -, hrun'⟩
    · exact hnone plan hplan tier i j htier htwins
    · rw [hrun'] at hplan
      nomatch hplan

/-- A pass whose first stage has a D3D subprogram for each of the tiers, with or without the
keyword 0. -/
def conflictPass (subprograms : List (ℤ × Bool)) : SerializedPass where
  has_serialized_platforms := true
  platforms := .holding [4]
  stages := fun stage =>
    if stage.val = 0 then
      { subprograms := ⟨some (subprograms.map fun _ => ⟨15, .null, .null⟩),
          subprograms.length, by rintro - l ⟨⟩; simp⟩
        identities := some (subprograms.map fun (tier, enabled) =>
          ⟨tier, false, .null, if enabled then .holding [0] else .null⟩)
        identities_eq := by rintro - l ⟨⟩; simp }
    else .null
  serialized_keyword_state_mask := .holding [0]

def conflictShader : SerializedShader where
  keyword_names := .holding [some (.ofBytes [65])]
  keyword_flags := some [1]

theorem shaderlab_variant_plan_build_names_generic_twins :
    shaderlab_variant_plan_build .ok conflictShader
        (conflictPass [(3, true), (3, false), (3, true)]) =
      .error ⟨.tierDomainMismatch, 0, 2, 0, -1⟩ ∧
    OthersBehind (conflictPass [(3, true), (3, false), (3, true)]) := by
  have hbuild : shaderlab_variant_plan_build .ok conflictShader
      (conflictPass [(3, true), (3, false), (3, true)]) =
        .error ⟨.tierDomainMismatch, 0, 2, 0, -1⟩ := by rfl
  refine ⟨hbuild, ?_⟩
  apply (shaderlab_variant_plan_build_names_twins_iff .ok (fun _ _ h => nomatch h) conflictShader _ _
    hbuild rfl (by decide)).mp
  exact ⟨⟨0, by decide⟩, 2, 0, 3, _, rfl, rfl, rfl, by decide, ⟨by rfl, _, rfl, rfl, rfl⟩,
    ⟨by rfl, _, rfl, rfl, rfl⟩⟩

/-- The two equal subprograms of tier 0 are 4 and 5, and the planner names 5 and 0, which is for
tier 1. -/
theorem shaderlab_variant_plan_build_names_other_tier :
    ∃ diagnostic, (∀ plan_axes, shaderlab_variant_plan_build plan_axes conflictShader
      (conflictPass [(1, false), (1, true), (2, false), (2, true), (0, false), (0, false)]) =
        .error diagnostic) ∧
    diagnostic.status = .tierDomainMismatch ∧ 0 ≤ diagnostic.subprogram_index ∧
    0 ≤ diagnostic.conflicting_subprogram_index ∧
    ¬ NamesTwins (conflictPass [(1, false), (1, true), (2, false), (2, true), (0, false),
      (0, false)]) diagnostic := by
  refine ⟨⟨.tierDomainMismatch, 0, 5, 0, -1⟩, fun _ => by rfl, rfl, by decide, by decide, ?_⟩
  rintro ⟨stage, i, j, tier, keywords, hstage, hi, hj, -, hdi, hdj⟩
  obtain rfl : i = 5 := (Int.ofNat.inj hi).symm
  obtain rfl : j = 0 := (Int.ofNat.inj hj).symm
  obtain rfl : stage = ⟨0, by decide⟩ := Fin.ext (Int.ofNat.inj hstage).symm
  obtain ⟨identity, hidentity, rfl, -⟩ := hdi.identity
  obtain ⟨identity', hidentity', htier, -⟩ := hdj.identity
  rw [← some.inj hidentity, ← some.inj hidentity'] at htier
  exact absurd htier (by decide)

end DXBCSandbox
