/-
What the legacy stage planner accepts.

The planner compares neighbours of a sorted list and counts groups. The order is lexicographic
in the enabled keywords and then in the tier, so what holds between neighbours holds between all
variants: two with the same keywords have different tiers, none of them generic. And as many
groups as there are sets of keywords means that no set is missing. Hence the printed conditions
are a partition: under every assignment and every hardware tier exactly one of them is true.
-/
import DXBCSandbox.Shaderlab.StagePlan
import Mathlib.Data.Finset.Powerset
import Mathlib.Data.List.ReduceOption
import Mathlib.Data.List.TakeWhile

namespace DXBCSandbox

open List Option Checks Preprocessor

variable {pass : SerializedPass} {plan : ShaderLabStagePlan} {keywords : List CString}
    {i index tier : ℕ}

namespace StagePlan

/-! ## Keywords of a subprogram -/

variable {keyword : CString}

lemma isIdentifier_of_exact (h : keyword_is_exact_preprocessor_identifier (some keyword) = true) :
    IsIdentifier keyword.bytes := by
  unfold keyword_is_exact_preprocessor_identifier at h
  dsimp only at h
  rcases hbytes : keyword.bytes with _ | ⟨first, rest⟩
  · rw [hbytes] at h
    cases h
  · rw [hbytes] at h
    dsimp only at h
    split_ifs at h with _ hfst
    refine ⟨cons_ne_nil _ _, ?_⟩
    intro b hb
    unfold isIdentifierByte
    rcases mem_cons.mp hb with rfl | hb
    · exact decide_eq_true (by tauto)
    · exact all_eq_true.mp h b hb

lemma not_control_of_exact (h : keyword_is_exact_preprocessor_identifier (some keyword) = true) :
    is_generated_control_keyword keyword = false := by
  by_contra hctl
  rw [Bool.not_eq_false] at hctl
  unfold keyword_is_exact_preprocessor_identifier at h
  dsimp only at h
  split at h
  · cases h
  · rw [if_pos (.inr hctl)] at h
    cases h

/-- The keywords are identifiers, none is a tier macro, and none is there twice. -/
theorem validate_keywords_eq_true {previous rest : List (Option CString)}
    (h : validate_keywords previous rest = true) :
    (∀ keyword ∈ rest, keyword_is_exact_preprocessor_identifier keyword = true ∧
      keyword ∉ previous) ∧ rest.Nodup := by
  induction rest generalizing previous with
  | nil => exact ⟨nofun, nodup_nil⟩
  | cons keyword rest ih =>
    simp only [validate_keywords, Bool.and_eq_true, Bool.not_eq_true', decide_eq_false_iff_not] at h
    obtain ⟨⟨hex, hprev⟩, hrest⟩ := h
    obtain ⟨hall, hnodup⟩ := ih hrest
    constructor
    · intro k hk
      rcases mem_cons.mp hk with rfl | hk
      · exact ⟨hex, hprev⟩
      · exact ⟨(hall k hk).1, fun hp => (hall k hk).2 (mem_append_left _ hp)⟩
    · apply nodup_cons.mpr ⟨_, hnodup⟩
      intro hk
      exact (hall keyword hk).2 (mem_append_right _ (mem_singleton_self _))

structure ValidKeywords (sub : SerializedSubProgram) : Prop where
  exact : ∀ keyword ∈ subprogram_keywords sub,
    keyword_is_exact_preprocessor_identifier keyword = true
  nodup : (subprogram_keywords sub).Nodup

variable {sub : SerializedSubProgram}

lemma validKeywords_of_validate (h : validate_subprogram_keywords sub = true) : ValidKeywords sub := by
  unfold validate_subprogram_keywords at h
  split_ifs at h
  obtain ⟨hall, hnodup⟩ := validate_keywords_eq_true h
  exact ⟨fun k hk => (hall k hk).1, hnodup⟩

lemma ValidKeywords.map_some (h : ValidKeywords sub) :
    (subprogram_keywords sub).reduceOption.map some = subprogram_keywords sub := by
  have hsome : ∀ keyword ∈ subprogram_keywords sub, ∃ k, keyword = some k := by
    intro keyword hkw
    cases keyword with
    | none => exact absurd (h.exact none hkw) Bool.false_ne_true
    | some k => exact ⟨k, rfl⟩
  generalize subprogram_keywords sub = l at hsome
  induction l with
  | nil => rfl
  | cons x l ih =>
    obtain ⟨k, rfl⟩ := hsome x mem_cons_self
    rw [reduceOption_cons_of_some, map_cons, ih (forall_mem_cons.mp hsome).2]

lemma mem_foldl_add_keyword (ks keywords : List CString) (k : CString) :
    k ∈ ks.foldl stage_plan_add_keyword keywords ↔ k ∈ keywords ∨ k ∈ ks := by
  induction ks generalizing keywords with
  | nil => simp
  | cons x ks ih =>
    rw [foldl_cons, ih, mem_cons]
    unfold stage_plan_add_keyword
    split_ifs with hx
    · constructor
      · tauto
      · rintro (h | rfl | h)
        · exact .inl h
        · exact .inl hx
        · exact .inr h
    · rw [mem_append, mem_singleton]
      tauto

lemma nodup_foldl_add_keyword (ks : List CString) (h : keywords.Nodup) :
    (ks.foldl stage_plan_add_keyword keywords).Nodup := by
  induction ks generalizing keywords with
  | nil => exact h
  | cons x ks ih =>
    apply ih
    unfold stage_plan_add_keyword
    split_ifs with hx
    · exact h
    · exact nodup_append.mpr ⟨h, nodup_singleton x, fun a ha b hb hab =>
        hx (by rwa [← mem_singleton.mp hb, ← hab])⟩

/-! ## The D3D subprograms of a stage -/

structure D3dSubprogram (pass : SerializedPass) (stage : Fin SERIALIZED_STAGE_COUNT) (index : ℕ)
    (sub : SerializedSubProgram) (identity : SerializedSubProgramIdentity) : Prop where
  sub_eq : (pass.stages stage).subprograms.toList[index]? = some sub
  identity_eq : ((pass.stages stage).identities.getD [])[index]? = some identity
  is_platform : serialized_pass_subprogram_is_platform pass stage index 4 = true

/-- The keywords that some D3D subprogram of the stage has. -/
def InUniverse (pass : SerializedPass) (stage : Fin SERIALIZED_STAGE_COUNT) (keyword : CString) :
    Prop :=
  ∃ index sub identity, D3dSubprogram pass stage index sub identity ∧
    some keyword ∈ subprogram_keywords sub

/-- The subprogram at `index` is for the keywords that are on and for the tier. -/
def Serves (pass : SerializedPass) (stage : Fin SERIALIZED_STAGE_COUNT) (on : CString → Bool)
    (tier : ℕ) (index : ℕ) : Prop :=
  ∃ sub identity, D3dSubprogram pass stage index sub identity ∧
    (∀ keyword, InUniverse pass stage keyword →
      (on keyword = true ↔ some keyword ∈ subprogram_keywords sub)) ∧
    (identity.hardware_tier_group = 3 ∨ identity.hardware_tier_group = tier)

/-- Every assignment of the keywords and every tier has exactly one D3D subprogram. -/
def SubprogramsPartition (pass : SerializedPass) (stage : Fin SERIALIZED_STAGE_COUNT) : Prop :=
  ∀ (on : CString → Bool) (tier : ℕ), tier < 3 → ∃! index, Serves pass stage on tier index

/-! ## The first loop -/

/-- The subprograms the first loop goes over, each with its identity. -/
def stageItems (pass : SerializedPass) (stage : Fin SERIALIZED_STAGE_COUNT) :
    List (SerializedSubProgram × SerializedSubProgramIdentity) :=
  (((pass.stages stage).subprograms.values.getD []).zip
    ((pass.stages stage).identities.getD [])).take (pass.stages stage).subprograms.count.toNat

variable {stage : Fin SERIALIZED_STAGE_COUNT} {identity : SerializedSubProgramIdentity}

lemma d3dSubprogram_iff : D3dSubprogram pass stage index sub identity ↔
      (stageItems pass stage)[index]? = some (sub, identity) ∧
        serialized_pass_subprogram_is_platform pass stage index 4 = true := by
  have hitem : (stageItems pass stage)[index]? = some (sub, identity) ↔
      (pass.stages stage).subprograms.toList[index]? = some sub ∧
        ((pass.stages stage).identities.getD [])[index]? = some identity := by
    unfold stageItems IntArray.toList
    rw [getElem?_take, getElem?_take]
    split_ifs
    · exact getElem?_zip_eq_some
    · simp
  rw [hitem]
  constructor
  · rintro ⟨hsub, hident, hplat⟩
    exact ⟨⟨hsub, hident⟩, hplat⟩
  · rintro ⟨⟨hsub, hident⟩, hplat⟩
    exact ⟨hsub, hident, hplat⟩

/-- What is known of the plan once the subprograms below `index` have been read. -/
structure Collected (pass : SerializedPass) (stage : Fin SERIALIZED_STAGE_COUNT) (index : ℕ)
    (plan : ShaderLabStagePlan) : Prop where
  keywords_nodup : plan.keywords.Nodup
  mem_keywords : ∀ keyword, keyword ∈ plan.keywords ↔ ∃ j sub identity, j < index ∧
    D3dSubprogram pass stage j sub identity ∧ some keyword ∈ subprogram_keywords sub
  mem_variants : ∀ variant, variant ∈ plan.variants ↔ ∃ j sub identity, j < index ∧
    D3dSubprogram pass stage j sub identity ∧
      variant = ⟨j, identity.hardware_tier_group.toNat, []⟩
  indices_nodup : (plan.variants.map (·.subprogram_index)).Nodup
  checked : ∀ j sub identity, j < index → D3dSubprogram pass stage j sub identity →
    0 ≤ identity.hardware_tier_group ∧ identity.hardware_tier_group ≤ 3 ∧ ValidKeywords sub

lemma collected_empty (pass : SerializedPass) (stage : Fin SERIALIZED_STAGE_COUNT) :
    Collected pass stage 0 ⟨[], []⟩ where
  keywords_nodup := nodup_nil
  mem_keywords := by simp
  mem_variants := by simp
  indices_nodup := nodup_nil
  checked := by simp

section Collect

variable {pass : SerializedPass} {stage : Fin SERIALIZED_STAGE_COUNT} {index : ℕ}
  {plan : ShaderLabStagePlan} {sub : SerializedSubProgram}
  {identity : SerializedSubProgramIdentity}

lemma D3dSubprogram.unique {sub' : SerializedSubProgram}
    {identity' : SerializedSubProgramIdentity} (h : D3dSubprogram pass stage index sub identity)
    (h' : D3dSubprogram pass stage index sub' identity') : sub' = sub ∧ identity' = identity :=
  ⟨some.inj (h'.sub_eq.symm.trans h.sub_eq), some.inj (h'.identity_eq.symm.trans h.identity_eq)⟩

lemma exists_below_succ {P : ℕ → SerializedSubProgram → SerializedSubProgramIdentity → Prop} :
    (∃ j sub identity, j < index + 1 ∧ D3dSubprogram pass stage j sub identity ∧ P j sub identity) ↔
      (∃ j sub identity, j < index ∧ D3dSubprogram pass stage j sub identity ∧ P j sub identity) ∨
      ∃ sub identity, D3dSubprogram pass stage index sub identity ∧ P index sub identity := by
  simp only [Nat.lt_succ_iff_lt_or_eq, or_and_right, exists_or]
  simp

lemma Collected.skip (h : Collected pass stage index plan)
    (hplat : ¬ serialized_pass_subprogram_is_platform pass stage index 4 = true) :
    Collected pass stage (index + 1) plan := by
  have hnone (sub) (identity) : ¬ D3dSubprogram pass stage index sub identity :=
    fun hd3d => hplat hd3d.is_platform
  constructor
  case keywords_nodup => exact h.keywords_nodup
  case indices_nodup => exact h.indices_nodup
  case mem_keywords =>
    intro keyword
    rw [h.mem_keywords, exists_below_succ]
    simp [hnone]
  case mem_variants =>
    intro variant
    rw [h.mem_variants, exists_below_succ]
    simp [hnone]
  case checked =>
    intro j sub identity hj hd3d
    have hne : j ≠ index := fun heq => hnone sub identity (heq ▸ hd3d)
    exact h.checked j sub identity (by omega) hd3d

lemma Collected.add (h : Collected pass stage index plan)
    (hd3d : D3dSubprogram pass stage index sub identity)
    (htier : 0 ≤ identity.hardware_tier_group ∧ identity.hardware_tier_group ≤ 3)
    (hvalid : ValidKeywords sub) :
    Collected pass stage (index + 1)
      { keywords := (subprogram_keywords sub).reduceOption.foldl stage_plan_add_keyword
          plan.keywords
        variants := plan.variants ++ [⟨index, identity.hardware_tier_group.toNat, []⟩] } := by
  have hsome (sub') (identity') : D3dSubprogram pass stage index sub' identity' ↔
      sub' = sub ∧ identity' = identity :=
    ⟨hd3d.unique, fun h => h.1 ▸ h.2 ▸ hd3d⟩
  constructor
  case keywords_nodup => exact nodup_foldl_add_keyword _ h.keywords_nodup
  case mem_keywords =>
    intro keyword
    rw [mem_foldl_add_keyword, h.mem_keywords, reduceOption_mem_iff, exists_below_succ]
    simp [hsome]
  case mem_variants =>
    intro variant
    rw [mem_append, mem_singleton, h.mem_variants, exists_below_succ]
    simp [hsome]
  case indices_nodup =>
    dsimp only
    rw [map_append, map_singleton]
    apply nodup_append.mpr ⟨h.indices_nodup, nodup_singleton _, _⟩
    intro a ha b hb hab
    obtain ⟨variant, hvar, rfl⟩ := mem_map.mp ha
    obtain ⟨j, _, _, hj, -, rfl⟩ := (h.mem_variants variant).mp hvar
    rw [mem_singleton.mp hb] at hab
    exact absurd hab (Nat.ne_of_lt hj)
  case checked =>
    intro j sub' identity' hj hd3d'
    rcases Nat.lt_succ_iff_lt_or_eq.mp hj with hj | rfl
    · exact h.checked j sub' identity' hj hd3d'
    · obtain ⟨rfl, rfl⟩ := hd3d.unique hd3d'
      exact ⟨htier.1, htier.2, hvalid⟩

lemma collect_variants_eq_ok {rest : List (SerializedSubProgram × SerializedSubProgramIdentity)}
    {plan' : ShaderLabStagePlan} (hrest : rest = (stageItems pass stage).drop index)
    (h : Collected pass stage index plan)
    (hrun : collect_variants pass stage index rest plan = .ok plan') :
    ∃ n, (stageItems pass stage).length ≤ n ∧ Collected pass stage n plan' := by
  induction rest generalizing index plan with
  | nil =>
    rw [← pure_eq_ok.mp hrun]
    exact ⟨index, drop_eq_nil_iff.mp hrest.symm, h⟩
  | cons item rest ih =>
    obtain ⟨sub, identity⟩ := item
    have hitem : (stageItems pass stage)[index]? = some (sub, identity) := by
      rw [← Nat.add_zero index, ← getElem?_drop, ← hrest]
      rfl
    have hdrop : rest = (stageItems pass stage).drop (index + 1) := by
      rw [← drop_drop, ← hrest]
      rfl
    rw [collect_variants] at hrun
    split_ifs at hrun with hplat htier hvalid
    · -- The checks on the tier and on the keywords passed.
      refine ih hdrop (h.add (d3dSubprogram_iff.mpr ⟨hitem, hplat⟩) ?_
        (validKeywords_of_validate hvalid)) hrun
      omega
    · exact ih hdrop (h.skip hplat) hrun

end Collect

/-! ## The second loop -/

lemma compare_bytes_eq {a b : CString} (h : compare a.bytes b.bytes = .eq) : a = b := by
  have hbytes : a.bytes = b.bytes := Std.LawfulEqOrd.eq_of_compare h
  cases a
  cases b
  subst hbytes
  rfl

variable {keywords : List CString}

lemma getElem?_find_sorted_keyword {n low high : ℕ} (hhigh : high ≤ keywords.length)
    (h : find_sorted_keyword keywords keyword n low high = some i) : keywords[i]? = some keyword := by
  induction n generalizing low high with
  | zero => cases h
  | succ n ih =>
    rw [find_sorted_keyword] at h
    split_ifs at h with hlt
    have hmid : low + (high - low) / 2 < keywords.length := by omega
    dsimp only at h
    split at h
    next heq =>
      rw [← some.inj h, compare_bytes_eq heq, getD_eq_getElem _ _ hmid]
      exact getElem?_eq_getElem hmid
    next => exact ih hmid.le h
    next => exact ih hhigh h

variable {indices : List ℕ}

lemma map_enabled_indices {ks : List CString} (h : enabled_indices keywords ks = some indices) :
    indices.map (keywords[·]?) = ks.map some := by
  induction ks generalizing indices with
  | nil =>
    rw [← some.inj h]
    rfl
  | cons keyword ks ih =>
    rw [enabled_indices] at h
    obtain ⟨i, hi, h⟩ := bind_eq_some_iff.mp h
    obtain ⟨is, his, h⟩ := bind_eq_some_iff.mp h
    rw [← some.inj h, map_cons, map_cons, ih his, getElem?_find_sorted_keyword le_rfl hi]

/-- `indices` is the sorted list of the places of the keywords of `sub`. -/
structure EnabledBy (keywords : List CString) (sub : SerializedSubProgram) (indices : List ℕ) :
    Prop where
  sorted : indices.Pairwise (· < ·)
  mem_iff : ∀ i, i ∈ indices ↔ ∃ keyword, keywords[i]? = some keyword ∧
    some keyword ∈ subprogram_keywords sub

lemma EnabledBy.lt (h : EnabledBy keywords sub indices) (hi : i ∈ indices) : i < keywords.length := by
  obtain ⟨keyword, hkw, -⟩ := (h.mem_iff i).mp hi
  exact (List.getElem?_eq_some_iff.mp hkw).1

lemma enabledBy_of_enabled_indices (hvalid : ValidKeywords sub) (hkws : keywords.Nodup)
    (h : enabled_indices keywords (subprogram_keywords sub).reduceOption = some indices) :
    EnabledBy keywords sub (sortBy id indices) := by
  have hmap : indices.map (keywords[·]?) = subprogram_keywords sub :=
    (map_enabled_indices h).trans hvalid.map_some
  have hnodup : indices.Nodup := by
    apply List.Nodup.of_map (keywords[·]?)
    rw [hmap]
    exact hvalid.nodup
  constructor
  · have hsorted : SortedBy id (sortBy id indices) := sortedBy_sortBy (by simpa using hnodup)
    exact hsorted.imp fun hab => Nat.compare_eq_lt.mp hab
  · intro i
    rw [(perm_sortBy id indices).mem_iff, ← hmap]
    constructor
    · intro hi
      have hmem : keywords[i]? ∈ subprogram_keywords sub := by
        rw [← hmap]
        exact mem_map_of_mem hi
      rcases hkw : keywords[i]? with _ | keyword
      · rw [hkw] at hmem
        exact absurd (hvalid.exact none hmem) Bool.false_ne_true
      · exact ⟨keyword, rfl, by rwa [← hkw, hmap]⟩
    · rintro ⟨keyword, hkw, hmem⟩
      obtain ⟨j, hj, hjkeyword⟩ := mem_map.mp hmem
      have hlt := (List.getElem?_eq_some_iff.mp hkw).1
      rw [(List.getElem?_inj hlt hkws).mp (hkw.trans hjkeyword.symm)]
      exact hj

variable {variants : List ShaderLabStageVariantPlan}

/-- Every variant gets the keywords of its subprogram, and nothing else changes. -/
theorem enable_keywords_eq_ok {subs : List SerializedSubProgram}
    {variants' : List ShaderLabStageVariantPlan}
    (h : enable_keywords stage subs keywords variants = .ok variants') :
    variants'.map (·.subprogram_index) = variants.map (·.subprogram_index) ∧
      ∀ v' ∈ variants', ∃ v ∈ variants, ∃ indices, enabled_indices keywords
          (subs[v.subprogram_index]?.elim [] fun sub => (subprogram_keywords sub).reduceOption) =
            some indices ∧
        v' = { v with enabled_keyword_indices := sortBy id indices } := by
  induction variants generalizing variants' with
  | nil =>
    rw [← pure_eq_ok.mp h]
    exact ⟨rfl, nofun⟩
  | cons variant rest ih =>
    rw [enable_keywords] at h
    split at h
    next => cases h
    next indices hidxs =>
      obtain ⟨rest', hrest, h⟩ := bind_eq_ok.mp h
      obtain ⟨hmap, hall⟩ := ih hrest
      rw [← pure_eq_ok.mp h]
      constructor
      · rw [map_cons, map_cons, hmap]
      · intro v' hv'
        rcases mem_cons.mp hv' with rfl | hv'
        · exact ⟨variant, mem_cons_self, indices, hidxs, rfl⟩
        · obtain ⟨v, hv, hv'eq⟩ := hall v' hv'
          exact ⟨v, mem_cons_of_mem _ hv, hv'eq⟩

/-! ## The order of the variants -/

/-- What the neighbours of an accepted plan are to each other. -/
def Before (left right : ShaderLabStageVariantPlan) : Prop :=
  compare left.enabled_keyword_indices right.enabled_keyword_indices = .lt ∨
    (left.enabled_keyword_indices = right.enabled_keyword_indices ∧
      left.hardware_tier_group < right.hardware_tier_group ∧ right.hardware_tier_group < 3)

lemma Before.trans {a b c : ShaderLabStageVariantPlan} (hab : Before a b) (hbc : Before b c) :
    Before a c := by
  unfold Before at *
  rcases hab with hab | ⟨hab, htab, -⟩
  · rcases hbc with hbc | ⟨hbc, -, -⟩
    · exact .inl (Std.TransCmp.lt_trans hab hbc)
    · rw [← hbc]
      exact .inl hab
  · rw [hab]
    rcases hbc with hbc | ⟨hbc, htbc, htc⟩
    · exact .inl hbc
    · exact .inr ⟨hbc, htab.trans htbc, htc⟩

instance : IsTrans ShaderLabStageVariantPlan Before := ⟨fun _ _ _ => Before.trans⟩

instance : Std.TransOrd VariantOrder :=
  inferInstanceAs (Std.TransCmp (compareLex (compareOn _) (compareLex (compareOn _) (compareOn _))))

lemma before_of_sorted {a b : ShaderLabStageVariantPlan}
    (hsorted : compare (variantOrder a) (variantOrder b) ≠ .gt)
    (ha : a.hardware_tier_group ≤ 3) (hb : b.hardware_tier_group ≤ 3)
    (hclear : ¬ (enabled_sets_equal a b = true ∧ (a.hardware_tier_group = b.hardware_tier_group ∨
      a.hardware_tier_group = 3 ∨ b.hardware_tier_group = 3))) : Before a b := by
  unfold Before
  change compare_variant_plans _ _ ≠ .gt at hsorted
  unfold compare_variant_plans compareLex compareOn at hsorted
  rcases hcmp : compare a.enabled_keyword_indices b.enabled_keyword_indices with _ | _ | _
  · exact .inl rfl
  · have heq : a.enabled_keyword_indices = b.enabled_keyword_indices :=
      Std.LawfulEqOrd.eq_of_compare hcmp
    have hequal : enabled_sets_equal a b = true := decide_eq_true heq
    have hle : ¬ b.hardware_tier_group < a.hardware_tier_group := by
      intro hlt
      apply hsorted
      dsimp only [variantOrder]
      rw [hcmp, Nat.compare_eq_gt.mpr hlt]
      rfl
    refine .inr ⟨heq, ?_, ?_⟩ <;> by_contra hnot <;> exact hclear ⟨hequal, by omega⟩
  · refine absurd ?_ hsorted
    dsimp only [variantOrder]
    rw [hcmp]
    rfl

lemma isChain_before
    (hsorted : variants.Pairwise fun a b => compare (variantOrder a) (variantOrder b) ≠ .gt)
    (htier : ∀ v ∈ variants, v.hardware_tier_group ≤ 3)
    (hclear : ambiguous_neighbours variants = none) : variants.IsChain Before := by
  induction variants with
  | nil => exact .nil
  | cons a rest ih =>
    cases rest with
    | nil => exact .singleton a
    | cons b rest =>
      rw [ambiguous_neighbours] at hclear
      split_ifs at hclear with hneighbours
      have hab := (pairwise_cons.mp hsorted).1 b mem_cons_self
      apply List.IsChain.cons_cons
      · exact before_of_sorted hab (htier a mem_cons_self)
          (htier b (mem_cons_of_mem _ mem_cons_self)) hneighbours
      · exact ih (pairwise_cons.mp hsorted).2 (forall_mem_cons.mp htier).2 hclear

/-! ## The groups -/

variable {group : List ShaderLabStageVariantPlan}

lemma group_tiers_generic (h : (group_tiers group).1 = true) :
    ∃ v ∈ group, v.hardware_tier_group = 3 := by
  induction group with
  | nil => cases h
  | cons v group ih =>
    rw [group_tiers] at h
    dsimp only at h
    split_ifs at h with hv
    · exact ⟨v, mem_cons_self, hv⟩
    · obtain ⟨w, hw, htier⟩ := ih h
      exact ⟨w, mem_cons_of_mem _ hw, htier⟩

lemma group_tiers_specific (h : (group_tiers group).2.testBit tier = true) :
    ∃ v ∈ group, v.hardware_tier_group = tier := by
  induction group with
  | nil =>
    rw [group_tiers, Nat.zero_testBit] at h
    cases h
  | cons v group ih =>
    rw [group_tiers] at h
    dsimp only at h
    split_ifs at h with hv
    · obtain ⟨w, hw, htier⟩ := ih h
      exact ⟨w, mem_cons_of_mem _ hw, htier⟩
    · rw [Nat.testBit_or, Nat.testBit_two_pow, Bool.or_eq_true, decide_eq_true_eq] at h
      rcases h with h | h
      · obtain ⟨w, hw, htier⟩ := ih h
        exact ⟨w, mem_cons_of_mem _ hw, htier⟩
      · exact ⟨v, mem_cons_self, h⟩

def CoversTiers (variants : List ShaderLabStageVariantPlan) (v : ShaderLabStageVariantPlan) :
    Prop :=
  ∀ tier < 3, ∃ w ∈ variants, w.enabled_keyword_indices = v.enabled_keyword_indices ∧
    (w.hardware_tier_group = 3 ∨ w.hardware_tier_group = tier)

lemma exists_tier_of_group (h : ¬ ((group_tiers group).1 = false ∧ (group_tiers group).2 ≠ 7))
    (htier : tier < 3) :
    ∃ w ∈ group, w.hardware_tier_group = 3 ∨ w.hardware_tier_group = tier := by
  by_cases hgeneric : (group_tiers group).1 = true
  · obtain ⟨w, hw, hw3⟩ := group_tiers_generic hgeneric
    exact ⟨w, hw, .inl hw3⟩
  · have hmask : (group_tiers group).2 = 7 := by
      by_contra hne
      exact h ⟨Bool.eq_false_iff.mpr hgeneric, hne⟩
    have hbit : (group_tiers group).2.testBit tier = true := by
      have hseven : ∀ t < 3, Nat.testBit 7 t = true := by decide
      rw [hmask]
      exact hseven tier htier
    obtain ⟨w, hw, hwtier⟩ := group_tiers_specific hbit
    exact ⟨w, hw, .inr hwtier⟩

section Groups

variable {first : ShaderLabStageVariantPlan} {rest : List ShaderLabStageVariantPlan}
  {v : ShaderLabStageVariantPlan}

lemma enabled_eq_of_mem_group (h : v ∈ first :: rest.takeWhile (enabled_sets_equal first)) :
    v.enabled_keyword_indices = first.enabled_keyword_indices := by
  rcases mem_cons.mp h with rfl | h
  · rfl
  · have hequal : enabled_sets_equal first v = true := mem_takeWhile_imp h
    exact (of_decide_eq_true hequal).symm

lemma enabled_ne_of_mem_dropWhile (hbefore : (first :: rest).Pairwise Before)
    (h : v ∈ rest.dropWhile (enabled_sets_equal first)) :
    v.enabled_keyword_indices ≠ first.enabled_keyword_indices := by
  obtain ⟨hfst, hrest⟩ := pairwise_cons.mp hbefore
  have hsuff := (dropWhile_suffix (l := rest) (enabled_sets_equal first)).sublist
  rcases hdrop : rest.dropWhile (enabled_sets_equal first) with _ | ⟨head, tail⟩
  · rw [hdrop] at h
    cases h
  · rw [hdrop] at h hsuff
    have hhead : enabled_sets_equal first head = false := by
      have := head_dropWhile_not (enabled_sets_equal first) (l := rest) (by simp [hdrop])
      simpa [hdrop] using this
    have hlt : compare first.enabled_keyword_indices head.enabled_keyword_indices = .lt := by
      rcases hfst head (hsuff.subset mem_cons_self) with hlt | ⟨heq, -⟩
      · exact hlt
      · exact absurd heq (of_decide_eq_false hhead)
    intro heq
    rcases mem_cons.mp h with rfl | h
    · exact of_decide_eq_false hhead heq.symm
    · have hhv := (pairwise_cons.mp (hrest.sublist hsuff)).1 v h
      -- The order goes on from the head, so it cannot come back to `first`.
      have hfv : compare first.enabled_keyword_indices v.enabled_keyword_indices = .lt := by
        rcases hhv with hhv | ⟨hhv, -⟩
        · exact Std.TransCmp.lt_trans hlt hhv
        · rwa [← hhv]
      rw [heq, Std.ReflOrd.compare_self] at hfv
      exact absurd hfv (by decide)

end Groups

variable {n : ℕ}

/-- The loop counts the sets of enabled keywords, and each has all tiers. -/
theorem count_assignments_eq_ok {count : ℕ} (hn : variants.length ≤ n)
    (hbefore : variants.Pairwise Before) (h : count_assignments n variants = .ok count) :
    count = (variants.map (·.enabled_keyword_indices)).toFinset.card ∧
      ∀ v ∈ variants, CoversTiers variants v := by
  induction n generalizing variants count with
  | zero =>
    rw [length_eq_zero_iff.mp (Nat.le_zero.mp hn)]
    exact ⟨(pure_eq_ok.mp h).symm, nofun⟩
  | succ n ih =>
    rcases variants with _ | ⟨first, rest⟩
    · exact ⟨(pure_eq_ok.mp h).symm, nofun⟩
    · rw [count_assignments] at h
      obtain ⟨hgroup, h⟩ := ite_error_eq_ok.mp h
      obtain ⟨count', hcnt', h⟩ := bind_eq_ok.mp h
      have hgroup : ¬ ((group_tiers (first :: rest.takeWhile (enabled_sets_equal first))).1 =
          false ∧ (group_tiers (first :: rest.takeWhile (enabled_sets_equal first))).2 ≠ 7) :=
        hgroup
      have hspl := takeWhile_append_dropWhile (p := enabled_sets_equal first) (l := rest)
      have hsuff := (dropWhile_suffix (l := rest) (enabled_sets_equal first)).sublist
      obtain ⟨hcard, hcovers⟩ := ih (hsuff.length_le.trans (by rw [length_cons] at hn; omega))
        ((pairwise_cons.mp hbefore).2.sublist hsuff) hcnt'
      have himage : ((first :: rest).map (·.enabled_keyword_indices)).toFinset =
          insert first.enabled_keyword_indices ((rest.dropWhile (enabled_sets_equal first)).map
            (·.enabled_keyword_indices)).toFinset := by
        ext indices
        simp only [List.mem_toFinset, Finset.mem_insert, List.mem_map]
        constructor
        · rintro ⟨v, hv, rfl⟩
          rw [← hspl, ← List.cons_append, List.mem_append] at hv
          rcases hv with hv | hv
          · exact .inl (enabled_eq_of_mem_group hv)
          · exact .inr ⟨v, hv, rfl⟩
        · rintro (rfl | ⟨v, hv, rfl⟩)
          · exact ⟨first, List.mem_cons_self, rfl⟩
          · exact ⟨v, List.mem_cons_of_mem _ (hsuff.subset hv), rfl⟩
      constructor
      · rw [himage, Finset.card_insert_of_notMem, ← hcard, pure_eq_ok.mp h]
        intro hmem
        obtain ⟨v, hv, heq⟩ := mem_map.mp (List.mem_toFinset.mp hmem)
        exact enabled_ne_of_mem_dropWhile hbefore hv heq
      · intro v hv tier htier
        rw [← hspl, ← List.cons_append, List.mem_append] at hv
        rcases hv with hv | hv
        · obtain ⟨w, hw, hwtier⟩ := exists_tier_of_group hgroup htier
          refine ⟨w, ?_, (enabled_eq_of_mem_group hw).trans (enabled_eq_of_mem_group hv).symm,
            hwtier⟩
          rw [← hspl, ← List.cons_append]
          exact mem_append_left _ hw
        · obtain ⟨w, hw, heq, hwtier⟩ := hcovers v hv tier htier
          exact ⟨w, List.mem_cons_of_mem _ (hsuff.subset hw), heq, hwtier⟩

/-! ## All assignments -/

lemma eq_of_toFinset_eq {l l' : List ℕ} (h : l.Pairwise (· < ·)) (h' : l'.Pairwise (· < ·))
    (heq : l.toFinset = l'.toFinset) : l = l' := by
  apply List.Perm.eq_of_pairwise _ h h'
  · apply (perm_ext_iff_of_nodup (h.imp Nat.ne_of_lt) (h'.imp Nat.ne_of_lt)).mpr
    intro i
    rw [← List.mem_toFinset, heq, List.mem_toFinset]
  · intro a b _ _ hab hba
    omega

/-- As many sorted lists below `k` as there are subsets are all of them. -/
theorem exists_of_card {k : ℕ} {lists : List (List ℕ)} (hsorted : ∀ l ∈ lists, l.Pairwise (· < ·))
    (hlt : ∀ l ∈ lists, ∀ i ∈ l, i < k) (hcard : lists.toFinset.card = 2 ^ k) {s : Finset ℕ}
    (hs : s ⊆ Finset.range k) : ∃ l ∈ lists, l.toFinset = s := by
  have hinj : Set.InjOn List.toFinset (lists.toFinset : Set (List ℕ)) := by
    intro l hl l' hl' heq
    exact eq_of_toFinset_eq (hsorted l (List.mem_toFinset.mp hl))
      (hsorted l' (List.mem_toFinset.mp hl')) heq
  have hsubset : lists.toFinset.image List.toFinset ⊆ (Finset.range k).powerset := by
    intro t ht
    obtain ⟨l, hl, rfl⟩ := Finset.mem_image.mp ht
    apply Finset.mem_powerset.mpr
    intro i hi
    exact Finset.mem_range.mpr (hlt l (List.mem_toFinset.mp hl) i (List.mem_toFinset.mp hi))
  have hall : lists.toFinset.image List.toFinset = (Finset.range k).powerset := by
    apply Finset.eq_of_subset_of_card_le hsubset
    rw [Finset.card_powerset, Finset.card_range, Finset.card_image_of_injOn hinj, hcard]
  have hmem : s ∈ lists.toFinset.image List.toFinset := by
    rw [hall]
    exact Finset.mem_powerset.mpr hs
  obtain ⟨l, hl, rfl⟩ := Finset.mem_image.mp hmem
  exact ⟨l, List.mem_toFinset.mp hl, rfl⟩

/-! ## The accepted plan -/

structure Accepted (pass : SerializedPass) (stage : Fin SERIALIZED_STAGE_COUNT)
    (plan : ShaderLabStagePlan) : Prop where
  keywords_nodup : plan.keywords.Nodup
  mem_keywords : ∀ keyword, keyword ∈ plan.keywords ↔ InUniverse pass stage keyword
  planned : ∀ v ∈ plan.variants, ∃ sub identity,
    D3dSubprogram pass stage v.subprogram_index sub identity ∧
      (v.hardware_tier_group : ℤ) = identity.hardware_tier_group ∧
        v.hardware_tier_group ≤ 3 ∧ EnabledBy plan.keywords sub v.enabled_keyword_indices
  exact : ∀ keyword ∈ plan.keywords, keyword_is_exact_preprocessor_identifier (some keyword) = true
  complete : ∀ index sub identity, D3dSubprogram pass stage index sub identity →
    ∃ v ∈ plan.variants, v.subprogram_index = index
  before : plan.variants.Pairwise Before
  covers : ∀ v ∈ plan.variants, CoversTiers plan.variants v
  card : (plan.variants.map (·.enabled_keyword_indices)).toFinset.card = 2 ^ plan.keywords.length

lemma coverage_eq_true (hbefore : plan.variants.Pairwise Before)
    (h : (stage_plan_has_complete_predicate_coverage plan).1 = true) :
    (plan.variants.map (·.enabled_keyword_indices)).toFinset.card = 2 ^ plan.keywords.length ∧
      ∀ v ∈ plan.variants, CoversTiers plan.variants v := by
  unfold stage_plan_has_complete_predicate_coverage at h
  by_cases hempty : plan.variants = []
  · rw [if_pos hempty] at h
    cases h
  · rw [if_neg hempty] at h
    split at h
    next => cases h
    next count hcnt =>
      by_cases hwide : 64 ≤ plan.keywords.length
      · rw [if_pos hwide] at h
        cases h
      · rw [if_neg hwide] at h
        obtain ⟨hcard, hcovers⟩ := count_assignments_eq_ok le_rfl hbefore hcnt
        rw [← hcard]
        exact ⟨of_decide_eq_true h, hcovers⟩

/-- The subprogram that the second loop looks up is the one of the stage. -/
theorem D3dSubprogram.getElem?_values (h : D3dSubprogram pass stage index sub identity) :
    ((pass.stages stage).subprograms.values.getD [])[index]? = some sub := by
  have hsub := h.sub_eq
  unfold IntArray.toList at hsub
  rw [getElem?_take] at hsub
  split_ifs at hsub
  exact hsub

lemma Collected.checked_of_le (h : Collected pass stage n plan)
    (hn : (stageItems pass stage).length ≤ n) (hd3d : D3dSubprogram pass stage index sub identity) :
    index < n ∧ 0 ≤ identity.hardware_tier_group ∧ identity.hardware_tier_group ≤ 3 ∧
      ValidKeywords sub := by
  have hlt := (List.getElem?_eq_some_iff.mp (d3dSubprogram_iff.mp hd3d).1).1
  exact ⟨by omega, h.checked index sub identity (by omega) hd3d⟩

lemma accepted_of_loops (hn : (stageItems pass stage).length ≤ n)
    (hcoll : Collected pass stage n plan)
    (henable : enable_keywords stage ((pass.stages stage).subprograms.values.getD []) (sortBy
      CString.bytes plan.keywords) plan.variants = .ok variants)
    (hclear : ambiguous_neighbours (sortBy variantOrder variants) = none)
    (hcoverage : (stage_plan_has_complete_predicate_coverage ⟨sortBy CString.bytes
      plan.keywords, sortBy variantOrder variants⟩).1 = true) :
    Accepted pass stage ⟨sortBy CString.bytes plan.keywords, sortBy variantOrder variants⟩ := by
  have hkws := perm_sortBy CString.bytes plan.keywords
  have hnodup : (sortBy CString.bytes plan.keywords).Nodup :=
    hkws.nodup_iff.mpr hcoll.keywords_nodup
  have hvars := perm_sortBy variantOrder variants
  obtain ⟨hmap, hall⟩ := enable_keywords_eq_ok henable
  have hplanned : ∀ v' ∈ variants, ∃ sub identity,
      D3dSubprogram pass stage v'.subprogram_index sub identity ∧
        (v'.hardware_tier_group : ℤ) = identity.hardware_tier_group ∧ v'.hardware_tier_group ≤ 3 ∧
            EnabledBy (sortBy CString.bytes plan.keywords) sub v'.enabled_keyword_indices := by
    intro v' hv'
    obtain ⟨v, hv, indices, hidxs, rfl⟩ := hall v' hv'
    obtain ⟨j, sub, identity, -, hd3d, rfl⟩ := (hcoll.mem_variants v).mp hv
    obtain ⟨-, hlow, hhigh, hvalid⟩ := hcoll.checked_of_le hn hd3d
    rw [hd3d.getElem?_values] at hidxs
    refine ⟨sub, identity, hd3d, Int.toNat_of_nonneg hlow, ?_,
      enabledBy_of_enabled_indices hvalid hnodup hidxs⟩
    dsimp only
    omega
  have hbefore : (sortBy variantOrder variants).Pairwise Before := by
    apply isChain_iff_pairwise.mp
    apply isChain_before (pairwise_sortBy variantOrder variants) _ hclear
    intro v hv
    obtain ⟨_, _, -, -, htier, -⟩ := hplanned v (hvars.mem_iff.mp hv)
    exact htier
  obtain ⟨hcard, hcovers⟩ := coverage_eq_true hbefore hcoverage
  constructor
  case keywords_nodup => exact hnodup
  case before => exact hbefore
  case card => exact hcard
  case covers => exact hcovers
  case planned =>
    intro v hv
    exact hplanned v (hvars.mem_iff.mp hv)
  case mem_keywords =>
    intro keyword
    dsimp only
    rw [hkws.mem_iff, hcoll.mem_keywords]
    constructor
    · rintro ⟨j, sub, identity, -, hd3d, hk⟩
      exact ⟨j, sub, identity, hd3d, hk⟩
    · rintro ⟨j, sub, identity, hd3d, hk⟩
      exact ⟨j, sub, identity, (hcoll.checked_of_le hn hd3d).1, hd3d, hk⟩
  case exact =>
    intro keyword hk
    obtain ⟨j, sub, identity, -, hd3d, hk⟩ :=
      (hcoll.mem_keywords keyword).mp (hkws.mem_iff.mp hk)
    exact (hcoll.checked_of_le hn hd3d).2.2.2.exact _ hk
  case complete =>
    intro index sub identity hd3d
    have hmem : index ∈ variants.map (·.subprogram_index) := by
      rw [hmap]
      exact mem_map.mpr ⟨_, (hcoll.mem_variants _).mpr
        ⟨index, sub, identity, (hcoll.checked_of_le hn hd3d).1, hd3d, rfl⟩, rfl⟩
    obtain ⟨v, hv, hidx⟩ := mem_map.mp hmem
    exact ⟨v, hvars.mem_iff.mpr hv, hidx⟩

end StagePlan

open StagePlan

def stageOf (stage_index : ℤ) (h : 0 ≤ stage_index ∧ stage_index < 6) :
    Fin SERIALIZED_STAGE_COUNT :=
  ⟨stage_index.toNat, stage_index_lt h⟩

/-- **The planner accepts only plans that are complete and unambiguous.** -/
theorem accepted_of_stage_plan_build {stage_index : ℤ}
    (h : stage_plan_build pass stage_index = .ok plan) :
    ∃ hstage, Accepted pass (stageOf stage_index hstage) plan := by
  unfold stage_plan_build at h
  by_cases hstage : 0 ≤ stage_index ∧ stage_index < 6
  swap
  · rw [dif_neg hstage] at h
    cases h
  refine ⟨hstage, ?_⟩
  rw [dif_pos hstage] at h
  dsimp only at h
  obtain ⟨-, h⟩ := ite_error_eq_ok.mp h
  obtain ⟨-, h⟩ := ite_error_eq_ok.mp h
  obtain ⟨collected, hcoll, h⟩ := bind_eq_ok.mp h
  obtain ⟨-, h⟩ := ite_error_eq_ok.mp h
  obtain ⟨variants, henable, h⟩ := bind_eq_ok.mp h
  obtain ⟨n, hn, hcollected⟩ := collect_variants_eq_ok drop_zero.symm
    (collected_empty pass (stageOf stage_index hstage)) hcoll
  split at h
  next => cases h
  next hclear =>
    split at h
    next hcoverage =>
      rw [← pure_eq_ok.mp h]
      apply accepted_of_loops hn hcollected henable hclear
      rw [hcoverage]
    next => cases h

namespace StagePlan

/-! ## The printed predicates -/

def keywordLiterals (enabled : List ℕ) : ℕ → List CString → List Literal
  | _, [] => []
  | i, keyword :: keywords =>
    ⟨decide (i ∈ enabled), keyword.bytes⟩ :: keywordLiterals enabled (i + 1) keywords

def tierLiterals (hardware_tier_group : ℕ) : List ℕ → List Literal :=
  List.map fun tier => ⟨decide (tier = hardware_tier_group), tierMacroName tier⟩

def variantLiterals (plan : ShaderLabStagePlan) (variant : ShaderLabStageVariantPlan) :
    List Literal :=
  keywordLiterals variant.enabled_keyword_indices 0 plan.keywords ++
    if variant.hardware_tier_group < 3 then tierLiterals variant.hardware_tier_group [0, 1, 2]
    else []

variable {enabled : List ℕ} {i : ℕ}

lemma keywordLiterals_congr {enabled' : List ℕ} (keywords : List CString)
    (h : ∀ j, i ≤ j → (j ∈ enabled ↔ j ∈ enabled')) :
    keywordLiterals enabled i keywords = keywordLiterals enabled' i keywords := by
  induction keywords generalizing i with
  | nil => rfl
  | cons keyword keywords ih =>
    rw [keywordLiterals, keywordLiterals, ih fun j hj => h j (Nat.le_of_succ_le hj)]
    simp only [h i le_rfl]

lemma emit_keyword_terms_eq (keywords : List CString) {cursor : List ℕ} (emitted : Bool)
    (output : Text) (hsorted : cursor.Pairwise (· < ·)) (hge : ∀ c ∈ cursor, i ≤ c) :
    emit_keyword_terms i keywords cursor emitted output =
      (keywordLiterals cursor i keywords).foldl appendLiteral (output, emitted) := by
  induction keywords generalizing i cursor emitted output with
  | nil => rfl
  | cons keyword keywords ih =>
    rw [emit_keyword_terms, keywordLiterals, foldl_cons]
    by_cases hhead : cursor.head? = some i
    · obtain ⟨c, rest, rfl⟩ : ∃ c rest, cursor = c :: rest :=
        ⟨i, cursor.tail, eq_cons_of_mem_head? hhead⟩
      obtain rfl : c = i := some.inj hhead
      obtain ⟨hfst, hrest⟩ := pairwise_cons.mp hsorted
      have hcongr : keywordLiterals (c :: rest) (c + 1) keywords =
          keywordLiterals rest (c + 1) keywords := by
        apply keywordLiterals_congr
        intro j hj
        rw [mem_cons, or_iff_right (by omega)]
      rw [if_pos hhead, if_neg (not_not.mpr hhead), tail_cons,
        ih true _ hrest fun c' hc' => hfst c' hc', hcongr]
      simp [appendLiteral, Literal.text]
    · have hgt : ∀ c ∈ cursor, i + 1 ≤ c := by
        intro c hc
        rcases cursor with _ | ⟨first, rest⟩
        · cases hc
        · have hne : first ≠ i := fun heq => hhead (by rw [heq, head?_cons])
          have hfst := hge first mem_cons_self
          rcases mem_cons.mp hc with rfl | hc
          · omega
          · have := (pairwise_cons.mp hsorted).1 c hc
            omega
      have hnot : i ∉ cursor := by
        intro hi
        have := hgt i hi
        omega
      rw [if_neg hhead, if_pos hhead, ih true _ hsorted hgt]
      simp [appendLiteral, Literal.text, hnot]

lemma emit_tier_terms_eq (hardware_tier_group : ℕ) (tiers : List ℕ) (emitted : Bool)
    (output : Text) :
    emit_tier_terms hardware_tier_group tiers emitted output =
      ((tierLiterals hardware_tier_group tiers).foldl appendLiteral (output, emitted)).1 := by
  induction tiers generalizing emitted output with
  | nil => rfl
  | cons tier tiers ih =>
    rw [emit_tier_terms, ih]
    unfold tierLiterals
    rw [map_cons, foldl_cons]
    by_cases htier : tier = hardware_tier_group <;> simp [appendLiteral, Literal.text, htier]

lemma emit_variant_predicate_eq (plan : ShaderLabStagePlan) {variant : ShaderLabStageVariantPlan}
    (hsorted : variant.enabled_keyword_indices.Pairwise (· < ·)) (output : Text) :
    emit_variant_predicate plan variant output =
      output ++ conjunctionText (variantLiterals plan variant) := by
  have hfold := foldl_appendLiteral (variantLiterals plan variant) output
  unfold variantLiterals at hfold
  unfold emit_variant_predicate variantLiterals
  rw [emit_keyword_terms_eq plan.keywords false output hsorted fun c _ => Nat.zero_le c]
  rw [foldl_append] at hfold
  dsimp only
  split_ifs at hfold ⊢ with htier
  · rw [emit_tier_terms_eq, Prod.mk.eta, hfold]
  · rw [foldl_nil] at hfold
    rw [hfold]

/-- Whether the branch under a predicate is taken: no `#if` is printed for an empty one. -/
def predicateHolds (defined : Text → Bool) (predicate : Text) : Bool :=
  predicate = [] ∨ evaluateCondition defined predicate = some true

lemma predicateHolds_conjunctionText (defined : Text → Bool) {ls : List Literal}
    (h : ∀ l ∈ ls, IsIdentifier l.name) :
    predicateHolds defined (conjunctionText ls) = ls.all (·.holds defined) := by
  unfold predicateHolds
  by_cases hne : ls = []
  · subst hne
    rfl
  · have hlen := length_le_conjunctionText ls
    have hpos := length_pos_iff.mpr hne
    have htext : conjunctionText ls ≠ [] := length_pos_iff.mp (by omega)
    rw [evaluateCondition_text defined hne h]
    cases ls.all (·.holds defined) <;> simp [htext]

variable {defined : Text → Bool}

lemma all_keywordLiterals : (keywordLiterals enabled i keywords).all (·.holds defined) = true ↔
      ∀ j keyword, keywords[j]? = some keyword →
        (defined keyword.bytes = true ↔ i + j ∈ enabled) := by
  induction keywords generalizing i with
  | nil => simp [keywordLiterals]
  | cons keyword keywords ih =>
    rw [keywordLiterals, all_cons, Bool.and_eq_true, ih]
    unfold Literal.holds
    constructor
    · rintro ⟨hfst, hrest⟩ j k hk
      cases j with
      | zero =>
        rw [← some.inj hk, eq_of_beq hfst, decide_eq_true_eq, Nat.add_zero]
      | succ j =>
        rw [hrest j k hk, Nat.add_assoc, Nat.add_comm 1 j]
    · intro h
      constructor
      · rw [beq_iff_eq, Bool.eq_iff_iff, decide_eq_true_eq]
        exact h 0 keyword rfl
      · intro j k hk
        rw [h (j + 1) k hk, Nat.add_assoc, Nat.add_comm 1 j]

def TierChosen (defined : Text → Bool) (tier : ℕ) : Prop :=
  ∀ t < 3, defined (tierMacroName t) = decide (t = tier)

lemma all_tierLiterals {group : ℕ} (htier : tier < 3) (hdef : TierChosen defined tier) :
    (tierLiterals group [0, 1, 2]).all (·.holds defined) = true ↔ group = tier := by
  unfold tierLiterals Literal.holds
  simp only [map_cons, map_nil, all_cons, all_nil, Bool.and_true,
    Bool.and_eq_true, beq_iff_eq, hdef 0 (by decide), hdef 1 (by decide),
    hdef 2 (by decide), decide_eq_decide]
  omega

lemma isIdentifier_tierMacroName (h : tier < 3) : IsIdentifier (tierMacroName tier) := by
  have hne : ∀ t < 3, tierMacroName t ≠ [] := by decide
  have hall : ∀ t < 3, (tierMacroName t).all isIdentifierByte = true := by decide
  exact ⟨hne tier h, all_eq_true.mp (hall tier h)⟩

lemma isIdentifier_of_mem_keywordLiterals (h : ∀ keyword ∈ keywords, IsIdentifier keyword.bytes) :
    ∀ l ∈ keywordLiterals enabled i keywords, IsIdentifier l.name := by
  induction keywords generalizing i with
  | nil => exact nofun
  | cons keyword keywords ih =>
    intro l hl
    rw [keywordLiterals] at hl
    rcases mem_cons.mp hl with rfl | hl
    · exact h keyword mem_cons_self
    · exact ih (forall_mem_cons.mp h).2 l hl

section Predicates

variable {pass : SerializedPass} {stage : Fin SERIALIZED_STAGE_COUNT} {plan : ShaderLabStagePlan}
  {v : ShaderLabStageVariantPlan} {defined : Text → Bool} {tier : ℕ}

lemma Accepted.isIdentifier (h : Accepted pass stage plan) :
    ∀ l ∈ variantLiterals plan v, IsIdentifier l.name := by
  intro l hl
  rcases mem_append.mp hl with hl | hl
  · exact isIdentifier_of_mem_keywordLiterals
      (fun keyword hk => isIdentifier_of_exact (h.exact keyword hk)) l hl
  · split_ifs at hl
    · obtain ⟨t, ht, rfl⟩ := mem_map.mp hl
      apply isIdentifier_tierMacroName
      simp only [mem_cons, not_mem_nil, or_false] at ht
      omega
    · cases hl

/-- The predicate of a variant holds where its keywords are those defined and its tier is the
chosen one, or it is for all tiers. -/
theorem Accepted.predicateHolds_iff (h : Accepted pass stage plan) (hv : v ∈ plan.variants)
    (htier : tier < 3) (hdef : TierChosen defined tier) :
    predicateHolds defined (emit_variant_predicate plan v []) = true ↔
      (∀ j keyword, plan.keywords[j]? = some keyword →
        (defined keyword.bytes = true ↔ j ∈ v.enabled_keyword_indices)) ∧
          (v.hardware_tier_group = 3 ∨ v.hardware_tier_group = tier) := by
  obtain ⟨sub, identity, -, -, hle, hen⟩ := h.planned v hv
  rw [emit_variant_predicate_eq plan hen.sorted, nil_append,
    predicateHolds_conjunctionText defined h.isIdentifier]
  unfold variantLiterals
  rw [all_append, Bool.and_eq_true, all_keywordLiterals]
  simp only [Nat.zero_add]
  apply and_congr_right
  intro _
  split_ifs with hspecific
  · rw [all_tierLiterals htier hdef]
    omega
  · rw [all_nil]
    simp only [true_iff]
    omega

end Predicates

/-! ## Exactly one variant -/

/-- The variant is the one for these keywords and this tier. -/
def Matches (plan : ShaderLabStagePlan) (on : CString → Bool) (tier : ℕ)
    (v : ShaderLabStageVariantPlan) : Prop :=
  (∀ j keyword, plan.keywords[j]? = some keyword →
    (on keyword = true ↔ j ∈ v.enabled_keyword_indices)) ∧
      (v.hardware_tier_group = 3 ∨ v.hardware_tier_group = tier)

section Partition

variable {pass : SerializedPass} {stage : Fin SERIALIZED_STAGE_COUNT} {plan : ShaderLabStagePlan}
  {v w : ShaderLabStageVariantPlan} {on : CString → Bool} {tier : ℕ} (h : Accepted pass stage plan)

include h

lemma Accepted.lt_of_mem (hv : v ∈ plan.variants) (hi : i ∈ v.enabled_keyword_indices) :
    i < plan.keywords.length := by
  obtain ⟨sub, identity, -, -, -, hen⟩ := h.planned v hv
  exact hen.lt hi

lemma Accepted.exists_matches (on : CString → Bool) (htier : tier < 3) :
    ∃ v ∈ plan.variants, Matches plan on tier v := by
  have hsorted : ∀ l ∈ plan.variants.map (·.enabled_keyword_indices), l.Pairwise (· < ·) := by
    intro l hl
    obtain ⟨v, hv, rfl⟩ := mem_map.mp hl
    obtain ⟨sub, identity, -, -, -, hen⟩ := h.planned v hv
    exact hen.sorted
  have hlt : ∀ l ∈ plan.variants.map (·.enabled_keyword_indices), ∀ i ∈ l,
      i < plan.keywords.length := by
    intro l hl i hi
    obtain ⟨v, hv, rfl⟩ := mem_map.mp hl
    exact h.lt_of_mem hv hi
  obtain ⟨l, hl, hset⟩ := exists_of_card hsorted hlt h.card
    (s := (Finset.range plan.keywords.length).filter fun j => plan.keywords[j]?.any on = true)
    (Finset.filter_subset _ _)
  obtain ⟨v, hv, rfl⟩ := mem_map.mp hl
  obtain ⟨w, hw, heq, hwtier⟩ := h.covers v hv tier htier
  refine ⟨w, hw, ?_, hwtier⟩
  intro j keyword hj
  rw [heq, ← List.mem_toFinset, hset, Finset.mem_filter, Finset.mem_range, hj, any_some]
  have hlt := (List.getElem?_eq_some_iff.mp hj).1
  tauto

/-- Variants for the same keywords have the same list of enabled indices. -/
theorem Accepted.enabled_eq_of_matches (hv : v ∈ plan.variants) (hw : w ∈ plan.variants)
    (hmv : Matches plan on tier v) (hmw : Matches plan on tier w) :
    v.enabled_keyword_indices = w.enabled_keyword_indices := by
  obtain ⟨_, _, -, -, -, hvenabled⟩ := h.planned v hv
  obtain ⟨_, _, -, -, -, hwenabled⟩ := h.planned w hw
  apply eq_of_toFinset_eq hvenabled.sorted hwenabled.sorted
  ext i
  rw [List.mem_toFinset, List.mem_toFinset]
  constructor
  · intro hi
    have hkw := getElem?_eq_getElem (h.lt_of_mem hv hi)
    exact (hmw.1 i _ hkw).mp ((hmv.1 i _ hkw).mpr hi)
  · intro hi
    have hkw := getElem?_eq_getElem (h.lt_of_mem hw hi)
    exact (hmv.1 i _ hkw).mp ((hmw.1 i _ hkw).mpr hi)

lemma Accepted.not_matches_of_before (hv : v ∈ plan.variants) (hw : w ∈ plan.variants)
    (hbefore : Before v w) (hmv : Matches plan on tier v) :
    ¬ Matches plan on tier w := by
  intro hmw
  have heq := h.enabled_eq_of_matches hv hw hmv hmw
  rcases hbefore with hlt | ⟨-, hlt, hspecific⟩
  · rw [heq, Std.ReflOrd.compare_self] at hlt
    exact absurd hlt (by decide)
  · have := hmv.2
    have := hmw.2
    omega

variable {α : Type} {l : List α}

omit h in
/-- Where no two elements pass and one does, the ones that pass are one. -/
theorem filter_eq_singleton {p : α → Bool} (hpair : l.Pairwise fun a b => p a = true → ¬ p b = true)
    (hex : ∃ a ∈ l, p a = true) :
    ∃ a, l.filter p = [a] := by
  induction l with
  | nil =>
    obtain ⟨a, ha, -⟩ := hex
    cases ha
  | cons x l ih =>
    obtain ⟨hx, hl⟩ := pairwise_cons.mp hpair
    by_cases hpx : p x = true
    · refine ⟨x, ?_⟩
      rw [filter_cons_of_pos hpx, filter_eq_nil_iff.mpr fun a ha => hx a ha hpx]
    · rw [filter_cons_of_neg hpx]
      apply ih hl
      obtain ⟨a, ha, hpa⟩ := hex
      rcases mem_cons.mp ha with rfl | ha
      · exact absurd hpa hpx
      · exact ⟨a, ha, hpa⟩

variable {p : ShaderLabStageVariantPlan → Bool}

lemma Accepted.filter_eq_singleton (htier : tier < 3)
    (hp : ∀ v ∈ plan.variants, (p v = true ↔ Matches plan on tier v)) :
    ∃ v, plan.variants.filter p = [v] := by
  apply StagePlan.filter_eq_singleton
  · refine h.before.imp_of_mem ?_
    intro a b ha hb hab hpa
    rw [hp b hb]
    exact h.not_matches_of_before ha hb hab ((hp a ha).mp hpa)
  · obtain ⟨v, hv, hmatch⟩ := h.exists_matches on htier
    exact ⟨v, hv, (hp v hv).mpr hmatch⟩

lemma Accepted.matches_iff_serves (hv : v ∈ plan.variants) :
    Matches plan on tier v ↔ Serves pass stage on tier v.subprogram_index := by
  obtain ⟨sub, identity, hd3d, htier, -, hen⟩ := h.planned v hv
  have hkw : ∀ j keyword, plan.keywords[j]? = some keyword →
      (j ∈ v.enabled_keyword_indices ↔ some keyword ∈ subprogram_keywords sub) := by
    intro j keyword hj
    rw [hen.mem_iff]
    constructor
    · rintro ⟨k, hk, hmem⟩
      rw [hj] at hk
      rwa [hk]
    · exact fun hmem => ⟨keyword, hj, hmem⟩
  constructor
  · rintro ⟨hon, hgroup⟩
    refine ⟨sub, identity, hd3d, ?_, by omega⟩
    intro keyword huniv
    obtain ⟨j, hj⟩ := mem_iff_getElem?.mp ((h.mem_keywords keyword).mpr huniv)
    rw [hon j keyword hj, hkw j keyword hj]
  · rintro ⟨sub', identity', hd3d', hon, hgroup⟩
    obtain ⟨rfl, rfl⟩ := hd3d.unique hd3d'
    refine ⟨?_, by omega⟩
    intro j keyword hj
    rw [hkw j keyword hj]
    exact hon keyword ((h.mem_keywords keyword).mp (mem_of_getElem? hj))

omit h in
lemma mem_and_of_filter_eq {p : α → Bool} {a : α} (h : l.filter p = [a]) : a ∈ l ∧ p a = true := by
  have hmem : a ∈ l.filter p := by
    rw [h]
    exact mem_singleton_self a
  exact mem_filter.mp hmem

/-- The subprogram that serves is the one of the variant that passes. -/
theorem Accepted.serves_unique (hp : ∀ v ∈ plan.variants, (p v = true ↔ Matches plan on tier v))
    (hfilter : plan.variants.filter p = [v]) (hserves : Serves pass stage on tier index) :
    index = v.subprogram_index := by
  obtain ⟨sub, identity, hd3d, -⟩ := id hserves
  obtain ⟨w, hw, rfl⟩ := h.complete index sub identity hd3d
  have hmem : w ∈ plan.variants.filter p :=
    mem_filter.mpr ⟨hw, (hp w hw).mpr ((h.matches_iff_serves hw).mpr hserves)⟩
  rw [hfilter] at hmem
  rw [mem_singleton.mp hmem]

lemma Accepted.subprogramsPartition : SubprogramsPartition pass stage := by
  classical
  intro on tier htier
  have hp : ∀ v ∈ plan.variants, (decide (Matches plan on tier v) = true ↔
      Matches plan on tier v) := fun v _ => decide_eq_true_iff
  obtain ⟨v, hfilter⟩ := h.filter_eq_singleton htier hp
  obtain ⟨hv, hmatch⟩ := mem_and_of_filter_eq hfilter
  refine ⟨v.subprogram_index, (h.matches_iff_serves hv).mp (of_decide_eq_true hmatch), ?_⟩
  intro index hserves
  exact h.serves_unique hp hfilter hserves

/-- Keywords and tiers are chosen independently: no keyword is a tier macro. -/
theorem Accepted.exists_defined (on : CString → Bool) (htier : tier < 3) :
    ∃ defined : Text → Bool, TierChosen defined tier ∧
      ∀ keyword ∈ plan.keywords, defined keyword.bytes = on keyword := by
  have hnotTier : ∀ keyword ∈ plan.keywords, ∀ t < 3, keyword.bytes ≠ tierMacroName t := by
    intro keyword hkw t ht heq
    have hctl := not_control_of_exact (h.exact keyword hkw)
    unfold is_generated_control_keyword at hctl
    rw [heq] at hctl
    have hall : ∀ t < 3, tierMacroName t ∈ ["VERTEX", "FRAGMENT", "GEOMETRY", "HULL", "DOMAIN",
        "SHADER_STAGE_VERTEX", "SHADER_STAGE_FRAGMENT", "SHADER_STAGE_GEOMETRY",
        "SHADER_STAGE_HULL", "SHADER_STAGE_DOMAIN", "UNITY_HARDWARE_TIER1",
        "UNITY_HARDWARE_TIER2", "UNITY_HARDWARE_TIER3"].map text := by decide
    exact of_decide_eq_false hctl (hall t ht)
  refine ⟨fun name => decide (name = tierMacroName tier) ||
    plan.keywords.any fun k => k.bytes = name && on k, ?_, ?_⟩
  · intro t ht
    have hinj : ∀ t < 3, ∀ t' < 3, (tierMacroName t = tierMacroName t' ↔ t = t') := by decide
    have hany : (plan.keywords.any fun k => k.bytes = tierMacroName t && on k) = false := by
      rw [List.any_eq_false]
      intro k hk
      simp [hnotTier k hk t ht]
    dsimp only
    rw [hany, Bool.or_false, decide_eq_decide]
    exact hinj t ht tier htier
  · intro keyword hkw
    dsimp only
    rw [decide_eq_false (hnotTier keyword hkw tier htier), Bool.false_or, Bool.eq_iff_iff,
      List.any_eq_true]
    simp only [Bool.and_eq_true, decide_eq_true_eq]
    constructor
    · rintro ⟨k, -, hbytes, hon⟩
      have hcmp : compare k.bytes keyword.bytes = .eq := by
        rw [hbytes]
        exact Std.ReflOrd.compare_self
      rwa [← compare_bytes_eq hcmp]
    · exact fun hon => ⟨keyword, hkw, rfl, hon⟩

end Partition

end StagePlan

/-- **The predicates of an accepted stage partition its domain**: of every assignment of the
universe, and with exactly one tier macro defined, exactly one predicate is true, and the
subprogram under it is the only one with the defined keywords that is for all tiers or for the
chosen one. A stage whose D3D subprograms are no such partition is not accepted. -/
theorem stage_plan_predicates_partition (pass : SerializedPass) (stage_index : ℤ) :
    (∀ plan, stage_plan_build pass stage_index = .ok plan →
      ∃ hstage : 0 ≤ stage_index ∧ stage_index < 6, (∀ keyword, keyword ∈ plan.keywords ↔
          InUniverse pass (stageOf stage_index hstage) keyword) ∧
        (∀ (on : CString → Bool) (tier : ℕ), tier < 3 → ∃ defined, TierChosen defined tier ∧
          ∀ keyword ∈ plan.keywords, defined keyword.bytes = on keyword) ∧
        ∀ (defined : Text → Bool) (tier : ℕ), tier < 3 → TierChosen defined tier → ∃ variant,
            plan.variants.filter (fun v =>
              predicateHolds defined (emit_variant_predicate plan v [])) = [variant] ∧
            Serves pass (stageOf stage_index hstage) (fun keyword => defined keyword.bytes) tier
              variant.subprogram_index ∧
            ∀ index, Serves pass (stageOf stage_index hstage)
              (fun keyword => defined keyword.bytes) tier index →
                index = variant.subprogram_index) ∧
    ∀ hstage : 0 ≤ stage_index ∧ stage_index < 6,
      ¬ SubprogramsPartition pass (stageOf stage_index hstage) →
        ∃ diagnostic, stage_plan_build pass stage_index = .error diagnostic := by
  constructor
  · intro plan hbuild
    obtain ⟨hstage, haccepted⟩ := accepted_of_stage_plan_build hbuild
    refine ⟨hstage, haccepted.mem_keywords, fun on tier htier =>
      haccepted.exists_defined on htier, ?_⟩
    intro defined tier htier hdefined
    have hp : ∀ v ∈ plan.variants,
        (predicateHolds defined (emit_variant_predicate plan v []) = true ↔
          Matches plan (fun keyword => defined keyword.bytes) tier v) :=
      fun v hv => haccepted.predicateHolds_iff hv htier hdefined
    obtain ⟨v, hfilter⟩ := haccepted.filter_eq_singleton htier hp
    obtain ⟨hv, hholds⟩ := mem_and_of_filter_eq hfilter
    exact ⟨v, hfilter, (haccepted.matches_iff_serves hv).mp ((hp v hv).mp hholds),
      fun index hserves => haccepted.serves_unique hp hfilter hserves⟩
  · intro hstage hnot
    rcases hbuild : stage_plan_build pass stage_index with diagnostic | plan
    · exact ⟨diagnostic, rfl⟩
    · obtain ⟨_, haccepted⟩ := accepted_of_stage_plan_build hbuild
      exact absurd haccepted.subprogramsPartition hnot

/-- A stage with one keyword, its two subprograms for all tiers or only for the given ones. -/
def samplePass (tiers : List ℤ) : SerializedPass where
  has_serialized_platforms := true
  platforms := .holding [4]
  stages := fun _ =>
    { subprograms := ⟨some (tiers.map fun tier =>
          ⟨15, if tier = 3 then .null else .holding [some (.ofBytes [65])], .null⟩),
        tiers.length, by rintro - l ⟨⟩; simp⟩
      identities := some (tiers.map fun tier => ⟨tier, true, .null, .null⟩)
      identities_eq := by rintro - l ⟨⟩; simp }
  serialized_keyword_state_mask := .null

lemma samplePass_not_partition :
    ¬ SubprogramsPartition (samplePass [3, 0, 1]) (stageOf 0 ⟨by decide, by decide⟩) := by
  intro hpartition
  obtain ⟨index, ⟨sub, identity, hd3d, hon, htier⟩, -⟩ :=
    hpartition (fun _ => true) 2 (by decide)
  have hfst : InUniverse (samplePass [3, 0, 1]) (stageOf 0 ⟨by decide, by decide⟩)
      ⟨[65], by decide⟩ :=
    ⟨1, _, _, ⟨rfl, rfl, by decide⟩, mem_cons_self⟩
  have hkw := (hon _ hfst).mp rfl
  -- Only the subprogram without keywords is for tier 2, and the keyword is on.
  match index, hd3d.sub_eq, hd3d.identity_eq with
  | 0, hsub, _ =>
    rw [← some.inj hsub] at hkw
    cases hkw
  | 1, _, hident =>
    rw [← some.inj hident] at htier
    exact absurd htier (by decide)
  | 2, _, hident =>
    rw [← some.inj hident] at htier
    exact absurd htier (by decide)

theorem stage_plan_predicates_partition_sample :
    (∃ plan, stage_plan_build (samplePass [2, 3, 0, 1]) 0 = .ok plan ∧
      ∃ variant, plan.variants.filter (fun v => predicateHolds
        (fun name => name = [65] ∨ name = tierMacroName 1) (emit_variant_predicate plan v [])) =
          [variant]) ∧
    ∃ diagnostic, stage_plan_build (samplePass [3, 0, 1]) 0 = .error diagnostic := by
  constructor
  · have hbuild : stage_plan_build (samplePass [2, 3, 0, 1]) 0 = .ok
        ⟨[⟨[65], by decide⟩], [⟨1, 3, []⟩, ⟨2, 0, [0]⟩, ⟨3, 1, [0]⟩, ⟨0, 2, [0]⟩]⟩ := by rfl
    obtain ⟨_, -, -, hunique⟩ := (stage_plan_predicates_partition _ 0).1 _ hbuild
    obtain ⟨variant, hfilter, -⟩ :=
      hunique (fun name => name = [65] ∨ name = tierMacroName 1) 1 (by decide)
        (by unfold TierChosen; decide)
    exact ⟨_, hbuild, variant, hfilter⟩
  · exact (stage_plan_predicates_partition _ 0).2 ⟨by decide, by decide⟩ samplePass_not_partition

end DXBCSandbox
