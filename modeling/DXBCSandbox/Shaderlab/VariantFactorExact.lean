/-
The factoring succeeds exactly on products.

The groups of the keywords are the axes: two keywords are apart where they are different keywords of
one axis. What is factored is listed again in its order.
-/
import DXBCSandbox.Shaderlab.VariantDomainSpec
import DXBCSandbox.Shaderlab.VariantFactorRounds
import Mathlib.Data.List.Flatten

namespace DXBCSandbox

open List Option Checks SortedMerge VariantPlan

namespace VariantFactor

/-! ## Used keywords -/

variable {k : KeywordIndex}

section Used

variable {shader : SerializedShader} {states : List (List KeywordIndex)}

lemma keyword_is_used_iff {raw : ℕ} :
    keyword_is_used states raw = true ↔ ∃ state ∈ states, ∃ k ∈ state, k.val = raw := by
  unfold keyword_is_used
  simp only [List.any_eq_true, decide_eq_true_iff]

lemma mem_used_keywords
    (hfits : ∀ state ∈ states, ∀ k ∈ state, (k.val : ℤ) < shader.keyword_names.count) :
    k ∈ used_keywords shader states ↔ ∃ state ∈ states, k ∈ state := by
  unfold used_keywords
  rw [List.mem_map]
  constructor
  · rintro ⟨raw, hraw, rfl⟩
    obtain ⟨state, hstate, k, hk, rfl⟩ := keyword_is_used_iff.mp (mem_filter.mp hraw).2
    rw [keywordIndex_val]
    exact ⟨state, hstate, hk⟩
  · rintro ⟨state, hstate, hk⟩
    have hlt := hfits state hstate k hk
    refine ⟨k.val, mem_filter.mpr ⟨mem_range.mpr (by omega), ?_⟩, keywordIndex_val k⟩
    exact keyword_is_used_iff.mpr ⟨state, hstate, k, hk, rfl⟩

lemma nodup_used_keywords : (used_keywords shader states).Nodup := by
  unfold used_keywords
  refine (nodup_range.filter _).map_on fun a ha b hb heq => ?_
  obtain ⟨-, -, k, -, rfl⟩ := keyword_is_used_iff.mp (mem_filter.mp ha).2
  obtain ⟨-, -, k', -, rfl⟩ := keyword_is_used_iff.mp (mem_filter.mp hb).2
  rw [keywordIndex_val, keywordIndex_val] at heq
  rw [heq]

end Used

/-! ## Groups of axes -/

variable {group : List KeywordIndex} {groups : List (List KeywordIndex)}

section Groups

variable {shader : SerializedShader} {states : List (List KeywordIndex)}
  {axes : List ShaderLabVariantAxis} {axis : ShaderLabVariantAxis}
  (h : FactorsInto shader states axes)

include h

lemma FactorsInto.mem_axisKeywords_iff : k ∈ axisKeywords axes ↔ ∃ state ∈ states, k ∈ state := by
  constructor
  · intro hk
    obtain ⟨n, hn, hmem⟩ := exists_selected h.radix_pos hk
    have hget := getElem?_eq_getElem (h.length_eq.symm ▸ hn : n < states.length)
    exact ⟨_, mem_of_getElem? hget, (h.mem_iff n _ hget k).mpr hmem⟩
  · rintro ⟨state, hstate, hk⟩
    obtain ⟨i, hi⟩ := mem_iff_getElem?.mp hstate
    exact mem_axisKeywords_of_selected ((h.mem_iff i state hi k).mp hk)

lemma FactorsInto.mem_group_iff {keyword_universe : List KeywordIndex}
    (huniv : ∀ k, k ∈ keyword_universe ↔ k ∈ axisKeywords axes)
    {linked : KeywordIndex → KeywordIndex → Prop} (hgroups : Grouped keyword_universe linked groups)
    (hapart : ∀ k ∈ keyword_universe, ∀ k' ∈ keyword_universe, Apart states k k' → linked k k')
    (hleast : ∀ S : KeywordIndex → KeywordIndex → Prop, Equivalence S → (∀ k ∈
    keyword_universe, ∀ k' ∈ keyword_universe, Apart states k k' → S k k') → ∀ k k', linked k
      k' → S k k') (hgroup : group ∈ groups) (haxis : axis ∈ axes) (hk : k ∈ group)
    (hka : k ∈ axis.keyword_indices) {k' : KeywordIndex} :
    k' ∈ group ↔ k' ∈ axis.keyword_indices := by
  have hku : k ∈ keyword_universe := (hgroups.sublist group hgroup).subset hk
  -- To be in one axis is an equivalence that links what is apart.
  have hsame : Equivalence fun a b : KeywordIndex =>
      a = b ∨ ∃ axis ∈ axes, a ∈ axis.keyword_indices ∧ b ∈ axis.keyword_indices := by
    refine ⟨fun _ => .inl rfl, ?_, ?_⟩
    · rintro a b (rfl | ⟨axis, haxis, ha, hb⟩)
      · exact .inl rfl
      · exact .inr ⟨axis, haxis, hb, ha⟩
    · rintro a b c (rfl | ⟨axis, haxis, ha, hb⟩) hbc
      · exact hbc
      · rcases hbc with rfl | ⟨axis', haxis', hb', hc⟩
        · exact .inr ⟨axis, haxis, ha, hb⟩
        · obtain rfl := axis_unique h.disjoint haxis haxis' hb hb'
          exact .inr ⟨axis, haxis, ha, hc⟩
  constructor
  · intro hk'
    have hku' : k' ∈ keyword_universe := (hgroups.sublist group hgroup).subset hk'
    have hlinked := (hgroups.mem_iff group hgroup k hk k' hku').mp hk'
    have hboth := hleast _ hsame (fun a ha b hb hab =>
      .inr ((h.apart_iff ((huniv a).mp ha) ((huniv b).mp hb)).mp hab).2) k k' hlinked
    rcases hboth with rfl | ⟨axis', haxis', hka', hka''⟩
    · exact hka
    · rwa [axis_unique h.disjoint haxis haxis' hka hka']
  · intro hka'
    by_cases heq : k = k'
    · exact heq ▸ hk
    · have hkw : k ∈ axisKeywords axes := mem_axisKeywords.mpr ⟨axis, haxis, hka⟩
      have hkw' : k' ∈ axisKeywords axes := mem_axisKeywords.mpr ⟨axis, haxis, hka'⟩
      have hku' := (huniv k').mpr hkw'
      refine (hgroups.mem_iff group hgroup k hk k' hku').mpr (hapart k hku k' hku' ?_)
      exact (h.apart_iff hkw hkw').mpr ⟨heq, axis, haxis, hka, hka'⟩

lemma FactorsInto.isAxis (haxis : axis ∈ axes) (hne : group ≠ []) (hnodup : group.Nodup)
    (hmem : ∀ k, k ∈ group ↔ k ∈ axis.keyword_indices) :
    Exclusive states group ∧ (∀ k ∈ group,
        keyword_is_local shader k.val = keyword_is_local shader (group.getD 0 0).val) ∧
      IsAxis (componentOf shader states group) axis := by
  have hkw : ∀ {k}, k ∈ group → k ∈ axisKeywords axes := fun hk =>
    mem_axisKeywords.mpr ⟨axis, haxis, (hmem _).mp hk⟩
  have hexcl : Exclusive states group := fun k hk k' hk' hdiff =>
    (h.apart_iff (hkw hk) (hkw hk')).mpr ⟨hdiff, axis, haxis, (hmem k).mp hk, (hmem k').mp hk'⟩
  have hlocal : ∀ k ∈ group, keyword_is_local shader k.val = axis.is_local := fun k hk =>
    h.scope axis haxis k ((hmem k).mp hk)
  have haxis_nodup : axis.keyword_indices.Nodup := (nodup_flatMap.mp h.disjoint).1 axis haxis
  have hperm : axis.keyword_indices.Perm group :=
    (perm_ext_iff_of_nodup haxis_nodup hnodup).mpr fun k => (hmem k).symm
  obtain ⟨stride, -, halign⟩ := h.aligned.exists_stride h.radix_pos haxis
  refine ⟨hexcl, fun k hk => ?_, hperm, ?_⟩
  · have hhead : group.getD 0 0 ∈ group := by
      rw [getD_eq_getElem _ _ (length_pos_iff.mpr hne)]
      exact getElem_mem _
    rw [hlocal k hk, hlocal _ hhead]
  · show axis.has_default = states.any fun state => (optionOf group state).isNone
    rw [Bool.eq_iff_iff, List.any_eq_true]
    constructor
    · intro hdflt
      have hget := List.getElem?_eq_getElem h.length_pos
      refine ⟨_, mem_of_getElem? hget, ?_⟩
      rw [halign.optionOf_eq hexcl hperm hget, Nat.zero_div, Nat.zero_mod,
        (option_eq_none_iff (h.radix_pos axis haxis)).mpr ⟨hdflt, rfl⟩]
      rfl
    · rintro ⟨state, hstate, hnone⟩
      obtain ⟨i, hi⟩ := mem_iff_getElem?.mp hstate
      rw [isNone_iff_eq_none, halign.optionOf_eq hexcl hperm hi] at hnone
      exact ((option_eq_none_iff (Nat.mod_lt _ (h.radix_pos axis haxis))).mp hnone).1

end Groups

/-! ## Checks of all components -/

section Checks

variable {shader : SerializedShader} {states : List (List KeywordIndex)} {stage_index : ℤ}
  {groups : List (List KeywordIndex)}

def Passes (shader : SerializedShader) (states : List (List KeywordIndex))
    (group : List KeywordIndex) : Prop :=
  Exclusive states group ∧
    ∀ k ∈ group, keyword_is_local shader k.val = keyword_is_local shader (group.getD 0 0).val

variable (hstates : ∀ state ∈ states, Increasing state)

include hstates

lemma check_component_eq_ok_componentOf (hnodup : group.Nodup) {component : FactorComponent} :
    check_component shader states stage_index group = .ok component ↔
      Passes shader states group ∧ component = componentOf shader states group := by
  rw [check_component_eq_ok_iff hstates hnodup, Passes, and_assoc]

variable {product : ℕ}

lemma check_components_eq_ok (hnodup : ∀ group ∈ groups, group.Nodup)
    {checked : List FactorComponent × ℕ}
    (h : check_components shader states stage_index groups product = .ok checked) :
    (∀ group ∈ groups, Passes shader states group) ∧
      checked.1 = groups.map (componentOf shader states) := by
  induction groups generalizing product checked with
  | nil =>
    rw [check_components] at h
    rw [← Except.ok.inj h]
    exact ⟨nofun, rfl⟩
  | cons group groups ih =>
    obtain ⟨hgroup, hnodup⟩ := forall_mem_cons.mp hnodup
    rw [check_components] at h
    obtain ⟨component, hcomp, h⟩ := bind_eq_ok.mp h
    obtain ⟨-, h⟩ := ite_error_eq_ok.mp h
    obtain ⟨rest, hrest, h⟩ := bind_eq_ok.mp h
    obtain rfl := pure_eq_ok.mp h
    obtain ⟨hpasses, rfl⟩ := (check_component_eq_ok_componentOf hstates hgroup).mp hcomp
    obtain ⟨hall, hmap⟩ := ih hnodup hrest
    exact ⟨forall_mem_cons.mpr ⟨hpasses, hall⟩, by rw [hmap]; rfl⟩

lemma check_components_of_passes (hnodup : ∀ group ∈ groups, group.Nodup)
    (hpasses : ∀ group ∈ groups, Passes shader states group)
    (hpos : ∀ group ∈ groups, 0 < (componentOf shader states group).radix)
    (hfits : product * ((groups.map (componentOf shader states)).map (·.radix)).prod ≤ SIZE_MAX) :
    check_components shader states stage_index groups product =
      .ok (groups.map (componentOf shader states),
        product * ((groups.map (componentOf shader states)).map (·.radix)).prod) := by
  induction groups generalizing product with
  | nil =>
    rw [check_components, map_nil, map_nil, prod_nil, Nat.mul_one]
  | cons group groups ih =>
    obtain ⟨hgroup, hnodup⟩ := forall_mem_cons.mp hnodup
    obtain ⟨hpass, hpasses⟩ := forall_mem_cons.mp hpasses
    obtain ⟨hradix, hpos⟩ := forall_mem_cons.mp hpos
    rw [map_cons, map_cons, prod_cons, ← Nat.mul_assoc] at hfits ⊢
    have hrest : 0 < ((groups.map (componentOf shader states)).map (·.radix)).prod := by
      refine MixedRadix.prod_pos fun r hr => ?_
      obtain ⟨component, hcomp, rfl⟩ := mem_map.mp hr
      obtain ⟨g, hg, rfl⟩ := mem_map.mp hcomp
      exact hpos g hg
    have hstep : product * (componentOf shader states group).radix ≤ SIZE_MAX :=
      (Nat.le_mul_of_pos_right _ hrest).trans hfits
    have hguard : ¬ ((componentOf shader states group).radix = 0 ∨
        SIZE_MAX / (componentOf shader states group).radix < product) := by
      rw [not_or, not_lt, Nat.le_div_iff_mul_le hradix]
      exact ⟨hradix.ne', hstep⟩
    rw [check_components, (check_component_eq_ok_componentOf hstates hgroup).mpr ⟨hpass, rfl⟩]
    refine (if_neg hguard).trans ?_
    rw [ih hnodup hpasses hpos hfits]
    rfl

end Checks

/-! ## Soundness and completeness -/

section Factor

variable {shader : SerializedShader} {states : List (List KeywordIndex)} {stage_index : ℤ}
  {axes : List ShaderLabVariantAxis}

lemma factor_ordered_states_eq (hstates : ∀ state ∈ states, Increasing state)
    (hne : states ≠ []) :
    factor_ordered_states shader states stage_index =
      if used_keywords shader states = [] then
        if states.length ≠ 1 then .error ⟨.nonfactorable, stage_index, -1, -1, -1⟩ else .ok []
      else (do
        let checked ← check_components shader states stage_index
          (group_keywords states (used_keywords shader states)) 1
        if checked.2 ≠ states.length then .error ⟨.nonfactorable, stage_index, -1, -1, -1⟩
        else order_components states stage_index checked.1) := by
  have hall : states.all strictly_increasing = true :=
    all_eq_true.mpr fun state hstate => strictly_increasing_iff.mpr (hstates state hstate)
  unfold factor_ordered_states
  rw [if_neg hne, if_neg (not_not.mpr hall)]

/-- **Factoring is sound.** -/
theorem factor_ordered_states_sound (hstates : ∀ state ∈ states, Increasing state)
    (hfits : ∀ state ∈ states, ∀ k ∈ state, (k.val : ℤ) < shader.keyword_names.count)
    (h : factor_ordered_states shader states stage_index = .ok axes) :
    FactorsInto shader states axes := by
  have hne : states ≠ [] := by
    rintro rfl
    nomatch h
  have huniv := fun k => mem_used_keywords hfits (k := k)
  rw [factor_ordered_states_eq hstates hne] at h
  by_cases hempty : used_keywords shader states = []
  · rw [if_pos hempty] at h
    obtain ⟨hone, h⟩ := ite_error_eq_ok.mp h
    obtain rfl := (Except.ok.inj h).symm
    refine ⟨nodup_nil, nofun, nofun, not_not.mp hone, fun i state hstate k => ?_⟩
    refine iff_of_false (fun hk => ?_) not_mem_nil
    have hused := (huniv k).mpr ⟨state, mem_of_getElem? hstate, hk⟩
    rw [hempty] at hused
    cases hused
  · rw [if_neg hempty] at h
    obtain ⟨linked, hgroups, -, -⟩ := grouped_group_keywords hstates
      (@nodup_used_keywords shader states)
    have hnodup : ∀ group ∈ group_keywords states (used_keywords shader states), group.Nodup :=
      fun group hgroup => nodup_used_keywords.sublist (hgroups.sublist group hgroup)
    obtain ⟨checked, hchecked, h⟩ := bind_eq_ok.mp h
    obtain ⟨-, h⟩ := ite_error_eq_ok.mp h
    obtain ⟨hpasses, hmap⟩ := check_components_eq_ok hstates hnodup hchecked
    rw [hmap] at h
    generalize group_keywords states (used_keywords shader states) = groups
      at hgroups hnodup hpasses h
    have hkws : componentKeywords (groups.map (componentOf shader states)) = groups.flatten := by
      unfold componentKeywords
      rw [flatMap_map]
      exact flatMap_id'
    have hnodup_flat : groups.flatten.Nodup :=
      nodup_flatten.mpr ⟨hnodup, hgroups.disjoint⟩
    refine order_components_sound hstates hnodup_flat ?_ ?_ ?_ h
    · rw [hkws]
    · intro state hstate k hk
      obtain ⟨group, hgroup, hmem⟩ := hgroups.cover k ((huniv k).mpr ⟨state, hstate, hk⟩)
      exact mem_flatten.mpr ⟨group, hgroup, hmem⟩
    · intro component hcomp
      obtain ⟨group, hgroup, rfl⟩ := mem_map.mp hcomp
      exact ⟨rfl, checked_componentOf (hnodup group hgroup) (hgroups.ne_nil group hgroup)
        (hpasses group hgroup).1 (hpasses group hgroup).2⟩

lemma radix_eq_one_of_nil {axis : ShaderLabVariantAxis} (hpos : 0 < axis.radix)
    (hnil : axis.keyword_indices = []) : axis.radix = 1 := by
  unfold ShaderLabVariantAxis.radix at hpos ⊢
  rw [hnil, length_nil, Nat.zero_add] at hpos ⊢
  split_ifs at hpos ⊢
  · rfl
  · exact absurd hpos (lt_irrefl 0)

lemma FactorsInto.remaining (h : FactorsInto shader states axes)
    (hdisj : groups.Pairwise List.Disjoint)
    (hchecked : ∀ group ∈ groups, Checked shader states (componentOf shader states group))
    (haxis : ∀ group ∈ groups, ∃ axis ∈ axes, IsAxis (componentOf shader states group) axis)
    (hgroup : ∀ axis ∈ axes, axis.radix ≠ 1 → ∃ group ∈ groups, IsAxis (componentOf shader
      states group) axis) :
    Remaining shader states (axes.filter (·.radix ≠ 1))
      ⟨groups.map (componentOf shader states), [], 1⟩ := by
  have hunpl : unplaced (groups.map (componentOf shader states)) =
      groups.map (componentOf shader states) := by
    refine unplaced_eq_self fun component hcomp => ?_
    obtain ⟨group, -, rfl⟩ := mem_map.mp hcomp
    rfl
  have hfilter : ∀ {axis}, axis ∈ axes.filter (·.radix ≠ 1) ↔ axis ∈ axes ∧ axis.radix ≠ 1 := by
    intro axis
    rw [mem_filter, decide_eq_true_iff]
  constructor
  · exact Nat.one_pos
  · exact h.aligned.filter
  · exact h.disjoint.sublist (filter_sublist.flatMap _)
  · intro axis hmem
    have hpos := h.radix_pos axis (hfilter.mp hmem).1
    have hne_one := (hfilter.mp hmem).2
    omega
  · rw [prod_filter_radix, Nat.one_mul, h.length_eq]
  · rw [hunpl]
    intro component hcomp
    obtain ⟨group, hg, rfl⟩ := mem_map.mp hcomp
    exact hchecked group hg
  · rw [hunpl]
    exact pairwise_map.mpr hdisj
  · rw [hunpl]
    intro axis hmem
    obtain ⟨group, hg, his⟩ := hgroup axis (hfilter.mp hmem).1 (hfilter.mp hmem).2
    exact ⟨_, mem_map_of_mem hg, his⟩
  · rw [hunpl]
    intro component hcomp hne_one
    obtain ⟨group, hg, rfl⟩ := mem_map.mp hcomp
    obtain ⟨axis, hmem, his⟩ := haxis group hg
    exact ⟨axis, hfilter.mpr ⟨hmem, his.radix_eq.symm ▸ hne_one⟩, his⟩

/-- **Factoring is complete.** -/
theorem factor_ordered_states_complete (hstates : ∀ state ∈ states, Increasing state)
    (hfits : ∀ state ∈ states, ∀ k ∈ state, (k.val : ℤ) < shader.keyword_names.count)
    (hlen : states.length ≤ SIZE_MAX) (h : FactorsInto shader states axes) :
    ∃ axes', factor_ordered_states shader states stage_index = .ok axes' := by
  have hne : states ≠ [] := length_pos_iff.mp h.length_pos
  have huniv : ∀ k, k ∈ used_keywords shader states ↔ k ∈ axisKeywords axes :=
    fun k => (mem_used_keywords hfits).trans h.mem_axisKeywords_iff.symm
  rw [factor_ordered_states_eq hstates hne]
  by_cases hempty : used_keywords shader states = []
  · -- Without keywords each axis has one option, the default.
    have hone : ∀ axis ∈ axes, axis.radix = 1 := by
      intro axis haxis
      have hnil : axis.keyword_indices = [] := by
        refine eq_nil_iff_forall_not_mem.mpr fun k hk => ?_
        have hused := (huniv k).mpr (mem_axisKeywords.mpr ⟨axis, haxis, hk⟩)
        rw [hempty] at hused
        cases hused
      exact radix_eq_one_of_nil (h.radix_pos axis haxis) hnil
    have hcnt : states.length = 1 := h.length_eq.trans <| prod_eq_one fun r hr => by
      obtain ⟨axis, haxis, rfl⟩ := mem_map.mp hr
      exact hone axis haxis
    rw [if_pos hempty, if_neg (not_not.mpr hcnt)]
    exact ⟨[], rfl⟩
  rw [if_neg hempty]
  obtain ⟨linked, hgroups, hapart, hleast⟩ := grouped_group_keywords hstates
    (@nodup_used_keywords shader states)
  have hnodup : ∀ group ∈ group_keywords states (used_keywords shader states), group.Nodup :=
    fun group hgroup => nodup_used_keywords.sublist (hgroups.sublist group hgroup)
  have hmem : ∀ {group axis k}, group ∈ group_keywords states (used_keywords shader states) →
      axis ∈ axes → k ∈ group → k ∈ axis.keyword_indices →
      ∀ k', k' ∈ group ↔ k' ∈ axis.keyword_indices := fun hgroup haxis hk hka _ =>
    h.mem_group_iff huniv hgroups hapart hleast hgroup haxis hk hka
  generalize group_keywords states (used_keywords shader states) = groups at hgroups hnodup hmem ⊢
  -- A group is the keywords of an axis, and an axis with keywords has a group.
  have haxis : ∀ group ∈ groups, ∃ axis ∈ axes, Passes shader states group ∧
      IsAxis (componentOf shader states group) axis := by
    intro group hgroup
    obtain ⟨k, hk⟩ := exists_mem_of_ne_nil _ (hgroups.ne_nil group hgroup)
    obtain ⟨axis, haxis, hka⟩ := mem_axisKeywords.mp
      ((huniv k).mp ((hgroups.sublist group hgroup).subset hk))
    obtain ⟨hexcl, hscope, his⟩ := h.isAxis haxis (hgroups.ne_nil group hgroup)
      (hnodup group hgroup) (hmem hgroup haxis hk hka)
    exact ⟨axis, haxis, ⟨hexcl, hscope⟩, his⟩
  have hgroup : ∀ axis ∈ axes, axis.radix ≠ 1 → ∃ group ∈ groups,
      IsAxis (componentOf shader states group) axis := by
    intro axis haxis hne_one
    have hkws : axis.keyword_indices ≠ [] := fun hnil =>
      hne_one (radix_eq_one_of_nil (h.radix_pos axis haxis) hnil)
    obtain ⟨k, hka⟩ := exists_mem_of_ne_nil _ hkws
    obtain ⟨group, hgroup, hk⟩ := hgroups.cover k
      ((huniv k).mpr (mem_axisKeywords.mpr ⟨axis, haxis, hka⟩))
    obtain ⟨-, -, his⟩ := h.isAxis haxis (hgroups.ne_nil group hgroup)
      (hnodup group hgroup) (hmem hgroup haxis hk hka)
    exact ⟨group, hgroup, his⟩
  have hpasses : ∀ group ∈ groups, Passes shader states group := fun group hg => by
    obtain ⟨_, _, hpass, _⟩ := haxis group hg
    exact hpass
  have hchecked : ∀ component ∈ groups.map (componentOf shader states),
      component.placed = false ∧ Checked shader states component := by
    intro component hcomp
    obtain ⟨group, hg, rfl⟩ := mem_map.mp hcomp
    exact ⟨rfl, checked_componentOf (hnodup group hg) (hgroups.ne_nil group hg)
      (hpasses group hg).1 (hpasses group hg).2⟩
  have hremaining := h.remaining hgroups.disjoint
    (fun group hg => (hchecked _ (mem_map_of_mem hg)).2)
    (fun group hg => by
      obtain ⟨axis, hmem_axis, -, his⟩ := haxis group hg
      exact ⟨axis, hmem_axis, his⟩) hgroup
  obtain ⟨hprod, axes', haxes'⟩ : _ ∧ ∃ axes', order_components states stage_index
      (groups.map (componentOf shader states)) = .ok axes' :=
    hremaining.order_components hstates hchecked
  have hpos : ∀ group ∈ groups, 0 < (componentOf shader states group).radix := by
    intro group hg
    obtain ⟨axis, hmem_axis, -, his⟩ := haxis group hg
    rw [← his.radix_eq]
    exact h.radix_pos axis hmem_axis
  rw [check_components_of_passes hstates hnodup hpasses hpos (by rw [hprod]; omega)]
  refine ⟨axes', (if_neg ?_).trans haxes'⟩
  rw [hprod]
  omega

end Factor

/-! ## The states of the axes -/

section AxisStates

variable {shader : SerializedShader} {states : List (List KeywordIndex)} {stage_index : ℤ}
  {axes : List ShaderLabVariantAxis}

lemma axis_state_count_eq_ok (hpos : ∀ axis ∈ axes, 0 < axis.radix) {state_count : ℕ}
    (hfits : state_count * (axes.map (·.radix)).prod ≤ SIZE_MAX) :
    axis_state_count stage_index axes state_count =
      .ok (state_count * (axes.map (·.radix)).prod) := by
  induction axes generalizing state_count with
  | nil => rw [axis_state_count, map_nil, prod_nil, Nat.mul_one]
  | cons axis axes ih =>
    obtain ⟨hradix, hpos⟩ := forall_mem_cons.mp hpos
    rw [map_cons, prod_cons, ← Nat.mul_assoc] at hfits ⊢
    have hstep : state_count * axis.radix ≤ SIZE_MAX :=
      (Nat.le_mul_of_pos_right _ (radices_prod_pos hpos)).trans hfits
    have hguard : ¬ (axis.radix = 0 ∨ SIZE_MAX / axis.radix < state_count) := by
      rw [not_or, not_lt, Nat.le_div_iff_mul_le hradix]
      exact ⟨hradix.ne', hstep⟩
    rw [axis_state_count, if_neg hguard, ih hpos hfits]

lemma axis_indices_eq (hpos : ∀ axis ∈ axes, 0 < axis.radix) {state_index stride : ℕ} :
    axis_indices state_index axes stride = selected axes (state_index / stride) := by
  induction axes generalizing stride with
  | nil => rfl
  | cons axis axes ih =>
    obtain ⟨hradix, hpos⟩ := forall_mem_cons.mp hpos
    have hlt : state_index / stride % axis.radix < axis.radix := Nat.mod_lt _ hradix
    rw [axis_indices, selected, map_cons, MixedRadix.lowDigits, zipWith_cons_cons,
      Nat.div_div_eq_div_mul, ih hpos]
    generalize state_index / stride % axis.radix = digit at hlt ⊢
    by_cases hdflt : axis.has_default = true ∧ digit = 0
    · rw [if_pos hdflt, (option_eq_none_iff hlt).mpr hdflt, reduceOption_cons_of_none]
      rfl
    · have hsome : axis.option digit ≠ none := fun hnone =>
        hdflt ((option_eq_none_iff hlt).mp hnone)
      rw [option_eq_getElem? hdflt] at hsome
      obtain ⟨k, hk⟩ := ne_none_iff_exists'.mp hsome
      rw [if_neg hdflt, option_eq_getElem? hdflt, hk, reduceOption_cons_of_some,
        getD_eq_getElem?_getD, hk]
      rfl

lemma sublist_selected (n : ℕ) : (selected axes n).Sublist (axisKeywords axes) := by
  induction axes generalizing n with
  | nil => exact List.Sublist.refl []
  | cons axis axes ih =>
    rw [selected, map_cons, MixedRadix.lowDigits, zipWith_cons_cons, axisKeywords_cons]
    cases hopt : axis.option (n % axis.radix) with
    | none =>
      rw [reduceOption_cons_of_none]
      exact (ih _).trans (sublist_append_right _ _)
    | some k =>
      rw [reduceOption_cons_of_some]
      exact (singleton_sublist.mpr (mem_of_option hopt)).append (ih _)

lemma sort_indices_spec {indices : List KeywordIndex} (hnodup : indices.Nodup) :
    Increasing (sort_indices indices) ∧ ∀ k, k ∈ sort_indices indices ↔ k ∈ indices := by
  have hsort : sort_indices indices = (insertionSort (· ≥ ·) indices.reverse).reverse := by
    unfold sort_indices
    rw [foldl_eq_foldr_reverse]
    rfl
  have hperm : (sort_indices indices).Perm indices := by
    rw [hsort]
    exact (reverse_perm _).trans ((perm_insertionSort _ _).trans (reverse_perm _))
  have hsorted : (sort_indices indices).Pairwise (· ≤ ·) := by
    rw [hsort, pairwise_reverse]
    exact pairwise_insertionSort (· ≥ ·) indices.reverse
  refine ⟨?_, fun k => hperm.mem_iff⟩
  exact hsorted.imp₂ (fun _ _ hle hne => lt_of_le_of_ne hle hne) (hperm.nodup_iff.mpr hnodup)

/-- **The axes list the states again.** -/
theorem build_axis_state_list_eq_ok (hstates : ∀ state ∈ states, Increasing state)
    (hlen : states.length ≤ SIZE_MAX) (h : FactorsInto shader states axes) :
    build_axis_state_list axes stage_index = .ok states := by
  have hcnt : 1 * (axes.map (·.radix)).prod = states.length := by
    rw [Nat.one_mul, h.length_eq]
  unfold build_axis_state_list
  rw [axis_state_count_eq_ok h.radix_pos (hcnt ▸ hlen), hcnt]
  refine congrArg Except.ok (ext_getElem ?_ ?_)
  · rw [length_map, length_range]
  · intro i hi hi'
    rw [getElem_map, getElem_range, axis_indices_eq h.radix_pos, Nat.div_one]
    have hget := getElem?_eq_getElem hi'
    obtain ⟨hinc, hmem⟩ := sort_indices_spec (h.disjoint.sublist (sublist_selected i))
    apply hinc.eq_of_mem_iff (hstates _ (getElem_mem hi'))
    intro k
    rw [hmem, h.mem_iff i _ hget]

end AxisStates

end VariantFactor

open VariantFactor

/-- **Factoring is sound and complete.** Canonical states of the keyword table are factored exactly
where they are, in order, the product of axes: the axes share no keyword, each is of one scope, and
the digits of the place of a state, the first axis varying fastest, name the options that the state
has. The axes that are found are such axes, and they list the same states again. -/
theorem factor_ordered_states_ok_iff (shader : SerializedShader)
    (states : List (List KeywordIndex)) (stage_index : ℤ) (hcount : states.length ≤ SIZE_MAX)
    (hcanonical : ∀ state ∈ states, strictly_increasing state = true)
    (hfits : ∀ state ∈ states, ∀ k ∈ state, (k.val : ℤ) < shader.keyword_names.count) :
    ((∃ axes, factor_ordered_states shader states stage_index = .ok axes) ↔
      ∃ axes, FactorsInto shader states axes) ∧
    ∀ axes, factor_ordered_states shader states stage_index = .ok axes →
      FactorsInto shader states axes ∧ build_axis_state_list axes stage_index = .ok states := by
  have hstates : ∀ state ∈ states, Increasing state := fun state hstate =>
    strictly_increasing_iff.mp (hcanonical state hstate)
  have hsound : ∀ axes, factor_ordered_states shader states stage_index = .ok axes →
      FactorsInto shader states axes := fun _ h => factor_ordered_states_sound hstates hfits h
  constructor
  · constructor
    · rintro ⟨axes, h⟩
      exact ⟨axes, hsound axes h⟩
    · rintro ⟨axes, h⟩
      exact factor_ordered_states_complete hstates hfits hcount h
  · intro axes h
    exact ⟨hsound axes h, build_axis_state_list_eq_ok hstates hcount (hsound axes h)⟩

/-- A table of five keywords, the last two of them local. -/
def sampleKeywordTable : SerializedShader where
  keyword_names := ⟨some (List.replicate 5 none), 5, by rintro - l ⟨⟩; simp⟩
  keyword_flags := some [0, 0, 0, 1, 1]

/-- The states of three axes: an optional one, one of two local keywords and a constant. -/
def sampleOrderedStates : List (List KeywordIndex) :=
  [[1, 4], [1, 2, 4], [0, 1, 4], [1, 3], [1, 2, 3], [0, 1, 3]]

theorem factor_ordered_states_ok_iff_sample :
    ∃ axes, factor_ordered_states sampleKeywordTable sampleOrderedStates 0 = .ok axes ∧
      FactorsInto sampleKeywordTable sampleOrderedStates axes ∧
      build_axis_state_list axes 0 = .ok sampleOrderedStates := by
  have hok : factor_ordered_states sampleKeywordTable sampleOrderedStates 0 =
      .ok [⟨true, false, [2, 0]⟩, ⟨false, true, [4, 3]⟩, ⟨false, false, [1]⟩] := rfl
  have hspec := factor_ordered_states_ok_iff sampleKeywordTable sampleOrderedStates 0
    (by decide +kernel) (by decide +kernel) (by simp [sampleOrderedStates, sampleKeywordTable])
  exact ⟨_, hok, hspec.2 _ hok⟩

end DXBCSandbox
