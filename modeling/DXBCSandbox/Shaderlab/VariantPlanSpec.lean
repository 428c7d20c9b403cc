/-
The D3D subprograms of a stage, and the variants that the planner makes of them.

The keyword state of a subprogram is the sorted list of the keywords its scopes enable, so equal
lists are equal sets. The variants are the D3D subprograms in their order.
-/
import DXBCSandbox.Lib.SortedMerge
import DXBCSandbox.Shaderlab.VariantPlan

namespace DXBCSandbox

open List Option Checks SortedMerge

namespace VariantPlan

/-! ## Keywords of a subprogram -/

def keywordSet (identity : SerializedSubProgramIdentity) : Set ℤ :=
  {raw | raw ∈ identity.global_keyword_indices.toList ∨
    raw ∈ identity.local_keyword_indices.toList}

def stateSet (state : List KeywordIndex) : Set ℤ := {raw | ∃ k ∈ state, (k.val : ℤ) = raw}

/-- The D3D subprogram at `index`, with its tier and its keywords. -/
structure D3dVariant (pass : SerializedPass) (stage : Fin SERIALIZED_STAGE_COUNT) (index : ℕ)
    (tier : ℤ) (keywords : Set ℤ) : Prop where
  is_platform : serialized_pass_subprogram_is_platform pass stage index 4 = true
  identity : ∃ identity, ((pass.stages stage).identities.getD [])[index]? = some identity ∧
    identity.hardware_tier_group = tier ∧ keywordSet identity = keywords

lemma D3dVariant.unique {pass : SerializedPass} {stage : Fin SERIALIZED_STAGE_COUNT} {index : ℕ}
    {tier tier' : ℤ} {keywords keywords' : Set ℤ} (h : D3dVariant pass stage index tier keywords)
    (h' : D3dVariant pass stage index tier' keywords') : tier' = tier ∧ keywords' = keywords := by
  obtain ⟨identity, hident, htier, hkws⟩ := h.identity
  obtain ⟨identity', hident', htier', hkws'⟩ := h'.identity
  have heq : identity' = identity := some.inj (hident'.symm.trans hident)
  rw [← htier, ← htier', ← hkws, ← hkws', heq]
  exact ⟨rfl, rfl⟩

/-! ## Canonical scopes -/

structure Canonical (indices : List ℤ) : Prop where
  fits : ∀ raw ∈ indices, 0 ≤ raw ∧ raw ≤ 65535
  increasing : Increasing indices

variable {indices : List ℤ}

lemma raw_indices_increase_iff : raw_indices_increase indices = true ↔ Canonical indices := by
  induction indices with
  | nil =>
    refine ⟨fun _ => ⟨nofun, List.Pairwise.nil⟩, fun _ => rfl⟩
  | cons raw rest ih =>
    rw [raw_indices_increase]
    by_cases hbnd : raw < 0 ∨ 65535 < raw
    · rw [if_pos hbnd]
      refine ⟨fun h => absurd h Bool.false_ne_true, fun h => ?_⟩
      have := h.fits raw mem_cons_self
      omega
    rw [if_neg hbnd]
    by_cases hnext : (rest.head?.any fun next => decide (next ≤ raw)) = true
    · rw [if_pos hnext]
      refine ⟨fun h => absurd h Bool.false_ne_true, fun h => ?_⟩
      obtain ⟨next, hhead, hle⟩ := (any_eq_true _ _).mp hnext
      have hlt := rel_of_pairwise_cons h.increasing (mem_of_head? hhead)
      exact absurd (of_decide_eq_true hle) (not_le.mpr hlt)
    rw [if_neg hnext, ih]
    constructor
    · intro h
      constructor
      · intro x hx
        rcases mem_cons.mp hx with rfl | hx
        · omega
        · exact h.fits x hx
      · apply pairwise_cons.mpr ⟨?_, h.increasing⟩
        intro x hx
        -- The head of the rest is above, and the others are above the head.
        match rest, h, hnext, hx with
        | next :: rest, h, hnext, hx =>
          have hlt : raw < next := by simpa using hnext
          rcases mem_cons.mp hx with rfl | hx
          · exact hlt
          · exact hlt.trans (rel_of_pairwise_cons h.increasing hx)
    · intro h
      exact ⟨(forall_mem_cons.mp h.fits).2, h.increasing.of_cons⟩

lemma canonical_of_scope {indices : IntArray ℤ} (h : raw_scope_is_canonical indices = true) :
    Canonical indices.toList := by
  unfold raw_scope_is_canonical at h
  split_ifs at h
  exact raw_indices_increase_iff.mp h

variable {raw : ℤ}

lemma Canonical.of_cons {rest : List ℤ} (h : Canonical (raw :: rest)) : Canonical rest :=
  ⟨(forall_mem_cons.mp h.fits).2, h.increasing.of_cons⟩

lemma val_keywordIndex (h : 0 ≤ raw ∧ raw ≤ 65535) : ((keywordIndex raw).val : ℤ) = raw := by
  unfold keywordIndex
  rw [Fin.val_ofNat, Nat.mod_eq_of_lt (by omega)]
  omega

lemma keywordIndex_lt {a b : ℤ} (ha : 0 ≤ a ∧ a ≤ 65535) (hb : 0 ≤ b ∧ b ≤ 65535) :
    keywordIndex a < keywordIndex b ↔ a < b := by
  have hva := val_keywordIndex ha
  have hvb := val_keywordIndex hb
  rw [Fin.lt_def]
  omega

lemma increasing_map_keywordIndex (h : Canonical indices) :
    Increasing (indices.map keywordIndex) := by
  apply pairwise_map.mpr
  apply h.increasing.imp_of_mem
  intro a b ha hb hab
  exact (keywordIndex_lt (h.fits a ha) (h.fits b hb)).mpr hab

lemma mem_stateSet_map (h : Canonical indices) :
    raw ∈ stateSet (indices.map keywordIndex) ↔ raw ∈ indices := by
  constructor
  · rintro ⟨k, hk, rfl⟩
    obtain ⟨x, hx, rfl⟩ := mem_map.mp hk
    rw [val_keywordIndex (h.fits x hx)]
    exact hx
  · intro hraw
    exact ⟨keywordIndex raw, mem_map_of_mem hraw, val_keywordIndex (h.fits raw hraw)⟩

variable {stage_index subprogram_index : ℤ}

lemma merge_raw_scopes_eq_ok {globals locals : List ℤ} {merged : List KeywordIndex}
    (hg : Canonical globals) (hl : Canonical locals)
    (h : merge_raw_scopes stage_index subprogram_index globals locals = .ok merged) :
    merged = union (globals.map keywordIndex) (locals.map keywordIndex) := by
  induction globals, locals using merge_raw_scopes.induct generalizing merged with
  | case1 =>
    rw [merge_raw_scopes] at h
    rw [← pure_eq_ok.mp h]
    simp
  | case2 g globals ih =>
    rw [merge_raw_scopes] at h
    obtain ⟨tail, htail, h⟩ := bind_eq_ok.mp h
    rw [← pure_eq_ok.mp h, ih hg.of_cons hl htail]
    simp
  | case3 l locals ih =>
    rw [merge_raw_scopes] at h
    obtain ⟨tail, htail, h⟩ := bind_eq_ok.mp h
    rw [← pure_eq_ok.mp h, ih hg hl.of_cons htail]
    simp
  | case4 g globals l locals hlt ih =>
    rw [merge_raw_scopes, if_pos hlt] at h
    obtain ⟨tail, htail, h⟩ := bind_eq_ok.mp h
    rw [← pure_eq_ok.mp h, ih hg.of_cons hl htail, map_cons, map_cons, union_of_lt]
    exact (keywordIndex_lt (hg.fits g mem_cons_self) (hl.fits l mem_cons_self)).mpr hlt
  | case5 g globals l locals hlt hgt ih =>
    rw [merge_raw_scopes, if_neg hlt, if_pos hgt] at h
    obtain ⟨tail, htail, h⟩ := bind_eq_ok.mp h
    rw [← pure_eq_ok.mp h, ih hg hl.of_cons htail, map_cons, map_cons, union_of_gt]
    exact (keywordIndex_lt (hl.fits l mem_cons_self) (hg.fits g mem_cons_self)).mpr hgt
  | case6 g globals l locals hlt hgt =>
    rw [merge_raw_scopes, if_neg hlt, if_neg hgt] at h
    nomatch h

lemma require_in_mask_eq_ok {pass_mask state state' : List KeywordIndex}
    (h : require_in_mask pass_mask stage_index subprogram_index state = .ok state') :
    state' = state := by
  unfold require_in_mask at h
  split_ifs at h
  exact (Except.ok.inj h).symm

/-- **The state of a subprogram** is the sorted list of its keywords. -/
theorem identity_to_state_eq_ok {shader : SerializedShader}
    {identity : SerializedSubProgramIdentity} {pass_mask state : List KeywordIndex}
    (h : identity_to_state shader identity pass_mask stage_index subprogram_index = .ok state) :
    Increasing state ∧ stateSet state = keywordSet identity := by
  unfold identity_to_state at h
  dsimp only at h
  by_cases hexpl : identity.keyword_scopes_are_explicit = true
  · rw [if_neg (not_not.mpr hexpl)] at h
    obtain ⟨hscopes, h⟩ := ite_error_eq_ok.mp h
    obtain ⟨hg, hl⟩ := not_or.mp hscopes
    have hg := canonical_of_scope (not_not.mp hg)
    have hl := canonical_of_scope (not_not.mp hl)
    obtain ⟨_, -, h⟩ := bind_eq_ok.mp h
    obtain ⟨_, -, h⟩ := bind_eq_ok.mp h
    obtain ⟨merged, hmrg, h⟩ := bind_eq_ok.mp h
    obtain rfl := require_in_mask_eq_ok h
    rw [merge_raw_scopes_eq_ok hg hl hmrg]
    refine ⟨increasing_union (increasing_map_keywordIndex hg) (increasing_map_keywordIndex hl), ?_⟩
    ext raw
    rw [keywordSet, Set.mem_ofPred_eq, ← mem_stateSet_map hg, ← mem_stateSet_map hl]
    unfold stateSet
    simp only [Set.mem_ofPred_eq, mem_union, or_and_right, exists_or]
  · rw [if_pos hexpl] at h
    obtain ⟨hscopes, h⟩ := ite_error_eq_ok.mp h
    obtain ⟨-, hscopes⟩ := not_or.mp hscopes
    obtain ⟨hglobals, hl⟩ := not_or.mp hscopes
    have hl := canonical_of_scope (not_not.mp hl)
    obtain ⟨_, -, h⟩ := bind_eq_ok.mp h
    obtain rfl := require_in_mask_eq_ok h
    refine ⟨increasing_map_keywordIndex hl, ?_⟩
    have hempty : identity.global_keyword_indices.toList = [] := by
      rw [IntArray.toList, not_not.mp hglobals]
      exact take_nil
    ext raw
    rw [keywordSet, Set.mem_ofPred_eq, mem_stateSet_map hl, hempty]
    simp

lemma stateSet_inj {a b : List KeywordIndex} (ha : Increasing a) (hb : Increasing b)
    (h : stateSet a = stateSet b) : a = b := by
  apply ha.eq_of_mem_iff hb
  intro k
  have hk : ∀ s : List KeywordIndex, k ∈ s ↔ (k.val : ℤ) ∈ stateSet s := by
    intro s
    refine ⟨fun hk => ⟨k, hk, rfl⟩, ?_⟩
    rintro ⟨k', hk', hval⟩
    rwa [← Fin.ext (Int.ofNat.inj hval)]
  rw [hk, hk, h]

/-! ## The planned variants -/

section Variants

variable {shader : SerializedShader} {pass : SerializedPass} {pass_mask : List KeywordIndex}
  {stage : Fin SERIALIZED_STAGE_COUNT}

/-- The variants of the D3D subprograms from `i` on. -/
structure Planned (pass : SerializedPass) (stage : Fin SERIALIZED_STAGE_COUNT) (i : ℕ)
    (variants : List ShaderLabPlannedVariant) : Prop where
  sound : ∀ v ∈ variants, i ≤ v.subprogram_index ∧ Increasing v.keyword_indices ∧
    D3dVariant pass stage v.subprogram_index v.hardware_tier_group (stateSet v.keyword_indices)
  complete : ∀ index tier keywords, i ≤ index → D3dVariant pass stage index tier keywords →
    ∃ v ∈ variants, v.subprogram_index = index
  ordered : variants.Pairwise (·.subprogram_index < ·.subprogram_index)

lemma Planned.exists_mem {i index : ℕ} {tier : ℤ} {keywords : Set ℤ}
    {variants : List ShaderLabPlannedVariant} (h : Planned pass stage i variants) (hi : i ≤ index)
    (hd3d : D3dVariant pass stage index tier keywords) :
    ∃ v ∈ variants, v.subprogram_index = index ∧ v.hardware_tier_group = tier ∧
      stateSet v.keyword_indices = keywords := by
  obtain ⟨v, hv, rfl⟩ := h.complete index tier keywords hi hd3d
  exact ⟨v, hv, rfl, hd3d.unique (h.sound v hv).2.2⟩

lemma lt_of_is_platform {index : ℕ}
    (h : serialized_pass_subprogram_is_platform pass stage index 4 = true) :
    index < (pass.stages stage).subprograms.count.toNat := by
  unfold serialized_pass_subprogram_is_platform at h
  dsimp only at h
  by_cases hrange : (index : ℤ) < 0 ∨ (pass.stages stage).subprograms.count ≤ (index : ℤ)
  · rw [if_pos hrange] at h
    cases h
  · omega

/-- **The variants** are the D3D subprograms, in their order. -/
theorem plan_variants_eq_ok {i : ℕ} {rest : List SerializedSubProgramIdentity}
    {variants : List ShaderLabPlannedVariant}
    (hrest : rest = (((pass.stages stage).identities.getD []).take
      (pass.stages stage).subprograms.count.toNat).drop i)
    (h : plan_variants shader pass pass_mask stage i rest = .ok variants) :
    Planned pass stage i variants := by
  induction rest generalizing i variants with
  | nil =>
    rw [← pure_eq_ok.mp h]
    refine ⟨nofun, ?_, List.Pairwise.nil⟩
    intro index tier keywords hi hd3d
    obtain ⟨identity, hident, -⟩ := hd3d.identity
    have hlen := drop_eq_nil_iff.mp hrest.symm
    have hlt := (List.getElem?_eq_some_iff.mp hident).1
    have hcnt := lt_of_is_platform hd3d.is_platform
    rw [length_take] at hlen
    omega
  | cons identity rest ih =>
    have hitem : ((pass.stages stage).identities.getD [])[i]? = some identity := by
      have hget : (((pass.stages stage).identities.getD []).take
          (pass.stages stage).subprograms.count.toNat)[i]? = some identity := by
        rw [← Nat.add_zero i, ← List.getElem?_drop, ← hrest]
        rfl
      rw [List.getElem?_take] at hget
      split_ifs at hget
      exact hget
    have hdrop : rest = (((pass.stages stage).identities.getD []).take
        (pass.stages stage).subprograms.count.toNat).drop (i + 1) := by
      rw [← drop_drop, ← hrest]
      rfl
    rw [plan_variants] at h
    by_cases hplat : serialized_pass_subprogram_is_platform pass stage i 4 = true
    · rw [if_neg (not_not.mpr hplat)] at h
      obtain ⟨htier, h⟩ := ite_error_eq_ok.mp h
      obtain ⟨state, hstate, h⟩ := bind_eq_ok.mp h
      obtain ⟨tail, htail, h⟩ := bind_eq_ok.mp h
      rw [← pure_eq_ok.mp h]
      have ih := ih hdrop htail
      obtain ⟨hinc, hkws⟩ := identity_to_state_eq_ok hstate
      refine ⟨?_, ?_, pairwise_cons.mpr ⟨?_, ih.ordered⟩⟩
      · intro v hv
        rcases mem_cons.mp hv with rfl | hv
        · exact ⟨le_refl _, hinc, hplat, identity, hitem, rfl, hkws.symm⟩
        · obtain ⟨hle, hsound⟩ := ih.sound v hv
          exact ⟨by omega, hsound⟩
      · intro index tier keywords hi hd3d
        by_cases heq : index = i
        · exact ⟨_, mem_cons_self, heq.symm⟩
        · obtain ⟨v, hv, hidx⟩ := ih.complete index tier keywords (by omega) hd3d
          exact ⟨v, mem_cons_of_mem _ hv, hidx⟩
      · intro v hv
        have := (ih.sound v hv).1
        show i < v.subprogram_index
        omega
    · rw [if_pos hplat] at h
      have ih := ih hdrop h
      refine ⟨?_, ?_, ih.ordered⟩
      · intro v hv
        obtain ⟨hle, hsound⟩ := ih.sound v hv
        exact ⟨by omega, hsound⟩
      · intro index tier keywords hi hd3d
        refine ih.complete index tier keywords ?_ hd3d
        have hne : index ≠ i := by
          rintro rfl
          exact hplat hd3d.is_platform
        omega

end Variants

end VariantPlan

end DXBCSandbox
