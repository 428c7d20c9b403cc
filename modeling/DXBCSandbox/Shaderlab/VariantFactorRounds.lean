/-
The rounds of the placement.

What was placed is aligned after every round, and no keyword is lost. Where the states are a product,
the axes that are still missing have the strides that follow, so every round finds the next one.
-/
import DXBCSandbox.Shaderlab.VariantFactorPlace

namespace DXBCSandbox

open List Option Checks SortedMerge VariantPlan

namespace VariantFactor

/-! ## What was placed -/

def componentKeywords (components : List FactorComponent) : List KeywordIndex :=
  components.flatMap (·.keywords)

/-- The placed axes are aligned, and with the components that are left they have the keywords. -/
structure PlacedSoFar (shader : SerializedShader) (states : List (List KeywordIndex))
    (keywords : List KeywordIndex) (count product : ℕ) (p : Placement) : Prop where
  stride_eq : p.stride = (p.axes.map (·.radix)).prod
  radix : ∀ axis ∈ p.axes, 1 < axis.radix
  aligned : AlignedFrom states 1 p.axes
  scope : ∀ axis ∈ p.axes, ∀ k ∈ axis.keyword_indices,
    keyword_is_local shader k.val = axis.is_local
  checked : ∀ component ∈ unplaced p.components, Checked shader states component
  keywords_perm : (axisKeywords p.axes ++ componentKeywords (unplaced p.components)).Perm keywords
  count_eq : p.axes.length + (unplaced p.components).length = count
  product_eq : p.stride * ((unplaced p.components).map (·.radix)).prod = product

variable {component : FactorComponent} {components : List FactorComponent}
    {order : List KeywordIndex} {i n : ℕ}

section Placed

variable {shader : SerializedShader} {states : List (List KeywordIndex)}
  {keywords : List KeywordIndex} {count product : ℕ} {p : Placement}

def nextPlacement (p : Placement) (i : ℕ) (component : FactorComponent)
    (order : List KeywordIndex) : Placement where
  components := p.components.set i { component with placed := true }
  axes := p.axes ++ [axisOf component order]
  stride := p.stride * component.radix

lemma place_components_succ : place_components states (n + 1) p =
    match select_component states p.stride 0 p.components none with
    | none => p
    | some (i, component, order) => place_components states n (nextPlacement p i component order) :=
  rfl

lemma PlacedSoFar.stride_pos (h : PlacedSoFar shader states keywords count product p) :
    0 < p.stride := by
  rw [h.stride_eq]
  exact radices_prod_pos fun axis haxis => (h.radix axis haxis).le

lemma mem_unplaced_of_getElem? (hget : components[i]? = some component)
    (hpl : component.placed = false) :
    component ∈ unplaced components := mem_unplaced.mpr ⟨mem_of_getElem? hget, hpl⟩

lemma PlacedSoFar.next (hstates : ∀ state ∈ states, Increasing state)
    (h : PlacedSoFar shader states keywords count product p)
    (hget : p.components[i]? = some component) (hpl : component.placed = false)
    (hmatch : component_matches_stride component states p.stride = some order) :
    PlacedSoFar shader states keywords count product (nextPlacement p i component order) := by
  have hchecked := h.checked component (mem_unplaced_of_getElem? hget hpl)
  obtain ⟨hradix, hperm, halign⟩ := aligned_of_matches hstates hchecked h.stride_pos hmatch
  have hset := unplaced_set hget hpl
  have hradix_eq := radix_axisOf hperm.length_eq
  have hmem : ∀ {P : ShaderLabVariantAxis → Prop}, (∀ axis ∈ p.axes, P axis) →
      P (axisOf component order) → ∀ axis ∈ p.axes ++ [axisOf component order], P axis := by
    intro P hall hlast axis haxis
    rcases mem_append.mp haxis with haxis | haxis
    · exact hall axis haxis
    · rw [mem_singleton.mp haxis]
      exact hlast
  constructor
  · show p.stride * component.radix = ((p.axes ++ [axisOf component order]).map (·.radix)).prod
    rw [map_append, prod_append, ← h.stride_eq, map_singleton, prod_singleton, hradix_eq]
  · exact hmem h.radix (by rw [hradix_eq]; exact hradix)
  · refine alignedFrom_append.mpr ⟨h.aligned, ?_, trivial⟩
    rw [Nat.one_mul, ← h.stride_eq]
    exact halign
  · exact hmem h.scope fun k hk => hchecked.scope k (hperm.mem_iff.mp hk)
  · exact fun c hc => h.checked c (hset.mem_iff.mpr (mem_cons_of_mem _ hc))
  · -- The keywords of the component move to its axis.
    have hkws := (hset.flatMap_right (·.keywords)).symm
    refine List.Perm.trans ?_ h.keywords_perm
    show (axisKeywords (p.axes ++ [axisOf component order]) ++ _).Perm _
    rw [axisKeywords_append, append_assoc]
    refine List.Perm.append_left _ (List.Perm.trans ?_ hkws)
    rw [flatMap_cons]
    refine List.Perm.append_right _ ?_
    rw [axisKeywords_cons, axisKeywords_nil, append_nil]
    exact hperm
  · have hlen := hset.length_eq
    rw [length_cons] at hlen
    have hcnt := h.count_eq
    show (p.axes ++ [axisOf component order]).length + _ = count
    rw [length_append, length_singleton]
    show p.axes.length + 1 + (unplaced (p.components.set i { component with placed := true })).length
      = count
    omega
  · rw [← h.product_eq, (hset.map (·.radix)).prod_eq, map_cons, prod_cons, ← Nat.mul_assoc]
    rfl

lemma placedSoFar_place_components (hstates : ∀ state ∈ states, Increasing state)
    (h : PlacedSoFar shader states keywords count product p) :
    PlacedSoFar shader states keywords count product (place_components states n p) := by
  induction n generalizing p with
  | zero => exact h
  | succ n ih =>
    rw [place_components_succ]
    cases hselect : select_component states p.stride 0 p.components none with
    | none => exact h
    | some found =>
      obtain ⟨i, component, order⟩ := found
      rcases select_component_eq_some hselect with hnone | ⟨-, hget, hpl, hmatch⟩
      · nomatch hnone
      · rw [Nat.sub_zero] at hget
        exact ih (h.next hstates hget hpl hmatch)

end Placed

/-! ## Constants -/

section Constants

variable {shader : SerializedShader} {states : List (List KeywordIndex)} {stage_index : ℤ}
  {components : List FactorComponent} {component : FactorComponent}
  {axes : List ShaderLabVariantAxis}

lemma append_constants_eq_ok_iff : append_constants stage_index components = .ok axes ↔
      (∀ component ∈ unplaced components, component.radix = 1) ∧
      axes = (unplaced components).map fun component =>
        ⟨false, component.is_local, [component.keywords.getD 0 0]⟩ := by
  induction components generalizing axes with
  | nil =>
    rw [append_constants]
    exact ⟨fun h => ⟨nofun, (Except.ok.inj h).symm⟩, fun h => congrArg Except.ok h.2.symm⟩
  | cons first components ih =>
    rw [append_constants]
    unfold unplaced at ih ⊢
    by_cases hpl : first.placed = true
    · rw [if_pos hpl, filter_cons_of_neg (by simpa using hpl), ih]
    · rw [if_neg hpl, filter_cons_of_pos (by simpa using hpl), ite_error_eq_ok,
        not_not, forall_mem_cons, and_assoc, map_cons]
      refine and_congr_right fun _ => ?_
      rw [bind_eq_ok]
      constructor
      · rintro ⟨rest, hrest, h⟩
        obtain ⟨hall, rfl⟩ := ih.mp hrest
        exact ⟨hall, (pure_eq_ok.mp h).symm⟩
      · rintro ⟨hall, rfl⟩
        exact ⟨_, ih.mpr ⟨hall, rfl⟩, rfl⟩

/-- A component of one option has one keyword, which every state has. -/
theorem Checked.of_radix_one (h : Checked shader states component) (hone : component.radix = 1) :
    component.has_default = false ∧ ∃ k, component.keywords = [k] ∧ ∀ state ∈ states, k ∈ state := by
  have hlen : 0 < component.keywords.length := length_pos_iff.mpr h.ne_nil
  unfold FactorComponent.radix at hone
  by_cases hdflt : component.has_default = true
  · rw [if_pos hdflt] at hone
    omega
  · rw [if_neg hdflt, Nat.add_zero] at hone
    obtain ⟨k, hk⟩ := length_eq_one_iff.mp hone
    refine ⟨Bool.eq_false_iff.mpr hdflt, k, hk, fun state hstate => ?_⟩
    by_contra hmem
    refine hdflt (h.default_iff.mpr ⟨state, hstate, ?_⟩)
    rw [hk, optionOf_eq_none_iff]
    exact fun k' hk' => mem_singleton.mp hk' ▸ hmem

lemma Checked.constant_eq (h : Checked shader states component) (hone : component.radix = 1) :
    (⟨false, component.is_local, [component.keywords.getD 0 0]⟩ : ShaderLabVariantAxis) =
      axisOf component component.keywords := by
  obtain ⟨hdflt, k, hk, -⟩ := h.of_radix_one hone
  unfold axisOf
  rw [hdflt, hk]
  rfl

lemma alignedFrom_constants (hchecked : ∀ component ∈ components, Checked shader states component)
    (hone : ∀ component ∈ components, component.radix = 1) (stride : ℕ) :
    AlignedFrom states stride (components.map fun component =>
      axisOf component component.keywords) := by
  induction components generalizing stride with
  | nil => trivial
  | cons first components ih =>
    refine ⟨fun i state hstate k hk => ?_, ih (forall_mem_cons.mp hchecked).2
      (forall_mem_cons.mp hone).2 _⟩
    have hradix : (axisOf first first.keywords).radix = 1 := by
      rw [radix_axisOf rfl]
      exact hone first mem_cons_self
    obtain ⟨-, k', hkws, hall⟩ :=
      (hchecked first mem_cons_self).of_radix_one (hone first mem_cons_self)
    obtain ⟨digit, hdigit, hopt⟩ := exists_option_of_mem hk
    obtain rfl : digit = 0 := by
      have hlt : digit < (axisOf first first.keywords).radix := hdigit
      omega
    have hk' : k = k' := mem_singleton.mp (hkws ▸ hk)
    refine iff_of_true (hk' ▸ hall state (mem_of_getElem? hstate)) ?_
    show (axisOf first first.keywords).option (i / stride % (axisOf first first.keywords).radix) = _
    rw [hradix, Nat.mod_one]
    exact hopt

lemma axisKeywords_constants :
    axisKeywords (components.map fun component => axisOf component component.keywords) =
      componentKeywords components := by
  unfold axisKeywords componentKeywords axisOf
  rw [flatMap_map]

lemma unplaced_eq_self (h : ∀ component ∈ components, component.placed = false) :
    unplaced components = components :=
  filter_eq_self.mpr fun c hc => by rw [h c hc]; rfl

variable {keywords : List KeywordIndex}

lemma placedSoFar_start (hkws : (componentKeywords components).Perm keywords)
    (hchecked : ∀ component ∈ components, component.placed = false ∧ Checked shader states
      component) :
    PlacedSoFar shader states keywords components.length (components.map (·.radix)).prod
      ⟨components, [], 1⟩ := by
  have hunpl := unplaced_eq_self fun c hc => (hchecked c hc).1
  constructor
  · rfl
  · exact nofun
  · trivial
  · exact nofun
  · exact fun c hc => (hchecked c (mem_unplaced.mp hc).1).2
  · rw [hunpl]
    exact hkws
  · rw [hunpl]
    exact Nat.zero_add _
  · rw [hunpl]
    exact Nat.one_mul _

/-- **The order of the components is sound.** -/
theorem order_components_sound (hstates : ∀ state ∈ states, Increasing state)
    (hnodup : keywords.Nodup) (hkws : (componentKeywords components).Perm keywords)
    (hcover : ∀ state ∈ states, ∀ k ∈ state, k ∈ keywords)
    (hchecked : ∀ component ∈ components, component.placed = false ∧ Checked shader states
      component) (h : order_components states stage_index components = .ok axes) :
    FactorsInto shader states axes := by
  have hstart := placedSoFar_start hkws hchecked
  have hpl := placedSoFar_place_components (n := components.length + 1) hstates hstart
  unfold order_components at h
  generalize place_components states (components.length + 1) ⟨components, [], 1⟩ = p at h hpl
  obtain ⟨constants, hconstants, h⟩ := bind_eq_ok.mp h
  obtain ⟨hdone, h⟩ := ite_error_eq_ok.mp h
  obtain rfl := pure_eq_ok.mp h
  obtain ⟨hone, hmap⟩ := append_constants_eq_ok_iff.mp hconstants
  rw [map_congr_left fun c hc => (hpl.checked c hc).constant_eq (hone c hc)] at hmap
  have hrads : ∀ axis ∈ constants, axis.radix = 1 := by
    intro axis haxis
    rw [hmap] at haxis
    obtain ⟨c, hc, rfl⟩ := mem_map.mp haxis
    rw [radix_axisOf rfl, hone c hc]
  have hperm : (axisKeywords (p.axes ++ constants)).Perm keywords := by
    rw [axisKeywords_append, hmap, axisKeywords_constants]
    exact hpl.keywords_perm
  refine FactorsInto.of_aligned (hperm.nodup_iff.mpr hnodup) ?_ ?_ ?_ ?_ ?_
  · intro axis haxis k hk
    rcases mem_append.mp haxis with haxis | haxis
    · exact hpl.scope axis haxis k hk
    · rw [hmap] at haxis
      obtain ⟨c, hc, rfl⟩ := mem_map.mp haxis
      exact (hpl.checked c hc).scope k hk
  · intro axis haxis
    rcases mem_append.mp haxis with haxis | haxis
    · exact (hpl.radix axis haxis).le
    · rw [hrads axis haxis]
      exact Nat.one_pos
  · have hprod : (constants.map (·.radix)).prod = 1 := prod_eq_one fun r hr => by
      obtain ⟨axis, haxis, rfl⟩ := mem_map.mp hr
      exact hrads axis haxis
    rw [map_append, prod_append, hprod, Nat.mul_one, ← hpl.stride_eq]
    omega
  · refine alignedFrom_append.mpr ⟨hpl.aligned, ?_⟩
    rw [hmap]
    exact alignedFrom_constants hpl.checked hone _
  · exact fun state hstate k hk => hperm.mem_iff.mpr (hcover state hstate k hk)

end Constants

/-! ## What is missing -/

/-- The axes that are missing have the strides that follow, and they are the axes of the components
that are left, up to the constants. -/
structure Remaining (shader : SerializedShader) (states : List (List KeywordIndex))
    (axes : List ShaderLabVariantAxis) (p : Placement) : Prop where
  stride_pos : 0 < p.stride
  aligned : AlignedFrom states p.stride axes
  disjoint : (axisKeywords axes).Nodup
  radix : ∀ axis ∈ axes, 1 < axis.radix
  length_eq : p.stride * (axes.map (·.radix)).prod = states.length
  checked : ∀ component ∈ unplaced p.components, Checked shader states component
  apart : (unplaced p.components).Pairwise fun a b => a.keywords.Disjoint b.keywords
  component : ∀ axis ∈ axes, ∃ component ∈ unplaced p.components, IsAxis component axis
  axis : ∀ component ∈ unplaced p.components, component.radix ≠ 1 →
    ∃ axis ∈ axes, IsAxis component axis

section Remaining

variable {shader : SerializedShader} {states : List (List KeywordIndex)} {p : Placement}
  {axis : ShaderLabVariantAxis} {axes : List ShaderLabVariantAxis}
  (h : Remaining shader states (axis :: axes) p)

include h

lemma Remaining.isAxis_of_matches (hstates : ∀ state ∈ states, Increasing state)
    (hmem : component ∈ unplaced p.components)
    (hmatch : component_matches_stride component states p.stride = some order) :
    IsAxis component axis := by
  have hchecked := h.checked component hmem
  obtain ⟨hradix, -, -⟩ := aligned_of_matches hstates hchecked h.stride_pos hmatch
  obtain ⟨axis', haxis', his⟩ := h.axis component hmem hradix.ne'
  rcases mem_cons.mp haxis' with rfl | hrest
  · exact his
  · -- A later axis has a greater stride.
    have hpos : ∀ a ∈ axes, 0 < a.radix := fun a ha => (h.radix a (mem_cons_of_mem _ ha)).le
    obtain ⟨stride', hle, halign⟩ := h.aligned.2.exists_stride hpos hrest
    have hfst := h.radix axis mem_cons_self
    have hgrow : p.stride * 2 ≤ p.stride * axis.radix := Nat.mul_le_mul_left _ hfst
    have hstride := h.stride_pos
    rw [his.not_matches hstates hchecked h.stride_pos halign (by omega)] at hmatch
    nomatch hmatch

lemma Remaining.exists_matches (hstates : ∀ state ∈ states, Increasing state) :
    ∃ component ∈ unplaced p.components,
      component_matches_stride component states p.stride ≠ none := by
  obtain ⟨component, hmem, his⟩ := h.component axis mem_cons_self
  have hpos : ∀ a ∈ axes, 0 < a.radix := fun a ha => (h.radix a (mem_cons_of_mem _ ha)).le
  have hle : axis.radix * p.stride ≤ states.length := by
    rw [← h.length_eq, map_cons, prod_cons, ← Nat.mul_assoc, Nat.mul_comm axis.radix]
    exact Nat.le_mul_of_pos_right _ (radices_prod_pos hpos)
  refine ⟨component, hmem, ?_⟩
  rw [his.matches hstates (h.checked component hmem) h.stride_pos h.aligned.1
    (h.radix axis mem_cons_self) hle]
  exact some_ne_none _

lemma Remaining.next (order : List KeywordIndex) (hget : p.components[i]? = some component)
    (hpl : component.placed = false) (his : IsAxis component axis) :
    Remaining shader states axes (nextPlacement p i component order) := by
  have hset := unplaced_set hget hpl
  have hchecked := h.checked component (mem_unplaced_of_getElem? hget hpl)
  have hradix := his.radix_eq
  obtain ⟨k, hk⟩ := exists_mem_of_ne_nil _ hchecked.ne_nil
  have hold : ∀ {c}, c ∈ unplaced (nextPlacement p i component order).components →
      c ∈ unplaced p.components := fun hc => hset.mem_iff.mpr (mem_cons_of_mem _ hc)
  have hapart := (hset.pairwise_iff fun hab => hab.symm).mp h.apart
  obtain ⟨hcomp, hrest⟩ := pairwise_cons.mp hapart
  have hdisj := h.disjoint
  obtain ⟨-, hdisjoint_rest, hdisj⟩ := nodup_append.mp hdisj
  refine ⟨?_, ?_, hdisjoint_rest, (forall_mem_cons.mp h.radix).2, ?_,
    fun c hc => h.checked c (hold hc), hrest, ?_, ?_⟩
  · show 0 < p.stride * component.radix
    rw [← hradix]
    exact Nat.mul_pos h.stride_pos (h.radix axis mem_cons_self).le
  · show AlignedFrom states (p.stride * component.radix) axes
    rw [← hradix]
    exact h.aligned.2
  · show p.stride * component.radix * (axes.map (·.radix)).prod = states.length
    rw [← h.length_eq, ← hradix, map_cons, prod_cons, Nat.mul_assoc]
  · intro a ha
    obtain ⟨c, hc, hca⟩ := h.component a (mem_cons_of_mem _ ha)
    rcases mem_cons.mp (hset.mem_iff.mp hc) with rfl | hc'
    · exact absurd rfl (hdisj k (his.perm.mem_iff.mpr hk) k
        (mem_axisKeywords.mpr ⟨a, ha, hca.perm.mem_iff.mpr hk⟩))
    · exact ⟨c, hc', hca⟩
  · intro c hc hne
    obtain ⟨a, ha, hca⟩ := h.axis c (hold hc) hne
    rcases mem_cons.mp ha with rfl | ha'
    · have hkc : k ∈ c.keywords := hca.perm.mem_iff.mp (his.perm.mem_iff.mpr hk)
      exact absurd hkc (hcomp c hc hk)
    · exact ⟨a, ha', hca⟩

omit h

/-- **The greedy placement is complete.** -/
theorem Remaining.place_components (h : Remaining shader states axes p)
    (hstates : ∀ state ∈ states, Increasing state) (hn : (unplaced p.components).length ≤ n) :
    (place_components states n p).stride = states.length ∧
      ∀ component ∈ unplaced (place_components states n p).components, component.radix = 1 := by
  induction n generalizing p axes with
  | zero =>
    have hnil : unplaced p.components = [] := length_eq_zero_iff.mp (Nat.le_zero.mp hn)
    cases axes with
    | nil =>
      have hlen := h.length_eq
      rw [map_nil, prod_nil, Nat.mul_one] at hlen
      refine ⟨hlen, fun c hc => ?_⟩
      rw [VariantFactor.place_components, hnil] at hc
      cases hc
    | cons axis axes =>
      obtain ⟨c, hc, -⟩ := h.component axis mem_cons_self
      rw [hnil] at hc
      cases hc
  | succ n ih =>
    rw [place_components_succ]
    cases hselect : select_component states p.stride 0 p.components none with
    | none =>
      obtain ⟨-, hnone⟩ := select_component_eq_none hselect
      cases axes with
      | nil =>
        have hlen := h.length_eq
        rw [map_nil, prod_nil, Nat.mul_one] at hlen
        refine ⟨hlen, fun c hc => ?_⟩
        by_contra hne
        obtain ⟨a, ha, -⟩ := h.axis c hc hne
        cases ha
      | cons axis axes =>
        obtain ⟨c, hc, hmatch⟩ := h.exists_matches hstates
        exact absurd (hnone c hc) hmatch
    | some found =>
      obtain ⟨i, component, order⟩ := found
      rcases select_component_eq_some hselect with hsome | ⟨-, hget, hpl, hmatch⟩
      · nomatch hsome
      rw [Nat.sub_zero] at hget
      have hmem := mem_unplaced_of_getElem? hget hpl
      cases axes with
      | nil =>
        have hradix := (aligned_of_matches hstates (h.checked component hmem) h.stride_pos hmatch).1
        obtain ⟨a, ha, -⟩ := h.axis component hmem hradix.ne'
        cases ha
      | cons axis axes =>
        have hnext := h.next order hget hpl (h.isAxis_of_matches hstates hmem hmatch)
        refine ih hnext ?_
        have hlen := (unplaced_set hget hpl).length_eq
        rw [length_cons] at hlen
        show (unplaced (p.components.set i { component with placed := true })).length ≤ n
        omega

/-- **The order of the components is complete.** Their product is the count of the states, and they
are ordered. -/
theorem Remaining.order_components {stage_index : ℤ}
    (h : Remaining shader states axes ⟨components, [], 1⟩)
    (hstates : ∀ state ∈ states, Increasing state)
    (hchecked : ∀ component ∈ components, component.placed = false ∧ Checked shader states
      component) :
    (components.map (·.radix)).prod = states.length ∧
      ∃ axes', VariantFactor.order_components states stage_index components = .ok axes' := by
  have hpl := placedSoFar_place_components (n := components.length + 1) hstates
    (placedSoFar_start (List.Perm.refl (componentKeywords components)) hchecked)
  have hlen : (unplaced components).length ≤ components.length + 1 := by
    rw [unplaced_eq_self fun c hc => (hchecked c hc).1]
    omega
  obtain ⟨hstride, hone⟩ := h.place_components hstates hlen
  unfold VariantFactor.order_components
  generalize VariantFactor.place_components states (components.length + 1) ⟨components, [], 1⟩ = p
    at hpl hstride hone
  constructor
  · have hprod : ((unplaced p.components).map (·.radix)).prod = 1 := prod_eq_one fun r hr => by
      obtain ⟨c, hc, rfl⟩ := mem_map.mp hr
      exact hone c hc
    rw [← hpl.product_eq, hprod, Nat.mul_one, hstride]
  · have hcnt := hpl.count_eq
    dsimp only
    rw [append_constants_eq_ok_iff.mpr ⟨hone, rfl⟩]
    refine ⟨_, ite_error_eq_ok.mpr ⟨?_, rfl⟩⟩
    rw [length_append, length_map, not_or, not_not, not_not]
    exact ⟨hcnt, hstride⟩

end Remaining

end VariantFactor

end DXBCSandbox
