/-
The placement of the components.

A component has a stride where its options follow the digits of that stride. What is placed at each
round then has the stride of its place, and the components that are left over keep their keywords.
-/
import DXBCSandbox.Shaderlab.VariantFactorSpec

namespace DXBCSandbox

open List Option Checks SortedMerge VariantPlan

namespace VariantFactor

/-! ## Checked components -/

structure Checked (shader : SerializedShader) (states : List (List KeywordIndex))
    (component : FactorComponent) : Prop where
  nodup : component.keywords.Nodup
  ne_nil : component.keywords ≠ []
  exclusive : Exclusive states component.keywords
  default_iff : component.has_default = true ↔
    ∃ state ∈ states, optionOf component.keywords state = none
  scope : ∀ k ∈ component.keywords, keyword_is_local shader k.val = component.is_local

variable {component : FactorComponent} {state : List KeywordIndex}

section Check

variable {shader : SerializedShader} {states : List (List KeywordIndex)} {stage_index : ℤ}
  {keywords : List KeywordIndex}

lemma pairs_never_cooccur_iff (hstates : ∀ state ∈ states, Increasing state)
    (hnodup : keywords.Nodup) :
    pairs_never_cooccur states keywords = true ↔ Exclusive states keywords := by
  induction keywords with
  | nil => exact iff_of_true rfl nofun
  | cons left keywords ih =>
    obtain ⟨hleft, hnodup⟩ := List.nodup_cons.mp hnodup
    rw [pairs_never_cooccur, Bool.and_eq_true, ih hnodup, List.all_eq_true]
    constructor
    · rintro ⟨hall, hrest⟩ k hk k' hk' hne
      have hapart : ∀ k ∈ keywords, Apart states left k := fun k hk =>
        (keywords_never_cooccur_iff hstates).mp (hall k hk)
      rcases mem_cons.mp hk with rfl | hmem
      · exact hapart k' ((mem_cons.mp hk').resolve_left hne.symm)
      · rcases mem_cons.mp hk' with rfl | hmem'
        · exact (hapart k hmem).symm
        · exact hrest k hmem k' hmem' hne
    · intro h
      constructor
      · intro k hk
        refine (keywords_never_cooccur_iff hstates).mpr
          (h left mem_cons_self k (mem_cons_of_mem _ hk) ?_)
        rintro rfl
        exact hleft hk
      · exact fun k hk k' hk' => h k (mem_cons_of_mem _ hk) k' (mem_cons_of_mem _ hk')

lemma scan_options_eq_optionValue (hstates : ∀ state ∈ states, Increasing state)
    (hnodup : keywords.Nodup) (hexcl : Exclusive states keywords) (hstate : state ∈ states) :
    scan_options state keywords (-1) = optionValue (optionOf keywords state) := by
  refine scan_options_eq (hstates state hstate) hnodup fun k hk k' hk' hmem hmem' => ?_
  by_contra hne
  exact hexcl k hk k' hk' hne state hstate ⟨hmem, hmem'⟩

lemma neg_one_le_optionValue (option : Option KeywordIndex) : -1 ≤ optionValue option := by
  cases option with
  | none => exact le_refl (-1)
  | some k =>
    show (-1 : ℤ) ≤ (k.val : ℤ)
    omega

def componentOf (shader : SerializedShader) (states : List (List KeywordIndex))
    (keywords : List KeywordIndex) : FactorComponent :=
  { keywords
    has_default := states.any fun state => (optionOf keywords state).isNone
    is_local := keyword_is_local shader (keywords.getD 0 0).val
    placed := false }

/-- **The checks of a component** ask that its keywords are apart and of one scope. -/
theorem check_component_eq_ok_iff (hstates : ∀ state ∈ states, Increasing state)
    (hnodup : keywords.Nodup) :
    check_component shader states stage_index keywords = .ok component ↔ Exclusive states keywords ∧
      (∀ k ∈ keywords,
        keyword_is_local shader k.val = keyword_is_local shader (keywords.getD 0 0).val) ∧
      component = componentOf shader states keywords := by
  unfold check_component
  rw [ite_error_eq_ok, not_not, pairs_never_cooccur_iff hstates hnodup]
  refine and_congr_right fun hexcl => ?_
  have hopts : states.map (scan_options · keywords (-1)) =
      states.map fun state => optionValue (optionOf keywords state) :=
    map_congr_left fun state hstate =>
      scan_options_eq_optionValue hstates hnodup hexcl hstate
  have htwo : -2 ∉ states.map fun state => optionValue (optionOf keywords state) := by
    intro hmem
    obtain ⟨state, -, heq⟩ := mem_map.mp hmem
    have := neg_one_le_optionValue (optionOf keywords state)
    omega
  have hdflt : decide (-1 ∈ states.map fun state => optionValue (optionOf keywords state)) =
      states.any fun state => (optionOf keywords state).isNone := by
    rw [Bool.eq_iff_iff, decide_eq_true_iff, List.mem_map, List.any_eq_true]
    refine exists_congr fun state => and_congr_right fun _ => ?_
    rw [Option.isNone_iff_eq_none]
    exact ⟨fun h => optionValue_inj h, fun h => congrArg optionValue h⟩
  dsimp only
  rw [hopts, if_neg htwo, hdflt]
  cases hfind : keywords.find? fun keyword =>
      keyword_is_local shader keyword.val ≠ keyword_is_local shader (keywords.getD 0 0).val with
  | none =>
    have hscope : ∀ k ∈ keywords,
        keyword_is_local shader k.val = keyword_is_local shader (keywords.getD 0 0).val := by
      simpa using hfind
    rw [and_iff_right hscope]
    exact ⟨fun h => (Except.ok.inj h).symm, fun h => congrArg Except.ok h.symm⟩
  | some raw =>
    refine iff_of_false (nofun) fun h => ?_
    have hne := List.find?_some hfind
    rw [decide_eq_true_iff] at hne
    exact hne (h.1 raw (mem_of_find?_eq_some hfind))

lemma checked_componentOf (hnodup : keywords.Nodup) (hne : keywords ≠ [])
    (hexcl : Exclusive states keywords)
    (hscope : ∀ k ∈ keywords,
      keyword_is_local shader k.val = keyword_is_local shader (keywords.getD 0 0).val) :
    Checked shader states (componentOf shader states keywords) where
  nodup := hnodup
  ne_nil := hne
  exclusive := hexcl
  default_iff := by simp [componentOf, List.any_eq_true, Option.isNone_iff_eq_none]
  scope := hscope

end Check

/-! ## Matching a stride -/

/-- The axis of a component, with its keywords in the given order. -/
def axisOf (component : FactorComponent) (order : List KeywordIndex) : ShaderLabVariantAxis :=
  ⟨component.has_default, component.is_local, order⟩

variable {i : ℕ}

section Match

variable {shader : SerializedShader} {states : List (List KeywordIndex)}
  {component : FactorComponent} {stride : ℕ} {order : List KeywordIndex}

lemma radix_axisOf (h : order.length = component.keywords.length) :
    (axisOf component order).radix = component.radix := by
  unfold ShaderLabVariantAxis.radix FactorComponent.radix axisOf
  rw [h]

lemma radix_sub_first_option :
    component.radix - first_option component = component.keywords.length := by
  unfold FactorComponent.radix first_option
  exact Nat.add_sub_cancel _ _

lemma keywordIndex_val (k : KeywordIndex) : keywordIndex k.val = k := by
  have hfits : 0 ≤ (k.val : ℤ) ∧ (k.val : ℤ) ≤ 65535 := by omega
  exact Fin.ext (Int.ofNat.inj (val_keywordIndex hfits))

/-- The option of the state at a place; past the end it is the default. -/
def optionAt (component : FactorComponent) (states : List (List KeywordIndex)) (i : ℕ) :
    Option KeywordIndex :=
  optionOf component.keywords (states.getD i [])

variable (hstates : ∀ state ∈ states, Increasing state)

include hstates

variable (h : Checked shader states component)

include h

lemma component_option_at_getD (i : ℕ) :
    component_option_at component (states.getD i []) = optionValue (optionAt component states i) := by
  unfold component_option_at optionAt
  rcases Nat.lt_or_ge i states.length with hlt | hge
  · rw [getD_eq_getElem _ _ hlt]
    exact scan_options_eq_optionValue hstates h.nodup h.exclusive (getElem_mem hlt)
  · rw [getD_eq_default _ _ hge, optionOf_eq_none_iff.mpr fun _ _ => not_mem_nil]
    exact scan_options_none List.Pairwise.nil fun _ _ => not_mem_nil

/-- What is collected are the options at the multiples of the stride. -/
theorem collect_options_eq_some_iff {n option_index : ℕ} {options : List KeywordIndex}
    (hnodup : options.Nodup) :
    collect_options component states stride n option_index options = some order ↔
      order.Nodup ∧ ∃ found, order = options ++ found ∧
        (List.range' option_index n).map (fun j => optionAt component states (j * stride)) =
          found.map some := by
  induction n generalizing option_index options with
  | zero =>
    rw [collect_options, some_inj]
    constructor
    · rintro rfl
      exact ⟨hnodup, [], (append_nil _).symm, rfl⟩
    · rintro ⟨-, found, rfl, hfound⟩
      rw [map_eq_nil_iff.mp hfound.symm, append_nil]
  | succ n ih =>
    rw [collect_options, component_option_at_getD hstates h, range'_succ, map_cons]
    cases hopt : optionAt component states (option_index * stride) with
    | none =>
      rw [if_pos (by decide)]
      refine iff_of_false (nofun) ?_
      rintro ⟨-, found, -, hfound⟩
      cases found with
      | nil => nomatch hfound
      | cons k found => nomatch (cons.inj hfound).1
    | some k =>
      have hpos : ¬ optionValue (some k) < 0 := not_lt.mpr (Int.natCast_nonneg _)
      have hval : keywordIndex (optionValue (some k)) = k := keywordIndex_val k
      rw [if_neg hpos, hval]
      by_cases hmem : k ∈ options
      · rw [if_pos hmem]
        refine iff_of_false (nofun) ?_
        rintro ⟨horder, found, rfl, hfound⟩
        cases found with
        | nil => nomatch hfound
        | cons k' found =>
          obtain rfl := some.inj (cons.inj hfound).1
          exact (nodup_append.mp horder).2.2 k hmem k mem_cons_self rfl
      · have hnodup' : (options ++ [k]).Nodup :=
          nodup_append.mpr ⟨hnodup, nodup_singleton k, by
            intro a ha b hb heq
            rw [mem_singleton.mp hb] at heq
            exact hmem (heq ▸ ha)⟩
        rw [if_neg hmem, ih hnodup']
        refine and_congr_right fun _ => ?_
        constructor
        · rintro ⟨found, rfl, hfound⟩
          exact ⟨k :: found, append_assoc _ _ _, by rw [hfound]; rfl⟩
        · rintro ⟨found, rfl, hfound⟩
          cases found with
          | nil => nomatch hfound
          | cons k' found =>
            obtain ⟨hk, hrest⟩ := cons.inj hfound
            obtain rfl := some.inj hk
            exact ⟨found, (append_assoc options [k] found).symm, hrest⟩

omit h in
omit hstates in
lemma expected_option_eq (hlen : order.length = component.keywords.length)
    (hpos : 0 < component.radix) (i : ℕ) :
    expected_option component order stride i =
      optionValue ((axisOf component order).option (i / stride % component.radix)) := by
  have hlt : i / stride % component.radix < component.radix := Nat.mod_lt _ hpos
  unfold expected_option
  generalize i / stride % component.radix = digit at hlt ⊢
  dsimp only
  by_cases hdflt : component.has_default = true ∧ digit = 0
  · rw [if_pos hdflt, (option_eq_none_iff (radix_axisOf hlen ▸ hlt)).mpr hdflt]
    rfl
  · have hplace : digit - first_option component < order.length := by
      unfold FactorComponent.radix at hlt
      unfold first_option
      by_cases hd : component.has_default = true
      · have hne : digit ≠ 0 := fun hzero => hdflt ⟨hd, hzero⟩
        rw [if_pos hd] at hlt ⊢
        omega
      · rw [if_neg hd] at hlt ⊢
        omega
    have hopt : (axisOf component order).option digit =
        order[digit - first_option component]? := option_eq_getElem? hdflt
    rw [if_neg hdflt, hopt, getElem?_eq_getElem hplace, getD_eq_getElem _ _ hplace]
    rfl

/-- **A component has a stride** where an order of its keywords gives the options of the states. -/
theorem component_matches_stride_eq_some_iff (hstride : 0 < stride) :
    component_matches_stride component states stride = some order ↔
      1 < component.radix ∧ component.radix * stride ≤ states.length ∧ order.Nodup ∧
      order.length = component.keywords.length ∧
      ∀ i < states.length, optionAt component states i =
        (axisOf component order).option (i / stride % component.radix) := by
  unfold component_matches_stride
  dsimp only
  by_cases hbnds : component.radix ≤ 1 ∨ states.length < stride ∨
      states.length / stride < component.radix
  · rw [if_pos hbnds]
    refine iff_of_false (nofun) ?_
    rintro ⟨hradix, hle, -⟩
    have hdiv := (Nat.le_div_iff_mul_le hstride).mpr hle
    have hone : 1 * stride ≤ component.radix * stride := Nat.mul_le_mul_right _ hradix.le
    omega
  rw [if_neg hbnds]
  obtain ⟨hradix, -, hdiv⟩ : 1 < component.radix ∧ stride ≤ states.length ∧
      component.radix ≤ states.length / stride := by omega
  have hle := (Nat.le_div_iff_mul_le hstride).mp hdiv
  have hlength_pos : 0 < states.length := by
    have : 1 * 1 ≤ component.radix * stride := Nat.mul_le_mul hradix.le hstride
    omega
  rw [component_option_at_getD hstates h]
  by_cases hdflt : component.has_default = true ∧ optionValue (optionAt component states 0) ≠ -1
  · rw [if_pos hdflt]
    refine iff_of_false (nofun) ?_
    rintro ⟨-, -, -, hlen, hopts⟩
    refine hdflt.2 ?_
    rw [hopts 0 hlength_pos, Nat.zero_div, Nat.zero_mod,
      (option_eq_none_iff (by rw [radix_axisOf hlen]; omega)).mpr ⟨hdflt.1, rfl⟩]
    rfl
  rw [if_neg hdflt, radix_sub_first_option]
  have hcoll := fun order' => @collect_options_eq_some_iff shader states component stride order'
    hstates h component.keywords.length (first_option component) [] nodup_nil
  simp only [nil_append, exists_eq_left'] at hcoll
  -- The options of the multiples are the keywords of the axis.
  have hmultiples : ∀ order' : List KeywordIndex,
      (∀ i < states.length, optionAt component states i =
        (axisOf component order').option (i / stride % component.radix)) →
      order'.length = component.keywords.length →
      (List.range' (first_option component) component.keywords.length).map
        (fun j => optionAt component states (j * stride)) = order'.map some := by
    intro order' hopts hlen
    have hradix_eq : component.radix = component.keywords.length + first_option component := rfl
    apply ext_getElem
    · rw [length_map, length_map, length_range', hlen]
    · intro i hi hi'
      rw [length_map] at hi'
      rw [getElem_map, getElem_map, getElem_range', Nat.one_mul]
      have hdigit : first_option component + i < component.radix := by omega
      have hplace : (first_option component + i) * stride < states.length :=
        (Nat.mul_lt_mul_of_pos_right hdigit hstride).trans_le hle
      have hnot : ¬ ((axisOf component order').has_default = true ∧
          first_option component + i = 0) := by
        rintro ⟨hd, hzero⟩
        have hone : first_option component = 1 := if_pos hd
        omega
      have hopt : (axisOf component order').option (first_option component + i) =
          order'[first_option component + i - first_option component]? := option_eq_getElem? hnot
      rw [hopts _ hplace, Nat.mul_div_cancel _ hstride, Nat.mod_eq_of_lt hdigit, hopt,
        Nat.add_sub_cancel_left, List.getElem?_eq_getElem hi']
  have hall : ∀ order' : List KeywordIndex, order'.length = component.keywords.length →
      (((List.range states.length).all fun i =>
          component_option_at component (states.getD i []) =
            expected_option component order' stride i) = true ↔
        ∀ i < states.length, optionAt component states i =
          (axisOf component order').option (i / stride % component.radix)) := by
    intro order' hlen
    rw [List.all_eq_true]
    simp only [List.mem_range, decide_eq_true_iff]
    refine forall₂_congr fun i _ => ?_
    rw [component_option_at_getD hstates h, expected_option_eq hlen (by omega)]
    exact ⟨optionValue_inj, congrArg optionValue⟩
  cases hfound : collect_options component states stride component.keywords.length
      (first_option component) [] with
  | none =>
    refine iff_of_false (nofun) ?_
    rintro ⟨-, -, hnodup, hlen, hopts⟩
    rw [(hcoll order).mpr ⟨hnodup, hmultiples order hopts hlen⟩] at hfound
    nomatch hfound
  | some options =>
    obtain ⟨hnodup, hmap⟩ := (hcoll options).mp hfound
    have hlen : options.length = component.keywords.length := by
      have hlens := congrArg List.length hmap
      rw [length_map, length_map, length_range'] at hlens
      exact hlens.symm
    dsimp only
    rw [ite_none_right_eq_some, hall options hlen]
    constructor
    · rintro ⟨hopts, heq⟩
      obtain rfl := some.inj heq
      exact ⟨hradix, hle, hnodup, hlen, hopts⟩
    · rintro ⟨-, -, hnodup', hlen', hopts⟩
      have hsame := (hcoll order).mpr ⟨hnodup', hmultiples order hopts hlen'⟩
      obtain rfl := some.inj (hfound.symm.trans hsame)
      exact ⟨hopts, rfl⟩

lemma aligned_of_matches (hstride : 0 < stride)
    (hmatch : component_matches_stride component states stride = some order) :
    1 < component.radix ∧ order.Perm component.keywords ∧
      AlignedAt states stride (axisOf component order) := by
  obtain ⟨hradix, hle, hnodup, hlen, hopts⟩ :=
    (component_matches_stride_eq_some_iff hstates h hstride).mp hmatch
  have hget : ∀ {i : ℕ} {state : List KeywordIndex}, states[i]? = some state →
      optionOf component.keywords state =
        (axisOf component order).option (i / stride % component.radix) := by
    intro i state hstate
    rw [← hopts i (List.getElem?_eq_some_iff.mp hstate).1, optionAt, getD_eq_getElem?_getD, hstate]
    rfl
  have hsubset : ∀ k ∈ order, k ∈ component.keywords := by
    intro k hk
    obtain ⟨digit, hdigit, hopt⟩ := @exists_option_of_mem (axisOf component order) k hk
    rw [radix_axisOf hlen] at hdigit
    -- The digit is read at its multiple of the stride.
    have hplace : digit * stride < states.length :=
      (Nat.mul_lt_mul_of_pos_right hdigit hstride).trans_le hle
    have hsome := hget (List.getElem?_eq_getElem hplace)
    rw [Nat.mul_div_cancel _ hstride, Nat.mod_eq_of_lt hdigit, hopt] at hsome
    exact (mem_of_optionOf hsome).1
  have hperm : order.Perm component.keywords :=
    (subperm_of_subset hnodup hsubset).perm_of_length_le hlen.ge
  refine ⟨hradix, hperm, fun i state hstate k hk => ?_⟩
  rw [radix_axisOf hlen, ← hget hstate, optionOf_eq_some_iff h.exclusive (mem_of_getElem? hstate)]
  exact (and_iff_right (hperm.mem_iff.mp hk)).symm

omit h

omit hstates

/-! ## Components of axes -/

structure IsAxis (component : FactorComponent) (axis : ShaderLabVariantAxis) : Prop where
  perm : axis.keyword_indices.Perm component.keywords
  has_default : axis.has_default = component.has_default

variable {axis : ShaderLabVariantAxis}

lemma IsAxis.radix_eq (h : IsAxis component axis) : axis.radix = component.radix := by
  unfold ShaderLabVariantAxis.radix FactorComponent.radix
  rw [h.perm.length_eq, h.has_default]

/-- The options of the states are those of the axis, in any order of its keywords. -/
theorem AlignedAt.optionOf_eq (halign : AlignedAt states stride axis) {keywords : List KeywordIndex}
    (hexcl : Exclusive states keywords) (hperm : axis.keyword_indices.Perm keywords)
    (hstate : states[i]? = some state) :
    optionOf keywords state = axis.option (i / stride % axis.radix) := by
  ext k
  rw [optionOf_eq_some_iff hexcl (mem_of_getElem? hstate)]
  constructor
  · rintro ⟨hk, hmem⟩
    exact (halign i state hstate k (hperm.mem_iff.mpr hk)).mp hmem
  · intro hopt
    have hk := mem_of_option hopt
    exact ⟨hperm.mem_iff.mp hk, (halign i state hstate k hk).mpr hopt⟩

lemma IsAxis.optionAt_eq (haxis : IsAxis component axis) (h : Checked shader states component)
    (halign : AlignedAt states stride axis) (hi : i < states.length) :
    optionAt component states i = axis.option (i / stride % axis.radix) := by
  rw [optionAt, getD_eq_getElem _ _ hi]
  exact halign.optionOf_eq h.exclusive haxis.perm (getElem?_eq_getElem hi)

lemma IsAxis.matches (haxis : IsAxis component axis)
    (hstates : ∀ state ∈ states, Increasing state) (h : Checked shader states component)
    (hstride : 0 < stride) (halign : AlignedAt states stride axis) (hradix : 1 < axis.radix)
    (hle : axis.radix * stride ≤ states.length) :
    component_matches_stride component states stride = some axis.keyword_indices := by
  rw [component_matches_stride_eq_some_iff hstates h hstride, ← haxis.radix_eq]
  refine ⟨hradix, hle, haxis.perm.nodup_iff.mpr h.nodup, haxis.perm.length_eq, fun i hi => ?_⟩
  rw [haxis.optionAt_eq h halign hi]
  unfold ShaderLabVariantAxis.option axisOf
  rw [haxis.has_default]

/-- **A stride has one axis**: the component of an axis with a greater stride does not match,
since its option is the same at the place of the stride as at the start. -/
theorem IsAxis.not_matches (haxis : IsAxis component axis)
    (hstates : ∀ state ∈ states, Increasing state) (h : Checked shader states component)
    (hstride : 0 < stride) {stride' : ℕ} (halign : AlignedAt states stride' axis)
    (hlt : stride < stride') :
    component_matches_stride component states stride = none := by
  by_contra hne
  obtain ⟨order, hmatch⟩ := ne_none_iff_exists'.mp hne
  obtain ⟨hradix, hle, hnodup, hlen, hopts⟩ :=
    (component_matches_stride_eq_some_iff hstates h hstride).mp hmatch
  have hplace : stride < states.length := by
    have : 2 * stride ≤ component.radix * stride := Nat.mul_le_mul_right _ hradix
    omega
  have hsame : optionAt component states 0 = optionAt component states stride := by
    rw [haxis.optionAt_eq h halign (by omega), haxis.optionAt_eq h halign hplace,
      Nat.zero_div, Nat.div_eq_of_lt hlt]
  rw [hopts 0 (by omega), hopts stride hplace, Nat.zero_div, Nat.zero_mod,
    Nat.div_self hstride, Nat.mod_eq_of_lt hradix] at hsame
  have hdigits := @option_inj (axisOf component order) 0 hnodup 1
    (by rw [radix_axisOf hlen]; omega) (by rw [radix_axisOf hlen]; exact hradix) hsame
  exact Nat.zero_ne_one hdigits

end Match

/-! ## Selection -/

def unplaced (components : List FactorComponent) : List FactorComponent :=
  components.filter fun component => !component.placed

variable {components : List FactorComponent}

lemma mem_unplaced :
    component ∈ unplaced components ↔ component ∈ components ∧ component.placed = false := by
  unfold unplaced
  rw [mem_filter, Bool.not_eq_true']

lemma unplaced_set (hget : components[i]? = some component) (hpl : component.placed = false) :
    (unplaced components).Perm
      (component :: unplaced (components.set i { component with placed := true })) := by
  induction components generalizing i with
  | nil => nomatch hget
  | cons first components ih =>
    unfold unplaced at ih ⊢
    cases i with
    | zero =>
      obtain rfl := some.inj hget
      rw [set_cons_zero, filter_cons_of_pos (by simpa using hpl), filter_cons_of_neg (by simp)]
    | succ i =>
      have hrest := ih (i := i) hget
      rw [set_cons_succ, filter_cons, filter_cons]
      by_cases hfst : (!first.placed) = true
      · rw [if_pos hfst, if_pos hfst]
        exact (hrest.cons first).trans (List.Perm.swap _ _ _)
      · rw [if_neg hfst, if_neg hfst]
        exact hrest

section Select

variable {states : List (List KeywordIndex)} {stride : ℕ}
  {selected : Option (ℕ × FactorComponent × List KeywordIndex)}

lemma select_component_eq_some {j : ℕ} {order : List KeywordIndex}
    (h : select_component states stride i components selected = some (j, component, order)) :
    selected = some (j, component, order) ∨
      i ≤ j ∧ components[j - i]? = some component ∧ component.placed = false ∧
        component_matches_stride component states stride = some order := by
  induction components generalizing i selected with
  | nil => exact .inl h
  | cons first components ih =>
    have hskip : ∀ {selected' : Option (ℕ × FactorComponent × List KeywordIndex)},
        select_component states stride (i + 1) components selected' = some (j, component, order) →
        selected' = some (j, component, order) ∨
          i ≤ j ∧ (first :: components)[j - i]? = some component ∧ component.placed = false ∧
            component_matches_stride component states stride = some order := by
      intro selected' h'
      rcases ih h' with heq | ⟨hle, hget, hrest⟩
      · exact .inl heq
      · refine .inr ⟨by omega, ?_, hrest⟩
        rw [show j - i = j - (i + 1) + 1 by omega, getElem?_cons_succ, hget]
    rw [select_component] at h
    by_cases hpl : first.placed = true ∨ first.radix ≤ 1
    · rw [if_pos hpl] at h
      exact hskip h
    rw [if_neg hpl] at h
    cases hmatch : component_matches_stride first states stride with
    | none =>
      rw [hmatch] at h
      exact hskip h
    | some order' =>
      rw [hmatch] at h
      dsimp only at h
      split at h
      · rcases hskip h with heq | hfound
        · obtain ⟨rfl, hpair⟩ := Prod.mk.inj (some.inj heq)
          obtain ⟨rfl, rfl⟩ := Prod.mk.inj hpair
          refine .inr ⟨le_refl _, ?_, ?_, hmatch⟩
          · rw [Nat.sub_self]
            rfl
          · exact Bool.eq_false_iff.mpr fun h => hpl (.inl h)
        · exact .inr hfound
      · exact hskip h

lemma select_component_eq_none (h : select_component states stride i components selected = none) :
    selected = none ∧ ∀ component ∈ unplaced components,
      component_matches_stride component states stride = none := by
  induction components generalizing i selected with
  | nil => exact ⟨h, nofun⟩
  | cons first components ih =>
    have hskip : select_component states stride (i + 1) components selected = none →
        (first.placed = false → component_matches_stride first states stride = none) →
        selected = none ∧ ∀ component ∈ unplaced (first :: components),
          component_matches_stride component states stride = none := by
      intro h' hfst
      obtain ⟨hnone, hall⟩ := ih h'
      refine ⟨hnone, fun component hc => ?_⟩
      obtain ⟨hmem, hpl⟩ := mem_unplaced.mp hc
      rcases mem_cons.mp hmem with rfl | hmem
      · exact hfst hpl
      · exact hall component (mem_unplaced.mpr ⟨hmem, hpl⟩)
    rw [select_component] at h
    by_cases hpl : first.placed = true ∨ first.radix ≤ 1
    · rw [if_pos hpl] at h
      refine hskip h fun hfalse => ?_
      rw [hfalse] at hpl
      exact if_pos (.inl (hpl.resolve_left Bool.false_ne_true))
    rw [if_neg hpl] at h
    cases hmatch : component_matches_stride first states stride with
    | none =>
      rw [hmatch] at h
      exact hskip h fun _ => hmatch
    | some order' =>
      rw [hmatch] at h
      dsimp only at h
      split at h
      · nomatch (ih h).1
      · rename_i hall
        obtain ⟨hnone, -⟩ := ih h
        rw [hnone] at hall
        exact absurd rfl hall

end Select

end VariantFactor

end DXBCSandbox
