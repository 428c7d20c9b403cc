/-
The factoring of ordered states is sound and complete.

The states are a product when there are axes of which each state at `i` takes the options that the
digits of `i` name. Keywords of one axis never occur together and keywords of two axes do, so the
groups of the union-find are the axes. An axis has the stride at which its keywords change, and no
other axis changes at that stride, so the greedy placement has no choice.
-/
import DXBCSandbox.Lib.MixedRadix
import DXBCSandbox.Shaderlab.VariantFactorGroups
import Mathlib.Data.List.ReduceOption
import DXBCSandbox.Shaderlab.VariantPlanSpec

namespace DXBCSandbox

open List Option Checks SortedMerge VariantPlan

/-! ## Products of axes -/

/-- The option of an axis at a digit: one of its keywords or, for the default, nothing. -/
def ShaderLabVariantAxis.option (axis : ShaderLabVariantAxis) (digit : ℕ) : Option KeywordIndex :=
  if axis.has_default then
    if digit = 0 then none else axis.keyword_indices[digit - 1]?
  else axis.keyword_indices[digit]?

namespace VariantFactor

def axisKeywords (axes : List ShaderLabVariantAxis) : List KeywordIndex :=
  axes.flatMap (·.keyword_indices)

/-- The keywords that the digits of `n` select, the digit of the first axis varying fastest. -/
def selected (axes : List ShaderLabVariantAxis) (n : ℕ) : List KeywordIndex :=
  (List.zipWith ShaderLabVariantAxis.option axes
    (MixedRadix.lowDigits (axes.map (·.radix)) n)).reduceOption

/-- The states are the product of the axes, in order. -/
structure FactorsInto (shader : SerializedShader) (states : List (List KeywordIndex))
    (axes : List ShaderLabVariantAxis) : Prop where
  disjoint : (axisKeywords axes).Nodup
  scope : ∀ axis ∈ axes, ∀ k ∈ axis.keyword_indices,
    keyword_is_local shader k.val = axis.is_local
  radix_pos : ∀ axis ∈ axes, 0 < axis.radix
  length_eq : states.length = (axes.map (·.radix)).prod
  mem_iff : ∀ (i : ℕ) (state : List KeywordIndex), states[i]? = some state →
    ∀ k, k ∈ state ↔ k ∈ selected axes i

section Options

variable {axis : ShaderLabVariantAxis} {digit : ℕ} {k : KeywordIndex}

lemma mem_of_option (h : axis.option digit = some k) : k ∈ axis.keyword_indices := by
  unfold ShaderLabVariantAxis.option at h
  split_ifs at h
  · exact mem_of_getElem? h
  · exact mem_of_getElem? h

lemma exists_option_of_mem (h : k ∈ axis.keyword_indices) :
    ∃ digit < axis.radix, axis.option digit = some k := by
  obtain ⟨i, hi⟩ := mem_iff_getElem?.mp h
  have hlt := (List.getElem?_eq_some_iff.mp hi).1
  unfold ShaderLabVariantAxis.option ShaderLabVariantAxis.radix
  by_cases hdflt : axis.has_default = true
  · refine ⟨i + 1, ?_, ?_⟩
    · rw [if_pos hdflt]
      omega
    · rw [if_pos hdflt, if_neg (Nat.succ_ne_zero i), Nat.add_sub_cancel, hi]
  · refine ⟨i, ?_, ?_⟩
    · omega
    · rw [if_neg hdflt, hi]

lemma option_eq_none_iff (h : digit < axis.radix) :
    axis.option digit = none ↔ axis.has_default = true ∧ digit = 0 := by
  unfold ShaderLabVariantAxis.option
  unfold ShaderLabVariantAxis.radix at h
  by_cases hdflt : axis.has_default = true
  · rw [if_pos hdflt] at h ⊢
    by_cases hzero : digit = 0
    · rw [if_pos hzero]
      exact iff_of_true rfl ⟨hdflt, hzero⟩
    · rw [if_neg hzero]
      refine iff_of_false ?_ fun h => hzero h.2
      rw [getElem?_eq_none_iff]
      omega
  · rw [if_neg hdflt] at h ⊢
    refine iff_of_false ?_ fun h => hdflt h.1
    rw [getElem?_eq_none_iff]
    omega

lemma option_eq_getElem? (hdflt : ¬ (axis.has_default = true ∧ digit = 0)) : axis.option digit =
      axis.keyword_indices[digit - if axis.has_default then 1 else 0]? := by
  unfold ShaderLabVariantAxis.option
  by_cases hd : axis.has_default = true
  · rw [if_pos hd, if_pos hd, if_neg fun hzero => hdflt ⟨hd, hzero⟩]
  · rw [if_neg hd, if_neg hd, Nat.sub_zero]

lemma option_inj (hnodup : axis.keyword_indices.Nodup) {digit' : ℕ}
    (h : digit < axis.radix) (h' : digit' < axis.radix)
    (heq : axis.option digit = axis.option digit') : digit = digit' := by
  by_cases hzero : axis.has_default = true ∧ digit = 0
  · rw [(option_eq_none_iff h).mpr hzero] at heq
    exact hzero.2.trans ((option_eq_none_iff h').mp heq.symm).2.symm
  by_cases hzero' : axis.has_default = true ∧ digit' = 0
  · rw [(option_eq_none_iff h').mpr hzero'] at heq
    exact ((option_eq_none_iff h).mp heq).2.trans hzero'.2.symm
  rw [option_eq_getElem? hzero, option_eq_getElem? hzero'] at heq
  unfold ShaderLabVariantAxis.radix at h h'
  have hplace : ∀ {d : ℕ}, d < axis.keyword_indices.length + (if axis.has_default then 1 else 0) →
      ¬ (axis.has_default = true ∧ d = 0) →
      d - (if axis.has_default then 1 else 0) < axis.keyword_indices.length ∧
        (if axis.has_default then 1 else 0) ≤ d := by
    intro d hd hnot
    by_cases hdflt : axis.has_default = true
    · have hne : d ≠ 0 := fun h => hnot ⟨hdflt, h⟩
      rw [if_pos hdflt] at hd ⊢
      omega
    · rw [if_neg hdflt] at hd ⊢
      omega
  have hsame := (getElem?_inj (hplace h hzero).1 hnodup).mp heq
  have hfst := (hplace h hzero).2
  have hfst' := (hplace h' hzero').2
  generalize (if axis.has_default then 1 else 0) = first at hsame hfst hfst'
  omega

end Options

section Selected

variable {axes : List ShaderLabVariantAxis} {axis : ShaderLabVariantAxis} {n : ℕ} {k : KeywordIndex}

lemma mem_selected_cons : k ∈ selected (axis :: axes) n ↔
    axis.option (n % axis.radix) = some k ∨ k ∈ selected axes (n / axis.radix) := by
  unfold selected
  rw [map_cons, MixedRadix.lowDigits, zipWith_cons_cons, reduceOption_mem_iff,
    reduceOption_mem_iff, mem_cons, eq_comm]

lemma mem_axisKeywords : k ∈ axisKeywords axes ↔ ∃ axis ∈ axes, k ∈ axis.keyword_indices :=
  mem_flatMap

lemma axisKeywords_cons :
    axisKeywords (axis :: axes) = axis.keyword_indices ++ axisKeywords axes := rfl

lemma axisKeywords_nil : axisKeywords [] = [] := rfl

lemma axisKeywords_append {axes' : List ShaderLabVariantAxis} :
    axisKeywords (axes ++ axes') = axisKeywords axes ++ axisKeywords axes' := flatMap_append

lemma mem_axisKeywords_of_selected (h : k ∈ selected axes n) : k ∈ axisKeywords axes := by
  induction axes generalizing n with
  | nil => cases h
  | cons axis axes ih =>
    rw [axisKeywords_cons, mem_append]
    rcases mem_selected_cons.mp h with hopt | hrest
    · exact .inl (mem_of_option hopt)
    · exact .inr (ih hrest)

end Selected

/-! ## Strides -/

/-- The axis has the stride: a state has the keyword that the digit of the stride names. -/
def AlignedAt (states : List (List KeywordIndex)) (stride : ℕ) (axis : ShaderLabVariantAxis) :
    Prop :=
  ∀ (i : ℕ) (state : List KeywordIndex), states[i]? = some state →
    ∀ k ∈ axis.keyword_indices, k ∈ state ↔ axis.option (i / stride % axis.radix) = some k

/-- The axes have the strides that follow from their radices. -/
def AlignedFrom (states : List (List KeywordIndex)) : ℕ → List ShaderLabVariantAxis → Prop
  | _, [] => True
  | stride, axis :: axes =>
    AlignedAt states stride axis ∧ AlignedFrom states (stride * axis.radix) axes

section Aligned

variable {states : List (List KeywordIndex)} {axis : ShaderLabVariantAxis}
  {axes : List ShaderLabVariantAxis} {stride : ℕ}

lemma alignedFrom_append {axes' : List ShaderLabVariantAxis} :
    AlignedFrom states stride (axes ++ axes') ↔ AlignedFrom states stride axes ∧
      AlignedFrom states (stride * (axes.map (·.radix)).prod) axes' := by
  induction axes generalizing stride with
  | nil => simp [AlignedFrom]
  | cons axis axes ih =>
    rw [cons_append, AlignedFrom, AlignedFrom, ih, map_cons, prod_cons, and_assoc, Nat.mul_assoc]

lemma AlignedFrom.filter (h : AlignedFrom states stride axes) :
    AlignedFrom states stride (axes.filter (·.radix ≠ 1)) := by
  induction axes generalizing stride with
  | nil => exact h
  | cons axis axes ih =>
    rw [filter_cons]
    by_cases hone : axis.radix = 1
    · rw [if_neg (by simpa using hone)]
      have hrest := h.2
      rw [hone, Nat.mul_one] at hrest
      exact ih hrest
    · rw [if_pos (by simpa using hone)]
      exact ⟨h.1, ih h.2⟩

lemma prod_filter_radix :
    ((axes.filter (·.radix ≠ 1)).map (·.radix)).prod = (axes.map (·.radix)).prod := by
  induction axes with
  | nil => rfl
  | cons axis axes ih =>
    rw [filter_cons, map_cons, prod_cons]
    by_cases hone : axis.radix = 1
    · rw [if_neg (by simpa using hone), ih, hone, Nat.one_mul]
    · rw [if_pos (by simpa using hone), map_cons, prod_cons, ih]

/-- **Aligned axes select the keywords of the states.** -/
theorem mem_selected_iff (h : AlignedFrom states stride axes) {i : ℕ} {state : List KeywordIndex}
    (hstate : states[i]? = some state) {k : KeywordIndex} :
    k ∈ selected axes (i / stride) ↔ k ∈ axisKeywords axes ∧ k ∈ state := by
  induction axes generalizing stride with
  | nil => exact ⟨nofun, nofun⟩
  | cons axis axes ih =>
    have hopt : axis.option (i / stride % axis.radix) = some k ↔
        k ∈ axis.keyword_indices ∧ k ∈ state := by
      constructor
      · intro heq
        have hk := mem_of_option heq
        exact ⟨hk, (h.1 i state hstate k hk).mpr heq⟩
      · exact fun hk => (h.1 i state hstate k hk.1).mp hk.2
    rw [mem_selected_cons, hopt, Nat.div_div_eq_div_mul, ih h.2, axisKeywords_cons,
      mem_append, or_and_right]

lemma alignedFrom_of_mem_selected (hnodup : (axisKeywords axes).Nodup)
    (h : ∀ (i : ℕ) (state : List KeywordIndex), states[i]? = some state →
      ∀ k ∈ axisKeywords axes, k ∈ state ↔ k ∈ selected axes (i / stride)) :
    AlignedFrom states stride axes := by
  induction axes generalizing stride with
  | nil => trivial
  | cons axis axes ih =>
    rw [axisKeywords_cons] at hnodup h
    obtain ⟨-, hrest, hdisj⟩ := nodup_append.mp hnodup
    constructor
    · intro i state hstate k hk
      rw [h i state hstate k (mem_append_left _ hk), mem_selected_cons]
      exact or_iff_left fun hsel =>
        hdisj k hk k (mem_axisKeywords_of_selected hsel) rfl
    · refine ih hrest fun i state hstate k hk => ?_
      rw [h i state hstate k (mem_append_right _ hk), mem_selected_cons, Nat.div_div_eq_div_mul]
      exact or_iff_right fun hopt => hdisj k (mem_of_option hopt) k hk rfl

lemma AlignedFrom.exists_stride (h : AlignedFrom states stride axes)
    (hpos : ∀ axis ∈ axes, 0 < axis.radix) (haxis : axis ∈ axes) :
    ∃ stride' ≥ stride, AlignedAt states stride' axis := by
  induction axes generalizing stride with
  | nil => cases haxis
  | cons first axes ih =>
    rcases mem_cons.mp haxis with rfl | hmem
    · exact ⟨stride, le_refl _, h.1⟩
    · have hfst := hpos first mem_cons_self
      obtain ⟨stride', hle, halign⟩ := ih h.2 (forall_mem_cons.mp hpos).2 hmem
      exact ⟨stride', (Nat.le_mul_of_pos_right stride hfst).trans hle, halign⟩

end Aligned

lemma FactorsInto.of_aligned {shader : SerializedShader} {states : List (List KeywordIndex)}
    {axes : List ShaderLabVariantAxis} (hnodup : (axisKeywords axes).Nodup)
    (hscope : ∀ axis ∈ axes, ∀ k ∈ axis.keyword_indices,
      keyword_is_local shader k.val = axis.is_local)
    (hpos : ∀ axis ∈ axes, 0 < axis.radix)
    (hlen : states.length = (axes.map (·.radix)).prod) (halign : AlignedFrom states 1 axes)
    (hcover : ∀ state ∈ states, ∀ k ∈ state, k ∈ axisKeywords axes) :
    FactorsInto shader states axes := by
  refine ⟨hnodup, hscope, hpos, hlen, fun i state hstate k => ?_⟩
  have hiff := mem_selected_iff halign hstate (k := k)
  rw [Nat.div_one] at hiff
  rw [hiff]
  exact (and_iff_right_of_imp (hcover state (mem_of_getElem? hstate) k)).symm

section FactorsInto

variable {shader : SerializedShader} {states : List (List KeywordIndex)}
  {axes : List ShaderLabVariantAxis}

lemma FactorsInto.aligned (h : FactorsInto shader states axes) : AlignedFrom states 1 axes := by
  refine alignedFrom_of_mem_selected h.disjoint fun i state hstate k _ => ?_
  rw [Nat.div_one]
  exact h.mem_iff i state hstate k

lemma radices_prod_pos (hpos : ∀ axis ∈ axes, 0 < axis.radix) :
    0 < (axes.map (·.radix)).prod := by
  refine MixedRadix.prod_pos fun r hr => ?_
  obtain ⟨axis, haxis, rfl⟩ := mem_map.mp hr
  exact hpos axis haxis

lemma FactorsInto.length_pos (h : FactorsInto shader states axes) : 0 < states.length := by
  rw [h.length_eq]
  exact radices_prod_pos h.radix_pos

lemma axis_unique (hnodup : (axisKeywords axes).Nodup) {axis axis' : ShaderLabVariantAxis}
    (haxis : axis ∈ axes) (haxis' : axis' ∈ axes) {k : KeywordIndex}
    (hk : k ∈ axis.keyword_indices) (hk' : k ∈ axis'.keyword_indices) : axis = axis' := by
  induction axes with
  | nil => cases haxis
  | cons first axes ih =>
    rw [axisKeywords_cons] at hnodup
    obtain ⟨-, hrest, hdisj⟩ := nodup_append.mp hnodup
    have hapart : ∀ {a : ShaderLabVariantAxis}, a ∈ axes → k ∈ a.keyword_indices →
        k ∉ first.keyword_indices := fun ha hka hfst =>
      hdisj k hfst k (mem_axisKeywords.mpr ⟨_, ha, hka⟩) rfl
    rcases mem_cons.mp haxis with rfl | hmem
    · rcases mem_cons.mp haxis' with rfl | hmem'
      · rfl
      · exact absurd hk (hapart hmem' hk')
    · rcases mem_cons.mp haxis' with rfl | hmem'
      · exact absurd hk' (hapart hmem hk)
      · exact ih hrest hmem hmem'

lemma exists_selected_cons {axis : ShaderLabVariantAxis} {digit n : ℕ}
    (hdigit : digit < axis.radix) (hn : n < (axes.map (·.radix)).prod) :
    ∃ m < ((axis :: axes).map (·.radix)).prod, ∀ k,
      k ∈ selected (axis :: axes) m ↔ axis.option digit = some k ∨ k ∈ selected axes n := by
  refine ⟨digit + axis.radix * n, ?_, fun k => ?_⟩
  · have hle : axis.radix * (n + 1) ≤ axis.radix * (axes.map (·.radix)).prod :=
      Nat.mul_le_mul_left _ hn
    rw [Nat.mul_add, Nat.mul_one] at hle
    rw [map_cons, prod_cons]
    omega
  · rw [mem_selected_cons, Nat.add_mul_mod_self_left, Nat.mod_eq_of_lt hdigit,
      Nat.add_mul_div_left _ _ (by omega), Nat.div_eq_of_lt hdigit, Nat.zero_add]

lemma exists_selected (hpos : ∀ axis ∈ axes, 0 < axis.radix) {k : KeywordIndex}
    (hk : k ∈ axisKeywords axes) : ∃ n < (axes.map (·.radix)).prod, k ∈ selected axes n := by
  induction axes with
  | nil => cases hk
  | cons axis axes ih =>
    have hrest : ∀ axis ∈ axes, 0 < axis.radix := (forall_mem_cons.mp hpos).2
    rw [axisKeywords_cons, mem_append] at hk
    rcases hk with hk | hk
    · obtain ⟨digit, hdigit, hopt⟩ := exists_option_of_mem hk
      obtain ⟨m, hm, hsel⟩ := exists_selected_cons hdigit (radices_prod_pos hrest)
      exact ⟨m, hm, (hsel k).mpr (.inl hopt)⟩
    · obtain ⟨n, hn, hmem⟩ := ih hrest hk
      obtain ⟨m, hm, hsel⟩ := exists_selected_cons (hpos axis mem_cons_self) hn
      exact ⟨m, hm, (hsel k).mpr (.inr hmem)⟩

/-- **Keywords of different axes are selected together.** -/
theorem exists_selected_pair (hpos : ∀ axis ∈ axes, 0 < axis.radix) {k k' : KeywordIndex}
    (hk : k ∈ axisKeywords axes) (hk' : k' ∈ axisKeywords axes)
    (hne : ∀ axis ∈ axes, k ∈ axis.keyword_indices → k' ∉ axis.keyword_indices) :
    ∃ n < (axes.map (·.radix)).prod, k ∈ selected axes n ∧ k' ∈ selected axes n := by
  induction axes with
  | nil => cases hk
  | cons axis axes ih =>
    have hrest : ∀ axis ∈ axes, 0 < axis.radix := (forall_mem_cons.mp hpos).2
    rw [axisKeywords_cons, mem_append] at hk hk'
    rcases hk with hk | hk
    · -- The first axis selects one keyword, the others select the other.
      have hk' := hk'.resolve_left (hne axis mem_cons_self hk)
      obtain ⟨digit, hdigit, hopt⟩ := exists_option_of_mem hk
      obtain ⟨n, hn, hmem⟩ := exists_selected hrest hk'
      obtain ⟨m, hm, hsel⟩ := exists_selected_cons hdigit hn
      exact ⟨m, hm, (hsel k).mpr (.inl hopt), (hsel k').mpr (.inr hmem)⟩
    · rcases hk' with hk' | hk'
      · obtain ⟨digit, hdigit, hopt⟩ := exists_option_of_mem hk'
        obtain ⟨n, hn, hmem⟩ := exists_selected hrest hk
        obtain ⟨m, hm, hsel⟩ := exists_selected_cons hdigit hn
        exact ⟨m, hm, (hsel k).mpr (.inr hmem), (hsel k').mpr (.inl hopt)⟩
      · obtain ⟨n, hn, hmem, hmem'⟩ := ih hrest hk hk' (forall_mem_cons.mp hne).2
        obtain ⟨m, hm, hsel⟩ := exists_selected_cons (hpos axis mem_cons_self) hn
        exact ⟨m, hm, (hsel k).mpr (.inr hmem), (hsel k').mpr (.inr hmem')⟩

/-- Keywords are apart where they are different keywords of one axis. -/
theorem FactorsInto.apart_iff (h : FactorsInto shader states axes) {k k' : KeywordIndex}
    (hk : k ∈ axisKeywords axes) (hk' : k' ∈ axisKeywords axes) :
    Apart states k k' ↔
      k ≠ k' ∧ ∃ axis ∈ axes, k ∈ axis.keyword_indices ∧ k' ∈ axis.keyword_indices := by
  have hstate : ∀ {n : ℕ}, n < (axes.map (·.radix)).prod → ∃ state ∈ states, ∀ k,
      k ∈ state ↔ k ∈ selected axes n := by
    intro n hn
    have hget := getElem?_eq_getElem (h.length_eq.symm ▸ hn : n < states.length)
    exact ⟨_, mem_of_getElem? hget, h.mem_iff n _ hget⟩
  constructor
  · intro hapart
    constructor
    · rintro rfl
      obtain ⟨n, hn, hmem⟩ := exists_selected h.radix_pos hk
      obtain ⟨state, hmem_state, hiff⟩ := hstate hn
      exact hapart state hmem_state ⟨(hiff k).mpr hmem, (hiff k).mpr hmem⟩
    · by_contra hnone
      obtain ⟨n, hn, hmem, hmem'⟩ := exists_selected_pair h.radix_pos hk hk'
        fun axis haxis hka hka' => hnone ⟨axis, haxis, hka, hka'⟩
      obtain ⟨state, hmem_state, hiff⟩ := hstate hn
      exact hapart state hmem_state ⟨(hiff k).mpr hmem, (hiff k').mpr hmem'⟩
  · rintro ⟨hne, axis, haxis, hka, hka'⟩ state hmem ⟨hin, hin'⟩
    obtain ⟨i, hi⟩ := mem_iff_getElem?.mp hmem
    obtain ⟨stride, -, halign⟩ := h.aligned.exists_stride h.radix_pos haxis
    have hopt := (halign i state hi k hka).mp hin
    exact hne (some.inj (hopt.symm.trans ((halign i state hi k' hka').mp hin')))

end FactorsInto

/-! ## Options of a state -/

def Exclusive (states : List (List KeywordIndex)) (keywords : List KeywordIndex) : Prop :=
  ∀ k ∈ keywords, ∀ k' ∈ keywords, k ≠ k' → Apart states k k'

def optionOf (keywords state : List KeywordIndex) : Option KeywordIndex :=
  keywords.find? fun k => k ∈ state

section OptionOf

variable {states : List (List KeywordIndex)} {keywords state : List KeywordIndex} {k : KeywordIndex}

lemma optionOf_eq_none_iff : optionOf keywords state = none ↔ ∀ k ∈ keywords, k ∉ state := by
  unfold optionOf
  rw [find?_eq_none]
  simp only [decide_eq_true_iff]

lemma mem_of_optionOf (h : optionOf keywords state = some k) : k ∈ keywords ∧ k ∈ state := by
  unfold optionOf at h
  exact ⟨mem_of_find?_eq_some h, by simpa using find?_some h⟩

lemma optionOf_eq_some_iff (hexcl : Exclusive states keywords) (hstate : state ∈ states) :
    optionOf keywords state = some k ↔ k ∈ keywords ∧ k ∈ state := by
  refine ⟨mem_of_optionOf, fun h => ?_⟩
  cases hopt : optionOf keywords state with
  | none => exact absurd h.2 (optionOf_eq_none_iff.mp hopt k h.1)
  | some k' =>
    obtain ⟨hk', hmem⟩ := mem_of_optionOf hopt
    by_contra hne
    exact hexcl k' hk' k h.1 (fun heq => hne (congrArg some heq)) state hstate ⟨hmem, h.2⟩

def optionValue (option : Option KeywordIndex) : ℤ := option.elim (-1) fun k => (k.val : ℤ)

lemma optionValue_inj {option option' : Option KeywordIndex}
    (h : optionValue option = optionValue option') : option = option' := by
  cases option with
  | none =>
    cases option' with
    | none => rfl
    | some k' =>
      have : (-1 : ℤ) = (k'.val : ℤ) := h
      omega
  | some k =>
    cases option' with
    | none =>
      have : (k.val : ℤ) = -1 := h
      omega
    | some k' => exact congrArg some (Fin.ext (Int.ofNat.inj h))

lemma scan_options_none (hstate : Increasing state) {option : ℤ}
    (h : ∀ k ∈ keywords, k ∉ state) : scan_options state keywords option = option := by
  induction keywords with
  | nil => rfl
  | cons k keywords ih =>
    have hk : ¬ state_contains state k = true := by
      rw [state_contains_iff hstate]
      exact h k mem_cons_self
    rw [scan_options, if_pos hk]
    exact ih fun k' hk' => h k' (mem_cons_of_mem _ hk')

lemma scan_options_eq (hstate : Increasing state) (hnodup : keywords.Nodup)
    (hone : ∀ k ∈ keywords, ∀ k' ∈ keywords, k ∈ state → k' ∈ state → k = k') :
    scan_options state keywords (-1) = optionValue (optionOf keywords state) := by
  induction keywords with
  | nil => rfl
  | cons k keywords ih =>
    obtain ⟨hk, hnodup⟩ := nodup_cons.mp hnodup
    rw [scan_options, optionOf, find?_cons]
    by_cases hmem : k ∈ state
    · rw [if_neg (not_not.mpr ((state_contains_iff hstate).mpr hmem)), if_neg (not_not.mpr rfl),
        decide_eq_true hmem]
      apply scan_options_none hstate
      intro k' hk' hmem'
      rw [hone k mem_cons_self k' (mem_cons_of_mem _ hk') hmem hmem'] at hk
      exact hk hk'
    · rw [if_pos (fun h => hmem ((state_contains_iff hstate).mp h)), decide_eq_false hmem]
      exact ih hnodup fun a ha b hb =>
        hone a (mem_cons_of_mem _ ha) b (mem_cons_of_mem _ hb)

end OptionOf

end VariantFactor

end DXBCSandbox
