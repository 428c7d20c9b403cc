/-
What is visited is what is emitted.

Axes of a coherent plan that share a name are the same axis for the pragmas, and they lie on the
same side of the built-in pragma. An axis that every stage has therefore has one partner in each
stage, so that to write it once, in the order of the first stage, neither drops nor repeats it.
-/
import DXBCSandbox.Shaderlab.EmittedAxes
import Mathlib.Data.List.ReduceOption

namespace DXBCSandbox

open List Option Preprocessor VariantPlan

namespace EmittedAxes

/-! ## What a directive says -/

structure AxisForm where
  has_default : Bool
  is_local : Bool
  names : List CString

def keywordNames (plan : ShaderLabVariantPlan) (axis : ShaderLabVariantAxis) : List CString :=
  ((List.range axis.keyword_indices.length).map (emitted_axis_keyword_name plan axis)).reduceOption

def axisForm (plan : ShaderLabVariantPlan) (axis : ShaderLabVariantAxis) : AxisForm :=
  ⟨axis.has_default, axis.is_local, keywordNames plan axis⟩

/-- The options of a directive: the default enables nothing, the others one keyword each. -/
def AxisForm.options (form : AxisForm) : Set (Set CString) :=
  {enabled | form.has_default = true ∧ enabled = ∅ ∨ ∃ name ∈ form.names, enabled = {name}}

/-- The keyword assignments of directives: an option of each. -/
def assignments : List AxisForm → Set (Set CString)
  | [] => {∅}
  | form :: forms =>
    {enabled | ∃ option ∈ form.options, ∃ rest ∈ assignments forms, enabled = option ∪ rest}

lemma assignments_perm {forms forms' : List AxisForm} (h : forms.Perm forms') :
    assignments forms = assignments forms' := by
  induction h with
  | nil => rfl
  | cons form _ ih => rw [assignments, assignments, ih]
  | swap form form' forms =>
    ext enabled
    simp only [assignments, Set.mem_ofPred_eq]
    constructor
    · rintro ⟨a, ha, _, ⟨b, hb, rest, hrest, rfl⟩, rfl⟩
      exact ⟨b, hb, _, ⟨a, ha, rest, hrest, rfl⟩, Set.union_left_comm a b rest⟩
    · rintro ⟨a, ha, _, ⟨b, hb, rest, hrest, rfl⟩, rfl⟩
      exact ⟨b, hb, _, ⟨a, ha, rest, hrest, rfl⟩, Set.union_left_comm a b rest⟩
  | trans _ _ ih ih' => exact ih.trans ih'

/-! ## Names -/

variable {i : ℕ}

section Names

variable {plan : ShaderLabVariantPlan} {axis left right : ShaderLabVariantAxis}

lemma isSome_of_identifier {keyword : Option CString}
    (h : keyword_is_identifier keyword = true) : keyword.isSome = true := by
  cases keyword with
  | none => cases h
  | some keyword => rfl

variable (h : emitted_axis_is_valid plan axis = true)

include h

lemma keyword_valid_of_valid (hi : i < axis.keyword_indices.length) :
    emitted_keyword_is_valid plan axis i = true := by
  unfold emitted_axis_is_valid at h
  split_ifs at h
  exact all_eq_true.mp h i (mem_range.mpr hi)

lemma keyword_indices_ne_nil : 0 < axis.keyword_indices.length := by
  unfold emitted_axis_is_valid at h
  split_ifs at h with hzero
  exact Nat.pos_of_ne_zero hzero

lemma exists_name (hi : i < axis.keyword_indices.length) :
    ∃ name, emitted_axis_keyword_name plan axis i = some name := by
  have hvalid := keyword_valid_of_valid h hi
  rw [emitted_keyword_is_valid, Bool.and_eq_true] at hvalid
  exact isSome_iff_exists.mp (isSome_of_identifier hvalid.1)

lemma keywordNames_map_some : (keywordNames plan axis).map some =
      (List.range axis.keyword_indices.length).map (emitted_axis_keyword_name plan axis) := by
  unfold keywordNames
  generalize hnames : (range axis.keyword_indices.length).map
    (emitted_axis_keyword_name plan axis) = names
  have hsome : ∀ name ∈ names, name.isSome = true := by
    rw [← hnames]
    intro name hname
    obtain ⟨i, hi, rfl⟩ := mem_map.mp hname
    obtain ⟨name, hname⟩ := exists_name h (mem_range.mp hi)
    rw [hname]
    rfl
  clear hnames
  induction names with
  | nil => rfl
  | cons name names ih =>
    obtain ⟨hname, hnames⟩ := forall_mem_cons.mp hsome
    obtain ⟨name, rfl⟩ := isSome_iff_exists.mp hname
    rw [reduceOption_cons_of_some, map_cons, ih hnames]

lemma getElem?_keywordNames (hi : i < axis.keyword_indices.length) :
    (keywordNames plan axis)[i]? = emitted_axis_keyword_name plan axis i := by
  have hget := congrArg (·[i]?) (keywordNames_map_some h)
  simp only [getElem?_map, getElem?_range hi, Option.map_some] at hget
  obtain ⟨name, hname⟩ := exists_name h hi
  rw [hname] at hget ⊢
  cases hnames : (keywordNames plan axis)[i]? with
  | none =>
    rw [hnames] at hget
    nomatch hget
  | some name' =>
    rw [hnames] at hget
    exact some.inj hget

lemma length_keywordNames : (keywordNames plan axis).length = axis.keyword_indices.length := by
  have hlen := congrArg length (keywordNames_map_some h)
  rwa [length_map, length_map, length_range] at hlen

lemma mem_keywordNames {name : CString} :
    name ∈ keywordNames plan axis ↔ ∃ i < axis.keyword_indices.length,
      emitted_axis_keyword_name plan axis i = some name := by
  rw [mem_iff_getElem?]
  constructor
  · rintro ⟨i, hi⟩
    have hlt := (List.getElem?_eq_some_iff.mp hi).1
    rw [length_keywordNames h] at hlt
    exact ⟨i, hlt, by rw [← getElem?_keywordNames h hlt, hi]⟩
  · rintro ⟨i, hlt, hi⟩
    exact ⟨i, by rw [getElem?_keywordNames h hlt, hi]⟩

omit h

variable (hleft : emitted_axis_is_valid plan left = true)
  (hright : emitted_axis_is_valid plan right = true)

include hleft hright

lemma emitted_axis_equal_iff :
    emitted_axis_equal plan left right = true ↔ axisForm plan left = axisForm plan right := by
  unfold emitted_axis_equal axisForm
  have hllen := length_keywordNames hleft
  have hrlen := length_keywordNames hright
  by_cases hdflt : left.has_default = right.has_default
  · by_cases hlocal : left.is_local = right.is_local
    · by_cases hlen : left.keyword_indices.length = right.keyword_indices.length
      · rw [if_neg (by simp [hleft, hright, hdflt, hlocal, hlen]), List.all_eq_true,
          hdflt, hlocal, AxisForm.mk.injEq]
        simp only [true_and, List.mem_range, decide_eq_true_iff]
        constructor
        · intro h
          apply ext_getElem?
          intro i
          rcases Nat.lt_or_ge i left.keyword_indices.length with hi | hi
          · rw [getElem?_keywordNames hleft hi, getElem?_keywordNames hright (hlen ▸ hi), h i hi]
          · rw [List.getElem?_eq_none (by omega), List.getElem?_eq_none (by omega)]
        · intro h i hi
          rw [← getElem?_keywordNames hleft hi, ← getElem?_keywordNames hright (hlen ▸ hi), h]
      · rw [if_pos (by simp [hlen])]
        refine iff_of_false Bool.false_ne_true fun h => hlen ?_
        rw [← hllen, ← hrlen, (AxisForm.mk.inj h).2.2]
    · rw [if_pos (by simp [hlocal])]
      exact iff_of_false Bool.false_ne_true fun h => hlocal (AxisForm.mk.inj h).2.1
  · rw [if_pos (by simp [hdflt])]
    exact iff_of_false Bool.false_ne_true fun h => hdflt (AxisForm.mk.inj h).1

lemma emitted_axes_overlap_iff :
    emitted_axes_overlap plan left right = true ↔
      ∃ name ∈ keywordNames plan left, name ∈ keywordNames plan right := by
  unfold emitted_axes_overlap
  rw [if_neg (by simp [hleft, hright]), List.any_eq_true]
  simp only [List.mem_range, List.any_eq_true, decide_eq_true_iff]
  constructor
  · rintro ⟨i, hi, j, hj, heq⟩
    obtain ⟨name, hname⟩ := exists_name hleft hi
    exact ⟨name, (mem_keywordNames hleft).mpr ⟨i, hi, hname⟩,
      (mem_keywordNames hright).mpr ⟨j, hj, heq ▸ hname⟩⟩
  · rintro ⟨name, hl, hr⟩
    obtain ⟨i, hi, hl⟩ := (mem_keywordNames hleft).mp hl
    obtain ⟨j, hj, hr⟩ := (mem_keywordNames hright).mp hr
    exact ⟨i, hi, j, hj, hl.trans hr.symm⟩

lemma overlap_of_form_eq (h : axisForm plan left = axisForm plan right) :
    emitted_axes_overlap plan left right = true := by
  rw [emitted_axes_overlap_iff hleft hright]
  obtain ⟨name, hname⟩ := exists_name hleft (keyword_indices_ne_nil hleft)
  have hmem := (mem_keywordNames hleft).mpr ⟨0, keyword_indices_ne_nil hleft, hname⟩
  exact ⟨name, hmem, (AxisForm.mk.inj h).2.2 ▸ hmem⟩

end Names

/-! ## Coherence -/

/-- The plans of all stages can be emitted together. -/
structure Coherent (plan : ShaderLabVariantPlan) : Prop where
  valid : ∀ stage ∈ plan.stages, stage.active = true → ∀ axis ∈ stage.axes,
    emitted_axis_is_valid plan axis = true
  position : ∀ stage ∈ plan.stages, stage.active = true →
    stage.builtin_axis_position ≤ stage.axes.length
  apart : ∀ stage ∈ plan.stages, stage.active = true →
    stage.axes.Pairwise fun a b => emitted_axes_overlap plan a b = false
  matched : ∀ s ∈ plan.stages, s.active = true → ∀ t ∈ plan.stages, t.active = true →
    ∀ (i j : ℕ) (a b : ShaderLabVariantAxis), s.axes[i]? = some a → t.axes[j]? = some b →
      emitted_axes_overlap plan a b = true → axisForm plan a = axisForm plan b ∧
        (plan.has_builtin = true → (i < s.builtin_axis_position ↔ j < t.builtin_axis_position))

variable {axes : List ShaderLabVariantAxis} {b : ShaderLabVariantAxis}

section Coherence

variable {plan : ShaderLabVariantPlan} {axis : ShaderLabVariantAxis}

lemma stage_axes_are_valid_iff : stage_axes_are_valid plan axes = true ↔
      (∀ axis ∈ axes, emitted_axis_is_valid plan axis = true) ∧
        axes.Pairwise fun a b => emitted_axes_overlap plan a b = false := by
  induction axes with
  | nil => simp [stage_axes_are_valid]
  | cons axis axes ih =>
    rw [stage_axes_are_valid, Bool.and_eq_true, Bool.and_eq_true, ih, List.forall_mem_cons,
      List.pairwise_cons, Bool.not_eq_true', List.any_eq_false]
    simp only [Bool.not_eq_true]
    exact ⟨fun ⟨⟨h₁, h₂⟩, h₃, h₄⟩ => ⟨⟨h₁, h₃⟩, h₂, h₄⟩,
      fun ⟨⟨h₁, h₃⟩, h₂, h₄⟩ => ⟨⟨h₁, h₂⟩, h₃, h₄⟩⟩

variable {before_builtin : Bool}

/-- Where the loop over another stage goes through, what overlaps is equal and on the same side. -/
theorem count_exact_matches_eq_some {position n count : ℕ}
    (h : count_exact_matches plan axis before_builtin position n axes = some count) {j : ℕ}
    (hb : axes[j]? = some b) (hover : emitted_axes_overlap plan axis b = true) :
    emitted_axis_equal plan axis b = true ∧
      (plan.has_builtin = true → before_builtin = decide (n + j < position)) := by
  induction axes generalizing n j count with
  | nil => nomatch hb
  | cons other axes ih =>
    have hlater : ∀ {count' : ℕ} {j' : ℕ}, axes[j']? = some b →
        count_exact_matches plan axis before_builtin position (n + 1) axes = some count' →
        emitted_axis_equal plan axis b = true ∧
          (plan.has_builtin = true → before_builtin = decide (n + (j' + 1) < position)) := by
      intro count' j' hb' h'
      rw [show n + (j' + 1) = n + 1 + j' by omega]
      exact ih h' hb'
    rw [count_exact_matches] at h
    by_cases hother : emitted_axes_overlap plan axis other = true
    · rw [if_neg (not_not.mpr hother)] at h
      by_cases hequal : emitted_axis_equal plan axis other = true
      · rw [if_neg (not_not.mpr hequal)] at h
        by_cases hside : plan.has_builtin = true ∧ before_builtin ≠ decide (n < position)
        · rw [if_pos hside] at h
          nomatch h
        · rw [if_neg hside] at h
          cases j with
          | zero =>
            obtain rfl := some.inj hb
            refine ⟨hequal, fun hbuilt => ?_⟩
            by_contra hne
            exact hside ⟨hbuilt, hne⟩
          | succ j =>
            obtain ⟨count', hcnt, -⟩ := bind_eq_some_iff.mp h
            exact hlater hb hcnt
      · rw [if_pos hequal] at h
        nomatch h
    · rw [if_pos hother] at h
      cases j with
      | zero =>
        obtain rfl := some.inj hb
        exact absurd hover hother
      | succ j => exact hlater hb h

lemma count_matching_stages_eq_some {count : ℕ} {stages : List ShaderLabPassStageVariantPlan}
    (h : count_matching_stages plan axis before_builtin stages = some count)
    {t : ShaderLabPassStageVariantPlan} (ht : t ∈ stages) (hactive : t.active = true) :
    ∃ count', count_exact_matches plan axis before_builtin t.builtin_axis_position 0 t.axes =
      some count' := by
  induction stages generalizing count with
  | nil => cases ht
  | cons stage stages ih =>
    rw [count_matching_stages] at h
    by_cases hstage : stage.active = true
    · rw [if_neg (not_not.mpr hstage)] at h
      obtain ⟨count', hcnt, h⟩ := bind_eq_some_iff.mp h
      rcases mem_cons.mp ht with rfl | hmem
      · exact ⟨count', hcnt⟩
      · by_cases hmany : 1 < count'
        · rw [if_pos hmany] at h
          nomatch h
        · rw [if_neg hmany] at h
          obtain ⟨count'', hcnt'', -⟩ := bind_eq_some_iff.mp h
          exact ih hcnt'' hmem
    · rw [if_pos hstage] at h
      rcases mem_cons.mp ht with rfl | hmem
      · exact absurd hactive hstage
      · exact ih h hmem

lemma axis_is_coherent_spec {active_stage_count : ℕ} {s : ShaderLabPassStageVariantPlan}
    (h : axis_is_coherent plan active_stage_count s i axis = true) :
    ∃ count, count_matching_stages plan axis (decide (i < s.builtin_axis_position)) plan.stages =
      some count := by
  unfold axis_is_coherent at h
  split at h
  · cases h
  · exact ⟨_, ‹_›⟩

/-- **A plan that passes the validation is coherent**, and a stage of it is active. -/
theorem coherent_of_validate (h : validate_emitted_axis_coherence plan = true) :
    Coherent plan ∧ ∃ stage ∈ plan.stages, stage.active = true := by
  unfold validate_emitted_axis_coherence at h
  dsimp only at h
  have hactive : ∀ {s}, s ∈ plan.stages.filter (·.active) ↔ s ∈ plan.stages ∧ s.active = true :=
    mem_filter
  split at h
  · cases h
  split at h
  · cases h
  split at h
  · cases h
  rename_i hstages hsome
  rw [not_not, List.all_eq_true] at hstages
  rw [List.all_eq_true] at h
  have hstage : ∀ s ∈ plan.stages, s.active = true →
      s.builtin_axis_position ≤ s.axes.length ∧ stage_axes_are_valid plan s.axes = true := by
    intro s hs hsactive
    have hcoh := hstages s (hactive.mpr ⟨hs, hsactive⟩)
    unfold stage_is_coherent at hcoh
    split at hcoh
    · cases hcoh
    · exact ⟨by omega, hcoh⟩
  have hvalid : ∀ s ∈ plan.stages, s.active = true → ∀ axis ∈ s.axes,
      emitted_axis_is_valid plan axis = true := fun s hs hsactive =>
    (stage_axes_are_valid_iff.mp (hstage s hs hsactive).2).1
  refine ⟨⟨hvalid, fun s hs hsactive => (hstage s hs hsactive).1,
    fun s hs hsactive => (stage_axes_are_valid_iff.mp (hstage s hs hsactive).2).2, ?_⟩, ?_⟩
  · intro s hs hsactive t ht htactive i j a b ha hb hover
    have hent : (a, i) ∈ s.axes.zipIdx := mem_zipIdx_iff_getElem?.mpr ha
    have haxis := all_eq_true.mp (h s (hactive.mpr ⟨hs, hsactive⟩)) (a, i) hent
    obtain ⟨count, hcnt⟩ := axis_is_coherent_spec haxis
    obtain ⟨count', hcnt'⟩ := count_matching_stages_eq_some hcnt ht htactive
    obtain ⟨hequal, hside⟩ := count_exact_matches_eq_some hcnt' hb hover
    have hform := (emitted_axis_equal_iff (hvalid s hs hsactive a (mem_of_getElem? ha))
      (hvalid t ht htactive b (mem_of_getElem? hb))).mp hequal
    refine ⟨hform, fun hbuilt => ?_⟩
    have hiff := hside hbuilt
    rw [Nat.zero_add] at hiff
    exact decide_eq_decide.mp hiff
  · obtain ⟨s, hs⟩ := exists_mem_of_length_pos (Nat.pos_of_ne_zero hsome)
    exact ⟨s, hactive.mp hs⟩

end Coherence

/-! ## Ranges -/

section Ranges

variable {plan : ShaderLabVariantPlan} {stage first_stage : ShaderLabPassStageVariantPlan}
  {axis : ShaderLabVariantAxis} {first_begin first_end stage_begin stage_end : ℕ}

lemma mem_axisRange {first last : ℕ} : axis ∈ axisRange stage first last ↔
      ∃ i, (first ≤ i ∧ i < last) ∧ stage.axes[i]? = some axis := by
  unfold axisRange
  rw [mem_iff_getElem?]
  constructor
  · rintro ⟨i, hi⟩
    rw [getElem?_drop, getElem?_take] at hi
    split_ifs at hi with hlt
    exact ⟨first + i, ⟨by omega, hlt⟩, hi⟩
  · rintro ⟨i, ⟨hfirst, hlast⟩, hi⟩
    refine ⟨i - first, ?_⟩
    rw [getElem?_drop, show first + (i - first) = i by omega, getElem?_take, if_pos hlast, hi]

lemma axisRange_sublist {first last : ℕ} : (axisRange stage first last).Sublist stage.axes :=
  (drop_sublist _ _).trans (take_sublist _ _)

/-- The ranges of two stages are on the same side: what overlaps is in both or in neither. -/
structure SameSide (plan : ShaderLabVariantPlan) (first_stage stage : ShaderLabPassStageVariantPlan)
    (first_begin first_end stage_begin stage_end : ℕ) : Prop where
  first_le : first_begin ≤ first_end ∧ first_end ≤ first_stage.axes.length
  stage_le : stage_begin ≤ stage_end ∧ stage_end ≤ stage.axes.length
  mem_iff : ∀ (i j : ℕ) (a b : ShaderLabVariantAxis), first_stage.axes[i]? = some a →
    stage.axes[j]? = some b → emitted_axes_overlap plan a b = true →
    (first_begin ≤ i ∧ i < first_end ↔ stage_begin ≤ j ∧ j < stage_end)

lemma Coherent.eq_of_form_eq (h : Coherent plan) (hstage : stage ∈ plan.stages)
    (hactive : stage.active = true) {a : ShaderLabVariantAxis} (ha : a ∈ stage.axes)
    (hb : b ∈ stage.axes) (hform : axisForm plan a = axisForm plan b) : a = b := by
  by_contra hne
  have hsymm : ∀ {x y}, x ∈ stage.axes → y ∈ stage.axes →
      emitted_axes_overlap plan x y = false → axisForm plan x ≠ axisForm plan y := by
    intro x y hx hy hapart heq
    rw [overlap_of_form_eq (h.valid stage hstage hactive x hx)
      (h.valid stage hstage hactive y hy) heq] at hapart
    nomatch hapart
  obtain ⟨i, hi⟩ := mem_iff_getElem?.mp ha
  obtain ⟨j, hj⟩ := mem_iff_getElem?.mp hb
  obtain ⟨hilt, hi⟩ := List.getElem?_eq_some_iff.mp hi
  obtain ⟨hjlt, hj⟩ := List.getElem?_eq_some_iff.mp hj
  have hpairwise := pairwise_iff_getElem.mp (h.apart stage hstage hactive)
  rcases lt_trichotomy i j with hij | rfl | hij
  · have hapart := hpairwise i j hilt hjlt hij
    rw [hi, hj] at hapart
    exact hsymm ha hb hapart hform
  · exact hne (hi.symm.trans hj)
  · have hapart := hpairwise j i hjlt hilt hij
    rw [hi, hj] at hapart
    exact hsymm hb ha hapart hform.symm

lemma Coherent.nodup (h : Coherent plan) (hstage : stage ∈ plan.stages)
    (hactive : stage.active = true) : stage.axes.Nodup := by
  refine (h.apart stage hstage hactive).imp_of_mem fun {a b} ha hb hapart => ?_
  rintro rfl
  have hvalid := h.valid stage hstage hactive a ha
  rw [overlap_of_form_eq hvalid hvalid rfl] at hapart
  nomatch hapart

lemma Coherent.common_iff (h : Coherent plan) (hvalid : emitted_axis_is_valid plan axis = true) :
    emitted_axis_is_common plan axis = true ↔ ∀ stage ∈ plan.stages, stage.active = true →
      ∃ b ∈ stage.axes, axisForm plan axis = axisForm plan b := by
  unfold emitted_axis_is_common
  rw [List.all_eq_true]
  refine forall₂_congr fun stage hstage => ?_
  rw [Bool.or_eq_true, Bool.not_eq_true', List.any_eq_true]
  constructor
  · intro hor hactive
    obtain ⟨b, hb, hequal⟩ := hor.resolve_left (by rw [hactive]; exact Bool.noConfusion)
    exact ⟨b, hb, (emitted_axis_equal_iff hvalid (h.valid stage hstage hactive b hb)).mp hequal⟩
  · intro himp
    by_cases hactive : stage.active = true
    · obtain ⟨b, hb, hform⟩ := himp hactive
      exact .inr ⟨b, hb,
        (emitted_axis_equal_iff hvalid (h.valid stage hstage hactive b hb)).mpr hform⟩
    · exact .inl (Bool.eq_false_iff.mpr hactive)

lemma Coherent.common_congr (h : Coherent plan) {a : ShaderLabVariantAxis}
    (ha : emitted_axis_is_valid plan a = true) (hb : emitted_axis_is_valid plan b = true)
    (hform : axisForm plan a = axisForm plan b) :
    emitted_axis_is_common plan a = true ↔ emitted_axis_is_common plan b = true := by
  rw [h.common_iff ha, h.common_iff hb, hform]

lemma find_match_eq_some {found : Option ShaderLabVariantAxis} {target : ShaderLabVariantAxis}
    (hnodup : axes.Nodup) (hmatch : ∀ b ∈ axes, emitted_axis_equal plan axis b = true ↔ b = target)
    (h : found = some target ∧ target ∉ axes ∨ found = none ∧ target ∈ axes) :
    find_match plan axis axes found = some target := by
  induction axes generalizing found with
  | nil => exact (h.resolve_right nofun).1
  | cons b axes ih =>
    obtain ⟨hb, hnodup⟩ := nodup_cons.mp hnodup
    obtain ⟨hhead, hmatch⟩ := forall_mem_cons.mp hmatch
    rw [find_match]
    by_cases hequal : emitted_axis_equal plan axis b = true
    · obtain rfl := hhead.mp hequal
      have hnone : found = none :=
        (h.resolve_left fun h => h.2 mem_cons_self).1
      rw [if_neg (not_not.mpr hequal), hnone]
      exact ih hnodup hmatch (.inl ⟨rfl, hb⟩)
    · have hne : target ≠ b := fun heq => hequal (hhead.mpr heq.symm)
      rw [if_pos hequal]
      refine ih hnodup hmatch (h.imp (fun h => ⟨h.1, ?_⟩) fun h => ⟨h.1, ?_⟩)
      · exact fun hmem => h.2 (mem_cons_of_mem _ hmem)
      · exact (mem_cons.mp h.2).resolve_left hne

/-- **A common axis of the first stage has one partner in the range of the stage.** -/
theorem SameSide.matching (hsides : SameSide plan first_stage stage first_begin first_end
      stage_begin stage_end) (h : Coherent plan) (hfirst : first_stage ∈ plan.stages)
    (hfirst_active : first_stage.active = true) (hstage : stage ∈ plan.stages)
    (hactive : stage.active = true) (hmem : axis ∈ axisRange first_stage first_begin first_end)
    (hcom : emitted_axis_is_common plan axis = true) :
    ∃ target ∈ axisRange stage stage_begin stage_end,
      matching_stage_axis_in_range plan stage axis stage_begin stage_end = some target ∧
      axisForm plan axis = axisForm plan target := by
  have hvalid := h.valid first_stage hfirst hfirst_active axis (axisRange_sublist.subset hmem)
  obtain ⟨target, htgt, hform⟩ := (h.common_iff hvalid).mp hcom stage hstage hactive
  have htarget_valid := h.valid stage hstage hactive target htgt
  obtain ⟨i, hi, hget⟩ := mem_axisRange.mp hmem
  obtain ⟨j, hj⟩ := mem_iff_getElem?.mp htgt
  have hover := overlap_of_form_eq hvalid htarget_valid hform
  have hrange : target ∈ axisRange stage stage_begin stage_end :=
    mem_axisRange.mpr ⟨j, (hsides.mem_iff i j axis target hget hj hover).mp hi, hj⟩
  refine ⟨target, hrange, ?_, hform⟩
  unfold matching_stage_axis_in_range
  have hbnds := hsides.stage_le
  rw [if_neg (by simp only [hactive, not_true_eq_false, false_or]; omega)]
  refine find_match_eq_some ((h.nodup hstage hactive).sublist axisRange_sublist) ?_
    (.inr ⟨rfl, hrange⟩)
  intro b hb
  have hb_mem : b ∈ stage.axes := axisRange_sublist.subset hb
  rw [emitted_axis_equal_iff hvalid (h.valid stage hstage hactive b hb_mem)]
  constructor
  · exact fun heq => h.eq_of_form_eq hstage hactive hb_mem htgt (heq.symm.trans hform)
  · rintro rfl
    exact hform

end Ranges

/-! ## Visits -/

section Visits

variable {plan : ShaderLabVariantPlan} {stage first_stage : ShaderLabPassStageVariantPlan}
  {first_begin first_end stage_begin stage_end : ℕ}

/-- The axes that are visited in a range: the partners of the common axes of the first stage, and
the other axes of the stage. -/
def visitedRange (plan : ShaderLabVariantPlan) (first_stage stage : ShaderLabPassStageVariantPlan)
    (first_begin first_end stage_begin stage_end : ℕ) : List ShaderLabVariantAxis :=
  ((axisRange first_stage first_begin first_end).filter (emitted_axis_is_common plan)).filterMap
      (matching_stage_axis_in_range plan stage · stage_begin stage_end) ++
    (axisRange stage stage_begin stage_end).filter fun axis => !emitted_axis_is_common plan axis

variable {σ : Type} {visitor : ShaderLabVariantAxis → σ → Bool × σ}

lemma visit_common_axes_eq (hvisitor : ∀ axis context, (visitor axis context).1 = true)
    (haxes : ∀ axis ∈ axes, emitted_axis_is_common plan axis = true → ∃ target,
      matching_stage_axis_in_range plan stage axis stage_begin stage_end = some target)
    (context : σ) :
    visit_common_axes plan stage stage_begin stage_end visitor axes context =
      (true, ((axes.filter (emitted_axis_is_common plan)).filterMap
        (matching_stage_axis_in_range plan stage · stage_begin stage_end)).foldl
          (fun context axis => (visitor axis context).2) context) := by
  induction axes generalizing context with
  | nil => rfl
  | cons axis axes ih =>
    obtain ⟨haxis, haxes⟩ := forall_mem_cons.mp haxes
    rw [visit_common_axes]
    by_cases hcom : emitted_axis_is_common plan axis = true
    · obtain ⟨target, htgt⟩ := haxis hcom
      rw [if_neg (not_not.mpr hcom), filter_cons_of_pos hcom, filterMap_cons_some (f := fun a =>
          matching_stage_axis_in_range plan stage a stage_begin stage_end) htgt, htgt,
        foldl_cons]
      dsimp only
      rw [if_neg (not_not.mpr (hvisitor target context)), ih haxes]
    · rw [if_pos hcom, filter_cons_of_neg hcom, ih haxes]

lemma visit_stage_axes_eq (hvisitor : ∀ axis context, (visitor axis context).1 = true)
    (axes : List ShaderLabVariantAxis) (context : σ) :
    visit_stage_axes plan visitor axes context =
      (true, (axes.filter fun axis => !emitted_axis_is_common plan axis).foldl
        (fun context axis => (visitor axis context).2) context) := by
  induction axes generalizing context with
  | nil => rfl
  | cons axis axes ih =>
    rw [visit_stage_axes]
    by_cases hcom : emitted_axis_is_common plan axis = true
    · rw [if_pos hcom, filter_cons_of_neg (by simpa using hcom), ih]
    · rw [if_neg hcom, filter_cons_of_pos (by simpa using hcom), foldl_cons]
      dsimp only
      rw [if_neg (not_not.mpr (hvisitor axis context)), ih]

section Coherent

variable (hsides : SameSide plan first_stage stage first_begin first_end stage_begin stage_end)
  (h : Coherent plan) (hfirst : first_stage ∈ plan.stages)
  (hfirst_active : first_stage.active = true) (hstage : stage ∈ plan.stages)
  (hactive : stage.active = true)

include hsides h hfirst hfirst_active hstage hactive

lemma visit_range_eq (hvisitor : ∀ axis context, (visitor axis context).1 = true) (context : σ) :
    visit_emitted_stage_axis_range plan first_stage stage first_begin first_end stage_begin
        stage_end visitor context =
      (true, (visitedRange plan first_stage stage first_begin first_end stage_begin
        stage_end).foldl (fun context axis => (visitor axis context).2) context) := by
  have hfirst_le := hsides.first_le
  have hstage_le := hsides.stage_le
  unfold visit_emitted_stage_axis_range
  have hpartner : ∀ axis ∈ axisRange first_stage first_begin first_end,
      emitted_axis_is_common plan axis = true → ∃ target,
        matching_stage_axis_in_range plan stage axis stage_begin stage_end = some target := by
    intro axis hmem hcom
    obtain ⟨target, -, hmatch, -⟩ := hsides.matching h hfirst hfirst_active hstage hactive hmem hcom
    exact ⟨target, hmatch⟩
  rw [if_neg (by omega), visit_common_axes_eq hvisitor hpartner]
  dsimp only
  rw [if_neg (not_not.mpr rfl), visit_stage_axes_eq hvisitor, visitedRange, foldl_append]

/-- What is visited says what the first stage says of the common axes, and then the stage. -/
theorem map_visitedRange :
    (visitedRange plan first_stage stage first_begin first_end stage_begin stage_end).map
        (axisForm plan) =
      ((axisRange first_stage first_begin first_end).filter (emitted_axis_is_common plan)).map
          (axisForm plan) ++
        ((axisRange stage stage_begin stage_end).filter fun axis =>
          !emitted_axis_is_common plan axis).map (axisForm plan) := by
  rw [visitedRange, map_append]
  congr 1
  have hmem : ∀ axis ∈ (axisRange first_stage first_begin first_end).filter
      (emitted_axis_is_common plan), ∃ target,
      matching_stage_axis_in_range plan stage axis stage_begin stage_end = some target ∧
        axisForm plan axis = axisForm plan target := by
    intro axis haxis
    obtain ⟨hrange, hcom⟩ := mem_filter.mp haxis
    obtain ⟨target, -, hmatch, hform⟩ := hsides.matching h hfirst hfirst_active hstage hactive
      hrange hcom
    exact ⟨target, hmatch, hform⟩
  generalize (axisRange first_stage first_begin first_end).filter (emitted_axis_is_common plan) =
    axes at hmem
  induction axes with
  | nil => rfl
  | cons axis axes ih =>
    obtain ⟨⟨target, hmatch, hform⟩, hmem⟩ := forall_mem_cons.mp hmem
    rw [filterMap_cons_some (f := fun a =>
      matching_stage_axis_in_range plan stage a stage_begin stage_end) hmatch, map_cons,
      map_cons, ih hmem, hform]

/-- **Every axis of the range is visited once.** -/
theorem visitedRange_perm :
    (visitedRange plan first_stage stage first_begin first_end stage_begin stage_end).Perm
      (axisRange stage stage_begin stage_end) := by
  have hnodup : (axisRange stage stage_begin stage_end).Nodup :=
    (h.nodup hstage hactive).sublist axisRange_sublist
  have hfirst_nodup : (axisRange first_stage first_begin first_end).Nodup :=
    (h.nodup hfirst hfirst_active).sublist axisRange_sublist
  have hmatch := fun {axis} => @SameSide.matching plan stage first_stage axis first_begin
    first_end stage_begin stage_end hsides h hfirst hfirst_active hstage hactive
  have hpartners : (((axisRange first_stage first_begin first_end).filter
        (emitted_axis_is_common plan)).filterMap
        (matching_stage_axis_in_range plan stage · stage_begin stage_end)).Perm
      ((axisRange stage stage_begin stage_end).filter (emitted_axis_is_common plan)) := by
    rw [perm_ext_iff_of_nodup ?_ (hnodup.filter _)]
    · intro b
      rw [mem_filterMap, mem_filter]
      constructor
      · rintro ⟨a, ha, heq⟩
        obtain ⟨hrange, hcom⟩ := mem_filter.mp ha
        obtain ⟨target, htgt, hfound, hform⟩ := hmatch hrange hcom
        obtain rfl := some.inj (hfound.symm.trans heq)
        have ha_valid := h.valid first_stage hfirst hfirst_active a
          (axisRange_sublist.subset hrange)
        have hb_valid := h.valid stage hstage hactive target (axisRange_sublist.subset htgt)
        exact ⟨htgt, (h.common_congr ha_valid hb_valid hform).mp hcom⟩
      · rintro ⟨hrange, hcom⟩
        -- The axis of the first stage that says the same has this one as its partner.
        have hb_mem : b ∈ stage.axes := axisRange_sublist.subset hrange
        have hb_valid := h.valid stage hstage hactive b hb_mem
        obtain ⟨a, ha, hform⟩ := (h.common_iff hb_valid).mp hcom first_stage hfirst
          hfirst_active
        have ha_valid := h.valid first_stage hfirst hfirst_active a ha
        obtain ⟨j, hj, hgetb⟩ := mem_axisRange.mp hrange
        obtain ⟨i, hgeta⟩ := mem_iff_getElem?.mp ha
        have hover := overlap_of_form_eq ha_valid hb_valid hform.symm
        have ha_range : a ∈ axisRange first_stage first_begin first_end :=
          mem_axisRange.mpr ⟨i, (hsides.mem_iff i j a b hgeta hgetb hover).mpr hj, hgeta⟩
        have ha_common := (h.common_congr hb_valid ha_valid hform).mp hcom
        obtain ⟨target, htgt, hfound, hform'⟩ := hmatch ha_range ha_common
        obtain rfl := h.eq_of_form_eq hstage hactive (axisRange_sublist.subset htgt) hb_mem
          (hform'.symm.trans hform.symm)
        exact ⟨a, mem_filter.mpr ⟨ha_range, ha_common⟩, hfound⟩
    · refine pairwise_filterMap.mpr ((hfirst_nodup.filter _).imp_of_mem ?_)
      intro a a' ha ha' hne b hb b' hb' heq
      obtain ⟨hrange, hcom⟩ := mem_filter.mp ha
      obtain ⟨hrange', hcom'⟩ := mem_filter.mp ha'
      obtain ⟨target, -, hfound, hform⟩ := hmatch hrange hcom
      obtain ⟨target', -, hfound', hform'⟩ := hmatch hrange' hcom'
      have htgt : target = b := some.inj (hfound.symm.trans hb)
      have htgt' : target' = b' := some.inj (hfound'.symm.trans hb')
      refine hne (h.eq_of_form_eq hfirst hfirst_active (axisRange_sublist.subset hrange)
        (axisRange_sublist.subset hrange') ?_)
      rw [hform, hform', htgt, htgt', heq]
  exact (hpartners.append_right _).trans (filter_append_perm _ _)

end Coherent

end Visits

end EmittedAxes

end DXBCSandbox
