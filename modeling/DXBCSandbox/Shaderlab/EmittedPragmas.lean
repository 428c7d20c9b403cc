/-
The text of the pragmas, and the axes that a visitor sees.

The text of a coherent plan is one line for each directive. Those that apply to a stage, the ones
without a suffix and the ones with its own, say what the visited axes of the stage say, and in the
same order on both sides of the built-in pragma.
-/
import DXBCSandbox.Shaderlab.EmittedAxesSpec

namespace DXBCSandbox

open List Option Preprocessor VariantPlan

namespace EmittedAxes

/-! ## Directives -/

/-- A `multi_compile` directive: what it says, and the suffix of its stage, if any. -/
structure Directive where
  suffix : Option Text
  form : AxisForm

def Directive.line (indent : ℤ) (d : Directive) : Text :=
  indentation indent ++ text "#pragma multi_compile" ++
    (if d.form.is_local then text "_local" else []) ++
    (match d.suffix with
      | none => []
      | some suffix => text "_" ++ suffix) ++
    (if d.form.has_default then text " __" else []) ++
    d.form.names.flatMap (fun name => text " " ++ name.bytes) ++ [10]

def directiveLines (indent : ℤ) (directives : List Directive) : Text :=
  directives.flatMap (Directive.line indent)

/-- A directive applies to its stage or, without a suffix, to all. -/
def Directive.applies (stage_index : ℕ) (d : Directive) : Bool :=
  d.suffix = none ∨ d.suffix = stage_suffix stage_index

def formsOf (stage_index : ℕ) (directives : List Directive) : List AxisForm :=
  (directives.filter (Directive.applies stage_index)).map (·.form)

/-- The suffix, if any, is that of a stage, and the directive says a valid axis of the plan, so its
names are identifiers. -/
def Directive.Proper (plan : ShaderLabVariantPlan) (d : Directive) : Prop :=
  (d.suffix = none ∨ ∃ i < 5, d.suffix = stage_suffix i) ∧
    ∃ axis, emitted_axis_is_valid plan axis = true ∧ d.form = axisForm plan axis

lemma formsOf_append {stage_index : ℕ} {ds ds' : List Directive} :
    formsOf stage_index (ds ++ ds') = formsOf stage_index ds ++ formsOf stage_index ds' := by
  unfold formsOf
  rw [filter_append, map_append]

def directivesOf (plan : ShaderLabVariantPlan) (suffix : Option Text)
    (axes : List ShaderLabVariantAxis) : List Directive :=
  axes.map fun axis => ⟨suffix, axisForm plan axis⟩

lemma formsOf_directivesOf {plan : ShaderLabVariantPlan} {suffix : Option Text}
    {axes : List ShaderLabVariantAxis} {stage_index : ℕ} :
    formsOf stage_index (directivesOf plan suffix axes) =
      if suffix = none ∨ suffix = stage_suffix stage_index then axes.map (axisForm plan) else [] := by
  unfold formsOf directivesOf
  rw [List.filter_map, List.map_map]
  generalize hp : Directive.applies stage_index ∘
    (fun axis : ShaderLabVariantAxis => (⟨suffix, axisForm plan axis⟩ : Directive)) = p
  have hpeq : ∀ axis, p axis = decide (suffix = none ∨ suffix = stage_suffix stage_index) := by
    rw [← hp]
    exact fun _ => rfl
  split_ifs with happlies
  · rw [filter_eq_self.mpr fun axis _ => (hpeq axis).trans (decide_eq_true happlies)]
    rfl
  · rw [filter_eq_nil_iff.mpr fun axis _ h => happlies (of_decide_eq_true (hpeq axis ▸ h))]
    rfl

lemma stage_suffix_inj {i j : ℕ} {suffix : Text} (hi : stage_suffix i = some suffix)
    (hj : stage_suffix j = some suffix) : i = j := by
  have hnodup : [text "vertex", text "fragment", text "geometry", text "hull",
      text "domain"].Nodup := by decide
  exact (List.getElem?_inj (List.getElem?_eq_some_iff.mp hi).1 hnodup).mp (hi.trans hj.symm)

/-! ## Lines -/

section Lines

variable {plan : ShaderLabVariantPlan} {axis : ShaderLabVariantAxis} {suffix : Option Text}
  {indent : ℤ}

lemma emit_keywords_eq {keywords : List KeywordIndex} {names : List CString}
    (h : List.Forall₂ (fun raw name => raw.val < plan.shader.keyword_names.count ∧
      plan.shader.keyword_names.toList.getD raw.val none = some name) keywords names) :
    emit_keywords plan keywords = some (names.flatMap fun name => text " " ++ name.bytes) := by
  induction h with
  | nil => rfl
  | @cons raw name keywords names hname _ ih =>
    rw [emit_keywords, if_neg (not_le.mpr hname.1), hname.2, ih]
    rfl

lemma forall₂_keywordNames (hvalid : emitted_axis_is_valid plan axis = true) :
    List.Forall₂ (fun raw name => raw.val < plan.shader.keyword_names.count ∧
        plan.shader.keyword_names.toList.getD raw.val none = some name)
      axis.keyword_indices (keywordNames plan axis) := by
  rw [forall₂_iff_get]
  refine ⟨(length_keywordNames hvalid).symm, fun i hi hi' => ?_⟩
  have hname := getElem?_keywordNames hvalid hi
  rw [getElem?_eq_getElem hi', emitted_axis_keyword_name, getElem?_eq_getElem hi] at hname
  dsimp only at hname
  split at hname
  · nomatch hname
  · exact ⟨not_le.mp ‹_›, hname.symm⟩

lemma emit_axis_eq (hvalid : emitted_axis_is_valid plan axis = true) :
    emit_axis plan axis suffix indent =
      some (Directive.line indent ⟨suffix, axisForm plan axis⟩) := by
  unfold emit_axis
  rw [if_neg (keyword_indices_ne_nil hvalid).ne', emit_keywords_eq (forall₂_keywordNames hvalid)]
  rfl

lemma emit_axes_eq {axes : List ShaderLabVariantAxis}
    (hvalid : ∀ axis ∈ axes, emitted_axis_is_valid plan axis = true) :
    emit_axes plan suffix indent axes =
      some (directiveLines indent (directivesOf plan suffix axes)) := by
  induction axes with
  | nil => rfl
  | cons axis axes ih =>
    obtain ⟨haxis, hvalid⟩ := forall_mem_cons.mp hvalid
    rw [emit_axes, emit_axis_eq haxis, ih hvalid]
    rfl

end Lines

/-! ## Stages -/

section Stages

variable {plan : ShaderLabVariantPlan} {indent : ℤ}

def stageDirectives (plan : ShaderLabVariantPlan) :
    (stage_index : ℕ) → List (ShaderLabPassStageVariantPlan × ℕ × ℕ) → List Directive
  | _, [] => []
  | stage_index, (stage, first, last) :: stages =>
    (if stage.active then
      directivesOf plan (stage_suffix stage_index)
        ((axisRange stage first last).filter fun axis => !emitted_axis_is_common plan axis)
    else []) ++ stageDirectives plan (stage_index + 1) stages

variable {stages : List (ShaderLabPassStageVariantPlan × ℕ × ℕ)}

section Valid

variable (hvalid : ∀ entry ∈ stages, entry.1.active = true → ∀ axis ∈ entry.1.axes,
    emitted_axis_is_valid plan axis = true)

include hvalid

/-- The loop over the stages writes their directives, and each active stage has a suffix. -/
theorem emit_stage_axes_eq_some {stage_index : ℕ} {lines : Text}
    (h : emit_stage_axes plan indent stage_index stages = some lines) :
    lines = directiveLines indent (stageDirectives plan stage_index stages) ∧
      ∀ (i : ℕ) (entry : ShaderLabPassStageVariantPlan × ℕ × ℕ), stages[i]? = some entry →
        entry.1.active = true → ∃ suffix, stage_suffix (stage_index + i) = some suffix := by
  induction stages generalizing stage_index lines with
  | nil =>
    rw [emit_stage_axes] at h
    exact ⟨(some.inj h).symm, nofun⟩
  | cons entry stages ih =>
    obtain ⟨stage, first, last⟩ := entry
    obtain ⟨hstage, hvalid⟩ := forall_mem_cons.mp hvalid
    rw [emit_stage_axes] at h
    rw [stageDirectives]
    by_cases hactive : stage.active = true
    · rw [if_neg (not_not.mpr hactive)] at h
      obtain ⟨suffix, hsuff, h⟩ := bind_eq_some_iff.mp h
      have haxes : ∀ axis ∈ (axisRange stage first last).filter fun axis =>
          !emitted_axis_is_common plan axis, emitted_axis_is_valid plan axis = true :=
        fun axis haxis => hstage hactive axis (axisRange_sublist.subset (mem_filter.mp haxis).1)
      obtain ⟨own, hown, h⟩ := bind_eq_some_iff.mp h
      obtain ⟨rest, hrest, h⟩ := bind_eq_some_iff.mp h
      rw [emit_axes_eq haxes] at hown
      obtain ⟨hlines, hsuffs⟩ := ih hvalid hrest
      rw [if_pos hactive, hsuff]
      refine ⟨?_, fun i entry hi hent => ?_⟩
      · rw [← some.inj h, ← some.inj hown, hlines]
        exact flatMap_append.symm
      · cases i with
        | zero => exact ⟨suffix, hsuff⟩
        | succ i =>
          rw [show stage_index + (i + 1) = stage_index + 1 + i by omega]
          exact hsuffs i entry hi hent
    · rw [if_pos hactive] at h
      obtain ⟨hlines, hsuffs⟩ := ih hvalid h
      rw [if_neg hactive, nil_append]
      refine ⟨hlines, fun i entry hi hent => ?_⟩
      cases i with
      | zero =>
        obtain rfl := some.inj hi
        exact absurd hent hactive
      | succ i =>
        rw [show stage_index + (i + 1) = stage_index + 1 + i by omega]
        exact hsuffs i entry hi hent

/-- There are five stages, and each has a suffix. -/
theorem exists_emit_stage_axes {n : ℕ} (hlen : n + stages.length ≤ 5) :
    ∃ lines, emit_stage_axes plan indent n stages = some lines := by
  induction stages generalizing n with
  | nil => exact ⟨[], rfl⟩
  | cons entry stages ih =>
    obtain ⟨hstage, hvalid⟩ := forall_mem_cons.mp hvalid
    rw [length_cons] at hlen
    obtain ⟨rest, hrest⟩ := @ih hvalid (n + 1) (by omega)
    rw [emit_stage_axes, hrest]
    split_ifs with hactive
    · have hsuff : stage_suffix n = some _ := getElem?_eq_getElem (by simp; omega)
      rw [hsuff]
      change ∃ lines, (emit_axes _ _ _ _ >>= _) = some lines
      rw [emit_axes_eq fun axis haxis =>
        hstage hactive axis (axisRange_sublist.subset (mem_filter.mp haxis).1)]
      exact ⟨_, rfl⟩
    · exact ⟨rest, rfl⟩

lemma proper_of_mem_stageDirectives {n : ℕ} {d : Directive}
    (hd : d ∈ stageDirectives plan n stages) : d.Proper plan := by
  induction stages generalizing n with
  | nil => cases hd
  | cons entry stages ih =>
    obtain ⟨stage, first, last⟩ := entry
    obtain ⟨hstage, hvalid⟩ := forall_mem_cons.mp hvalid
    rcases mem_append.mp hd with hd | hd
    · split_ifs at hd with hactive
      · obtain ⟨axis, haxis, rfl⟩ := mem_map.mp hd
        refine ⟨?_, axis, hstage hactive axis
          (axisRange_sublist.subset (mem_filter.mp haxis).1), rfl⟩
        rcases Nat.lt_or_ge n 5 with hlt | hge
        · exact .inr ⟨n, hlt, rfl⟩
        · exact .inl (getElem?_eq_none hge)
      · cases hd
    · exact ih hvalid hd

end Valid

lemma formsOf_stageDirectives {n s : ℕ} {suffix : Text}
    (hsuff : stage_suffix s = some suffix)
    (hsuffs : ∀ (i : ℕ) (entry : ShaderLabPassStageVariantPlan × ℕ × ℕ),
      stages[i]? = some entry → entry.1.active = true →
        ∃ suffix, stage_suffix (n + i) = some suffix) :
    formsOf s (stageDirectives plan n stages) = (stages.zipIdx n).flatMap fun entry =>
        if entry.1.1.active ∧ entry.2 = s then
          ((axisRange entry.1.1 entry.1.2.1 entry.1.2.2).filter fun axis =>
            !emitted_axis_is_common plan axis).map (axisForm plan)
        else [] := by
  induction stages generalizing n with
  | nil => rfl
  | cons entry stages ih =>
    obtain ⟨stage, first, last⟩ := entry
    rw [stageDirectives, formsOf_append, zipIdx_cons, flatMap_cons, ih]
    · congr 1
      dsimp only
      by_cases hactive : stage.active = true
      · obtain ⟨suffix', hsuff'⟩ := hsuffs 0 _ rfl hactive
        rw [Nat.add_zero] at hsuff'
        rw [if_pos hactive, formsOf_directivesOf, hsuff', hsuff]
        have hiff : (some suffix' = none ∨ some suffix' = some suffix) ↔
            (stage.active = true ∧ n = s) := by
          constructor
          · rintro (hnone | hsame)
            · nomatch hnone
            · obtain rfl := some.inj hsame
              exact ⟨hactive, stage_suffix_inj hsuff' hsuff⟩
          · rintro ⟨-, rfl⟩
            exact .inr (hsuff'.symm.trans hsuff)
        simp only [hiff]
      · rw [if_neg hactive, if_neg fun h => hactive h.1]
        rfl
    · intro i entry hi hactive
      rw [show n + 1 + i = n + (i + 1) by omega]
      exact hsuffs (i + 1) entry hi hactive

end Stages

/-! ## Ranges of all stages -/

section Ranges

variable {plan : ShaderLabVariantPlan} {indent : ℤ}
  {stage first_stage : ShaderLabPassStageVariantPlan}
  {first last : ShaderLabPassStageVariantPlan → ℕ}

lemma flatMap_zipIdx_eq {α β : Type} (l : List α) (f : α → List β) {n s : ℕ} (h : n ≤ s) :
    (l.zipIdx n).flatMap (fun entry => if entry.2 = s then f entry.1 else []) =
      (l[s - n]?).elim [] f := by
  induction l generalizing n with
  | nil => rfl
  | cons a l ih =>
    rw [zipIdx_cons, flatMap_cons]
    rcases Nat.eq_or_lt_of_le h with rfl | hlt
    · have hrest : (l.zipIdx (n + 1)).flatMap
          (fun entry => if entry.2 = n then f entry.1 else []) = [] := by
        refine flatMap_eq_nil_iff.mpr fun entry hent => if_neg ?_
        have hle := (mem_zipIdx hent).1
        omega
      rw [hrest, append_nil, Nat.sub_self]
      exact if_pos rfl
    · have hne : ¬ n = s := by omega
      rw [show s - n = s - (n + 1) + 1 by omega, getElem?_cons_succ, ih hlt]
      dsimp only
      rw [if_neg hne, nil_append]

def rangeDirectives (plan : ShaderLabVariantPlan) (first_stage : ShaderLabPassStageVariantPlan)
    (first last : ShaderLabPassStageVariantPlan → ℕ) : List Directive :=
  directivesOf plan none ((axisRange first_stage (first first_stage) (last first_stage)).filter
      (emitted_axis_is_common plan)) ++
    stageDirectives plan 0 (plan.stages.map fun stage => (stage, first stage, last stage))

lemma Coherent.valid_ranges (h : Coherent plan) :
    ∀ entry ∈ plan.stages.map fun stage => (stage, first stage, last stage),
      entry.1.active = true → ∀ axis ∈ entry.1.axes, emitted_axis_is_valid plan axis = true := by
  intro entry hent hactive
  obtain ⟨stage, hstage, rfl⟩ := mem_map.mp hent
  exact h.valid stage hstage hactive

variable (hcoherent : Coherent plan) (hfirst : plan.stages.find? (·.active) = some first_stage)

include hcoherent hfirst

lemma emit_synchronized_eq :
    emit_synchronized_axis_ranges plan first last indent =
      (emit_stage_axes plan indent 0
        (plan.stages.map fun stage => (stage, first stage, last stage))).map
        (directiveLines indent (directivesOf plan none
          ((axisRange first_stage (first first_stage) (last first_stage)).filter
            (emitted_axis_is_common plan))) ++ ·) := by
  have hfirst_active : first_stage.active = true := by simpa using find?_some hfirst
  unfold emit_synchronized_axis_ranges
  rw [hfirst]
  dsimp only
  rw [emit_axes_eq fun axis haxis => hcoherent.valid first_stage (mem_of_find?_eq_some hfirst)
    hfirst_active axis (axisRange_sublist.subset (mem_filter.mp haxis).1)]
  cases emit_stage_axes plan indent 0 _ <;> rfl

lemma emit_synchronized_eq_some {lines : Text}
    (h : emit_synchronized_axis_ranges plan first last indent = some lines) :
    lines = directiveLines indent (rangeDirectives plan first_stage first last) ∧
      ∀ (i : ℕ) (stage : ShaderLabPassStageVariantPlan), plan.stages[i]? = some stage →
        stage.active = true → ∃ suffix, stage_suffix i = some suffix := by
  rw [emit_synchronized_eq hcoherent hfirst] at h
  obtain ⟨stages, hstages, rfl⟩ := map_eq_some_iff.mp h
  obtain ⟨hlines, hsuffs⟩ := emit_stage_axes_eq_some hcoherent.valid_ranges hstages
  constructor
  · rw [hlines]
    exact flatMap_append.symm
  · intro i stage hi hactive
    have hget : (plan.stages.map fun stage => (stage, first stage, last stage))[i]? =
        some (stage, first stage, last stage) := by rw [getElem?_map, hi]; rfl
    have hsuff := hsuffs i _ hget hactive
    rwa [Nat.zero_add] at hsuff

lemma proper_of_mem_rangeDirectives {d : Directive}
    (hd : d ∈ rangeDirectives plan first_stage first last) : d.Proper plan := by
  rcases mem_append.mp hd with hd | hd
  · obtain ⟨axis, haxis, rfl⟩ := mem_map.mp hd
    exact ⟨.inl rfl, axis, hcoherent.valid first_stage (mem_of_find?_eq_some hfirst)
      (by simpa using find?_some hfirst) axis
      (axisRange_sublist.subset (mem_filter.mp haxis).1), rfl⟩
  · exact proper_of_mem_stageDirectives hcoherent.valid_ranges hd

lemma exists_emit_pragmas {builtin : BuiltinPragma} (hindent : 0 ≤ indent)
    (hlen : plan.stages.length ≤ 5) (hbuiltin : builtin.builtin_family ≠ .invalid)
    (hvalid : validate_emitted_axis_coherence plan = true) :
    ∃ lines, shaderlab_variant_plan_emit_pragmas plan builtin indent = some lines := by
  have hranges (first last : ShaderLabPassStageVariantPlan → ℕ) :
      ∃ lines, emit_synchronized_axis_ranges plan first last indent = some lines := by
    obtain ⟨lines, hlines⟩ := @exists_emit_stage_axes plan indent
      (plan.stages.map fun stage => (stage, first stage, last stage)) hcoherent.valid_ranges 0
      (by rwa [length_map, Nat.zero_add])
    rw [emit_synchronized_eq hcoherent hfirst, hlines]
    exact ⟨_, rfl⟩
  obtain ⟨before, hbefore⟩ := hranges (fun _ => 0) (·.builtin_axis_position)
  obtain ⟨after, hafter⟩ := hranges (·.builtin_axis_position) (·.axes.length)
  obtain ⟨all, hall⟩ := hranges (fun _ => 0) (·.axes.length)
  have hlt : plan.stages.findIdx (·.active) < plan.stages.length :=
    findIdx_lt_length_of_exists ⟨_, mem_of_find?_eq_some hfirst, find?_some hfirst⟩
  obtain ⟨pragma, hpragma⟩ : ∃ pragma, emit_builtin_pragma plan builtin indent = some pragma := by
    unfold emit_builtin_pragma builtin_directive
    rw [if_neg (by omega)]
    cases hfamily : builtin.builtin_family
    case invalid => exact absurd hfamily hbuiltin
    all_goals exact ⟨_, rfl⟩
  unfold shaderlab_variant_plan_emit_pragmas
  rw [if_neg (not_lt.mpr hindent), if_neg (not_not.mpr hvalid), hbefore, hpragma, hafter, hall]
  dsimp only
  split_ifs <;> exact ⟨_, rfl⟩

/-- **The directives that apply to a stage say what its visited axes say.** -/
theorem formsOf_rangeDirectives {s : ℕ} (hstage : plan.stages[s]? = some stage) (hactive : stage.active = true)
    (hsuffs : ∀ (i : ℕ) (stage : ShaderLabPassStageVariantPlan), plan.stages[i]? = some stage →
      stage.active = true → ∃ suffix, stage_suffix i = some suffix)
    (hsides : SameSide plan first_stage stage (first first_stage) (last first_stage)
      (first stage) (last stage)) :
    formsOf s (rangeDirectives plan first_stage first last) =
      (visitedRange plan first_stage stage (first first_stage) (last first_stage) (first stage)
        (last stage)).map (axisForm plan) := by
  have hfirst_mem := mem_of_find?_eq_some hfirst
  have hfirst_active : first_stage.active = true := by simpa using find?_some hfirst
  obtain ⟨suffix, hsuff⟩ := hsuffs s stage hstage hactive
  rw [map_visitedRange hsides hcoherent hfirst_mem hfirst_active (mem_of_getElem? hstage)
    hactive, rangeDirectives, formsOf_append, formsOf_directivesOf, if_pos (.inl rfl)]
  congr 1
  have hents : ∀ (i : ℕ) (entry : ShaderLabPassStageVariantPlan × ℕ × ℕ),
      (plan.stages.map fun stage => (stage, first stage, last stage))[i]? = some entry →
        entry.1.active = true → ∃ suffix, stage_suffix (0 + i) = some suffix := by
    intro i entry hi hent
    rw [getElem?_map, map_eq_some_iff] at hi
    obtain ⟨stage', hstage', rfl⟩ := hi
    rw [Nat.zero_add]
    exact hsuffs i stage' hstage' hent
  rw [formsOf_stageDirectives hsuff hents]
  -- Only the entry of the stage itself contributes.
  have hone := flatMap_zipIdx_eq (plan.stages.map fun stage => (stage, first stage, last stage))
    (fun entry => if entry.1.active = true then
      ((axisRange entry.1 entry.2.1 entry.2.2).filter fun axis =>
        !emitted_axis_is_common plan axis).map (axisForm plan) else []) (Nat.zero_le s)
  rw [Nat.sub_zero, getElem?_map, hstage] at hone
  have hsame : ∀ entry : (ShaderLabPassStageVariantPlan × ℕ × ℕ) × ℕ,
      (if entry.1.1.active = true ∧ entry.2 = s then
        ((axisRange entry.1.1 entry.1.2.1 entry.1.2.2).filter fun axis =>
          !emitted_axis_is_common plan axis).map (axisForm plan) else []) =
      if entry.2 = s then (if entry.1.1.active = true then
        ((axisRange entry.1.1 entry.1.2.1 entry.1.2.2).filter fun axis =>
          !emitted_axis_is_common plan axis).map (axisForm plan) else []) else [] := by
    intro entry
    by_cases hidx : entry.2 = s
    · simp only [hidx, and_true, if_true]
    · simp only [hidx, and_false, if_false]
  rw [flatMap_congr fun entry _ => hsame entry, hone]
  exact if_pos hactive

end Ranges

/-! ## Sides of the built-in pragma -/

section Sides

variable {plan : ShaderLabVariantPlan} {stage first_stage : ShaderLabPassStageVariantPlan}

lemma sameSide_all : SameSide plan first_stage stage 0 first_stage.axes.length 0
    stage.axes.length where
  first_le := ⟨Nat.zero_le _, le_refl _⟩
  stage_le := ⟨Nat.zero_le _, le_refl _⟩
  mem_iff := fun _ _ _ _ ha hb _ =>
    iff_of_true ⟨Nat.zero_le _, (List.getElem?_eq_some_iff.mp ha).1⟩
      ⟨Nat.zero_le _, (List.getElem?_eq_some_iff.mp hb).1⟩

variable (hcoherent : Coherent plan) (hbuiltin : plan.has_builtin = true)
  (hfirst : first_stage ∈ plan.stages) (hfirst_active : first_stage.active = true)
  (hstage : stage ∈ plan.stages) (hactive : stage.active = true)

include hcoherent hbuiltin hfirst hfirst_active hstage hactive

lemma sameSide_before : SameSide plan first_stage stage 0 first_stage.builtin_axis_position 0
    stage.builtin_axis_position where
  first_le := ⟨Nat.zero_le _, hcoherent.position first_stage hfirst hfirst_active⟩
  stage_le := ⟨Nat.zero_le _, hcoherent.position stage hstage hactive⟩
  mem_iff := by
    intro i j a b ha hb hover
    have hiff := (hcoherent.matched first_stage hfirst hfirst_active stage hstage hactive i j a b
      ha hb hover).2 hbuiltin
    omega

lemma sameSide_after : SameSide plan first_stage stage first_stage.builtin_axis_position
    first_stage.axes.length stage.builtin_axis_position stage.axes.length where
  first_le := ⟨hcoherent.position first_stage hfirst hfirst_active, le_refl _⟩
  stage_le := ⟨hcoherent.position stage hstage hactive, le_refl _⟩
  mem_iff := by
    intro i j a b ha hb hover
    have hiff := (hcoherent.matched first_stage hfirst hfirst_active stage hstage hactive i j a b
      ha hb hover).2 hbuiltin
    have hi := (List.getElem?_eq_some_iff.mp ha).1
    have hj := (List.getElem?_eq_some_iff.mp hb).1
    omega

end Sides

def tierLine (plan : ShaderLabVariantPlan) (indent : ℤ) : Text :=
  if plan.uses_specific_hardware_tiers then
    indentation indent ++ text "#pragma hardware_tier_variants d3d11\n" else []

def builtinLine (plan : ShaderLabVariantPlan) (builtin : BuiltinPragma) (indent : ℤ) :
    Option Text :=
  if plan.has_builtin then emit_builtin_pragma plan builtin indent else some []

/-- A visitor of a stage that always goes on is shown these axes. -/
def VisitsAxes (plan : ShaderLabVariantPlan) (stage_index : ℕ)
    (visited : List ShaderLabVariantAxis) : Prop :=
  ∀ (σ : Type) (visitor : ShaderLabVariantAxis → σ → Bool × σ) (context : σ),
    (∀ axis context, (visitor axis context).1 = true) →
    shaderlab_variant_plan_visit_emitted_stage_axes plan stage_index visitor context =
      (true, visited.foldl (fun context axis => (visitor axis context).2) context)

end EmittedAxes

open EmittedAxes

/-- **Emitted axes agree with the pragmas.** Of a coherent plan, a visitor of an active stage is
shown each axis of the stage once, first those before the built-in pragma and then those after it.
The emitted text is the line of the tiers, directives, the built-in pragma and directives, and on
each side the directives that apply to the stage say, in order, what the visited axes of that side
say. So they assign the keywords that the planned axes assign. With at most five stages, a valid
family and an indentation that is not negative there is a text. -/
theorem visited_axes_are_emitted (plan : ShaderLabVariantPlan) (stage_index : ℕ)
    (stage : ShaderLabPassStageVariantPlan)
    (hvalid : validate_emitted_axis_coherence plan = true)
    (hstage : plan.stages[stage_index]? = some stage) (hactive : stage.active = true) :
    ∃ before after : List ShaderLabVariantAxis, VisitsAxes plan stage_index (before ++ after) ∧
      (before ++ after).Perm stage.axes ∧
      (plan.has_builtin = true → before.Perm (stage.axes.take stage.builtin_axis_position) ∧
        after.Perm (stage.axes.drop stage.builtin_axis_position)) ∧
      (∀ (builtin : BuiltinPragma) (indent : ℤ), 0 ≤ indent → plan.stages.length ≤ 5 →
        builtin.builtin_family ≠ .invalid →
        ∃ lines, shaderlab_variant_plan_emit_pragmas plan builtin indent = some lines) ∧
      ∀ (builtin : BuiltinPragma) (indent : ℤ) (lines : Text),
        shaderlab_variant_plan_emit_pragmas plan builtin indent = some lines →
        ∃ (ds ds' : List Directive) (pragma : Text), builtinLine plan builtin indent = some pragma ∧
          lines = tierLine plan indent ++ directiveLines indent ds ++ pragma ++
            directiveLines indent ds' ∧ (∀ d ∈ ds ++ ds', d.Proper plan) ∧
          formsOf stage_index ds = before.map (axisForm plan) ∧
          formsOf stage_index ds' = after.map (axisForm plan) ∧
          assignments (formsOf stage_index (ds ++ ds')) =
            assignments (stage.axes.map (axisForm plan)) := by
  obtain ⟨hcoherent, s, hs, hs_active⟩ := coherent_of_validate hvalid
  have hmem := mem_of_getElem? hstage
  obtain ⟨first_stage, hfirst⟩ : ∃ first_stage, plan.stages.find? (·.active) = some first_stage :=
    isSome_iff_exists.mp (find?_isSome.mpr ⟨s, hs, hs_active⟩)
  have hfirst_mem := mem_of_find?_eq_some hfirst
  have hfirst_active : first_stage.active = true := by simpa using find?_some hfirst
  have hassign : ∀ {ds ds' : List Directive} {before after : List ShaderLabVariantAxis},
      formsOf stage_index ds = before.map (axisForm plan) →
      formsOf stage_index ds' = after.map (axisForm plan) → (before ++ after).Perm stage.axes →
      assignments (formsOf stage_index (ds ++ ds')) =
        assignments (stage.axes.map (axisForm plan)) := by
    intro ds ds' before after hbefore hafter hperm
    rw [formsOf_append, hbefore, hafter, ← map_append]
    exact assignments_perm (hperm.map _)
  have hrange_all : axisRange stage 0 stage.axes.length = stage.axes := by
    rw [axisRange, take_length, drop_zero]
  have hemits builtin indent hindent hlen hfamily := @exists_emit_pragmas plan indent first_stage
    hcoherent hfirst builtin hindent hlen hfamily hvalid
  have hproper {first last : ShaderLabPassStageVariantPlan → ℕ} {d} :=
    @proper_of_mem_rangeDirectives plan first_stage first last hcoherent hfirst d
  by_cases hbuiltin : plan.has_builtin = true
  · -- One range on each side.
    have hbefore := sameSide_before hcoherent hbuiltin hfirst_mem hfirst_active hmem hactive
    have hafter := sameSide_after hcoherent hbuiltin hfirst_mem hfirst_active hmem hactive
    have hperm_before := visitedRange_perm hbefore hcoherent hfirst_mem hfirst_active hmem hactive
    have hperm_after := visitedRange_perm hafter hcoherent hfirst_mem hfirst_active hmem hactive
    have htake : axisRange stage 0 stage.builtin_axis_position =
        stage.axes.take stage.builtin_axis_position := drop_zero
    have hdrop : axisRange stage stage.builtin_axis_position stage.axes.length =
        stage.axes.drop stage.builtin_axis_position := by rw [axisRange, take_length]
    rw [htake] at hperm_before
    rw [hdrop] at hperm_after
    have hperm := (hperm_before.append hperm_after).trans (List.Perm.of_eq (take_append_drop _ _))
    refine ⟨_, _, ?_, hperm, fun _ => ⟨hperm_before, hperm_after⟩, hemits, ?_⟩
    · intro σ visitor context hvisitor
      unfold shaderlab_variant_plan_visit_emitted_stage_axes
      rw [hstage, hfirst]
      dsimp only
      rw [if_neg (by simp [hactive, hvalid]), if_neg (by simp [hbuiltin]),
        visit_range_eq hbefore hcoherent hfirst_mem hfirst_active hmem hactive hvisitor]
      dsimp only
      rw [if_neg (not_not.mpr rfl),
        visit_range_eq hafter hcoherent hfirst_mem hfirst_active hmem hactive hvisitor,
        foldl_append]
    · intro builtin indent lines h
      unfold shaderlab_variant_plan_emit_pragmas at h
      by_cases hindent : indent < 0
      · rw [if_pos hindent] at h
        nomatch h
      rw [if_neg hindent, if_neg (not_not.mpr hvalid)] at h
      dsimp only at h
      rw [if_pos hbuiltin] at h
      obtain ⟨first_lines, hfirst_lines, h⟩ := bind_eq_some_iff.mp h
      obtain ⟨pragma, hpragma, h⟩ := bind_eq_some_iff.mp h
      obtain ⟨last_lines, hlast_lines, h⟩ := bind_eq_some_iff.mp h
      obtain ⟨hlines, hsuffixes⟩ := emit_synchronized_eq_some hcoherent hfirst hfirst_lines
      obtain ⟨hlines', -⟩ := emit_synchronized_eq_some hcoherent hfirst hlast_lines
      have hforms := @formsOf_rangeDirectives plan stage first_stage (fun _ => 0)
        (·.builtin_axis_position) hcoherent hfirst stage_index hstage hactive hsuffixes hbefore
      have hforms' := @formsOf_rangeDirectives plan stage first_stage (·.builtin_axis_position)
        (·.axes.length) hcoherent hfirst stage_index hstage hactive hsuffixes hafter
      refine ⟨_, _, pragma, (if_pos hbuiltin).trans hpragma, ?_,
        fun d hd => (mem_append.mp hd).elim hproper hproper, hforms, hforms',
        hassign hforms hforms' hperm⟩
      rw [← some.inj h, hlines, hlines']
      rfl
  · have hall := @sameSide_all plan stage first_stage
    have hperm := visitedRange_perm hall hcoherent hfirst_mem hfirst_active hmem hactive
    rw [hrange_all] at hperm
    rw [← nil_append (visitedRange _ _ _ _ _ _ _)] at hperm
    refine ⟨[], _, ?_, hperm, fun h => absurd h hbuiltin, hemits, ?_⟩
    · intro σ visitor context hvisitor
      unfold shaderlab_variant_plan_visit_emitted_stage_axes
      rw [hstage, hfirst]
      dsimp only
      rw [if_neg (by simp [hactive, hvalid]), if_pos hbuiltin,
        visit_range_eq hall hcoherent hfirst_mem hfirst_active hmem hactive hvisitor,
        nil_append]
    · intro builtin indent lines h
      unfold shaderlab_variant_plan_emit_pragmas at h
      by_cases hindent : indent < 0
      · rw [if_pos hindent] at h
        nomatch h
      rw [if_neg hindent, if_neg (not_not.mpr hvalid)] at h
      dsimp only at h
      rw [if_neg hbuiltin] at h
      obtain ⟨axes_lines, haxes_lines, h⟩ := bind_eq_some_iff.mp h
      obtain ⟨hlines, hsuffixes⟩ := emit_synchronized_eq_some hcoherent hfirst haxes_lines
      have hforms := @formsOf_rangeDirectives plan stage first_stage (fun _ => 0)
        (·.axes.length) hcoherent hfirst stage_index hstage hactive hsuffixes hall
      refine ⟨[], _, [], if_neg hbuiltin, ?_, ?_, rfl, hforms, hassign rfl hforms hperm⟩
      · rw [← some.inj h, hlines]
        simp only [tierLine, directiveLines, flatMap_nil, append_nil]
      · rw [nil_append]
        exact fun _ => hproper

def sampleEmittedNames : List (Option CString) :=
  [some ⟨text "FOG_LINEAR", by decide⟩, some ⟨text "SHADOWS_SOFT", by decide⟩,
    some ⟨text "VERTEX_ONLY", by decide⟩, some ⟨text "FRAGMENT_ONLY", by decide⟩]

/-- A vertex and a fragment stage, which order their common axis differently. -/
def sampleEmittedPlan : ShaderLabVariantPlan where
  shader :=
    { keyword_names := .holding sampleEmittedNames
      keyword_flags := none }
  pass :=
    { has_serialized_platforms := false
      platforms := .null
      stages := fun _ => .null
      serialized_keyword_state_mask := .null }
  has_builtin := true
  uses_specific_hardware_tiers := false
  stages :=
    [⟨true, false, [], [], [⟨true, false, [0]⟩, ⟨true, false, [2]⟩, ⟨false, true, [1]⟩], 2⟩,
      ⟨true, false, [], [], [⟨true, false, [3]⟩, ⟨true, false, [0]⟩, ⟨false, true, [1]⟩], 2⟩]

def sampleEmittedText : Text := text
  ("#pragma multi_compile __ FOG_LINEAR\n#pragma multi_compile_vertex __ VERTEX_ONLY\n" ++
    "#pragma multi_compile_fragment __ FRAGMENT_ONLY\n#pragma multi_compile_fwdbase noshadow\n" ++
    "#pragma multi_compile_local SHADOWS_SOFT\n")

theorem visited_axes_are_emitted_sample :
    shaderlab_variant_plan_emit_pragmas sampleEmittedPlan ⟨.fwdbase, 1⟩ 0 =
        some sampleEmittedText ∧
      ∃ (before after : List ShaderLabVariantAxis) (ds ds' : List Directive) (pragma : Text),
        VisitsAxes sampleEmittedPlan 1 (before ++ after) ∧
        sampleEmittedText =
          tierLine sampleEmittedPlan 0 ++ directiveLines 0 ds ++ pragma ++ directiveLines 0 ds' ∧
        formsOf 1 ds = before.map (axisForm sampleEmittedPlan) ∧
        formsOf 1 ds' = after.map (axisForm sampleEmittedPlan) := by
  have hrun : shaderlab_variant_plan_emit_pragmas sampleEmittedPlan ⟨.fwdbase, 1⟩ 0 =
      some sampleEmittedText := by
    simp only [sampleEmittedText, text_append]
    repeat rw [text_ofList]
    decide +kernel
  obtain ⟨before, after, hvisits, -, -, -, hemits⟩ := visited_axes_are_emitted sampleEmittedPlan 1
    ⟨true, false, [], [], [⟨true, false, [3]⟩, ⟨true, false, [0]⟩, ⟨false, true, [1]⟩], 2⟩
    (by decide +kernel) rfl rfl
  obtain ⟨ds, ds', pragma, -, hlines, -, hds, hds', -⟩ := hemits _ _ _ hrun
  exact ⟨hrun, before, after, ds, ds', pragma, hvisits, hlines, hds, hds'⟩

end DXBCSandbox
