/-
The axes of a plan as pragmas (`src/translation/shaderlab_variant_plan.c`).

Axes that every active stage has are written once and without a suffix, in the order of the first
active stage; the others keep their stage. The visitor of one stage goes over the same axes without
writing anything. Both refuse a plan whose stages do not agree on the axes they share.

A string builder only fails where an allocation does, so what is appended is a text.
-/
import DXBCSandbox.Shaderlab.VariantPlan

namespace DXBCSandbox

open Preprocessor VariantPlan

inductive ShaderLabBuiltinVariantFamily where
  | invalid | fwdaddFullshadows | fwdadd | fwdbaseAlpha | fwdbase | lightpass | shadowcaster
  | shadowcollector | prepassfinal
  deriving DecidableEq

structure BuiltinPragma where
  builtin_family : ShaderLabBuiltinVariantFamily
  builtin_exclusions : UInt32

namespace EmittedAxes

/-! ## Names of an axis -/

variable (plan : ShaderLabVariantPlan)

def emitted_axis_keyword_name (axis : ShaderLabVariantAxis) (keyword_index : ℕ) : Option CString :=
  match axis.keyword_indices[keyword_index]? with
  | none => none
  | some raw =>
    if plan.shader.keyword_names.count ≤ raw.val then none
    else (plan.shader.keyword_names.toList.getD raw.val none)

/-- The test of one keyword: it is an identifier and none of the previous ones. -/
def emitted_keyword_is_valid (axis : ShaderLabVariantAxis) (keyword : ℕ) : Bool :=
  keyword_is_identifier (emitted_axis_keyword_name plan axis keyword) &&
    (List.range keyword).all fun previous =>
      (emitted_axis_keyword_name plan axis previous).isSome &&
        emitted_axis_keyword_name plan axis keyword ≠ emitted_axis_keyword_name plan axis previous

def emitted_axis_is_valid (axis : ShaderLabVariantAxis) : Bool :=
  if axis.keyword_indices.length = 0 then false
  else (List.range axis.keyword_indices.length).all (emitted_keyword_is_valid plan axis)

def emitted_axis_equal (left right : ShaderLabVariantAxis) : Bool :=
  if ¬ emitted_axis_is_valid plan left ∨ ¬ emitted_axis_is_valid plan right ∨
      left.has_default ≠ right.has_default ∨ left.is_local ≠ right.is_local ∨
      left.keyword_indices.length ≠ right.keyword_indices.length then false
  else (List.range left.keyword_indices.length).all fun keyword =>
    emitted_axis_keyword_name plan left keyword = emitted_axis_keyword_name plan right keyword

def emitted_axes_overlap (left right : ShaderLabVariantAxis) : Bool :=
  if ¬ emitted_axis_is_valid plan left ∨ ¬ emitted_axis_is_valid plan right then false
  else (List.range left.keyword_indices.length).any fun left_index =>
    (List.range right.keyword_indices.length).any fun right_index =>
      emitted_axis_keyword_name plan left left_index =
        emitted_axis_keyword_name plan right right_index

/-! ## Coherence -/

def stage_axes_are_valid (plan : ShaderLabVariantPlan) : List ShaderLabVariantAxis → Bool
  | [] => true
  | axis :: axes =>
    emitted_axis_is_valid plan axis && !axes.any (emitted_axes_overlap plan axis) &&
      stage_axes_are_valid plan axes

def stage_is_coherent (stage : ShaderLabPassStageVariantPlan) : Bool :=
  if stage.axes.length < stage.builtin_axis_position then false
  else stage_axes_are_valid plan stage.axes

/-- The loop over the axes of another stage, from `other_axis_index` on: the count of the exact
matches. -/
def count_exact_matches (plan : ShaderLabVariantPlan) (axis : ShaderLabVariantAxis)
    (before_builtin : Bool) (builtin_axis_position : ℕ) :
    (other_axis_index : ℕ) → List ShaderLabVariantAxis → Option ℕ
  | _, [] => some 0
  | other_axis_index, other_axis :: axes =>
    if ¬ emitted_axes_overlap plan axis other_axis then
      count_exact_matches plan axis before_builtin builtin_axis_position (other_axis_index + 1) axes
    else if ¬ emitted_axis_equal plan axis other_axis then none
    else if plan.has_builtin ∧
        before_builtin ≠ decide (other_axis_index < builtin_axis_position) then none
    else do
      let exact_match_count ← count_exact_matches plan axis before_builtin
        builtin_axis_position (other_axis_index + 1) axes
      some (exact_match_count + 1)

/-- The loop over the other stages: the count of those that match. -/
def count_matching_stages (plan : ShaderLabVariantPlan) (axis : ShaderLabVariantAxis)
    (before_builtin : Bool) : List ShaderLabPassStageVariantPlan → Option ℕ
  | [] => some 0
  | other_stage :: stages =>
    if ¬ other_stage.active then count_matching_stages plan axis before_builtin stages
    else do
      let exact_match_count ← count_exact_matches plan axis before_builtin
        other_stage.builtin_axis_position 0 other_stage.axes
      if 1 < exact_match_count then none
      else do
        let matching_stage_count ← count_matching_stages plan axis before_builtin stages
        some (if exact_match_count = 1 then matching_stage_count + 1 else matching_stage_count)

/-- The checks of one axis against all stages. -/
def axis_is_coherent (active_stage_count : ℕ) (stage : ShaderLabPassStageVariantPlan)
    (axis_index : ℕ) (axis : ShaderLabVariantAxis) : Bool :=
  match count_matching_stages plan axis (axis_index < stage.builtin_axis_position) plan.stages with
  | none => false
  | some matching_stage_count =>
    !(1 < matching_stage_count && matching_stage_count < active_stage_count)

end EmittedAxes

open EmittedAxes

def validate_emitted_axis_coherence (plan : ShaderLabVariantPlan) : Bool :=
  let active_stages := plan.stages.filter (·.active)
  if plan.shader.keyword_names.invalid then false
  else if ¬ active_stages.all (stage_is_coherent plan) then false
  else if active_stages.length = 0 then false
  else active_stages.all fun stage => stage.axes.zipIdx.all fun entry =>
    axis_is_coherent plan active_stages.length stage entry.2 entry.1

namespace EmittedAxes

/-! ## Visiting -/

def emitted_axis_is_common (plan : ShaderLabVariantPlan) (axis : ShaderLabVariantAxis) : Bool :=
  plan.stages.all fun stage => !stage.active || stage.axes.any (emitted_axis_equal plan axis)

/-- `stage->axes[begin]` up to `stage->axes[end]`. -/
def axisRange (stage : ShaderLabPassStageVariantPlan) (first last : ℕ) :
    List ShaderLabVariantAxis :=
  (stage.axes.take last).drop first

/-- The loop over the candidates of `matching_stage_axis_in_range`. -/
def find_match (plan : ShaderLabVariantPlan) (emitted_axis : ShaderLabVariantAxis) :
    List ShaderLabVariantAxis → Option ShaderLabVariantAxis → Option ShaderLabVariantAxis
  | [], found => found
  | candidate :: axes, found =>
    if ¬ emitted_axis_equal plan emitted_axis candidate then
      find_match plan emitted_axis axes found
    else if found.isSome then none
    else find_match plan emitted_axis axes (some candidate)

def matching_stage_axis_in_range (plan : ShaderLabVariantPlan)
    (stage : ShaderLabPassStageVariantPlan) (emitted_axis : ShaderLabVariantAxis)
    (first last : ℕ) : Option ShaderLabVariantAxis :=
  if ¬ stage.active ∨ last < first ∨ stage.axes.length < last then none
  else find_match plan emitted_axis (axisRange stage first last) none

section Visit

variable {σ : Type}

/-- The loop over the common axes of the first active stage. -/
def visit_common_axes (plan : ShaderLabVariantPlan) (stage : ShaderLabPassStageVariantPlan)
    (first last : ℕ) (visitor : ShaderLabVariantAxis → σ → Bool × σ) :
    List ShaderLabVariantAxis → σ → Bool × σ
  | [], context => (true, context)
  | axis :: axes, context =>
    if ¬ emitted_axis_is_common plan axis then
      visit_common_axes plan stage first last visitor axes context
    else
      match matching_stage_axis_in_range plan stage axis first last with
      | none => (false, context)
      | some target =>
        let visited := visitor target context
        if ¬ visited.1 then visited
        else visit_common_axes plan stage first last visitor axes visited.2

def visit_stage_axes (plan : ShaderLabVariantPlan) (visitor : ShaderLabVariantAxis → σ → Bool × σ) :
    List ShaderLabVariantAxis → σ → Bool × σ
  | [], context => (true, context)
  | axis :: axes, context =>
    if emitted_axis_is_common plan axis then visit_stage_axes plan visitor axes context
    else
      let visited := visitor axis context
      if ¬ visited.1 then visited else visit_stage_axes plan visitor axes visited.2

def visit_emitted_stage_axis_range (plan : ShaderLabVariantPlan)
    (first_stage stage : ShaderLabPassStageVariantPlan)
    (first_begin first_end stage_begin stage_end : ℕ)
    (visitor : ShaderLabVariantAxis → σ → Bool × σ) (context : σ) : Bool × σ :=
  if first_end < first_begin ∨ first_stage.axes.length < first_end ∨ stage_end < stage_begin ∨
      stage.axes.length < stage_end then (false, context)
  else
    let visited := visit_common_axes plan stage stage_begin stage_end visitor
      (axisRange first_stage first_begin first_end) context
    if ¬ visited.1 then visited
    else visit_stage_axes plan visitor (axisRange stage stage_begin stage_end) visited.2

end Visit

end EmittedAxes

/-- The visitor gets the state that it keeps in its context, and says whether to go on. -/
def shaderlab_variant_plan_visit_emitted_stage_axes {σ : Type} (plan : ShaderLabVariantPlan)
    (stage_index : ℕ) (visitor : ShaderLabVariantAxis → σ → Bool × σ) (context : σ) : Bool × σ :=
  match plan.stages[stage_index]? with
  | none => (false, context)
  | some stage =>
    if ¬ stage.active ∨ ¬ validate_emitted_axis_coherence plan then (false, context)
    else
      match plan.stages.find? (·.active) with
      | none => (false, context)
      | some first =>
        if ¬ plan.has_builtin then
          visit_emitted_stage_axis_range plan first stage 0 first.axes.length 0
            stage.axes.length visitor context
        else
          let visited := visit_emitted_stage_axis_range plan first stage 0
            first.builtin_axis_position 0 stage.builtin_axis_position visitor context
          if ¬ visited.1 then visited
          else visit_emitted_stage_axis_range plan first stage first.builtin_axis_position
            first.axes.length stage.builtin_axis_position stage.axes.length visitor visited.2

namespace EmittedAxes

/-! ## Emission -/

def stage_suffix (stage_index : ℕ) : Option Text :=
  [text "vertex", text "fragment", text "geometry", text "hull", text "domain"][stage_index]?

def indentation (indent : ℤ) : Text := (List.replicate indent.toNat (text "    ")).flatten

def emit_keywords (plan : ShaderLabVariantPlan) : List KeywordIndex → Option Text
  | [] => some []
  | raw :: keywords =>
    if plan.shader.keyword_names.count ≤ raw.val then none
    else
      match plan.shader.keyword_names.toList.getD raw.val none with
      | none => none
      | some name => do
        let rest ← emit_keywords plan keywords
        some (text " " ++ name.bytes ++ rest)

variable (plan : ShaderLabVariantPlan)

def emit_axis (axis : ShaderLabVariantAxis) (suffix : Option Text) (indent : ℤ) : Option Text :=
  if axis.keyword_indices.length = 0 then none
  else do
    let keywords ← emit_keywords plan axis.keyword_indices
    some (indentation indent ++ text "#pragma multi_compile" ++
      (if axis.is_local then text "_local" else []) ++
      (match suffix with
        | none => []
        | some suffix => text "_" ++ suffix) ++
      (if axis.has_default then text " __" else []) ++ keywords ++ [10])

def emit_axes (plan : ShaderLabVariantPlan) (suffix : Option Text) (indent : ℤ) :
    List ShaderLabVariantAxis → Option Text
  | [] => some []
  | axis :: axes => do
    let line ← emit_axis plan axis suffix indent
    let rest ← emit_axes plan suffix indent axes
    some (line ++ rest)

def emit_stage_axes (plan : ShaderLabVariantPlan) (indent : ℤ) :
    (stage_index : ℕ) → List (ShaderLabPassStageVariantPlan × ℕ × ℕ) → Option Text
  | _, [] => some []
  | stage_index, (stage, first, last) :: stages =>
    if ¬ stage.active then emit_stage_axes plan indent (stage_index + 1) stages
    else do
      let suffix ← stage_suffix stage_index
      let lines ← emit_axes plan (some suffix) indent
        ((axisRange stage first last).filter fun axis => !emitted_axis_is_common plan axis)
      let rest ← emit_stage_axes plan indent (stage_index + 1) stages
      some (lines ++ rest)

/-- `begin` and `end` are given as functions of the stage. -/
def emit_synchronized_axis_ranges (first last : ShaderLabPassStageVariantPlan → ℕ) (indent : ℤ) :
    Option Text :=
  match plan.stages.find? (·.active) with
  | none => none
  | some first_stage => do
    let common ← emit_axes plan none indent
      ((axisRange first_stage (first first_stage) (last first_stage)).filter
        (emitted_axis_is_common plan))
    let stages ← emit_stage_axes plan indent 0
      (plan.stages.map fun stage => (stage, first stage, last stage))
    some (common ++ stages)

/-- `shaderlab_builtin_variant_domain_get`, up to its directive. -/
def builtin_directive (family : ShaderLabBuiltinVariantFamily) (stage_index : ℕ) : Option Text :=
  if 5 ≤ stage_index then none
  else
    match family with
    | .fwdaddFullshadows => some (text "multi_compile_fwdadd_fullshadows")
    | .fwdadd => some (text "multi_compile_fwdadd")
    | .fwdbaseAlpha => some (text "multi_compile_fwdbasealpha")
    | .fwdbase => some (text "multi_compile_fwdbase")
    | .lightpass => some (text "multi_compile_lightpass")
    | .shadowcaster => some (text "multi_compile_shadowcaster")
    | .shadowcollector => some (text "multi_compile_shadowcollector")
    | .prepassfinal => some (text "multi_compile_prepassfinal")
    | .invalid => none

def exclusion_names : List (UInt32 × Text) :=
  [(1, text "noshadow"), (2, text "nolightmap"), (4, text "nodirlightmap"),
    (8, text "nodynlightmap"), (16, text "noshadowmask"), (32, text "novertexlight")]

def emit_builtin_pragma (builtin : BuiltinPragma) (indent : ℤ) :
    Option Text := do
  let directive ← builtin_directive builtin.builtin_family (plan.stages.findIdx (·.active))
  let exclusions := exclusion_names.filter fun entry => builtin.builtin_exclusions &&& entry.1 ≠ 0
  some (indentation indent ++ text "#pragma " ++ directive ++
    exclusions.flatMap (fun entry => text " " ++ entry.2) ++ [10])

end EmittedAxes

def shaderlab_variant_plan_emit_pragmas (plan : ShaderLabVariantPlan) (builtin : BuiltinPragma)
    (indent : ℤ) : Option Text :=
  if indent < 0 then none
  else if ¬ validate_emitted_axis_coherence plan then none
  else
    let tiers := if plan.uses_specific_hardware_tiers then
      indentation indent ++ text "#pragma hardware_tier_variants d3d11\n" else []
    if plan.has_builtin then do
      let before ← emit_synchronized_axis_ranges plan (fun _ => 0) (·.builtin_axis_position) indent
      let pragma ← emit_builtin_pragma plan builtin indent
      let after ← emit_synchronized_axis_ranges plan (·.builtin_axis_position) (·.axes.length)
        indent
      some (tiers ++ before ++ pragma ++ after)
    else do
      let axes ← emit_synchronized_axis_ranges plan (fun _ => 0) (·.axes.length) indent
      some (tiers ++ axes)

end DXBCSandbox
