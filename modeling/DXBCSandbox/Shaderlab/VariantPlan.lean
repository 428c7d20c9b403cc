/-
The variant planner up to the collected stages (`src/translation/shaderlab_variant_plan.c`).

A pass is read stage by stage. Every D3D subprogram becomes a planned variant with its tier and
its keyword state, and the states of one tier, the reference tier, are the ordered states of the
stage: they are distinct, and the other tiers repeat them. The states of the planner are its own
copies, so they are lists here. What turns ordered states into axes is a parameter of the build.
-/
import DXBCSandbox.Io.SerializedShader
import DXBCSandbox.Lib.Checks
import DXBCSandbox.Lib.Preprocessor
import DXBCSandbox.Shaderlab.VariantDomain
import Mathlib.Data.List.FinRange

namespace DXBCSandbox

open Checks Preprocessor

inductive ShaderLabVariantPlanStatus where
  | ok | invalidArgument | missingKeywordAuthority | invalidKeyword | invalidKeywordFlags
  | invalidPassMask | invalidRawIndex | noncanonicalRawIndices | scopeConflict
  | candidateOutsidePassMask | noD3dVariants | tierDomainMismatch | builtinAmbiguous
  | nonfactorable | orderMismatch | proofLimitExceeded | aliasProofFailed | allocationFailed
  | outputFailed
  deriving DecidableEq

structure ShaderLabVariantPlanDiagnostic where
  status : ShaderLabVariantPlanStatus
  stage_index : ℤ
  subprogram_index : ℤ
  conflicting_subprogram_index : ℤ
  raw_keyword_index : ℤ

structure ShaderLabPlannedVariant where
  subprogram_index : ℕ
  hardware_tier_group : ℤ
  keyword_indices : List KeywordIndex

structure ShaderLabVariantAxis where
  has_default : Bool
  is_local : Bool
  keyword_indices : List KeywordIndex
  deriving DecidableEq

structure ShaderLabPassStageVariantPlan where
  active : Bool
  uses_specific_hardware_tiers : Bool
  variants : List ShaderLabPlannedVariant
  ordered_states : List (List KeywordIndex)
  axes : List ShaderLabVariantAxis
  builtin_axis_position : ℕ

structure ShaderLabVariantPlan where
  shader : SerializedShader
  pass : SerializedPass
  has_builtin : Bool
  uses_specific_hardware_tiers : Bool
  stages : List ShaderLabPassStageVariantPlan

namespace VariantPlan

abbrev Planning (α : Type) := Except ShaderLabVariantPlanDiagnostic α

/-! ## Keywords and states -/

def keyword_is_identifier (keyword : Option CString) : Bool :=
  match keyword with
  | none => false
  | some keyword =>
    match keyword.bytes with
    | [] => false
    | first :: rest =>
      if keyword.bytes = text "defined" then false
      else if ¬ ((65 ≤ first ∧ first ≤ 90) ∨ (97 ≤ first ∧ first ≤ 122) ∨ first = 95) then false
      else rest.all fun value => (65 ≤ value ∧ value ≤ 90) ∨ (97 ≤ value ∧ value ≤ 122) ∨
        (48 ≤ value ∧ value ≤ 57) ∨ value = 95

/-- The binary search of `state_contains`; `n` bounds its steps. -/
def state_contains_between (state : List KeywordIndex) (keyword : KeywordIndex) :
    (n low high : ℕ) → Bool
  | 0, _, _ => false
  | n + 1, low, high =>
    if low < high then
      let middle := low + (high - low) / 2
      let current := state.getD middle 0
      if current = keyword then true
      else if current < keyword then state_contains_between state keyword n (middle + 1) high
      else state_contains_between state keyword n low middle
    else false

def state_contains (state : List KeywordIndex) (keyword : KeywordIndex) : Bool :=
  state_contains_between state keyword (state.length + 1) 0 state.length

def raw_indices_increase : List ℤ → Bool
  | [] => true
  | raw :: rest =>
    if raw < 0 ∨ 65535 < raw then false
    else if rest.head?.any fun next => next ≤ raw then false
    else raw_indices_increase rest

def raw_scope_is_canonical (indices : IntArray ℤ) : Bool :=
  if indices.invalid then false else raw_indices_increase indices.toList

def keywordIndex (raw : ℤ) : KeywordIndex := Fin.ofNat 65536 raw.toNat

/-! ## Authority -/

def validate_keyword_names : (i : ℕ) → List (Option CString) → Planning Unit
  | _, [] => .ok ()
  | i, keyword :: keywords =>
    if ¬ keyword_is_identifier keyword then .error ⟨.invalidKeyword, -1, -1, -1, i⟩
    else validate_keyword_names (i + 1) keywords

variable (shader : SerializedShader)

def validate_shader_authority : Planning Unit :=
  if shader.keyword_names.invalid then .error ⟨.invalidArgument, -1, -1, -1, -1⟩
  else if shader.keyword_names.count ≠ 0 ∧ shader.keyword_flags = none then
    .error ⟨.missingKeywordAuthority, -1, -1, -1, -1⟩
  else if 65536 < shader.keyword_names.count then
    .error ⟨.invalidKeywordFlags, -1, -1, -1, -1⟩
  else validate_keyword_names 0 shader.keyword_names.toList

def validate_mask_indices (keyword_count : ℤ) : List KeywordIndex → Planning Unit
  | [] => .ok ()
  | index :: indices =>
    if keyword_count ≤ index.val then .error ⟨.invalidPassMask, -1, -1, -1, index.val⟩
    else validate_mask_indices keyword_count indices

def validate_pass_mask (pass : SerializedPass) : Planning (List KeywordIndex) :=
  if pass.serialized_keyword_state_mask.invalid then
    .error ⟨.invalidPassMask, -1, -1, -1, -1⟩
  else
    let mask := pass.serialized_keyword_state_mask.toList.map fun index =>
      Fin.ofNat 65536 index.toNat
    if ¬ strictly_increasing mask then .error ⟨.invalidPassMask, -1, -1, -1, -1⟩
    else do
      validate_mask_indices shader.keyword_names.count mask
      pure mask

/-! ## The state of a subprogram -/

/-- `(shader->keyword_flags[raw] & 1u) != 0u`. -/
def keyword_is_local (raw : ℤ) : Bool :=
  (shader.keyword_flags.getD []).getD raw.toNat 0 &&& 1 ≠ 0

/-- The loop over the indices of one scope, or of the combined one. -/
def validate_raw_indices (shader : SerializedShader) (stage_index subprogram_index : ℤ)
    (scope_conflict : ℤ → Bool) : List ℤ → Planning Unit
  | [] => .ok ()
  | raw :: rest =>
    if shader.keyword_names.count ≤ raw then
      .error ⟨.invalidRawIndex, stage_index, subprogram_index, -1, raw⟩
    else if scope_conflict raw then
      .error ⟨.scopeConflict, stage_index, subprogram_index, -1, raw⟩
    else validate_raw_indices shader stage_index subprogram_index scope_conflict rest

/-- The loop that merges the scopes. A keyword of both of them is an error. -/
def merge_raw_scopes (stage_index subprogram_index : ℤ) (globals locals : List ℤ) :
    Planning (List KeywordIndex) :=
  match globals, locals with
  | [], [] => .ok []
  | g :: globals, [] => do
    let merged ← merge_raw_scopes stage_index subprogram_index globals []
    pure (keywordIndex g :: merged)
  | [], l :: locals => do
    let merged ← merge_raw_scopes stage_index subprogram_index [] locals
    pure (keywordIndex l :: merged)
  | g :: globals, l :: locals =>
    if g < l then do
      let merged ← merge_raw_scopes stage_index subprogram_index globals (l :: locals)
      pure (keywordIndex g :: merged)
    else if l < g then do
      let merged ← merge_raw_scopes stage_index subprogram_index (g :: globals) locals
      pure (keywordIndex l :: merged)
    else .error ⟨.scopeConflict, stage_index, subprogram_index, -1, g⟩
  termination_by globals.length + locals.length

/-- The check against the pass mask, with the first keyword outside it. -/
def require_in_mask (pass_mask : List KeywordIndex) (stage_index subprogram_index : ℤ)
    (state : List KeywordIndex) : Planning (List KeywordIndex) :=
  if ¬ state_is_subset state pass_mask then
    let offending := (state.find? fun keyword => !state_contains pass_mask keyword).elim (-1)
      fun keyword => (keyword.val : ℤ)
    .error ⟨.candidateOutsidePassMask, stage_index, subprogram_index, -1, offending⟩
  else .ok state

def identity_to_state (identity : SerializedSubProgramIdentity) (pass_mask : List KeywordIndex)
    (stage_index subprogram_index : ℤ) : Planning (List KeywordIndex) :=
  let globals := identity.global_keyword_indices
  let locals := identity.local_keyword_indices
  if ¬ identity.keyword_scopes_are_explicit then
    if globals.count ≠ 0 ∨ globals.values ≠ none ∨ ¬ raw_scope_is_canonical locals then
      .error ⟨.noncanonicalRawIndices, stage_index, subprogram_index, -1, -1⟩
    else do
      validate_raw_indices shader stage_index subprogram_index (fun _ => false) locals.toList
      require_in_mask pass_mask stage_index subprogram_index (locals.toList.map keywordIndex)
  else if ¬ raw_scope_is_canonical globals ∨ ¬ raw_scope_is_canonical locals then
    .error ⟨.noncanonicalRawIndices, stage_index, subprogram_index, -1, -1⟩
  else do
    validate_raw_indices shader stage_index subprogram_index (keyword_is_local shader)
      globals.toList
    validate_raw_indices shader stage_index subprogram_index
      (fun raw => !keyword_is_local shader raw) locals.toList
    let merged ← merge_raw_scopes stage_index subprogram_index globals.toList locals.toList
    require_in_mask pass_mask stage_index subprogram_index merged

/-! ## The stages -/

/-- The loop over the subprograms from `i` on, which plans the variants. -/
def plan_variants (shader : SerializedShader) (pass : SerializedPass)
    (pass_mask : List KeywordIndex) (stage : Fin SERIALIZED_STAGE_COUNT) :
    (i : ℕ) → List SerializedSubProgramIdentity → Planning (List ShaderLabPlannedVariant)
  | _, [] => .ok []
  | i, identity :: rest =>
    if ¬ serialized_pass_subprogram_is_platform pass stage i 4 then
      plan_variants shader pass pass_mask stage (i + 1) rest
    else if identity.hardware_tier_group < 0 ∨ 3 < identity.hardware_tier_group then
      .error ⟨.tierDomainMismatch, stage.val, i, -1, -1⟩
    else do
      let keyword_indices ← identity_to_state shader identity pass_mask stage.val i
      let variants ← plan_variants shader pass pass_mask stage (i + 1) rest
      pure (⟨i, identity.hardware_tier_group, keyword_indices⟩ :: variants)

/-- The loop that collects the states of the reference tier. A state that is there already is
reported with the variant at its place among the states. -/
def order_states (stage : Fin SERIALIZED_STAGE_COUNT) (all : List ShaderLabPlannedVariant)
    (reference_tier : ℤ) : List ShaderLabPlannedVariant → (ordered : List (List KeywordIndex)) →
    Planning (List (List KeywordIndex))
  | [], ordered => .ok ordered
  | variant :: rest, ordered =>
    if variant.hardware_tier_group ≠ reference_tier then
      order_states stage all reference_tier rest ordered
    else
      match ordered.findIdx? (· = variant.keyword_indices) with
      | some previous =>
        .error ⟨.tierDomainMismatch, stage.val, variant.subprogram_index,
          (all[previous]?.elim 0 (·.subprogram_index) : ℕ), -1⟩
      | none =>
        order_states stage all reference_tier rest (ordered ++ [variant.keyword_indices])

/-- The loop that compares the states of a tier with the ordered ones, from `state_index` on. -/
def match_tier (stage : Fin SERIALIZED_STAGE_COUNT) (tier : ℤ)
    (ordered_states : List (List KeywordIndex)) :
    (state_index : ℕ) → List ShaderLabPlannedVariant → Planning Unit
  | state_index, [] =>
    if state_index ≠ ordered_states.length then
      .error ⟨.tierDomainMismatch, stage.val, -1, -1, -1⟩
    else .ok ()
  | state_index, variant :: rest =>
    if variant.hardware_tier_group ≠ tier then
      match_tier stage tier ordered_states state_index rest
    else if ordered_states[state_index]? ≠ some variant.keyword_indices then
      .error ⟨.tierDomainMismatch, stage.val, variant.subprogram_index, -1, -1⟩
    else match_tier stage tier ordered_states (state_index + 1) rest

def inactive_stage : ShaderLabPassStageVariantPlan := ⟨false, false, [], [], [], 0⟩

def plan_stage (stage : Fin SERIALIZED_STAGE_COUNT) (variants : List ShaderLabPlannedVariant) :
    Planning ShaderLabPassStageVariantPlan :=
  let tier_count (tier : ℤ) := variants.countP fun v => v.hardware_tier_group = tier
  let has_generic := tier_count 3 ≠ 0
  let has_specific := tier_count 0 ≠ 0 ∨ tier_count 1 ≠ 0 ∨ tier_count 2 ≠ 0
  if (has_generic ∧ has_specific) ∨ (has_specific ∧ (tier_count 0 = 0 ∨
      tier_count 0 ≠ tier_count 1 ∨ tier_count 0 ≠ tier_count 2)) then
    .error ⟨.tierDomainMismatch, stage.val, -1, -1, -1⟩
  else do
    let reference_tier := if has_generic then 3 else 0
    let ordered_states ← order_states stage variants reference_tier variants []
    if ordered_states.length ≠ tier_count reference_tier then
      .error ⟨.tierDomainMismatch, stage.val, -1, -1, -1⟩
    else if has_specific then do
      match_tier stage 1 ordered_states 0 variants
      match_tier stage 2 ordered_states 0 variants
      pure ⟨true, true, variants, ordered_states, [], 0⟩
    else pure ⟨true, false, variants, ordered_states, [], 0⟩

def stage_collect_variants (pass : SerializedPass) (pass_mask : List KeywordIndex)
    (stage : Fin SERIALIZED_STAGE_COUNT) : Planning ShaderLabPassStageVariantPlan :=
  let arrays := pass.stages stage
  if arrays.subprograms.count < 0 ∨ (arrays.subprograms.count ≠ 0 ∧
      (arrays.subprograms.values = none ∨ arrays.identities = none)) then
    .error ⟨.invalidArgument, stage.val, -1, -1, -1⟩
  else if ∀ i < arrays.subprograms.count.toNat,
      ¬ serialized_pass_subprogram_is_platform pass stage i 4 then pure inactive_stage
  else do
    let variants ← plan_variants shader pass pass_mask stage 0
      ((arrays.identities.getD []).take arrays.subprograms.count.toNat)
    plan_stage stage variants

/-- The loop over the stages: the stages, and the tier mode of the active ones. -/
def collect_stages (shader : SerializedShader) (pass : SerializedPass)
    (pass_mask : List KeywordIndex) : List (Fin SERIALIZED_STAGE_COUNT) → (tier_mode : Option Bool) →
    Planning (List ShaderLabPassStageVariantPlan × Option Bool)
  | [], tier_mode => .ok ([], tier_mode)
  | stage :: rest, tier_mode => do
    let plan ← stage_collect_variants shader pass pass_mask stage
    if ¬ plan.active then do
      let (plans, tier_mode) ← collect_stages shader pass pass_mask rest tier_mode
      pure (plan :: plans, tier_mode)
    else if tier_mode.any fun mode => mode ≠ plan.uses_specific_hardware_tiers then
      .error ⟨.tierDomainMismatch, stage.val, -1, -1, -1⟩
    else do
      let (plans, tier_mode) ← collect_stages shader pass pass_mask rest
        (some plan.uses_specific_hardware_tiers)
      pure (plan :: plans, tier_mode)

end VariantPlan

open VariantPlan

/-- The stages that are planned: vertex, fragment, geometry, hull and domain. -/
def PLANNED_STAGES : List (Fin SERIALIZED_STAGE_COUNT) :=
  (List.finRange SERIALIZED_STAGE_COUNT).take 5

/-- `shaderlab_variant_plan_build`, with the diagnostic of a failure. `plan_axes` is what follows
the collection of the stages: the search for a built-in family, the axes and their proofs. -/
def shaderlab_variant_plan_build (plan_axes : ShaderLabVariantPlan → Planning ShaderLabVariantPlan)
    (shader : SerializedShader) (pass : SerializedPass) : Planning ShaderLabVariantPlan := do
  validate_shader_authority shader
  if ¬ pass.has_serialized_platforms ∨ pass.platforms.count ≤ 0 ∨ pass.platforms.values = none then
    .error ⟨.invalidArgument, -1, -1, -1, -1⟩
  else do
    let pass_mask ← validate_pass_mask shader pass
    let (stages, tier_mode) ← collect_stages shader pass pass_mask PLANNED_STAGES none
    match tier_mode with
    | none => .error ⟨.noD3dVariants, -1, -1, -1, -1⟩
    | some uses_specific_hardware_tiers =>
      plan_axes { shader, pass, has_builtin := false, uses_specific_hardware_tiers, stages }

end DXBCSandbox
