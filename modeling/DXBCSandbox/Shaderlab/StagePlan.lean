/-
The legacy stage planner (`src/translation/shaderlab_stage.c`, `stage_plan_build`).

One pass over the subprograms of a stage collects the keywords of the D3D variants and the
variants themselves. Both are sorted, and then the planner looks at neighbours only: variants
with the same keywords must differ in their tier, and the groups of equal keyword sets are
counted. Every accepted variant gets a preprocessor condition over all keywords and tiers.

`qsort` is sorting by a key: no two keywords are the same string, and no two variants have the
same subprogram index. A failure frees the plan, so only the diagnostic is left of it.
-/
import DXBCSandbox.Io.SerializedShader
import DXBCSandbox.Lib.Checks
import DXBCSandbox.Lib.KeySort
import DXBCSandbox.Lib.Preprocessor

namespace DXBCSandbox

open Checks Preprocessor

inductive ShaderLabStageStatus where
  | invalidArgument | missingPlatformAuthority | noD3dVariants | invalidKeyword
  | duplicateKeyword | ambiguousPredicate | incompletePredicate
  deriving DecidableEq

structure ShaderLabStageDiagnostic where
  status : ShaderLabStageStatus
  stage_index : ℤ
  subprogram_index : ℤ
  conflicting_subprogram_index : ℤ

structure ShaderLabStageVariantPlan where
  subprogram_index : ℕ
  hardware_tier_group : ℕ
  enabled_keyword_indices : List ℕ

structure ShaderLabStagePlan where
  keywords : List CString
  variants : List ShaderLabStageVariantPlan

namespace StagePlan

/-! ## Keywords -/

def is_generated_control_keyword (keyword : CString) : Bool :=
  keyword.bytes ∈ ["VERTEX", "FRAGMENT", "GEOMETRY", "HULL", "DOMAIN", "SHADER_STAGE_VERTEX",
    "SHADER_STAGE_FRAGMENT", "SHADER_STAGE_GEOMETRY", "SHADER_STAGE_HULL", "SHADER_STAGE_DOMAIN",
    "UNITY_HARDWARE_TIER1", "UNITY_HARDWARE_TIER2", "UNITY_HARDWARE_TIER3"].map text

def keyword_is_exact_preprocessor_identifier (keyword : Option CString) : Bool :=
  match keyword with
  | none => false
  | some keyword =>
    match keyword.bytes with
    | [] => false
    | first :: rest =>
      if keyword.bytes = text "defined" ∨ is_generated_control_keyword keyword then false
      else if ¬ ((65 ≤ first ∧ first ≤ 90) ∨ (97 ≤ first ∧ first ≤ 122) ∨ first = 95) then false
      else rest.all fun value => (65 ≤ value ∧ value ≤ 90) ∨ (97 ≤ value ∧ value ≤ 122) ∨
        (48 ≤ value ∧ value ≤ 57) ∨ value = 95

variable (sub : SerializedSubProgram)

def subprogram_keywords : List (Option CString) :=
  sub.local_keywords.toList ++ sub.global_keywords.toList

def validate_keywords : (previous rest : List (Option CString)) → Bool
  | _, [] => true
  | previous, keyword :: rest =>
    keyword_is_exact_preprocessor_identifier keyword && !(keyword ∈ previous) &&
      validate_keywords (previous ++ [keyword]) rest

def validate_subprogram_keywords : Bool :=
  if sub.local_keywords.invalid ∨ sub.global_keywords.invalid then false
  else validate_keywords [] (subprogram_keywords sub)

def first_failure_is_duplicate : (previous rest : List (Option CString)) → Bool
  | _, [] => false
  | previous, keyword :: rest =>
    if ¬ keyword_is_exact_preprocessor_identifier keyword then false
    else if keyword ∈ previous then true
    else first_failure_is_duplicate (previous ++ [keyword]) rest

def keyword_failure_is_duplicate : Bool :=
  if sub.local_keywords.invalid ∨ sub.global_keywords.invalid then false
  else first_failure_is_duplicate [] (subprogram_keywords sub)

def stage_plan_add_keyword (keywords : List CString) (keyword : CString) : List CString :=
  if keyword ∈ keywords then keywords else keywords ++ [keyword]

/-- The binary search of `find_sorted_keyword`; `n` bounds its steps. -/
def find_sorted_keyword (keywords : List CString) (keyword : CString) : (n low high : ℕ) → Option ℕ
  | 0, _, _ => none
  | n + 1, low, high =>
    if low < high then
      let middle := low + (high - low) / 2
      match compare keyword.bytes (keywords.getD middle default).bytes with
      | .eq => some middle
      | .lt => find_sorted_keyword keywords keyword n low middle
      | .gt => find_sorted_keyword keywords keyword n (middle + 1) high
    else none

/-! ## Variants -/

/-- The first loop of `stage_plan_build`, over the subprograms from `index` on. -/
def collect_variants (pass : SerializedPass) (stage : Fin SERIALIZED_STAGE_COUNT) :
    (index : ℕ) → List (SerializedSubProgram × SerializedSubProgramIdentity) →
      ShaderLabStagePlan → Except ShaderLabStageDiagnostic ShaderLabStagePlan
  | _, [], plan => pure plan
  | index, (sub, identity) :: rest, plan =>
    if ¬ serialized_pass_subprogram_is_platform pass stage index 4 then
      collect_variants pass stage (index + 1) rest plan
    else if identity.hardware_tier_group < 0 ∨ 3 < identity.hardware_tier_group then
      .error ⟨.missingPlatformAuthority, stage, index, -1⟩
    else if ¬ validate_subprogram_keywords sub then
      .error ⟨if keyword_failure_is_duplicate sub then .duplicateKeyword else .invalidKeyword,
        stage, index, -1⟩
    else
      collect_variants pass stage (index + 1) rest
        { keywords := (subprogram_keywords sub).reduceOption.foldl stage_plan_add_keyword
            plan.keywords
          variants := plan.variants ++
            [⟨index, identity.hardware_tier_group.toNat, []⟩] }

/-- The places of the keywords of a subprogram in the sorted universe. -/
def enabled_indices (keywords : List CString) : List CString → Option (List ℕ)
  | [] => some []
  | keyword :: rest => do
    let index ← find_sorted_keyword keywords keyword (keywords.length + 1) 0 keywords.length
    let indices ← enabled_indices keywords rest
    some (index :: indices)

def enable_keywords (stage : Fin SERIALIZED_STAGE_COUNT) (subs : List SerializedSubProgram)
    (keywords : List CString) :
    List ShaderLabStageVariantPlan → Except ShaderLabStageDiagnostic
      (List ShaderLabStageVariantPlan)
  | [] => pure []
  | variant :: rest =>
    match enabled_indices keywords ((subs[variant.subprogram_index]?.elim []
        fun sub => (subprogram_keywords sub).reduceOption)) with
    | none => .error ⟨.invalidArgument, stage, variant.subprogram_index, -1⟩
    | some indices => do
      let variants ← enable_keywords stage subs keywords rest
      pure ({ variant with enabled_keyword_indices := sortBy id indices } :: variants)

structure VariantOrder where
  enabled_keyword_indices : List ℕ
  hardware_tier_group : ℕ
  subprogram_index : ℕ

def compare_variant_plans (left right : VariantOrder) : Ordering :=
  compareLex (compareOn (·.enabled_keyword_indices))
    (compareLex (compareOn (·.hardware_tier_group)) (compareOn (·.subprogram_index))) left right

instance : Ord VariantOrder := ⟨compare_variant_plans⟩

def variantOrder (variant : ShaderLabStageVariantPlan) : VariantOrder :=
  ⟨variant.enabled_keyword_indices, variant.hardware_tier_group, variant.subprogram_index⟩

def enabled_sets_equal (left right : ShaderLabStageVariantPlan) : Bool :=
  left.enabled_keyword_indices = right.enabled_keyword_indices

def ambiguous_neighbours : List ShaderLabStageVariantPlan → Option (ℕ × ℕ)
  | previous :: current :: rest =>
    if enabled_sets_equal previous current ∧
        (previous.hardware_tier_group = current.hardware_tier_group ∨
          previous.hardware_tier_group = 3 ∨ current.hardware_tier_group = 3) then
      some (current.subprogram_index, previous.subprogram_index)
    else ambiguous_neighbours (current :: rest)
  | _ => none

def group_tiers : List ShaderLabStageVariantPlan → Bool × ℕ
  | [] => (false, 0)
  | variant :: rest =>
    let (has_generic_tier, specific_tier_mask) := group_tiers rest
    if variant.hardware_tier_group = 3 then (true, specific_tier_mask)
    else (has_generic_tier, specific_tier_mask ||| 2 ^ variant.hardware_tier_group)

/-- The loop over the groups: their number, or the first variant of an incomplete one. -/
def count_assignments : (n : ℕ) → List ShaderLabStageVariantPlan → Except ℕ ℕ
  | 0, _ => pure 0
  | _ + 1, [] => pure 0
  | n + 1, first :: rest =>
    let group := first :: rest.takeWhile (enabled_sets_equal first)
    let (has_generic_tier, specific_tier_mask) := group_tiers group
    if has_generic_tier = false ∧ specific_tier_mask ≠ 7 then .error first.subprogram_index
    else do
      let keyword_assignment_count ←
        count_assignments n (rest.dropWhile (enabled_sets_equal first))
      pure (keyword_assignment_count + 1)

/-- The result, and `*out_incomplete_subprogram_index`. -/
def stage_plan_has_complete_predicate_coverage (plan : ShaderLabStagePlan) : Bool × ℤ :=
  if plan.variants = [] then (false, -1)
  else
    match count_assignments plan.variants.length plan.variants with
    | .error index => (false, index)
    | .ok keyword_assignment_count =>
      if 64 ≤ plan.keywords.length then (false, -1)
      else (keyword_assignment_count = 2 ^ plan.keywords.length, -1)

end StagePlan

open StagePlan

lemma stage_index_lt {stage_index : ℤ} (h : 0 ≤ stage_index ∧ stage_index < 6) :
    stage_index.toNat < SERIALIZED_STAGE_COUNT := by
  unfold SERIALIZED_STAGE_COUNT
  omega

def stage_plan_build (pass : SerializedPass) (stage_index : ℤ) :
    Except ShaderLabStageDiagnostic ShaderLabStagePlan :=
  if h : 0 ≤ stage_index ∧ stage_index < 6 then
    let stage : Fin SERIALIZED_STAGE_COUNT :=
      ⟨stage_index.toNat, stage_index_lt h⟩
    let arrays := pass.stages stage
    let subs := arrays.subprograms.values.getD []
    if arrays.subprograms.count < 0 ∨ (0 < arrays.subprograms.count ∧
        (arrays.subprograms.values = none ∨ arrays.identities = none)) then
      .error ⟨.invalidArgument, stage_index, -1, -1⟩
    else if ¬ pass.has_serialized_platforms ∨ pass.platforms.count ≤ 0 ∨
        pass.platforms.values = none then
      .error ⟨.missingPlatformAuthority, stage_index, -1, -1⟩
    else do
      let plan ← collect_variants pass stage 0
        ((subs.zip (arrays.identities.getD [])).take arrays.subprograms.count.toNat) ⟨[], []⟩
      if plan.variants = [] then .error ⟨.noD3dVariants, stage_index, -1, -1⟩
      else do
        let keywords := sortBy CString.bytes plan.keywords
        let variants ← enable_keywords stage subs keywords plan.variants
        let variants := sortBy variantOrder variants
        match ambiguous_neighbours variants with
        | some (current, previous) => .error ⟨.ambiguousPredicate, stage_index, current, previous⟩
        | none =>
          let plan : ShaderLabStagePlan := ⟨keywords, variants⟩
          match stage_plan_has_complete_predicate_coverage plan with
          | (true, _) => pure plan
          | (false, index) => .error ⟨.incompletePredicate, stage_index, index, -1⟩
  else .error ⟨.invalidArgument, stage_index, -1, -1⟩

namespace StagePlan

/-! ## Predicates -/

/-- The loop over the universe: `cursor` is what is left of the enabled indices. -/
def emit_keyword_terms : (keyword_index : ℕ) → List CString → (cursor : List ℕ) →
    (emitted_term : Bool) → Text → Text × Bool
  | _, [], _, emitted_term, output => (output, emitted_term)
  | keyword_index, keyword :: keywords, cursor, emitted_term, output =>
    let output := if emitted_term then output ++ text " && " else output
    let enabled := cursor.head? = some keyword_index
    let output := if ¬ enabled then output ++ text "!" else output
    let output := output ++ text "defined(" ++ keyword.bytes ++ text ")"
    emit_keyword_terms (keyword_index + 1) keywords (if enabled then cursor.tail else cursor)
      true output

def tierMacroName (tier : ℕ) : Text := text "UNITY_HARDWARE_TIER" ++ text (toString (tier + 1))

def emit_tier_terms (hardware_tier_group : ℕ) : List ℕ → (emitted_term : Bool) → Text → Text
  | [], _, output => output
  | tier :: tiers, emitted_term, output =>
    let output := if emitted_term then output ++ text " && " else output
    let output := if tier ≠ hardware_tier_group then output ++ text "!" else output
    let output := output ++ text "defined(" ++ tierMacroName tier ++ text ")"
    emit_tier_terms hardware_tier_group tiers true output

end StagePlan

def emit_variant_predicate (plan : ShaderLabStagePlan) (variant : ShaderLabStageVariantPlan)
    (output : Text) : Text :=
  let (output, emitted_term) := emit_keyword_terms 0 plan.keywords
    variant.enabled_keyword_indices false output
  if variant.hardware_tier_group < 3 then
    emit_tier_terms variant.hardware_tier_group [0, 1, 2] emitted_term output
  else output

end DXBCSandbox
