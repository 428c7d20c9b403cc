/-
The variant domain of a compute shader (`src/compiler/unity_compute_domain.c`).

A preprocess result lists its kernels and, as lines of text, its keyword families. Every family
is a choice between keywords, or none of them where a token of underscores stands for the
default. The domain is the product: a state is a kernel and one choice for each family, and is
numbered with the kernel slowest and the last family fastest.

A diagnostic is part of every failure. It keeps the coordinates that were set before, as the
record it is written into does. Allocation succeeds, and the caller passes an empty output.
-/
import DXBCSandbox.Io.SerializedShader
import DXBCSandbox.Lib.Checks

namespace DXBCSandbox

open Checks

inductive UnityComputeDomainStatus where
  | ok | invalidArgument | noKernels | unsupportedEmptyFamily | unsupportedFamilySyntax
  | ambiguousKeyword | ambiguousKernel | invalidKernelMacro | conditionalContextUnavailable
  | limitExceeded | invalidStateIndex | bufferTooSmall
  deriving DecidableEq

inductive UnityComputeDomainScope where
  | none | global | local
  deriving DecidableEq

structure UnityComputeDomainDiagnostic where
  status : UnityComputeDomainStatus
  scope : UnityComputeDomainScope
  family_index : Option ℕ
  choice_index : Option ℕ
  kernel_index : Option ℕ
  macro_index : Option ℕ
  conditional_index : Option ℕ

structure UnityCompilerComputePreprocessMacro where
  name : Option CString
  value : Option CString

structure UnityCompilerComputePreprocessedKernel where
  name : Option CString
  macros : CArray UnityCompilerComputePreprocessMacro

structure UnityCompilerComputeConditionalRequirement where
  keyword : Option CString
  requirements : UInt64

structure UnityCompilerComputePreprocessResult where
  source : Option CString
  source_size : ℕ
  user_global : CArray (Option CString)
  user_local : CArray (Option CString)
  kernels : CArray UnityCompilerComputePreprocessedKernel
  dependencies : CArray (Option CString)
  conditional_requirements : CArray UnityCompilerComputeConditionalRequirement
  requirements : UInt64

structure UnityCompilerComputePreprocessRequest where
  source : Option CString
  source_filename : Option CString
  platform_keywords : IntArray (Option CString)
  disabled_keywords : IntArray (Option CString)

structure UnityComputeDomainContext where
  preprocess_request : UnityCompilerComputePreprocessRequest
  max_variant_count : ℕ
  max_kernel_state_count : ℕ

def UNITY_COMPUTE_DOMAIN_MAX_STATES : ℕ := 1048576

def CArray.toList {α : Type} (a : CArray α) : List α := a.values.getD []

def CArray.missing {α : Type} (a : CArray α) : Bool := a.count ≠ 0 ∧ a.values = none

structure DomainFamily where
  scope : UnityComputeDomainScope
  scope_index : ℕ
  raw_line : CString
  /-- The spelling of a choice; the default has none. -/
  choices : List (Option Bytes)
  stride : ℕ

def DomainFamily.choice_count (family : DomainFamily) : ℕ := family.choices.length

structure UnityComputeDomain where
  result : UnityCompilerComputePreprocessResult
  request : UnityCompilerComputePreprocessRequest
  families : List DomainFamily
  global_family_count : ℕ
  variant_count : ℕ
  state_count : ℕ

namespace ComputeDomain

def DOMAIN_MAX_ITEMS : ℕ := 1024
def DOMAIN_MAX_STRING_BYTES : ℕ := 1024 * 1024
def DOMAIN_MAX_METADATA_BYTES : ℕ := 8 * 1024 * 1024
def DOMAIN_MAX_SOURCE_BYTES : ℕ := 512 * 1024 * 1024

def diagnostic_init : UnityComputeDomainDiagnostic := ⟨.ok, .none, none, none, none, none, none⟩

def fail {α : Type} (diagnostic : UnityComputeDomainDiagnostic)
    (status : UnityComputeDomainStatus) : Except UnityComputeDomainDiagnostic α :=
  .error { diagnostic with status := status }

/-! ## Texts -/

variable (text : Option CString)

def bounded_text_size (limit : ℕ) : Option ℕ :=
  match text with
  | none => none
  | some text => if limit < text.bytes.length then none else some text.bytes.length

def metadata_text_size (total : ℕ) : Option ℕ :=
  match bounded_text_size text DOMAIN_MAX_STRING_BYTES with
  | none => none
  | some size =>
    if DOMAIN_MAX_METADATA_BYTES - total ≤ size then none else some (total + size + 1)

def missing_or (status : UnityComputeDomainStatus) : UnityComputeDomainStatus :=
  if text.isSome then .limitExceeded else status

def source_scan_identifier_start (value : UInt8) : Bool :=
  (65 ≤ value ∧ value ≤ 90) ∨ (97 ≤ value ∧ value ≤ 122) ∨ value = 95

def source_scan_identifier_continue (value : UInt8) : Bool :=
  source_scan_identifier_start value ∨ (48 ≤ value ∧ value ≤ 57)

def identifier_span (name : Bytes) : Bool :=
  match name with
  | [] => false
  | first :: rest =>
    source_scan_identifier_start first ∧ rest.all source_scan_identifier_continue ∧
      name ≠ [100, 101, 102, 105, 110, 101, 100]

def all_underscores (text : Bytes) : Bool := text ≠ [] ∧ text.all fun value => value = 95

/-- The spelling of a text that has been found to be there. -/
def spelling : Bytes := text.elim [] CString.bytes

def names_contain (names : List (Option CString)) (name : Bytes) : Bool :=
  names.any fun candidate => candidate.elim false fun candidate => candidate.bytes = name

/-! ## The context -/

def validate_context_names_from : (previous rest : List (Option CString)) → (text_size : ℕ) →
      Except UnityComputeDomainDiagnostic ℕ
  | _, [], text_size => pure text_size
  | previous, name :: rest, text_size =>
    match metadata_text_size name text_size with
    | none => fail diagnostic_init (missing_or name .invalidArgument)
    | some text_size =>
      if ¬ identifier_span (spelling name) ∨ all_underscores (spelling name) then
        fail diagnostic_init .unsupportedFamilySyntax
      else if names_contain previous (spelling name) then
        fail diagnostic_init .ambiguousKeyword
      else validate_context_names_from (previous ++ [name]) rest text_size

def validate_context_names (names : IntArray (Option CString)) (text_size : ℕ) :
    Except UnityComputeDomainDiagnostic ℕ :=
  if DOMAIN_MAX_ITEMS < names.count.toNat then fail diagnostic_init .limitExceeded
  else if names.count ≠ 0 ∧ names.values = none then fail diagnostic_init .invalidArgument
  else validate_context_names_from [] names.toList text_size

/-! ## Kernels -/

/-- The loop over the macros of a kernel, with the ones before. -/
def validate_macros : (previous rest : List UnityCompilerComputePreprocessMacro) →
    ℕ × UnityComputeDomainDiagnostic →
      Except UnityComputeDomainDiagnostic (ℕ × UnityComputeDomainDiagnostic)
  | _, [], s => pure s
  | previous, entry :: rest, (text_size, diagnostic) =>
    let diagnostic := { diagnostic with macro_index := some previous.length }
    match (metadata_text_size entry.name text_size).bind (metadata_text_size entry.value) with
    | none =>
      fail diagnostic (if entry.name.isSome ∧ entry.value.isSome then .limitExceeded
        else .invalidKernelMacro)
    | some text_size =>
      if ¬ identifier_span (spelling entry.name) then fail diagnostic .invalidKernelMacro
      else if names_contain (previous.map (·.name)) (spelling entry.name) then
        fail diagnostic .invalidKernelMacro
      else validate_macros (previous ++ [entry]) rest (text_size, diagnostic)

/-- The loop over the kernels, with the ones before. -/
def validate_kernels_from : (previous rest : List UnityCompilerComputePreprocessedKernel) →
    (macro_count : ℕ) → ℕ × UnityComputeDomainDiagnostic →
      Except UnityComputeDomainDiagnostic (ℕ × UnityComputeDomainDiagnostic)
  | _, [], _, s => pure s
  | previous, kernel :: rest, macro_count, (text_size, diagnostic) =>
    let diagnostic := { diagnostic with kernel_index := some previous.length }
    match metadata_text_size kernel.name text_size with
    | none => fail diagnostic (missing_or kernel.name .invalidArgument)
    | some text_size =>
      if ¬ identifier_span (spelling kernel.name) then fail diagnostic .ambiguousKernel
      else if names_contain (previous.map (·.name)) (spelling kernel.name) then
        fail diagnostic .ambiguousKernel
      else if DOMAIN_MAX_ITEMS - macro_count < kernel.macros.count then
        fail diagnostic .limitExceeded
      else if kernel.macros.missing then fail diagnostic .invalidArgument
      else do
        let s ← validate_macros [] kernel.macros.toList (text_size, diagnostic)
        validate_kernels_from (previous ++ [kernel]) rest (macro_count + kernel.macros.count) s

def validate_kernels (result : UnityCompilerComputePreprocessResult) (text_size : ℕ) :
    Except UnityComputeDomainDiagnostic (ℕ × UnityComputeDomainDiagnostic) :=
  if result.kernels.count = 0 then fail diagnostic_init .noKernels
  else if DOMAIN_MAX_ITEMS < result.kernels.count then fail diagnostic_init .limitExceeded
  else if result.kernels.values = none then fail diagnostic_init .invalidArgument
  else validate_kernels_from [] result.kernels.toList 0 (text_size, diagnostic_init)

def validate_dependencies (diagnostic : UnityComputeDomainDiagnostic) :
    List (Option CString) → (text_size : ℕ) → Except UnityComputeDomainDiagnostic ℕ
  | [], text_size => pure text_size
  | dependency :: rest, text_size =>
    match metadata_text_size dependency text_size with
    | none => fail diagnostic (missing_or dependency .invalidArgument)
    | some text_size => validate_dependencies diagnostic rest text_size

/-! ## Families -/

/-- The number of choices in a line: one, and one more for each space that is between two
tokens. -/
def count_choices : (previous : Option UInt8) → Bytes → Option ℕ
  | _, [] => some 1
  | previous, value :: rest =>
    if value ≠ 32 then count_choices (some value) rest
    else if previous = none ∨ rest = [] ∨ previous = some 32 then none
    else (count_choices (some value) rest).map (· + 1)

/-- A name that an earlier choice already has. -/
def families_contain (families : List DomainFamily) (choices : List (Option Bytes))
    (name : Bytes) : Bool :=
  families.any (fun family => family.choices.contains (some name)) || choices.contains (some name)

/-- The loop over the tokens of a line; `choices` are those so far. -/
def parse_choices (request : UnityCompilerComputePreprocessRequest)
    (families : List DomainFamily) (diagnostic : UnityComputeDomainDiagnostic) :
    (remaining : ℕ) → (has_default : Bool) → (choices : List (Option Bytes)) →
      (start : Bytes) → Except UnityComputeDomainDiagnostic (List (Option Bytes))
  | 0, _, choices, _ => pure choices
  | remaining + 1, has_default, choices, start =>
    let diagnostic := { diagnostic with choice_index := some choices.length }
    let token := start.takeWhile (· ≠ 32)
    let next := (start.drop token.length).drop 1
    if ¬ identifier_span token then fail diagnostic .unsupportedFamilySyntax
    else if all_underscores token then
      if has_default then fail diagnostic .ambiguousKeyword
      else parse_choices request families diagnostic remaining true (choices ++ [none]) next
    else if families_contain families choices token ∨
        names_contain request.platform_keywords.toList token ∨
        names_contain request.disabled_keywords.toList token then
      fail diagnostic .ambiguousKeyword
    else
      parse_choices request families diagnostic remaining has_default (choices ++ [some token]) next

/-- The family, with the new sizes of the metadata and of all choices. -/
def parse_family (request : UnityCompilerComputePreprocessRequest) (families : List DomainFamily)
    (scope : UnityComputeDomainScope) (scope_index : ℕ) (raw_line : Option CString)
    (text_size total_choices : ℕ) :
    Except UnityComputeDomainDiagnostic (DomainFamily × ℕ × ℕ) :=
  let diagnostic : UnityComputeDomainDiagnostic :=
    { diagnostic_init with scope := scope, family_index := some scope_index }
  match raw_line, metadata_text_size raw_line text_size with
  | some line, some text_size =>
    if line.bytes = [] then fail diagnostic .unsupportedEmptyFamily
    else
      match count_choices none line.bytes with
      | none => fail diagnostic .unsupportedFamilySyntax
      | some choices =>
        if DOMAIN_MAX_ITEMS - total_choices < choices then fail diagnostic .limitExceeded
        else do
          let parsed ← parse_choices request families diagnostic choices false [] line.bytes
          pure (⟨scope, scope_index, line, parsed, 0⟩, text_size, total_choices + choices)
  | _, _ => fail diagnostic (missing_or raw_line .invalidArgument)

def parse_families (request : UnityCompilerComputePreprocessRequest)
    (scope : UnityComputeDomainScope) :
    (scope_index : ℕ) → List (Option CString) → List DomainFamily × ℕ × ℕ →
      Except UnityComputeDomainDiagnostic (List DomainFamily × ℕ × ℕ)
  | _, [], s => pure s
  | scope_index, line :: rest, (families, text_size, total_choices) => do
    let (family, text_size, total_choices) ←
      parse_family request families scope scope_index line text_size total_choices
    parse_families request scope (scope_index + 1) rest
      (families ++ [family], text_size, total_choices)

/-! ## Conditional requirements -/

/-- The loop over the conditional requirements, with the ones before. -/
def validate_conditionals_from (request : UnityCompilerComputePreprocessRequest)
    (families : List DomainFamily) :
    (previous rest : List UnityCompilerComputeConditionalRequirement) → (text_size : ℕ) →
      Except UnityComputeDomainDiagnostic ℕ
  | _, [], text_size => pure text_size
  | previous, requirement :: rest, text_size =>
    let diagnostic := { diagnostic_init with conditional_index := some previous.length }
    let name := spelling requirement.keyword
    match metadata_text_size requirement.keyword text_size with
    | none => fail diagnostic (missing_or requirement.keyword .invalidArgument)
    | some text_size =>
      if ¬ identifier_span name ∨ all_underscores name then
        fail diagnostic .conditionalContextUnavailable
      else if names_contain (previous.map (·.keyword)) name then
        fail diagnostic .conditionalContextUnavailable
      else if ¬ families_contain families [] name ∧
          ¬ names_contain request.platform_keywords.toList name ∧
          ¬ names_contain request.disabled_keywords.toList name then
        fail diagnostic .conditionalContextUnavailable
      else validate_conditionals_from request families (previous ++ [requirement]) rest text_size

def validate_conditionals (result : UnityCompilerComputePreprocessResult)
    (request : UnityCompilerComputePreprocessRequest) (families : List DomainFamily)
    (text_size : ℕ) : Except UnityComputeDomainDiagnostic ℕ :=
  if DOMAIN_MAX_ITEMS < result.conditional_requirements.count then
    fail diagnostic_init .limitExceeded
  else if result.conditional_requirements.missing then fail diagnostic_init .invalidArgument
  else validate_conditionals_from request families [] result.conditional_requirements.toList
    text_size

/-! ## Strides -/

def size_mul (a b : ℕ) : ℕ := a * b % 2 ^ 64

/-- The loop over the families from the last one: their strides, and the number of variants. -/
def assign_strides (max_variant_count : ℕ) :
    List DomainFamily → Except UnityComputeDomainDiagnostic (List DomainFamily × ℕ)
  | [] => pure ([], 1)
  | family :: rest => do
    let (rest, variant_count) ← assign_strides max_variant_count rest
    if max_variant_count / variant_count < family.choice_count then
      fail diagnostic_init .limitExceeded
    else pure ({ family with stride := variant_count } :: rest,
      size_mul variant_count family.choice_count)

end ComputeDomain

open ComputeDomain

def unity_compute_domain_create (result : UnityCompilerComputePreprocessResult)
    (context : UnityComputeDomainContext) :
    Except UnityComputeDomainDiagnostic UnityComputeDomain := do
  let request := context.preprocess_request
  failWhen (context.max_variant_count = 0 ∨ context.max_kernel_state_count = 0 ∨
      UNITY_COMPUTE_DOMAIN_MAX_STATES < context.max_variant_count ∨
      UNITY_COMPUTE_DOMAIN_MAX_STATES < context.max_kernel_state_count)
    { diagnostic_init with status := .limitExceeded }
  failWhen (request.platform_keywords.count < 0 ∨ request.disabled_keywords.count < 0 ∨
      request.source = none ∨ request.source_filename = none ∨
      spelling request.source_filename = [] ∨ result.source = none)
    { diagnostic_init with status := .invalidArgument }
  failWhen (DOMAIN_MAX_SOURCE_BYTES < result.source_size ∨
      bounded_text_size result.source DOMAIN_MAX_SOURCE_BYTES = none)
    { diagnostic_init with status := .limitExceeded }
  failWhen (bounded_text_size result.source DOMAIN_MAX_SOURCE_BYTES ≠ some result.source_size)
    { diagnostic_init with status := .invalidArgument }
  failWhen (DOMAIN_MAX_ITEMS < result.user_global.count ∨
      DOMAIN_MAX_ITEMS - result.user_global.count < result.user_local.count)
    { diagnostic_init with status := .limitExceeded }
  failWhen (result.user_global.missing ∨ result.user_local.missing)
    { diagnostic_init with status := .invalidArgument }
  match metadata_text_size request.source_filename 0 with
  | none => fail diagnostic_init .limitExceeded
  | some text_size => do
    let text_size ← validate_context_names request.platform_keywords text_size
    let text_size ← validate_context_names request.disabled_keywords text_size
    failWhen (request.platform_keywords.toList.any fun name =>
        names_contain request.disabled_keywords.toList (spelling name))
      { diagnostic_init with status := .ambiguousKeyword }
    let (text_size, diagnostic) ← validate_kernels result text_size
    failWhen (DOMAIN_MAX_ITEMS < result.dependencies.count)
      { diagnostic with status := .limitExceeded }
    failWhen result.dependencies.missing { diagnostic with status := .invalidArgument }
    let text_size ← validate_dependencies diagnostic result.dependencies.toList text_size
    let s ← parse_families request .global 0 result.user_global.toList ([], text_size, 0)
    let (families, text_size, _) ← parse_families request .local 0 result.user_local.toList s
    let _ ← validate_conditionals result request families text_size
    let (families, variant_count) ← assign_strides context.max_variant_count families
    failWhen (context.max_kernel_state_count / variant_count < result.kernels.count)
      { diagnostic_init with status := .limitExceeded }
    pure
      { result := result
        request := request
        families := families
        global_family_count := result.user_global.count
        variant_count := variant_count
        state_count := size_mul result.kernels.count variant_count }

/-- `UnityComputeDomainState`. The keyword spans are the parts of the caller's buffer that they
name; the pointers back to the result and the request are those of the domain. -/
structure UnityComputeDomainState where
  kernel_index : ℕ
  variant_index : ℕ
  kernel : Option UnityCompilerComputePreprocessedKernel
  global_keywords : List Bytes
  local_keywords : List Bytes
  user_keywords : List Bytes
  requirements : UInt64

namespace ComputeDomain

def selected_choice (family : DomainFamily) (variant_index : ℕ) : Option Bytes :=
  family.choices.getD (variant_index / family.stride % family.choice_count) none

def requirement_selected (domain : UnityComputeDomain) (variant_index : ℕ)
    (requirement : UnityCompilerComputeConditionalRequirement) : Bool :=
  names_contain domain.request.platform_keywords.toList (spelling requirement.keyword) ||
    domain.families.any fun family =>
      selected_choice family variant_index = some (spelling requirement.keyword)

def join_requirements (domain : UnityComputeDomain) (variant_index : ℕ) :
    List UnityCompilerComputeConditionalRequirement → UInt64 → UInt64
  | [], requirements => requirements
  | requirement :: rest, requirements =>
    join_requirements domain variant_index rest
      (if requirement_selected domain variant_index requirement then
        requirements ||| requirement.requirements else requirements)

def selected_names (families : List DomainFamily) (variant_index : ℕ) : List Bytes :=
  families.filterMap fun family => selected_choice family variant_index

end ComputeDomain

/-- `unity_compute_domain_state_at`, with the buffer as its capacity and whether there is one.
The results are `*out_required_count`, where it is set, and the state, where it was asked for. -/
def unity_compute_domain_state_at (domain : UnityComputeDomain) (state_index : ℕ)
    (has_buffer : Bool) (keyword_capacity : ℕ) (wants_state : Bool) :
    Option ℕ × Except UnityComputeDomainDiagnostic (Option UnityComputeDomainState) :=
  if (¬ has_buffer ∧ keyword_capacity ≠ 0) ∨
      (¬ wants_state ∧ (has_buffer ∨ keyword_capacity ≠ 0)) then
    (none, fail diagnostic_init .invalidArgument)
  else if domain.state_count ≤ state_index then (none, fail diagnostic_init .invalidStateIndex)
  else
    let variant_index := state_index % domain.variant_count
    let kernel_index := state_index / domain.variant_count
    let buffer := selected_names domain.families variant_index
    let global_keyword_count :=
      (selected_names (domain.families.take domain.global_family_count) variant_index).length
    let local_keyword_count :=
      (selected_names (domain.families.drop domain.global_family_count) variant_index).length
    let user_keyword_count := global_keyword_count + local_keyword_count
    if ¬ wants_state then (some user_keyword_count, pure none)
    else if keyword_capacity < user_keyword_count ∨ (user_keyword_count ≠ 0 ∧ ¬ has_buffer) then
      (some user_keyword_count, fail diagnostic_init .bufferTooSmall)
    else
      (some user_keyword_count, pure <| some
        { kernel_index := kernel_index
          variant_index := variant_index
          kernel := domain.result.kernels.toList[kernel_index]?
          global_keywords := buffer.take global_keyword_count
          local_keywords := buffer.drop global_keyword_count
          user_keywords := buffer
          requirements := join_requirements domain variant_index
            domain.result.conditional_requirements.toList domain.result.requirements })

end DXBCSandbox
