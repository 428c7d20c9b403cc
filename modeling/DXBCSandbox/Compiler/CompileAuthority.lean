/-
The keyword authority of one snippet compilation (`src/compiler/unity_compile_authority.c`).

The user keywords are the selected rows of the keyword table. Every other keyword of the variant
families of the program is disabled, and so is every capability that depends on the settings and
that the snapshot does not have.

Strings are read up to their NUL, and `isspace` is that of the C locale.
-/
import DXBCSandbox.Compiler.StringSet
import DXBCSandbox.Io.SerializedShader
import Mathlib.Data.List.TakeWhile

namespace DXBCSandbox

def UNITY_PLATFORM_CAPABILITY_COUNT : ℕ := 33
def UNITY_SNIPPET_CONTRACT_MAX_ITEMS : ℕ := 1024 * 1024

structure UnityPlatformCapabilitySnapshot where
  present : Bool
  bits : UInt64

structure ConditionalShaderRequirement where
  keyword : Option CString
  requirements : UInt64

structure SnippetKeywordVariantSet where
  present : Bool
  combinations : IntArray (Option CString)

structure SnippetProgramKeywordVariants where
  compiler_program : ℤ
  user_global : SnippetKeywordVariantSet
  user_local : SnippetKeywordVariantSet
  builtin : SnippetKeywordVariantSet

structure SnippetCompileContract where
  start_line : ℤ
  use_dxc_apis : ℤ
  never_use_dxc_apis : ℤ
  program_keyword_variants : IntArray SnippetProgramKeywordVariants
  non_stripped_user_keywords : IntArray (Option CString)
  builtin_keywords : IntArray (Option CString)
  requirements : UInt64
  conditional_requirements : IntArray ConditionalShaderRequirement

structure UnityCompileAuthorityInput where
  contract : Option SnippetCompileContract
  keyword_names : CArray (Option CString)
  global_keyword_indices : CArray ℤ
  local_keyword_indices : CArray ℤ
  compiler_program : ℤ
  pass_type : ℤ
  platform_capabilities : UnityPlatformCapabilitySnapshot

structure UnityCompileAuthority where
  platform_keywords : List CString
  user_keywords : List CString
  disabled_keywords : List CString
  compiler_flags : UInt32
  requirements : UInt64

/-- The strings in the order in which they came, and the set of them. -/
structure OrderedOwnedStringSet where
  values : List CString
  capacity : ℕ
  set : StringSet

/-! ## The contract -/

def has_text (string : Option CString) : Bool :=
  match string with
  | none => false
  | some string => string.bytes ≠ []

/-- The bounds of a counted array of a contract. -/
def validItems {α : Type} (items : IntArray α) : Bool :=
  ¬ (items.count < 0 ∨ (UNITY_SNIPPET_CONTRACT_MAX_ITEMS : ℤ) < items.count ∨
    (0 < items.count ∧ items.values.isNone))

def valid_owned_string_array (values : IntArray (Option CString)) : Bool :=
  validItems values && values.toList.all has_text

def valid_variant_set (set : SnippetKeywordVariantSet) : Bool :=
  if set.combinations.count < 0 ∨
      (UNITY_SNIPPET_CONTRACT_MAX_ITEMS : ℤ) < set.combinations.count then false
  else if ¬ set.present then
    set.combinations.count = 0 ∧ set.combinations.values.isNone
  else validItems set.combinations && set.combinations.toList.all Option.isSome

variable (contract : SnippetCompileContract)

def unity_compiler_snippet_contract_validate : Bool :=
  let programs := contract.program_keyword_variants
  if contract.start_line < 0 ∨
      (contract.use_dxc_apis ≠ 0 ∧ contract.use_dxc_apis ≠ 1) ∨
      (contract.never_use_dxc_apis ≠ 0 ∧ contract.never_use_dxc_apis ≠ 1) then false
  else
    validItems programs &&
    valid_owned_string_array contract.non_stripped_user_keywords &&
    valid_owned_string_array contract.builtin_keywords &&
    validItems contract.conditional_requirements &&
    programs.toList.all (fun program =>
      0 ≤ program.compiler_program && valid_variant_set program.user_global &&
        valid_variant_set program.user_local && valid_variant_set program.builtin) &&
    decide ((programs.toList.map fun program => program.compiler_program).Nodup) &&
    contract.conditional_requirements.toList.all fun requirement => has_text requirement.keyword

def unity_compiler_snippet_contract_find_program_variants (compiler_program : ℤ) :
    Option SnippetProgramKeywordVariants :=
  if compiler_program < 0 then none
  else contract.program_keyword_variants.toList.find? fun program =>
    program.compiler_program = compiler_program

def unity_compiler_snippet_contract_has_variant_families (compiler_program : ℤ) : Bool :=
  match unity_compiler_snippet_contract_find_program_variants contract compiler_program with
  | none => false
  | some program =>
    program.user_global.present && program.user_local.present && program.builtin.present

/-! ## Capabilities -/

namespace CompileAuthority

def copy_span (value : Bytes) : CString :=
  ⟨value.takeWhile (· ≠ 0), fun h => by simpa using List.mem_takeWhile_imp h⟩

def nameString (name : String) : CString := copy_span name.toUTF8.data.toList

def k_platform_capability_keywords : List CString :=
  [nameString "UNITY_NO_DXT5nm", nameString "UNITY_NO_RGBM", nameString "UNITY_USE_NATIVE_HDR",
   nameString "UNITY_ENABLE_REFLECTION_BUFFERS",
   nameString "UNITY_FRAMEBUFFER_FETCH_AVAILABLE",
   nameString "UNITY_ENABLE_NATIVE_SHADOW_LOOKUPS",
   nameString "UNITY_METAL_SHADOWS_USE_POINT_FILTERING",
   nameString "UNITY_NO_CUBEMAP_ARRAY",
   nameString "UNITY_NO_SCREENSPACE_SHADOWS",
   nameString "UNITY_USE_DITHER_MASK_FOR_ALPHABLENDED_SHADOWS",
   nameString "UNITY_PBS_USE_BRDF1",
   nameString "UNITY_PBS_USE_BRDF2",
   nameString "UNITY_PBS_USE_BRDF3",
   nameString "UNITY_NO_FULL_STANDARD_SHADER",
   nameString "UNITY_SPECCUBE_BOX_PROJECTION",
   nameString "UNITY_SPECCUBE_BLENDING",
   nameString "UNITY_ENABLE_DETAIL_NORMALMAP",
   nameString "SHADER_API_MOBILE",
   nameString "SHADER_API_DESKTOP",
   nameString "UNITY_HARDWARE_TIER1",
   nameString "UNITY_HARDWARE_TIER2",
   nameString "UNITY_HARDWARE_TIER3",
   nameString "UNITY_COLORSPACE_GAMMA",
   nameString "UNITY_LIGHT_PROBE_PROXY_VOLUME",
   nameString "UNITY_HALF_PRECISION_FRAGMENT_SHADER_REGISTERS",
   nameString "UNITY_LIGHTMAP_DLDR_ENCODING",
   nameString "UNITY_LIGHTMAP_RGBM_ENCODING",
   nameString "UNITY_LIGHTMAP_FULL_HDR",
   nameString "UNITY_VIRTUAL_TEXTURING",
   nameString "UNITY_PRETRANSFORM_TO_DISPLAY_ORIENTATION",
   nameString "UNITY_ASTC_NORMALMAP_ENCODING",
   nameString "SHADER_API_GLES30",
   nameString "UNITY_UNIFIED_SHADER_PRECISION_MODEL"]

def k_settings_dependent_mask : UInt64 := 0x1fff9ff79

def has_bit (bits : UInt64) (index : ℕ) : Bool := bits &&& ((1 : UInt64) <<< UInt64.ofNat index) ≠ 0

def unity_platform_capability_is_settings_dependent (capability_index : ℕ) : Bool :=
  capability_index < UNITY_PLATFORM_CAPABILITY_COUNT ∧
    has_bit k_settings_dependent_mask capability_index

def unity_pass_type_keyword (pass_type : ℤ) : Option CString :=
  match pass_type with
  | 4 => some (nameString "UNITY_PASS_FORWARDBASE")
  | 5 => some (nameString "UNITY_PASS_FORWARDADD")
  | 6 => some (nameString "UNITY_PASS_PREPASSBASE")
  | 7 => some (nameString "UNITY_PASS_PREPASSFINAL")
  | 8 => some (nameString "UNITY_PASS_SHADOWCASTER")
  | 10 => some (nameString "UNITY_PASS_DEFERRED")
  | 11 => some (nameString "UNITY_PASS_META")
  | 12 => some (nameString "UNITY_PASS_MOTIONVECTORS")
  | 14 => some (nameString "UNITY_PASS_SRPDEFAULTUNLIT")
  | _ => none

/-! ## The build -/

section Build

open Fallible

variable {World : Type} (malloc : World → Bool × World)

def require (count size : ℕ) : AuthorityM World Unit := do
  let allocated ← allocate malloc count size
  failWhen (allocated = false) (.status .outOfMemory)

/-- The allocation of an array that may be empty. -/
def require_items (count size : ℕ) : AuthorityM World Unit :=
  if 0 < count then require malloc count size else pure ()

def copy_strings (strings : List CString) : AuthorityM World (List CString) := do
  strings.forM fun string => require malloc (string.bytes.length + 1) 1
  pure strings

/-- The array of the appended strings with room for one more. -/
def grow_values (ordered : OrderedOwnedStringSet) : AuthorityM World (Option OrderedOwnedStringSet) :=
  if ordered.values.length = ordered.capacity then do
    let capacity := if ordered.capacity ≠ 0 then ordered.capacity * 2 % 2 ^ 64 else 16
    if capacity < ordered.capacity ∨ SIZE_MAX / POINTER_SIZE < capacity then pure none
    else do
      let allocated ← allocate malloc capacity POINTER_SIZE
      pure (if allocated then some { ordered with capacity } else none)
  else pure (some ordered)

def append_owned_span (ordered : OrderedOwnedStringSet) (value : Bytes) :
    AuthorityM World (Option OrderedOwnedStringSet) := do
  let found ← string_set_contains_span ordered.set value
  if found then pure (some ordered)
  else if ordered.values.length = INT_MAX then pure none
  else do
    let grown ← grow_values malloc ordered
    match grown with
    | none => pure none
    | some ordered => do
      let allocated ← allocate malloc (value.length + 1) 1
      if allocated = false then pure none
      else do
        let copy := copy_span value
        let inserted ← string_set_insert_span malloc ordered.set value copy
        match inserted with
        | (.error, _) => pure none
        | (.present, set) => pure (some { ordered with set })
        | (.inserted, set) =>
          pure (some { ordered with values := ordered.values ++ [copy], set })

def select_scope (names : List (Option CString)) (indices : CArray ℤ) (selected : List Bool) :
    AuthorityM World (List Bool) :=
  match indices.values with
  | none => do
    failWhen (0 < indices.count) (.status .invalidArgument)
    pure selected
  | some indices =>
    indices.foldlM (fun selected index => do
      failWhen (index < 0 ∨ (names.length : ℤ) ≤ index ∨
        has_text (names[index.toNat]?.getD none) = false) (.status .invalidKeywordIndex)
      pure (selected.set index.toNat true)) selected

variable (input : UnityCompileAuthorityInput)

def select_keyword_indices (names : List (Option CString)) (selected : List Bool) :
    AuthorityM World (List Bool) := do
  let selected ← select_scope names input.global_keyword_indices selected
  select_scope names input.local_keyword_indices selected

def add_user_keyword (users : List CString × StringSet) (row : Option CString × Bool) :
    AuthorityM World (List CString × StringSet) :=
  if row.2 = false then pure users
  else
    match row.1 with
    | none => fail .undefined
    | some name => do
      let inserted ← string_set_insert_span malloc users.2 name.bytes name
      match inserted with
      | (.error, _) => fail (.status .outOfMemory)
      | (.present, _) => fail (.status .ambiguousKeywordName)
      | (.inserted, active_names) => do
        require malloc (name.bytes.length + 1) 1
        pure (users.1 ++ [name], active_names)

def build_user_keywords (names : List (Option CString)) (selected : List Bool) :
    AuthorityM World (List CString × StringSet) := do
  let count := selected.count true
  failWhen (INT_MAX < count ∨ (0 < count ∧ SIZE_MAX / POINTER_SIZE < count))
    (.status .invalidArgument)
  require_items malloc count POINTER_SIZE
  (names.zip selected).foldlM (add_user_keyword malloc) ([], emptySet)

/-- The keywords, and the flags of the compiler that go with them. -/
def build_platform_keywords :
    AuthorityM World (List CString × UInt32) := do
  let bits := input.platform_capabilities.bits
  let enabled := (k_platform_capability_keywords.zipIdx.filter fun row => has_bit bits row.2).map
    Prod.fst ++ (unity_pass_type_keyword input.pass_type).toList
  require_items malloc enabled.length POINTER_SIZE
  let keywords ← copy_strings malloc enabled
  let flag (capability : ℕ) (bit : UInt32) : UInt32 :=
    if has_bit bits capability then (1 : UInt32) <<< bit else 0
  pure (keywords, flag 17 28 ||| flag 32 31 ||| flag 6 14)

def isspace (byte : UInt8) : Bool := byte = 32 ∨ (9 ≤ byte ∧ byte ≤ 13)

/-- The loop over the tokens from a cursor on. Every round takes at least one byte. -/
def add_disabled_tokens (active_names : StringSet) : (fuel : ℕ) → (cursor : Bytes) →
    OrderedOwnedStringSet → AuthorityM World OrderedOwnedStringSet
  | 0, _, disabled => pure disabled
  | fuel + 1, cursor, disabled =>
    if cursor = [] then pure disabled
    else
      let begin := cursor.dropWhile isspace
      let token := begin.takeWhile fun byte => ! isspace byte
      let cursor := begin.dropWhile fun byte => ! isspace byte
      if token = [] ∨ token = asciiBytes "_" then
        add_disabled_tokens active_names fuel cursor disabled
      else do
        let active ← string_set_contains_span active_names token
        if active then add_disabled_tokens active_names fuel cursor disabled
        else do
          let appended ← append_owned_span malloc disabled token
          match appended with
          | none => fail (.status .outOfMemory)
          | some disabled => add_disabled_tokens active_names fuel cursor disabled

def add_disabled_combination (active_names : StringSet) (disabled : OrderedOwnedStringSet)
    (combination : Option CString) : AuthorityM World OrderedOwnedStringSet :=
  match combination with
  | none => fail (.status .invalidArgument)
  | some combination =>
    add_disabled_tokens malloc active_names combination.bytes.length combination.bytes disabled

def add_disabled_capability (bits : UInt64) (disabled : OrderedOwnedStringSet)
    (row : CString × ℕ) : AuthorityM World OrderedOwnedStringSet :=
  if unity_platform_capability_is_settings_dependent row.2 = false ∨ has_bit bits row.2 then
    pure disabled
  else do
    let appended ← append_owned_span malloc disabled row.1.bytes
    match appended with
    | none => fail (.status .outOfMemory)
    | some disabled => pure disabled

def build_disabled_keywords (contract : SnippetCompileContract)
    (input : UnityCompileAuthorityInput) (active_names : StringSet) :
    AuthorityM World (List CString) :=
  match unity_compiler_snippet_contract_find_program_variants contract input.compiler_program with
  | none => fail (.status .missingVariantFamilies)
  | some program => do
    let combinations := program.user_global.combinations.toList ++
      program.user_local.combinations.toList ++ program.builtin.combinations.toList
    let disabled ← combinations.foldlM (add_disabled_combination malloc active_names)
      ⟨[], 0, emptySet⟩
    let disabled ← k_platform_capability_keywords.zipIdx.foldlM
      (add_disabled_capability malloc input.platform_capabilities.bits) disabled
    pure disabled.values

def add_requirement (active_names : StringSet) (requirements : UInt64)
    (conditional : ConditionalShaderRequirement) : AuthorityM World UInt64 :=
  match conditional.keyword with
  | none => fail .undefined
  | some keyword => do
    let active ← string_set_contains_span active_names keyword.bytes
    pure (if active then requirements ||| conditional.requirements else requirements)

def build_requirements (contract : SnippetCompileContract) (active_names : StringSet) :
    AuthorityM World UInt64 :=
  contract.conditional_requirements.toList.foldlM (add_requirement active_names)
    contract.requirements

/-- `(UINT64_C(1) << UNITY_PLATFORM_CAPABILITY_COUNT) - UINT64_C(1)`. -/
def valid_capability_bits : UInt64 := ((1 : UInt64) <<< 33) - 1

def build_authority : AuthorityM World UnityCompileAuthority :=
  match input.contract with
  | none => fail (.status .missingPreprocessContract)
  | some contract => do
    failWhen (unity_compiler_snippet_contract_validate contract = false ∨
      (0 < input.keyword_names.count ∧ input.keyword_names.values.isNone) ∨
      INT_MAX < input.keyword_names.count) (.status .invalidArgument)
    failWhen (unity_compiler_snippet_contract_has_variant_families contract
      input.compiler_program = false) (.status .missingVariantFamilies)
    failWhen (input.platform_capabilities.present = false) (.status .missingPlatformCapabilities)
    failWhen (input.platform_capabilities.bits &&& ~~~valid_capability_bits ≠ 0)
      (.status .invalidArgument)
    let names := input.keyword_names.values.getD []
    require_items malloc input.keyword_names.count 1
    let selected ← select_keyword_indices input names (List.replicate names.length false)
    let (user_keywords, active_names) ← build_user_keywords malloc names selected
    let (platform_keywords, compiler_flags) ← build_platform_keywords malloc input
    let disabled_keywords ← build_disabled_keywords malloc contract input active_names
    let requirements ← build_requirements contract active_names
    pure { platform_keywords, user_keywords, disabled_keywords, compiler_flags, requirements }

end Build

end CompileAuthority

open CompileAuthority in
/-- The status, the authority that the caller has afterwards, and the world. -/
def unity_compile_authority_build {World : Type} (malloc : World → Bool × World)
    (input : UnityCompileAuthorityInput) (out_authority : UnityCompileAuthority) (world : World) :
    AuthorityStop × UnityCompileAuthority × World :=
  match build_authority malloc input world with
  | (.ok authority, world) => (.status .ok, authority, world)
  | (.error stop, world) => (stop, out_authority, world)

end DXBCSandbox
