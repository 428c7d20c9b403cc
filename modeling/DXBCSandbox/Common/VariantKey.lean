/-
Variant keys (`src/common/variant_key.c`).

A key is an owned copy of a descriptor, with what the descriptor marks as absent set to
zero. It is compared field by field and serialised into one byte string. The size of that
string is computed first and then written into it.

A `const char*` is a byte string without NUL. A descriptor may hold null pointers. An array
of it is a pointer and a count.
-/
import DXBCSandbox.Dxbc.Hash

namespace DXBCSandbox

def VARIANT_KEY_FORMAT_VERSION : UInt32 := 4
def VARIANT_KEY_DIGEST_SIZE : ℕ := 32
def VARIANT_KEY_MAX_KEYWORD_INDICES : ℕ := 1048576
def VARIANT_KEY_MAX_COMPILER_KEYWORDS : ℕ := 1048576
def VARIANT_KEY_MAX_STRING_BYTES : ℕ := 16777216

inductive VariantKeyStatus where
  | ok | invalidArgument | invalidCount | inconsistentArray | invalidValue | allocationFailed
  | sizeOverflow
  deriving DecidableEq

/-- A string up to its terminating NUL. -/
structure CString where
  bytes : Bytes
  no_nul : 0 ∉ bytes
  deriving DecidableEq

/-- The bytes that are not NUL. -/
def CString.ofBytes (bytes : Bytes) : CString := ⟨bytes.filter (· ≠ 0), by simp⟩

instance : Inhabited CString := ⟨.ofBytes []⟩

instance : LawfulBEq (Option CString) := inferInstance

/-- A pointer to an array, and the count that comes with it. -/
structure CArray (α : Type) where
  values : Option (List α)
  count : ℕ
  count_eq : ∀ l, values = some l → l.length = count

/-- A null pointer with a count of zero. -/
def CArray.null {α : Type} : CArray α := ⟨none, 0, nofun⟩

structure VariantKeyFingerprint where
  present : Bool
  bytes : Vector UInt8 VARIANT_KEY_DIGEST_SIZE

/-- The compiler authority. Its strings are of type `S` and its string arrays of type `A`. -/
@[ext] structure VariantCompilerAuthority (S A : Type) where
  schema_version : UInt32
  build_platform : UInt32
  compiler_flags : UInt32
  language : Int32
  shader_type : Int32
  request_requirements : UInt64
  request_program_mask : UInt32
  program_start : Int32
  render_state_length : Int32
  valid_apis : UInt32
  caching_preprocessor : Bool
  preprocess_only : Bool
  strip_line_directives : Bool
  source_directory : S
  source_basename : S
  pass_name : S
  variant_keywords : A
  user_keywords : A
  enabled_platform_keywords : A
  disabled_keywords : A
  compiler_fingerprint : VariantKeyFingerprint
  environment_fingerprint : VariantKeyFingerprint
  source_fingerprint : VariantKeyFingerprint
  request_input_fingerprint : VariantKeyFingerprint

/-- The fields that a descriptor and a key share. Keyword indices are of type `I`. -/
@[ext] structure VariantFields (I S A : Type) where
  shader_path_id : Int64
  subshader_index : UInt32
  pass_index : UInt32
  stage : UInt32
  compiler_platform : Int32
  archive_platform_index : UInt32
  hardware_tier_group : UInt32
  subprogram_index : UInt32
  parameter_blob_index : Int32
  serialized_program_type : Int32
  serialized_hardware_tier_present : Bool
  serialized_hardware_tier : Int32
  serialized_requirements : UInt64
  serialized_program_mask : UInt32
  player_metadata_present : Bool
  player_program_type : Int32
  player_header_words : Vector UInt32 4
  player_source_map : UInt32
  keyword_scopes_are_explicit : Bool
  global_keyword_indices : I
  local_keyword_indices : I
  compiler : VariantCompilerAuthority S A

abbrev VariantKeyDescriptor :=
  VariantFields (CArray UInt32) (Option CString) (CArray (Option CString))

abbrev VariantKey := VariantFields (List UInt32) CString (List CString)

/-! ## Validation -/

def bytes_are_zero (bytes : Bytes) : Bool := bytes.all (· == 0)

variable (fingerprint : VariantKeyFingerprint)

def fingerprint_is_valid : Bool :=
  fingerprint.present || bytes_are_zero fingerprint.bytes.toList

/-- The length of a string, if its NUL is found in time. -/
def bounded_string_length (value : Option CString) : Option ℕ :=
  match value with
  | none => none
  | some value =>
    if value.bytes.length ≤ VARIANT_KEY_MAX_STRING_BYTES then some value.bytes.length else none

def validate_strings (reject_empty : Bool) : List (Option CString) → VariantKeyStatus
  | [] => .ok
  | value :: values =>
    match bounded_string_length value with
    | none => .invalidValue
    | some length =>
      if reject_empty ∧ length = 0 then .invalidValue
      else validate_strings reject_empty values

def validate_string_array (values : CArray (Option CString)) (reject_empty : Bool) :
    VariantKeyStatus :=
  if VARIANT_KEY_MAX_COMPILER_KEYWORDS < values.count ∨ UINT32_MAX < values.count then .invalidCount
  else if ¬ (values.count = 0 ↔ values.values = none) then .inconsistentArray
  else validate_strings reject_empty (values.values.getD [])

def validate_descriptor (descriptor : VariantKeyDescriptor) : VariantKeyStatus :=
  let compiler := descriptor.compiler
  if VARIANT_KEY_MAX_KEYWORD_INDICES < descriptor.global_keyword_indices.count ∨
      VARIANT_KEY_MAX_KEYWORD_INDICES < descriptor.local_keyword_indices.count ∨
      UINT32_MAX < descriptor.global_keyword_indices.count ∨
      UINT32_MAX < descriptor.local_keyword_indices.count then .invalidCount
  else if ¬ (descriptor.global_keyword_indices.count = 0 ↔
        descriptor.global_keyword_indices.values = none) ∨
      ¬ (descriptor.local_keyword_indices.count = 0 ↔
        descriptor.local_keyword_indices.values = none) then .inconsistentArray
  else if bounded_string_length compiler.source_directory = none ∨
      bounded_string_length compiler.source_basename = none ∨
      bounded_string_length compiler.pass_name = none then .invalidValue
  else if validate_string_array compiler.variant_keywords true ≠ .ok then
    validate_string_array compiler.variant_keywords true
  else if validate_string_array compiler.user_keywords true ≠ .ok then
    validate_string_array compiler.user_keywords true
  else if validate_string_array compiler.enabled_platform_keywords true ≠ .ok then
    validate_string_array compiler.enabled_platform_keywords true
  else if validate_string_array compiler.disabled_keywords true ≠ .ok then
    validate_string_array compiler.disabled_keywords true
  else if descriptor.compiler_platform < 0 ∨ 3 < descriptor.hardware_tier_group ∨
      descriptor.parameter_blob_index < -1 ∨ descriptor.serialized_program_type < 0 ∨
      (descriptor.serialized_hardware_tier_present ∧
        (descriptor.serialized_hardware_tier < 0 ∨ 3 < descriptor.serialized_hardware_tier)) ∨
      (descriptor.player_metadata_present ∧ descriptor.player_program_type < 0) ∨
      compiler.language < 0 ∨ compiler.shader_type < 0 ∨ compiler.program_start < 0 ∨
      compiler.render_state_length < 0 then .invalidValue
  else if ¬ fingerprint_is_valid compiler.compiler_fingerprint ∨
      ¬ fingerprint_is_valid compiler.environment_fingerprint ∨
      ¬ fingerprint_is_valid compiler.source_fingerprint ∨
      ¬ fingerprint_is_valid compiler.request_input_fingerprint then .invalidValue
  else .ok

/-! ## Keys -/

def copy_indices (indices : CArray UInt32) : List UInt32 := indices.values.getD []

def copy_string (value : Option CString) : CString := value.getD default

def copy_string_array (values : CArray (Option CString)) : List CString :=
  (values.values.getD []).map copy_string

def canonicalize_fingerprint : VariantKeyFingerprint :=
  if fingerprint.present then fingerprint
  else { fingerprint with bytes := Vector.replicate VARIANT_KEY_DIGEST_SIZE 0 }

def variant_key_init (descriptor : VariantKeyDescriptor) : Except VariantKeyStatus VariantKey :=
  if validate_descriptor descriptor ≠ .ok then .error (validate_descriptor descriptor)
  else .ok
    { descriptor with
      serialized_hardware_tier :=
        if descriptor.serialized_hardware_tier_present then descriptor.serialized_hardware_tier
        else 0
      player_program_type :=
        if descriptor.player_metadata_present then descriptor.player_program_type else 0
      player_header_words :=
        if descriptor.player_metadata_present then descriptor.player_header_words
        else Vector.replicate 4 0
      player_source_map :=
        if descriptor.player_metadata_present then descriptor.player_source_map else 0
      global_keyword_indices := copy_indices descriptor.global_keyword_indices
      local_keyword_indices := copy_indices descriptor.local_keyword_indices
      compiler :=
        { descriptor.compiler with
          source_directory := copy_string descriptor.compiler.source_directory
          source_basename := copy_string descriptor.compiler.source_basename
          pass_name := copy_string descriptor.compiler.pass_name
          variant_keywords := copy_string_array descriptor.compiler.variant_keywords
          user_keywords := copy_string_array descriptor.compiler.user_keywords
          enabled_platform_keywords :=
            copy_string_array descriptor.compiler.enabled_platform_keywords
          disabled_keywords := copy_string_array descriptor.compiler.disabled_keywords
          compiler_fingerprint := canonicalize_fingerprint descriptor.compiler.compiler_fingerprint
          environment_fingerprint :=
            canonicalize_fingerprint descriptor.compiler.environment_fingerprint
          source_fingerprint := canonicalize_fingerprint descriptor.compiler.source_fingerprint
          request_input_fingerprint :=
            canonicalize_fingerprint descriptor.compiler.request_input_fingerprint } }

/-! ## Comparison -/

def fingerprints_equal (left right : VariantKeyFingerprint) : Bool :=
  left.present == right.present && (!left.present || left.bytes == right.bytes)

def strings_equal (left right : CString) : Bool := left.bytes == right.bytes

/-- The callers have compared the counts. -/
def string_arrays_equal : List CString → List CString → Bool
  | left :: lefts, right :: rights => strings_equal left right && string_arrays_equal lefts rights
  | _, _ => true

def compiler_authority_equal (left right : VariantCompilerAuthority CString (List CString)) :
    Bool :=
  left.schema_version == right.schema_version && left.build_platform == right.build_platform &&
    left.compiler_flags == right.compiler_flags &&
    left.language == right.language &&
    left.shader_type == right.shader_type &&
    left.request_requirements == right.request_requirements &&
    left.request_program_mask == right.request_program_mask &&
    left.program_start == right.program_start &&
    left.render_state_length == right.render_state_length &&
    left.valid_apis == right.valid_apis &&
    left.caching_preprocessor == right.caching_preprocessor &&
    left.preprocess_only == right.preprocess_only &&
    left.strip_line_directives == right.strip_line_directives &&
    strings_equal left.source_directory right.source_directory &&
    strings_equal left.source_basename right.source_basename &&
    strings_equal left.pass_name right.pass_name &&
    left.variant_keywords.length == right.variant_keywords.length &&
    left.user_keywords.length == right.user_keywords.length &&
    left.enabled_platform_keywords.length == right.enabled_platform_keywords.length &&
    left.disabled_keywords.length == right.disabled_keywords.length &&
    string_arrays_equal left.variant_keywords right.variant_keywords &&
    string_arrays_equal left.user_keywords right.user_keywords &&
    string_arrays_equal left.enabled_platform_keywords right.enabled_platform_keywords &&
    string_arrays_equal left.disabled_keywords right.disabled_keywords &&
    fingerprints_equal left.compiler_fingerprint right.compiler_fingerprint &&
    fingerprints_equal left.environment_fingerprint right.environment_fingerprint &&
    fingerprints_equal left.source_fingerprint right.source_fingerprint &&
    fingerprints_equal left.request_input_fingerprint right.request_input_fingerprint

def variant_key_equal (left right : VariantKey) : Bool :=
  if left.shader_path_id ≠ right.shader_path_id ∨
      left.subshader_index ≠ right.subshader_index ∨
      left.pass_index ≠ right.pass_index ∨
      left.stage ≠ right.stage ∨
      left.compiler_platform ≠ right.compiler_platform ∨
      left.archive_platform_index ≠ right.archive_platform_index ∨
      left.hardware_tier_group ≠ right.hardware_tier_group ∨
      left.subprogram_index ≠ right.subprogram_index ∨
      left.parameter_blob_index ≠ right.parameter_blob_index ∨
      left.serialized_program_type ≠ right.serialized_program_type ∨
      left.serialized_hardware_tier_present ≠ right.serialized_hardware_tier_present ∨
      left.serialized_hardware_tier ≠ right.serialized_hardware_tier ∨
      left.serialized_requirements ≠ right.serialized_requirements ∨
      left.serialized_program_mask ≠ right.serialized_program_mask ∨
      left.player_metadata_present ≠ right.player_metadata_present ∨
      left.player_program_type ≠ right.player_program_type ∨
      left.player_header_words ≠ right.player_header_words ∨
      left.player_source_map ≠ right.player_source_map ∨
      left.keyword_scopes_are_explicit ≠ right.keyword_scopes_are_explicit ∨
      left.global_keyword_indices.length ≠ right.global_keyword_indices.length ∨
      left.local_keyword_indices.length ≠ right.local_keyword_indices.length ∨
      ¬ compiler_authority_equal left.compiler right.compiler then false
  else
    (left.global_keyword_indices.length = 0 ||
        left.global_keyword_indices == right.global_keyword_indices) &&
      (left.local_keyword_indices.length = 0 ||
        left.local_keyword_indices == right.local_keyword_indices)

/-! ## Serialisation -/

def checked_add_size (total amount : ℕ) : Option ℕ :=
  if SIZE_MAX - amount < total then none else some (total + amount)

def checked_add_encoded_string_size (total : ℕ) (value : CString) : Option ℕ :=
  if UINT32_MAX < value.bytes.length then none
  else do
    let total ← checked_add_size total 4
    checked_add_size total value.bytes.length

def checked_add_string_array_size (total : ℕ) : List CString → Option ℕ
  | [] => some total
  | value :: values => do
    let total ← checked_add_encoded_string_size total value
    checked_add_string_array_size total values

variable (key : VariantKey)

/-- The size computed before anything is written. -/
def serialized_size : Option ℕ := do
  if SIZE_MAX / 4 < key.global_keyword_indices.length ∨
      SIZE_MAX / 4 < key.local_keyword_indices.length then none
  else
    let size ← checked_add_size 340 (key.global_keyword_indices.length * 4)
    let size ← checked_add_size size (key.local_keyword_indices.length * 4)
    let size ← checked_add_encoded_string_size size key.compiler.source_directory
    let size ← checked_add_encoded_string_size size key.compiler.source_basename
    let size ← checked_add_encoded_string_size size key.compiler.pass_name
    let size ← checked_add_string_array_size size key.compiler.variant_keywords
    let size ← checked_add_string_array_size size key.compiler.user_keywords
    let size ← checked_add_string_array_size size key.compiler.enabled_platform_keywords
    checked_add_string_array_size size key.compiler.disabled_keywords

/-- A writer with the bytes written so far. Their number is its offset. -/
structure VariantKeyWriter where
  data : Bytes
  size : ℕ

def writer_bytes (data : Bytes) (writer : VariantKeyWriter) : Option VariantKeyWriter :=
  if writer.size < writer.data.length ∨ writer.size - writer.data.length < data.length then none
  else some { writer with data := writer.data ++ data }

def writer_u32 (value : UInt32) (writer : VariantKeyWriter) : Option VariantKeyWriter :=
  writer_bytes (le32Bytes value) writer

def writer_u64 (value : UInt64) (writer : VariantKeyWriter) : Option VariantKeyWriter :=
  writer_bytes ((List.range 8).map fun i => (value >>> UInt64.ofNat (i * 8)).toUInt8) writer

def writer_i32 (value : Int32) (writer : VariantKeyWriter) : Option VariantKeyWriter :=
  writer_u32 value.toUInt32 writer

def writer_i64 (value : Int64) (writer : VariantKeyWriter) : Option VariantKeyWriter :=
  writer_u64 value.toUInt64 writer

def writer_flag (flag : Bool) (writer : VariantKeyWriter) : Option VariantKeyWriter :=
  writer_u32 (if flag then 1 else 0) writer

def writer_words : List UInt32 → VariantKeyWriter → Option VariantKeyWriter
  | [], writer => some writer
  | value :: values, writer => do
    let writer ← writer_u32 value writer
    writer_words values writer

def writer_string (value : CString) (writer : VariantKeyWriter) : Option VariantKeyWriter :=
  if UINT32_MAX < value.bytes.length then none
  else do
    let writer ← writer_u32 (UInt32.ofNat value.bytes.length) writer
    writer_bytes value.bytes writer

def writer_strings : List CString → VariantKeyWriter → Option VariantKeyWriter
  | [], writer => some writer
  | value :: values, writer => do
    let writer ← writer_string value writer
    writer_strings values writer

def writer_string_array (values : List CString) (writer : VariantKeyWriter) :
    Option VariantKeyWriter :=
  if UINT32_MAX < values.length then none
  else do
    let writer ← writer_u32 (UInt32.ofNat values.length) writer
    writer_strings values writer

def writer_fingerprint (writer : VariantKeyWriter) :
    Option VariantKeyWriter := do
  let writer ← writer_flag fingerprint.present writer
  writer_bytes
    (if fingerprint.present then fingerprint.bytes.toList
      else List.replicate VARIANT_KEY_DIGEST_SIZE 0) writer

def VARIANT_KEY_MAGIC : Bytes := asciiBytes "DXBCVKEY"

def write_variant (size : ℕ) (writer : VariantKeyWriter) :
    Option VariantKeyWriter := do
  let writer ← writer_bytes VARIANT_KEY_MAGIC writer
  let writer ← writer_u32 VARIANT_KEY_FORMAT_VERSION writer
  let writer ← writer_u64 (UInt64.ofNat size) writer
  let writer ← writer_i64 key.shader_path_id writer
  let writer ← writer_u32 key.subshader_index writer
  let writer ← writer_u32 key.pass_index writer
  let writer ← writer_u32 key.stage writer
  let writer ← writer_i32 key.compiler_platform writer
  let writer ← writer_u32 key.archive_platform_index writer
  let writer ← writer_u32 key.hardware_tier_group writer
  let writer ← writer_u32 key.subprogram_index writer
  let writer ← writer_i32 key.parameter_blob_index writer
  let writer ← writer_i32 key.serialized_program_type writer
  let writer ← writer_flag key.serialized_hardware_tier_present writer
  let writer ← writer_i32 key.serialized_hardware_tier writer
  let writer ← writer_u64 key.serialized_requirements writer
  let writer ← writer_u32 key.serialized_program_mask writer
  let writer ← writer_flag key.player_metadata_present writer
  let writer ← writer_i32 key.player_program_type writer
  let writer ← writer_words key.player_header_words.toList writer
  let writer ← writer_u32 key.player_source_map writer
  writer_flag key.keyword_scopes_are_explicit writer

def write_keyword_indices (writer : VariantKeyWriter) :
    Option VariantKeyWriter := do
  let writer ← writer_u32 (UInt32.ofNat key.global_keyword_indices.length) writer
  let writer ← writer_words key.global_keyword_indices writer
  let writer ← writer_u32 (UInt32.ofNat key.local_keyword_indices.length) writer
  writer_words key.local_keyword_indices writer

def write_compiler (compiler : VariantCompilerAuthority CString (List CString))
    (writer : VariantKeyWriter) : Option VariantKeyWriter := do
  let writer ← writer_u32 compiler.schema_version writer
  let writer ← writer_u32 compiler.build_platform writer
  let writer ← writer_u32 compiler.compiler_flags writer
  let writer ← writer_i32 compiler.language writer
  let writer ← writer_i32 compiler.shader_type writer
  let writer ← writer_u64 compiler.request_requirements writer
  let writer ← writer_u32 compiler.request_program_mask writer
  let writer ← writer_i32 compiler.program_start writer
  let writer ← writer_i32 compiler.render_state_length writer
  let writer ← writer_u32 compiler.valid_apis writer
  let writer ← writer_flag compiler.caching_preprocessor writer
  let writer ← writer_flag compiler.preprocess_only writer
  let writer ← writer_flag compiler.strip_line_directives writer
  let writer ← writer_string compiler.source_directory writer
  let writer ← writer_string compiler.source_basename writer
  let writer ← writer_string compiler.pass_name writer
  let writer ← writer_string_array compiler.variant_keywords writer
  let writer ← writer_string_array compiler.user_keywords writer
  let writer ← writer_string_array compiler.enabled_platform_keywords writer
  let writer ← writer_string_array compiler.disabled_keywords writer
  let writer ← writer_fingerprint compiler.compiler_fingerprint writer
  let writer ← writer_fingerprint compiler.environment_fingerprint writer
  let writer ← writer_fingerprint compiler.source_fingerprint writer
  writer_fingerprint compiler.request_input_fingerprint writer

def write_key (size : ℕ) (writer : VariantKeyWriter) :
    Option VariantKeyWriter := do
  let writer ← write_variant key size writer
  let writer ← write_keyword_indices key writer
  write_compiler key.compiler writer

def variant_key_serialize : Except VariantKeyStatus Bytes :=
  match serialized_size key with
  | none => .error .sizeOverflow
  | some size =>
    match write_key key size ⟨[], size⟩ with
    | none => .error .sizeOverflow
    | some writer => if writer.data.length ≠ size then .error .sizeOverflow else .ok writer.data

end DXBCSandbox
