/-
Responses in the compiler cache (`src/compiler/unity_compiler_cache.c`, `unity_compiler_client.c`).

A payload of the cache is a successful response of the compiler: its diagnostics, and for a
preprocess command the snippets with their contracts, for a compile command the reflection records
and the program. Strings and arrays are written behind their sizes. What is written has to be valid,
and what is read back is checked in the same way.

A string that has been read is a buffer of the size that was written, and the text in it ends at the
first NUL. So the types take the type of strings as an argument: texts for what a compiler has
answered, and buffers for what has been read.
-/
import DXBCSandbox.Compiler.CacheStore
import DXBCSandbox.Compiler.ReflectionRecord
import DXBCSandbox.Lib.BoundedWriter

namespace DXBCSandbox.ResponseCodec

open CacheStore (USC_CACHE_MAX_OUTPUT_SIZE)

def USC_PREPROCESS_MAX_COUNT : ℕ := 1048576
def UNITY_SNIPPET_CONTRACT_MAX_ITEMS : ℕ := 1024 * 1024

/-! ## Responses -/

/-- A string that has been read, without the NUL behind it. -/
abbrev Buffer := Bytes

def textOf (buffer : Buffer) : CString where
  bytes := buffer.takeWhile fun c => c != 0
  no_nul h := by simpa using List.mem_takeWhile_imp h

structure UnityCompilerDiagnostic (S : Type) where
  fields : Vector Int32 3
  record : S
  file : S
  message : S

inductive UnityCompilerResponseAvailability where
  | available | cacheOnlyMiss | includeAuthorityUnavailable
  deriving DecidableEq

structure UnityCompilerResponseStatus (S : Type) where
  availability : UnityCompilerResponseAvailability
  compiler_success : Bool
  diagnostics : List (UnityCompilerDiagnostic S)

structure ConditionalShaderRequirement (S : Type) where
  keyword : S
  requirements : UInt64

/-- The combinations of a family, if it is present. -/
abbrev SnippetKeywordVariantSet (S : Type) := Option (List S)

structure SnippetProgramKeywordVariants (S : Type) where
  compiler_program : Int32
  user_global : SnippetKeywordVariantSet S
  user_local : SnippetKeywordVariantSet S
  builtin : SnippetKeywordVariantSet S

structure SnippetCompileContract (S : Type) where
  snippet_id : Int32
  platforms : Int32
  quality_variants : Int32
  program_types_mask : UInt32
  compilation_flags : UInt32
  language : Int32
  source_hash : Vector UInt32 4
  start_line : Int32
  use_dxc_apis : Int32
  never_use_dxc_apis : Int32
  program_keyword_variants : List (SnippetProgramKeywordVariants S)
  non_stripped_user_keywords : List S
  builtin_keywords : List S
  requirements : UInt64
  conditional_requirements : List (ConditionalShaderRequirement S)

/-- A snippet. With a contract, the other fields mirror it. -/
structure PreprocessedSnippet (S : Type) where
  source : S
  reqs : UInt64
  language : Int32
  gpu_program_id : Int32
  conditional_requirements : List (ConditionalShaderRequirement S)
  contract : Option (SnippetCompileContract S)

/-- The paths of a family of callbacks, if there was one. -/
abbrev UnityCompilerDependencyPaths (S : Type) := Option (List S)

structure PreprocessResult (S : Type) where
  snippets : List (PreprocessedSnippet S)
  blob : Bytes
  includes : UnityCompilerDependencyPaths S
  probed_paths : UnityCompilerDependencyPaths S

structure UnityCompilerPreprocessResponse (S : Type) where
  status : UnityCompilerResponseStatus S
  result : PreprocessResult S

structure ReflectionEntry (S : Type) where
  content : UnityCompilerReflectionRecord
  record : S

structure UnityCompilerBinaryResponse (S : Type) where
  status : UnityCompilerResponseStatus S
  reflection_records : List (ReflectionEntry S)
  data : Bytes

/-! ## Validity -/

section Validity

variable {S : Type} (text : S → CString)

def signedBytes (value : Int32) : Bytes :=
  if value.toInt < 0 then 45 :: decimalBytes value.toInt.natAbs else decimalBytes value.toInt.natAbs

def canonical_record (fields : Vector Int32 3) : Bytes :=
  asciiBytes "err: " ++ (signedBytes fields[0] ++ (32 :: signedBytes fields[1] ++
    (32 :: signedBytes fields[2])))

def cache_diagnostic_is_valid (diagnostic : UnityCompilerDiagnostic S) : Bool :=
  (canonical_record diagnostic.fields).length < 96 ∧
    canonical_record diagnostic.fields = (text diagnostic.record).bytes

def cache_response_status_is_valid (status : UnityCompilerResponseStatus S) : Bool :=
  status.availability = .available ∧ status.diagnostics.length ≤ USC_PREPROCESS_MAX_COUNT ∧
    status.diagnostics.all (cache_diagnostic_is_valid text)

def valid_owned_string_array (values : List S) : Bool :=
  values.length ≤ UNITY_SNIPPET_CONTRACT_MAX_ITEMS ∧ values.all fun s => (text s).bytes ≠ []

def valid_variant_set (set : SnippetKeywordVariantSet S) : Bool :=
  (set.getD []).length ≤ UNITY_SNIPPET_CONTRACT_MAX_ITEMS

def valid_program (program : SnippetProgramKeywordVariants S) : Bool :=
  0 ≤ program.compiler_program ∧ valid_variant_set program.user_global ∧
    valid_variant_set program.user_local ∧ valid_variant_set program.builtin

def distinct_programs : List (SnippetProgramKeywordVariants S) → Bool
  | [] => true
  | program :: programs =>
    programs.all (fun other => program.compiler_program ≠ other.compiler_program) ∧
      distinct_programs programs

def unity_compiler_snippet_contract_validate (contract : SnippetCompileContract S) : Bool :=
  (0 ≤ contract.start_line ∧ (contract.use_dxc_apis = 0 ∨ contract.use_dxc_apis = 1) ∧
    (contract.never_use_dxc_apis = 0 ∨ contract.never_use_dxc_apis = 1) ∧
    contract.program_keyword_variants.length ≤ UNITY_SNIPPET_CONTRACT_MAX_ITEMS ∧
    valid_owned_string_array text contract.non_stripped_user_keywords ∧
    valid_owned_string_array text contract.builtin_keywords ∧
    contract.conditional_requirements.length ≤ UNITY_SNIPPET_CONTRACT_MAX_ITEMS) ∧
  contract.program_keyword_variants.all valid_program ∧
  distinct_programs contract.program_keyword_variants ∧
  contract.conditional_requirements.all fun requirement => (text requirement.keyword).bytes ≠ []

end Validity

/-! ## Encoders -/

abbrev CacheEncoder := StateT Bytes Option Unit

variable (data : Bytes)

def encoder_bytes : CacheEncoder := fun output =>
  if data.length ≤ USC_CACHE_MAX_OUTPUT_SIZE - output.length then some ((), output ++ data) else none

def encoder_u32 (value : UInt32) : CacheEncoder := encoder_bytes (leBytes 4 value.toNat)

def encoder_u64 (value : UInt64) : CacheEncoder := encoder_bytes (leBytes 8 value.toNat)

def encoder_i32 (value : Int32) : CacheEncoder := encoder_u32 value.toUInt32

def encoder_count (count : ℕ) : CacheEncoder := encoder_u32 (UInt32.ofNat count)

def encoder_flag (flag : Bool) : CacheEncoder := encoder_u32 (if flag then 1 else 0)

def encoder_sized : CacheEncoder := do
  encoder_u64 (UInt64.ofNat data.length)
  encoder_bytes data

def encoder_string (value : CString) : CacheEncoder := encoder_sized value.bytes

def encoder_diagnostic (diagnostic : UnityCompilerDiagnostic CString) : CacheEncoder := do
  encoder_i32 diagnostic.fields[0]
  encoder_i32 diagnostic.fields[1]
  encoder_i32 diagnostic.fields[2]
  encoder_string diagnostic.record
  encoder_string diagnostic.file
  encoder_string diagnostic.message

def encoder_response_status (status : UnityCompilerResponseStatus CString) : CacheEncoder := do
  guard (cache_response_status_is_valid id status)
  encoder_flag status.compiler_success
  encoder_count status.diagnostics.length
  writeEach encoder_diagnostic status.diagnostics

def encoder_string_array (values : List CString) : CacheEncoder := do
  encoder_count values.length
  writeEach encoder_string values

def encoder_variant_set : SnippetKeywordVariantSet CString → CacheEncoder
  | none => encoder_flag false
  | some combinations => do
    encoder_flag true
    encoder_string_array combinations

def encoder_program (program : SnippetProgramKeywordVariants CString) : CacheEncoder := do
  encoder_i32 program.compiler_program
  encoder_variant_set program.user_global
  encoder_variant_set program.user_local
  encoder_variant_set program.builtin

def encoder_requirement (requirement : ConditionalShaderRequirement CString) : CacheEncoder := do
  encoder_string requirement.keyword
  encoder_u64 requirement.requirements

def encoder_requirements (requirements : List (ConditionalShaderRequirement CString)) :
    CacheEncoder := do
  encoder_count requirements.length
  writeEach encoder_requirement requirements

def contract_words {S : Type} (contract : SnippetCompileContract S) : List UInt32 :=
  [contract.snippet_id.toUInt32, contract.platforms.toUInt32, contract.quality_variants.toUInt32,
    contract.program_types_mask, contract.compilation_flags, contract.language.toUInt32,
    contract.source_hash[0], contract.source_hash[1], contract.source_hash[2],
    contract.source_hash[3], contract.start_line.toUInt32, contract.use_dxc_apis.toUInt32,
    contract.never_use_dxc_apis.toUInt32]

def encoder_snippet_contract (contract : SnippetCompileContract CString) : CacheEncoder := do
  writeEach encoder_u32 (contract_words contract)
  encoder_count contract.program_keyword_variants.length
  writeEach encoder_program contract.program_keyword_variants
  encoder_string_array contract.non_stripped_user_keywords
  encoder_string_array contract.builtin_keywords
  encoder_u64 contract.requirements
  encoder_requirements contract.conditional_requirements

def encoder_dependency_paths : UnityCompilerDependencyPaths CString → CacheEncoder
  | none => encoder_flag false
  | some paths => do
    guard (paths.length ≤ USC_PREPROCESS_MAX_COUNT)
    encoder_flag true
    guard (paths.all fun path => path.bytes ≠ [])
    encoder_string_array paths

def encoder_snippet (snippet : PreprocessedSnippet CString) : CacheEncoder :=
  match snippet.contract with
  | some contract => do
    guard (unity_compiler_snippet_contract_validate id contract)
    encoder_string snippet.source
    encoder_flag true
    encoder_snippet_contract contract
  | none => do
    guard (snippet.conditional_requirements.length ≤ USC_PREPROCESS_MAX_COUNT)
    encoder_string snippet.source
    encoder_flag false
    encoder_u64 snippet.reqs
    encoder_i32 snippet.language
    encoder_i32 snippet.gpu_program_id
    encoder_requirements snippet.conditional_requirements

def preprocess_result_magic : Bytes := asciiBytes "USCPREP5"
def binary_response_magic : Bytes := asciiBytes "USCBINR2"
def preprocess_response_magic : Bytes := asciiBytes "USCPRSP1"

def encoded (encoder : CacheEncoder) : Option Bytes :=
  (encoder.run []).map Prod.snd

def usc_cache_serialize_preprocess_result (result : PreprocessResult CString) :
    Option Bytes := encoded do
  guard (result.snippets.length ≤ USC_PREPROCESS_MAX_COUNT)
  encoder_bytes preprocess_result_magic
  encoder_u32 5
  encoder_u32 0
  encoder_count result.snippets.length
  encoder_sized result.blob
  writeEach encoder_snippet result.snippets
  encoder_dependency_paths result.includes
  encoder_dependency_paths result.probed_paths

/-- The text of a record says what the record does. -/
def reflection_entry_is_exact (entry : ReflectionEntry CString) : Bool :=
  (unity_compiler_reflection_record_parse entry.record).any fun parsed =>
    parsed.toUnityCompilerReflectionRecord = entry.content

def usc_cache_serialize_binary_response (response : UnityCompilerBinaryResponse CString) :
    Option Bytes := encoded do
  guard (response.status.compiler_success ∧ cache_response_status_is_valid id response.status ∧
    response.reflection_records.length ≤ USC_PREPROCESS_MAX_COUNT ∧
    response.reflection_records.all reflection_entry_is_exact)
  encoder_bytes binary_response_magic
  encoder_u32 2
  encoder_u32 0
  encoder_response_status response.status
  encoder_count response.reflection_records.length
  writeEach (fun entry => encoder_string entry.record) response.reflection_records
  encoder_sized response.data

def usc_cache_serialize_preprocess_response (response : UnityCompilerPreprocessResponse CString) :
    Option Bytes := do
  guard (response.status.compiler_success ∧ cache_response_status_is_valid id response.status)
  let preprocess_data ← usc_cache_serialize_preprocess_result response.result
  encoded do
    encoder_bytes preprocess_response_magic
    encoder_u32 1
    encoder_u32 0
    encoder_response_status response.status
    encoder_sized preprocess_data

/-! ## Decoders -/

abbrev CacheDecoder (α : Type) := StateT Bytes Option α

def decoder_bytes (size : ℕ) : CacheDecoder Bytes := fun input =>
  if size ≤ input.length then some (input.take size, input.drop size) else none

def decoder_u32 : CacheDecoder UInt32 := do
  let bytes ← decoder_bytes 4
  pure (UInt32.ofNat (leValue bytes))

def decoder_u64 : CacheDecoder UInt64 := do
  let bytes ← decoder_bytes 8
  pure (UInt64.ofNat (leValue bytes))

def decoder_i32 : CacheDecoder Int32 := do
  let value ← decoder_u32
  pure (.ofUInt32 value)

def decoder_flag : CacheDecoder Bool := do
  let value ← decoder_u32
  guard (value ≤ 1)
  pure (value = 1)

/-- Bytes behind their size, which the rest of the input must have. -/
def decoder_sized (limit : ℕ) : CacheDecoder Bytes := do
  let size ← decoder_u64
  guard (size.toNat ≤ limit)
  decoder_bytes size.toNat

def decoder_string : CacheDecoder Buffer := decoder_sized (SIZE_MAX - 1)

def decoder_counted {α : Type} (item : CacheDecoder α) : CacheDecoder (List α) := do
  let count ← decoder_u32
  guard (count.toNat ≤ USC_PREPROCESS_MAX_COUNT)
  readItems (fun _ => item) 0 count.toNat

def decoder_diagnostic : CacheDecoder (UnityCompilerDiagnostic Buffer) := do
  let field0 ← decoder_i32
  let field1 ← decoder_i32
  let field2 ← decoder_i32
  let record ← decoder_string
  let file ← decoder_string
  let message ← decoder_string
  guard (cache_diagnostic_is_valid textOf ⟨#v[field0, field1, field2], record, file, message⟩)
  pure ⟨#v[field0, field1, field2], record, file, message⟩

def decoder_response_status : CacheDecoder (UnityCompilerResponseStatus Buffer) := do
  let compiler_success ← decoder_flag
  let diagnostics ← decoder_counted decoder_diagnostic
  pure ⟨.available, compiler_success, diagnostics⟩

def decoder_filled_string : CacheDecoder Buffer := do
  let value ← decoder_string
  guard ((textOf value).bytes ≠ [])
  pure value

def decoder_string_array (allow_empty_strings : Bool) : CacheDecoder (List Buffer) :=
  decoder_counted (if allow_empty_strings then decoder_string else decoder_filled_string)

def decoder_variant_set : CacheDecoder (SnippetKeywordVariantSet Buffer) := do
  let present ← decoder_flag
  if present then do
    let combinations ← decoder_string_array true
    pure (some combinations)
  else pure none

def decoder_program : CacheDecoder (SnippetProgramKeywordVariants Buffer) := do
  let compiler_program ← decoder_u32
  guard (compiler_program.toNat ≤ INT_MAX)
  let user_global ← decoder_variant_set
  let user_local ← decoder_variant_set
  let builtin ← decoder_variant_set
  pure ⟨.ofUInt32 compiler_program, user_global, user_local, builtin⟩

def decoder_requirement (keyword : CacheDecoder Buffer) :
    CacheDecoder (ConditionalShaderRequirement Buffer) := do
  let keyword ← keyword
  let requirements ← decoder_u64
  pure ⟨keyword, requirements⟩

def contract_of (words : List UInt32)
    (program_keyword_variants : List (SnippetProgramKeywordVariants Buffer))
    (non_stripped_user_keywords builtin_keywords : List Buffer) (requirements : UInt64)
    (conditional_requirements : List (ConditionalShaderRequirement Buffer)) :
    Option (SnippetCompileContract Buffer) :=
  match words with
  | [w0, w1, w2, w3, w4, w5, w6, w7, w8, w9, w10, w11, w12] =>
    some {
      snippet_id := .ofUInt32 w0
      platforms := .ofUInt32 w1
      quality_variants := .ofUInt32 w2
      program_types_mask := w3
      compilation_flags := w4
      language := .ofUInt32 w5
      source_hash := #v[w6, w7, w8, w9]
      start_line := .ofUInt32 w10
      use_dxc_apis := .ofUInt32 w11
      never_use_dxc_apis := .ofUInt32 w12
      program_keyword_variants, non_stripped_user_keywords, builtin_keywords, requirements
      conditional_requirements }
  | _ => none

def decoder_snippet_contract : CacheDecoder (SnippetCompileContract Buffer) := do
  let words ← readItems (fun _ => decoder_u32) 0 13
  let programs ← decoder_counted decoder_program
  let user_keywords ← decoder_string_array false
  let builtin_keywords ← decoder_string_array false
  let requirements ← decoder_u64
  let conditional ← decoder_counted (decoder_requirement decoder_filled_string)
  let contract ← contract_of words programs user_keywords builtin_keywords requirements conditional
  guard (unity_compiler_snippet_contract_validate textOf contract)
  pure contract

def decoder_snippet : CacheDecoder (PreprocessedSnippet Buffer) := do
  let source ← decoder_string
  let has_contract ← decoder_flag
  if has_contract then do
    let contract ← decoder_snippet_contract
    pure ⟨source, contract.requirements, contract.language, contract.snippet_id,
      contract.conditional_requirements, some contract⟩
  else do
    let reqs ← decoder_u64
    let language ← decoder_i32
    let gpu_program_id ← decoder_i32
    let conditional ← decoder_counted (decoder_requirement decoder_string)
    pure ⟨source, reqs, language, gpu_program_id, conditional, none⟩

def decoder_dependency_paths : CacheDecoder (UnityCompilerDependencyPaths Buffer) := do
  let present ← decoder_flag
  if present then do
    let paths ← decoder_string_array false
    pure (some paths)
  else pure none

def decoder_result_version : CacheDecoder UInt32 := do
  let stored_magic ← decoder_bytes 8
  guard (stored_magic.take 7 = preprocess_result_magic.take 7)
  let version ← decoder_u32
  guard ((version = 4 ∨ version = 5) ∧ stored_magic.getD 7 0 = 48 + version.toUInt8)
  pure version

/-- A result. Version 4 has no dependencies. -/
def decoder_preprocess_result : CacheDecoder (PreprocessResult Buffer) := do
  let version ← decoder_result_version
  let reserved ← decoder_u32
  guard (reserved = 0)
  let snippet_count ← decoder_u32
  guard (snippet_count.toNat ≤ USC_PREPROCESS_MAX_COUNT)
  let blob ← decoder_sized SIZE_MAX
  let snippets ← readItems (fun _ => decoder_snippet) 0 snippet_count.toNat
  if version = 5 then do
    let includes ← decoder_dependency_paths
    let probed_paths ← decoder_dependency_paths
    pure ⟨snippets, blob, includes, probed_paths⟩
  else pure ⟨snippets, blob, none, none⟩

/-- What a decoder makes of the whole input. -/
def decoded {α : Type} (decoder : CacheDecoder α) (data : Bytes) : Option α :=
  match decoder.run data with
  | some (value, []) => some value
  | _ => none

/-- A decoder that fails releases what it has written and leaves zeros. -/
def outputOf {α : Type} (zeroed : α) : Option α → Bool × α
  | some value => (true, value)
  | none => (false, zeroed)

def PreprocessResult.zeroed : PreprocessResult Buffer := ⟨[], [], none, none⟩

def usc_cache_deserialize_preprocess_result : Bool × PreprocessResult Buffer :=
  outputOf .zeroed (decoded decoder_preprocess_result data)

def UnityCompilerResponseStatus.zeroed : UnityCompilerResponseStatus Buffer :=
  ⟨.available, false, []⟩

/-- The magic of a response with its version and the reserved word. -/
def decoder_response_header (magic : Bytes) (version : UInt32) : CacheDecoder Unit := do
  let stored_magic ← decoder_bytes 8
  guard (stored_magic = magic)
  let stored_version ← decoder_u32
  guard (stored_version = version)
  let reserved ← decoder_u32
  guard (reserved = 0)
  pure ()

def decoder_success : CacheDecoder (UnityCompilerResponseStatus Buffer) := do
  let status ← decoder_response_status
  guard (status.compiler_success = true)
  pure status

def decoder_reflection_entry : CacheDecoder (ReflectionEntry Buffer) := do
  let record ← decoder_string
  let parsed ← unity_compiler_reflection_record_parse (textOf record)
  pure ⟨parsed.toUnityCompilerReflectionRecord, record⟩

def decoder_binary_response : CacheDecoder (UnityCompilerBinaryResponse Buffer) := do
  decoder_response_header binary_response_magic 2
  let status ← decoder_success
  let reflection_records ← decoder_counted decoder_reflection_entry
  let data ← decoder_sized SIZE_MAX
  pure ⟨status, reflection_records, data⟩

def UnityCompilerBinaryResponse.zeroed : UnityCompilerBinaryResponse Buffer := ⟨.zeroed, [], []⟩

def usc_cache_deserialize_binary_response : Bool × UnityCompilerBinaryResponse Buffer :=
  outputOf .zeroed (decoded decoder_binary_response data)

/-- The status, and the result as it was written. -/
def decoder_preprocess_envelope :
    CacheDecoder (UnityCompilerResponseStatus Buffer × Bytes) := do
  decoder_response_header preprocess_response_magic 1
  let status ← decoder_success
  let preprocess_data ← decoder_sized SIZE_MAX
  pure (status, preprocess_data)

def UnityCompilerPreprocessResponse.zeroed : UnityCompilerPreprocessResponse Buffer :=
  ⟨.zeroed, .zeroed⟩

def usc_cache_deserialize_preprocess_response : Bool × UnityCompilerPreprocessResponse Buffer :=
  outputOf .zeroed do
    let (status, preprocess_data) ← decoded decoder_preprocess_envelope data
    let result ← decoded decoder_preprocess_result preprocess_data
    some ⟨status, result⟩

end DXBCSandbox.ResponseCodec
