/-
A preprocess command and the compiler cache (`src/compiler/unity_compiler_client.c`,
`unity_compiler_preprocess_contract_response`).

With a cache directory, a command first looks for the entry of its request. A payload that the
decoder of responses accepts is returned without a compiler. Otherwise the live compiler is asked,
and what it answers with success is stored under the same request.

What the channel finds out about its toolchain and its session is data of the call, and so is the
answer of the compiler. A store is taken here as it goes when no other store comes between its steps
and no system call fails; the steps themselves are those of `CacheStore`.
-/
import DXBCSandbox.Compiler.ResponseRoundTrip

namespace DXBCSandbox.PreprocessCache

open CacheStore ResponseCodec

variable (sha256_bytes : Bytes → CacheDigest)

/-! ## A store by itself -/

/-- The attempts under the locks: the entry they leave, and whether it is the one asked for. -/
def store_attempts (request_digest : CacheDigest) (data : Bytes) :
    ℕ → Option CacheNode → Option CacheNode × Bool
  | 0, entry => (entry, false)
  | attempts + 1, entry =>
    match inspect_cache_entry sha256_bytes request_digest data entry with
    | .identical => (entry, true)
    | .different => (entry, false)
    | .unavailable => (entry, false)
    | .corrupt => store_attempts request_digest data attempts none
    | .missing => (some (.regular (entry_bytes sha256_bytes request_digest data)), true)

def usc_cache_store (request_digest : CacheDigest) (data : Bytes)
    (entry : Option CacheNode) : Option CacheNode × Bool :=
  if data.length ≤ USC_CACHE_MAX_OUTPUT_SIZE then
    store_attempts sha256_bytes request_digest data 8 entry
  else (entry, false)

/-! ## The command -/

/-- `seal_pending`: a snippet of the stream, which mirrors its contract. -/
def sealed (pending_source : CString)
    (pending_contract : ResponseCodec.SnippetCompileContract CString) :
    PreprocessedSnippet CString where
  source := pending_source
  reqs := pending_contract.requirements
  language := pending_contract.language
  gpu_program_id := pending_contract.snippet_id
  conditional_requirements := pending_contract.conditional_requirements
  contract := some pending_contract

/-- What the records of the compiler come to, up to the status record. -/
structure PreprocessAnswer where
  primary_success : Bool
  diagnostics : List (UnityCompilerDiagnostic CString)
  pending : List (CString × ResponseCodec.SnippetCompileContract CString)
  blob : Bytes
  includes : UnityCompilerDependencyPaths CString
  probed_paths : UnityCompilerDependencyPaths CString

/-- The response of an answer. After a failure there are neither snippets nor a blob. -/
def PreprocessAnswer.response (answer : PreprocessAnswer) :
    UnityCompilerPreprocessResponse CString where
  status := ⟨.available, answer.primary_success, answer.diagnostics⟩
  result :=
    if answer.primary_success then
      ⟨answer.pending.map fun p => sealed p.1 p.2, answer.blob, answer.includes,
        answer.probed_paths⟩
    else ⟨[], [], answer.includes, answer.probed_paths⟩

/-- What a call meets: its environment, the tests of its channel where it makes them, and the
compiler's answer, which is missing where a record was malformed or the stream ended. -/
structure PreprocessCall where
  cache_dir : Bool
  compiler_cache_only_enabled : Bool
  toolchain_authority : Bool
  valid_apis_is_rejection : Bool
  session_capabilities_failed : Bool
  session_capabilities_ready : Bool
  match_valid_apis : Bool
  begin_compiler_transaction : Bool
  path_is_captured : CString → Bool → Bool
  answer : Option PreprocessAnswer

variable (call : PreprocessCall)

/-- Without captured capabilities, only a call that requires them is refused. -/
def validate_captured_session_valid_apis (require_captured : Bool) : Bool :=
  if call.session_capabilities_failed then false
  else if call.session_capabilities_ready then call.match_valid_apis
  else !require_captured

/-- The lease has every path, and those of `includes` as files. -/
def preprocess_dependencies_are_captured (result : PreprocessResult CString) : Bool :=
  (result.includes.getD []).all (fun path => call.path_is_captured path true) ∧
    (result.probed_paths.getD []).all (fun path => call.path_is_captured path false)

/-- `from_cache` is a field of the response status that a payload does not have. -/
inductive PreprocessReturn where
  | failed
  | returned (response : UnityCompilerPreprocessResponse CString) (from_cache : Bool)

def unavailable_response (availability : UnityCompilerResponseAvailability) :
    UnityCompilerPreprocessResponse CString :=
  ⟨⟨availability, false, []⟩, ⟨[], [], none, none⟩⟩

/-- The response keeps what it has, and only its availability changes. -/
def reject_preprocess_include_authority (response : UnityCompilerPreprocessResponse CString) :
    UnityCompilerPreprocessResponse CString :=
  { response with status := { response.status with availability := .includeAuthorityUnavailable } }

/-- A payload that the decoder accepts, with the texts in its buffers. -/
def cached_response (request_digest : CacheDigest) (entry : Option CacheNode) :
    Option (UnityCompilerPreprocessResponse Buffer) :=
  (usc_cache_load sha256_bytes request_digest entry).bind fun cached_data =>
    match usc_cache_deserialize_preprocess_response cached_data with
    | (true, response) => some response
    | (false, _) => none

def replay_cached (response : UnityCompilerPreprocessResponse CString) : PreprocessReturn :=
  if !preprocess_dependencies_are_captured call response.result then
    .returned (reject_preprocess_include_authority response) true
  else if call.valid_apis_is_rejection then .returned response true
  else if call.toolchain_authority ∧ validate_captured_session_valid_apis call false then
    .returned response true
  else .failed

/-- The store of a live success. The return of the call does not depend on it. -/
def store_response (cache_ready : Bool) (request_digest : CacheDigest)
    (response : UnityCompilerPreprocessResponse CString) (entry : Option CacheNode) :
    Option CacheNode :=
  if cache_ready then
    match usc_cache_serialize_preprocess_response response with
    | some serialized => (usc_cache_store sha256_bytes request_digest serialized entry).1
    | none => entry
  else entry

def ask_compiler (request_digest : CacheDigest) (entry : Option CacheNode) :
    PreprocessReturn × Option CacheNode :=
  if call.compiler_cache_only_enabled then
    (.returned (unavailable_response .cacheOnlyMiss) false, entry)
  else if !call.begin_compiler_transaction then
    if call.valid_apis_is_rejection then (.returned (unavailable_response .available) false, entry)
    else (.failed, entry)
  else if !validate_captured_session_valid_apis call true then (.failed, entry)
  else
    match call.answer with
    | none => (.failed, entry)
    | some answer =>
      if !call.toolchain_authority then (.failed, entry)
      else if !preprocess_dependencies_are_captured call answer.response.result then
        (.returned (reject_preprocess_include_authority answer.response) false, entry)
      else if answer.primary_success then
        (.returned answer.response false,
          store_response sha256_bytes call.cache_dir request_digest answer.response entry)
      else (.returned answer.response false, entry)

/-- The call from where its request has a digest: what it returns, and the entry that it leaves. -/
def unity_compiler_preprocess_contract_response (request_digest : CacheDigest)
    (entry : Option CacheNode) : PreprocessReturn × Option CacheNode :=
  match (if call.cache_dir then cached_response sha256_bytes request_digest entry else none) with
  | some response => (replay_cached call (response.map textOf), entry)
  | none => ask_compiler sha256_bytes call request_digest entry

end DXBCSandbox.PreprocessCache
