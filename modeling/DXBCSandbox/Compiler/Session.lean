/-
Sessions with the shader compiler (`src/compiler/unity_compiler_client.c`).

A channel holds at most one compiler process, the capabilities that a process reported when it was
initialized, and leases on the files that a request may read. All that a channel learns from outside
comes from a `World`: whether a file changed, a process started, a read or a write went through, an
entry was in the cache. Responses are read by other modules; here a response arrives or it does not.
-/
import DXBCSandbox.Common.VariantKey
import DXBCSandbox.Lib.StateRules

namespace DXBCSandbox.Session

/-! ## Capabilities -/

def UNITY_COMPILER_PLATFORM_COUNT : ℕ := 25

def UNITY_COMPILER_PLATFORM_MASK : UInt32 := 0x01ffffff

structure UnityCompilerPlatformCapability where
  supported_features : UInt64
  version : Int32

structure UnityCompilerSessionCapabilities where
  raw_available_platform_mask : UInt32
  platforms : Vector UnityCompilerPlatformCapability UNITY_COMPILER_PLATFORM_COUNT

def no_capabilities : UnityCompilerSessionCapabilities := ⟨0, .replicate _ ⟨0, 0⟩⟩

variable (capabilities : UnityCompilerSessionCapabilities)

def unity_compiler_session_capabilities_validate : Bool :=
  let reserved_mask := ~~~UNITY_COMPILER_PLATFORM_MASK
  capabilities.raw_available_platform_mask &&& reserved_mask = reserved_mask

def unity_compiler_session_capabilities_equal (left right : UnityCompilerSessionCapabilities) :
    Bool :=
  if !unity_compiler_session_capabilities_validate left ∨
      !unity_compiler_session_capabilities_validate right ∨
      left.raw_available_platform_mask ≠ right.raw_available_platform_mask then false
  else (List.finRange UNITY_COMPILER_PLATFORM_COUNT).all fun index =>
    (left.platforms.get index).supported_features = (right.platforms.get index).supported_features ∧
      (left.platforms.get index).version = (right.platforms.get index).version

def unity_compiler_session_capabilities_valid_apis : Option UInt32 :=
  if !unity_compiler_session_capabilities_validate capabilities then none
  else some (capabilities.raw_available_platform_mask &&& UNITY_COMPILER_PLATFORM_MASK)

def unity_compiler_session_capabilities_match_valid_apis (valid_apis : UInt32) : Bool :=
  match unity_compiler_session_capabilities_valid_apis capabilities with
  | some available => valid_apis = available
  | none => false

/-! ## The channel -/

/-- Leases and processes are numbered in the order they were made. A `socket_fd` is the connection
to the process of that number, and `none` is `-1`. -/
structure UnityCompilerChannel where
  configured : Bool
  socket_fd : Option ℕ
  process_id : Option ℕ
  session_capabilities : UnityCompilerSessionCapabilities
  session_capabilities_ready : Bool
  session_capabilities_failed : Bool
  expected_valid_apis : UInt32
  expected_valid_apis_ready : Bool
  cache_toolchain_lease : Option ℕ
  cache_source_lease : Option ℕ
  cache_include_lease : Option ℕ
  cache_prior_include_lease : Option ℕ
  cache_source_root : Option Bytes
  cache_working_directory : Option CString
  source_authority_revision : UInt64
  include_authority_unavailable : Bool

def no_channel : UnityCompilerChannel :=
  ⟨false, none, none, no_capabilities, false, false, 0, false, none, none, none, none, none, none,
    0, false⟩

inductive UnityCompilerValidApisAuthorityStatus where
  | notConfigured | pending | matched | mismatch | sessionFailed
  deriving DecidableEq

structure UnityCompilerValidApisAuthority where
  status : UnityCompilerValidApisAuthorityStatus
  expected_valid_apis : UInt32
  observed_valid_apis : UInt32

def expected_valid_apis_authority_snapshot (channel : UnityCompilerChannel) :
    UnityCompilerValidApisAuthority :=
  if !channel.expected_valid_apis_ready then ⟨.notConfigured, 0, 0⟩
  else if channel.session_capabilities_failed then
    ⟨.sessionFailed, channel.expected_valid_apis, 0⟩
  else if !channel.session_capabilities_ready then ⟨.pending, channel.expected_valid_apis, 0⟩
  else match unity_compiler_session_capabilities_valid_apis channel.session_capabilities with
    | none => ⟨.sessionFailed, channel.expected_valid_apis, 0⟩
    | some observed =>
      ⟨if channel.expected_valid_apis = observed then .matched else .mismatch,
        channel.expected_valid_apis, observed⟩

def expected_valid_apis_authority_permits_live_command (channel : UnityCompilerChannel) : Bool :=
  let authority := expected_valid_apis_authority_snapshot channel
  authority.status = .notConfigured ∨ authority.status = .matched

def expected_valid_apis_authority_is_rejection (authority : UnityCompilerValidApisAuthority) :
    Bool :=
  authority.status = .mismatch ∨ authority.status = .sessionFailed

/-! ## Runs -/

inductive Command where
  | initializeCompiler | preprocess | compileSnippet | disassembleShader | compileComputeKernel
  | preprocessCompute | shutdown
  deriving DecidableEq

def Command.isWork (command : Command) : Bool :=
  command ≠ .initializeCompiler ∧ command ≠ .shutdown

/-- `report` is the record that a process answered `initializeCompiler` with, and `update` an
assignment to fields of the channel. -/
inductive Event where
  | write (command : Command) (process : ℕ)
  | report (capabilities : UnityCompilerSessionCapabilities)
  | update

structure Entry where
  event : Event
  channel : UnityCompilerChannel

/-- What happens outside, by the number of the question or of the process. -/
structure World where
  holds : ℕ → Bool
  working_directory : ℕ → Option CString
  /-- What a process answers to `initializeCompiler`, if it can be read. -/
  reports : ℕ → Option UnityCompilerSessionCapabilities

/-- A session. Counters number questions, leases and processes, and the newest entry of the trace is
the first. -/
structure State where
  channel : UnityCompilerChannel
  asked : ℕ
  leases : ℕ
  processes : ℕ
  trace : List Entry

abbrev SessionM (α : Type) := StateM State α

def getChannel : SessionM UnityCompilerChannel := fun s => (s.channel, s)

def update (f : UnityCompilerChannel → UnityCompilerChannel) : SessionM Unit := fun s =>
  ((), { s with channel := f s.channel, trace := ⟨.update, f s.channel⟩ :: s.trace })

def emit (event : Event) : SessionM Unit := fun s =>
  ((), { s with trace := ⟨event, s.channel⟩ :: s.trace })

def newLease : SessionM ℕ := fun s => (s.leases, { s with leases := s.leases + 1 })

def newProcess : SessionM ℕ := fun s => (s.processes, { s with processes := s.processes + 1 })

section

variable (world : World)

def ask : SessionM Bool := fun s => (world.holds s.asked, { s with asked := s.asked + 1 })

def getcwd : SessionM (Option CString) := fun s =>
  (world.working_directory s.asked, { s with asked := s.asked + 1 })

def askLease : SessionM (Option ℕ) := do
  if ← ask world then return some (← newLease) else return none

/-! ## Expectations -/

def unity_compiler_set_expected_valid_apis (expected_valid_apis : UInt32) : SessionM Bool := do
  let channel ← getChannel
  if !channel.configured ∨ expected_valid_apis &&& ~~~UNITY_COMPILER_PLATFORM_MASK ≠ 0 then
    return false
  else
    update fun channel => { channel with expected_valid_apis, expected_valid_apis_ready := true }
    return true

def unity_compiler_clear_expected_valid_apis : SessionM Bool := do
  let channel ← getChannel
  if !channel.configured then return false
  else
    update fun channel =>
      { channel with expected_valid_apis := 0, expected_valid_apis_ready := false }
    return true

/-! ## Authority -/

/-- Socket and process are gone; the process is killed. -/
def invalidate_compiler_channel : SessionM Unit :=
  update fun channel => { channel with socket_fd := none, process_id := none }

def discard_source_authority : SessionM Unit :=
  update fun channel => { channel with
    cache_source_lease := none
    cache_include_lease := none
    cache_prior_include_lease := none
    cache_source_root := none
    cache_working_directory := none
    source_authority_revision := channel.source_authority_revision + 1 }

/-- A lease that is not there is not looked at. -/
def validate_lease (lease : Option ℕ) : SessionM Bool :=
  if lease.isSome then ask world else return true

def validate_working_directory : SessionM Bool := do
  let channel ← getChannel
  if channel.cache_working_directory = none then return true
  else
    let current ← getcwd world
    return current = channel.cache_working_directory

def validate_include_authority : SessionM Bool := do
  let channel ← getChannel
  andAlso (validate_lease world channel.cache_include_lease)
    (andAlso (validate_lease world channel.cache_prior_include_lease)
      (validate_working_directory world))

/-- The source has a flag for whether the process goes too, and sets it everywhere. -/
def discard_toolchain_authority (invalidate_process : Bool) : SessionM Unit := do
  if invalidate_process then invalidate_compiler_channel else pure ()
  discard_source_authority
  update fun channel => { channel with
    cache_toolchain_lease := none
    session_capabilities := no_capabilities
    session_capabilities_ready := false
    session_capabilities_failed := false }

def keep_or_discard (valid : Bool) : SessionM Bool := do
  if valid then
    let channel ← getChannel
    return !channel.session_capabilities_failed
  else
    discard_toolchain_authority true
    return false

def capture_or_validate_toolchain_authority : SessionM Bool := do
  let channel ← getChannel
  if !channel.configured then return false
  else if channel.cache_toolchain_lease.isSome then
    let valid ← andAlso (ask world) (validate_include_authority world)
    keep_or_discard valid
  else
    match ← askLease world with
    | none => return false
    | some lease =>
      update fun channel => { channel with cache_toolchain_lease := some lease }
      return true

def validate_existing_toolchain_authority : SessionM Bool := do
  let channel ← getChannel
  if channel.cache_toolchain_lease = none then return false
  else
    let valid ← andAlso (ask world) (andAlso (validate_lease world channel.cache_source_lease)
      (validate_include_authority world))
    keep_or_discard valid

def get_toolchain_fingerprints : SessionM Bool := do
  let channel ← getChannel
  if !channel.configured then return false else capture_or_validate_toolchain_authority world

/-- Backslashes become slashes, and a path that does not start with one is in the working
directory. -/
def request_search_root (path working_directory : Option CString) : Option Bytes :=
  match path, working_directory with
  | some path, some working_directory =>
    let normalized := path.bytes.map fun c => if c = 92 then 47 else c
    if normalized.head? = some 47 then some normalized
    else if normalized = [] ∨ normalized = [46] then some working_directory.bytes
    else some (working_directory.bytes ++ 47 :: normalized)
  | _, _ => none

/-- Inputs that changed since the last request are let go of, and so is the process. -/
def refresh_source_authority (root : Bytes) : SessionM Unit := do
  let channel ← getChannel
  if channel.cache_source_lease.isSome then
    let valid ← andAlso (ask world) (andAlso (pure (channel.cache_source_root = some root))
      (validate_include_authority world))
    if valid then pure ()
    else
      invalidate_compiler_channel
      discard_source_authority
  else pure ()

def capture_source_authority (root : Bytes) (working_directory : Option CString) :
    SessionM Bool := do
  let channel ← getChannel
  if channel.cache_source_lease.isSome then return true
  else
    match ← askLease world with
    | none => return false
    | some lease =>
      update fun channel => { channel with
        cache_source_lease := some lease
        cache_source_root := some root
        cache_working_directory := working_directory
        source_authority_revision := channel.source_authority_revision + 1 }
      return true

def get_source_fingerprints (source_directory : Option CString) : SessionM Bool := do
  let channel ← getChannel
  if !channel.configured then return false
  else
    let working_directory ← getcwd world
    match request_search_root source_directory working_directory with
    | none => return false
    | some root =>
      refresh_source_authority world root
      andAlso (get_toolchain_fingerprints world)
        (capture_source_authority world root working_directory)

/-- The lease on the last request's includes moves into that on the includes of all requests. -/
def merge_include_authority : SessionM Bool := do
  let channel ← getChannel
  if channel.cache_include_lease.isSome then
    if ← ask world then
      update fun channel => { channel with
        cache_prior_include_lease :=
          channel.cache_prior_include_lease.or channel.cache_include_lease
        cache_include_lease := none }
      return true
    else
      discard_toolchain_authority true
      return false
  else return true

def capture_include_authority : SessionM Bool := do
  let lease ← askLease world
  update fun channel => { channel with
    cache_include_lease := lease
    include_authority_unavailable := lease.isNone }
  if lease.isNone then return false else validate_existing_toolchain_authority world

def get_request_fingerprints (source_directory source : Option CString) : SessionM Bool := do
  update fun channel => { channel with include_authority_unavailable := false }
  if source = none then return false
  else
    andAlso (get_source_fingerprints world source_directory)
      (andAlso (merge_include_authority world) (capture_include_authority world))

/-! ## The process -/

/-- The command and its fields. Writing to a socket that is not there fails. -/
def write_command (command : Command) : SessionM Bool := do
  let channel ← getChannel
  match channel.socket_fd with
  | none => return false
  | some process =>
    emit (.write command process)
    ask world

/-- A record with other high bits is no answer. -/
def read_session_capabilities (process : ℕ) :
    SessionM (Option UnityCompilerSessionCapabilities) := do
  match world.reports process with
  | none => return none
  | some capabilities =>
    if !unity_compiler_session_capabilities_validate capabilities then return none
    else
      emit (.report capabilities)
      return some capabilities

/-- The rest of the start of a process, behind the handshake. A process that is not kept is killed
by the caller. -/
def adopt_process (process : ℕ) : SessionM Bool := do
  emit (.write .initializeCompiler process)
  if !(← ask world) then return false
  else
    match ← read_session_capabilities world process with
    | none => return false
    | some session_capabilities =>
      let channel ← getChannel
      if channel.session_capabilities_ready ∧ !unity_compiler_session_capabilities_equal
          channel.session_capabilities session_capabilities then
        update fun channel => { channel with
          session_capabilities := no_capabilities
          session_capabilities_ready := false
          session_capabilities_failed := true }
        return false
      else
        update fun channel =>
          { channel with session_capabilities, session_capabilities_ready := true }
        let channel ← getChannel
        if !expected_valid_apis_authority_permits_live_command channel then return false
        else
          update fun channel =>
            { channel with socket_fd := some process, process_id := some process }
          return true

/-- Starting a process and waiting for its connection and its handshake. -/
def start_child : SessionM (Option ℕ) := do
  if ← ask world then
    let process ← newProcess
    if ← ask world then return some process else return none
  else return none

variable (channel : UnityCompilerChannel)

/-- A socket without a process, or a process without a socket, is of no use. -/
def drop_half_process : SessionM Unit :=
  if channel.socket_fd.isSome ∨ channel.process_id.isSome then invalidate_compiler_channel
  else pure ()

def unity_compiler_start_process : SessionM Bool := do
  if !(← capture_or_validate_toolchain_authority world) then return false
  else
    let channel ← getChannel
    if expected_valid_apis_authority_is_rejection
        (expected_valid_apis_authority_snapshot channel) then return false
    else if channel.socket_fd.isSome ∧ channel.process_id.isSome then return true
    else
      drop_half_process channel
      match ← start_child world with
      | none => return false
      | some process => adopt_process world process

def begin_compiler_transaction : SessionM Bool := do
  if !(← unity_compiler_start_process world) then return false
  else
    let channel ← getChannel
    if !expected_valid_apis_authority_permits_live_command channel then return false
    else if ← ask world then return true
    else
      invalidate_compiler_channel
      return false

/-- Whether the process got it does not matter. -/
def write_shutdown : SessionM Unit := do
  if ← ask world then
    let _ ← write_command world .shutdown
  else pure ()

def unity_compiler_stop_process : SessionM Unit := do
  update fun channel => { channel with process_id := none }
  let channel ← getChannel
  if channel.socket_fd.isSome then
    write_shutdown world
    update fun channel => { channel with socket_fd := none }
  else pure ()

def fail_compiler_transaction : SessionM Unit := invalidate_compiler_channel

/-- The command is written and a response is read in full, or the process is given up. -/
def exchange (command : Command) : SessionM Bool := do
  if ← andAlso (write_command world command) (ask world) then return true
  else
    fail_compiler_transaction
    return false

/-! ## Operations

The result of an operation says whether it ended with a response, even one that carries no data. -/

def compiler_cache_only_enabled : SessionM Bool := ask world

def unity_compiler_session_capabilities_snapshot : Option UnityCompilerSessionCapabilities :=
  if !channel.configured ∨ !channel.session_capabilities_ready ∨
      channel.session_capabilities_failed ∨
      !unity_compiler_session_capabilities_validate channel.session_capabilities then none
  else some channel.session_capabilities

/-- A record is captured already, or a process is started for one. -/
def acquire_record : SessionM Bool := do
  if channel.session_capabilities_ready then return true
  else if ← compiler_cache_only_enabled world then return false
  else unity_compiler_start_process world

def unity_compiler_capture_session_capabilities :
    SessionM (Option UnityCompilerSessionCapabilities) := do
  let channel ← getChannel
  if !channel.configured then return none
  else
    if !(← acquire_record world channel) then return none
    else
      let channel ← getChannel
      return unity_compiler_session_capabilities_snapshot channel

def validate_captured_session_valid_apis (supplied_valid_apis : UInt32) (require_captured : Bool) :
    Bool :=
  if channel.session_capabilities_failed then false
  else if !channel.session_capabilities_ready then !require_captured
  else unity_compiler_session_capabilities_match_valid_apis channel.session_capabilities
    supplied_valid_apis

/-- What an operation looks at of its request. `valid` is what its checks of the other fields come
to. -/
structure Request where
  source : Option CString
  source_directory : Option CString
  valid_apis : UInt32
  valid : Bool

/-- The checks of digests, of the cache and of dependencies are questions to the world. -/
def has_digests : SessionM Bool := ask world

def cached_response : SessionM Bool := ask world

def serializes : SessionM Bool := ask world

/-- A response whose dependencies are not all captured ends the authority. -/
def reject_uncaptured : SessionM Bool := do
  if ← ask world then return true
  else
    discard_toolchain_authority true
    return true

def include_authority_is_unavailable : SessionM Bool := do
  let channel ← getChannel
  return channel.include_authority_unavailable

def is_rejected : SessionM Bool := do
  let channel ← getChannel
  return expected_valid_apis_authority_is_rejection (expected_valid_apis_authority_snapshot channel)

def captured_valid_apis (valid_apis : UInt32) (require_captured : Bool) : SessionM Bool := do
  let channel ← getChannel
  return validate_captured_session_valid_apis channel valid_apis require_captured

variable (request : Request)

def unity_compiler_preprocess_contract_response : SessionM Bool := do
  if !(← get_request_fingerprints world request.source_directory request.source) then
    include_authority_is_unavailable
  else if !request.valid then return false
  else if !(← has_digests world) then return false
  else if ← cached_response world then
    if !(← ask world) then
      discard_toolchain_authority true
      return true
    else
      let toolchain_valid ← validate_existing_toolchain_authority world
      if ← is_rejected then return true
      else andAlso (pure toolchain_valid) (captured_valid_apis request.valid_apis false)
  else if ← compiler_cache_only_enabled world then return true
  else if !(← begin_compiler_transaction world) then is_rejected
  else if !(← captured_valid_apis request.valid_apis true) then return false
  else
    andAlso (exchange world .preprocess)
      (andAlso (validate_existing_toolchain_authority world) (reject_uncaptured world))

def snapshot_or_capture : SessionM (Option UnityCompilerSessionCapabilities) :=
  match unity_compiler_session_capabilities_snapshot channel with
  | some capabilities => return some capabilities
  | none => unity_compiler_capture_session_capabilities world

def unity_compiler_preprocess : SessionM Bool := do
  if !request.valid then return false
  else
    let channel ← getChannel
    let capabilities ← snapshot_or_capture world channel
    match capabilities.bind unity_compiler_session_capabilities_valid_apis with
    | none => return false
    | some valid_apis =>
      unity_compiler_preprocess_contract_response world { request with valid_apis }

def unity_compiler_compile_request_response_internal : SessionM Bool := do
  if !request.valid then return false
  else if !(← get_request_fingerprints world request.source_directory request.source) then
    include_authority_is_unavailable
  else if !(← has_digests world) then return false
  else if ← cached_response world then
    let toolchain_valid ← validate_existing_toolchain_authority world
    if ← is_rejected then return true else return toolchain_valid
  else if ← compiler_cache_only_enabled world then return true
  else if !(← begin_compiler_transaction world) then is_rejected
  else
    andAlso (exchange world .compileSnippet) (validate_existing_toolchain_authority world)

def unity_compiler_disassemble_response : SessionM Bool := do
  if !request.valid then return false
  else if ← compiler_cache_only_enabled world then return true
  else if !(← begin_compiler_transaction world) then is_rejected
  else
    andAlso (exchange world .disassembleShader) (validate_existing_toolchain_authority world)

def compute_request_transcript : SessionM Bool :=
  andAlso (get_request_fingerprints world request.source_directory request.source)
    (serializes world)

def unity_compiler_compile_compute_response : SessionM Bool := do
  if !request.valid then return false
  else if !(← compute_request_transcript world request) then include_authority_is_unavailable
  else if !(← serializes world) then return false
  else if ← compiler_cache_only_enabled world then return true
  else if !(← begin_compiler_transaction world) then is_rejected
  else
    andAlso (exchange world .compileComputeKernel) (validate_existing_toolchain_authority world)

def unity_compiler_preprocess_compute_response : SessionM Bool := do
  if !request.valid then return false
  else if !(← compute_request_transcript world request) then include_authority_is_unavailable
  else if !(← serializes world) then return false
  else if ← compiler_cache_only_enabled world then return true
  else if !(← begin_compiler_transaction world) then is_rejected
  else if !(← captured_valid_apis request.valid_apis true) then return false
  else
    andAlso (exchange world .preprocessCompute)
      (andAlso (validate_existing_toolchain_authority world) (reject_uncaptured world))

def get_scoped_provenance (source_root source : Option CString) : SessionM Bool :=
  andAlso
    (if source.isSome then get_request_fingerprints world source_root source
      else get_source_fingerprints world source_root)
    (get_toolchain_fingerprints world)

def unity_compiler_serialize_request : SessionM Bool :=
  andAlso (get_request_fingerprints world request.source_directory request.source)
    (andAlso (serializes world) (validate_existing_toolchain_authority world))

def unity_compiler_recycle_process : SessionM Bool := do
  let channel ← getChannel
  if !channel.configured then return false
  else
    unity_compiler_stop_process world
    return true

def unity_compiler_shutdown : SessionM Unit := do
  unity_compiler_stop_process world
  discard_source_authority
  update fun _ => no_channel

/-- Configuring the channel. `ask` stands for the paths, which must be found. -/
def unity_compiler_configure_channel (lazy_start : Bool) : SessionM Bool := do
  update fun _ => no_channel
  if !(← ask world) then
    unity_compiler_shutdown world
    return false
  else
    update fun channel => { channel with configured := true }
    if lazy_start then return true
    else if ← ask world then return true
    else if ← unity_compiler_start_process world then return true
    else
      unity_compiler_shutdown world
      return false

inductive Operation where
  | start (lazy_start : Bool)
  | setExpected (valid_apis : UInt32)
  | clearExpected
  | capture
  | preprocess (request : Request)
  | preprocessLegacy (request : Request)
  | compile (request : Request)
  | disassemble (request : Request)
  | compileCompute (request : Request)
  | preprocessCompute (request : Request)
  | provenance (source_root source : Option CString)
  | serialize (request : Request)
  | recycle
  | shutdown

def perform : Operation → SessionM Bool
  | .start lazy_start => unity_compiler_configure_channel world lazy_start
  | .setExpected valid_apis => unity_compiler_set_expected_valid_apis valid_apis
  | .clearExpected => unity_compiler_clear_expected_valid_apis
  | .capture => Option.isSome <$> unity_compiler_capture_session_capabilities world
  | .preprocess request => unity_compiler_preprocess_contract_response world request
  | .preprocessLegacy request => unity_compiler_preprocess world request
  | .compile request => unity_compiler_compile_request_response_internal world request
  | .disassemble request => unity_compiler_disassemble_response world request
  | .compileCompute request => unity_compiler_compile_compute_response world request
  | .preprocessCompute request => unity_compiler_preprocess_compute_response world request
  | .provenance source_root source => get_scoped_provenance world source_root source
  | .serialize request => unity_compiler_serialize_request world request
  | .recycle => unity_compiler_recycle_process world
  | .shutdown => do
    unity_compiler_shutdown world
    return true

def run (operations : List Operation) : State :=
  operations.foldl (fun s operation => (perform world operation s).2) ⟨no_channel, 0, 0, 0, []⟩

end

end DXBCSandbox.Session
