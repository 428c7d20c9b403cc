/-
Publication in the compiler cache (`src/compiler/unity_compiler_cache.c`, store and load).

An entry is a file with a header and a payload. A store writes a temporary file of its own, and
then, under a mutex of its process and a record lock on the shard's lock file, looks at the entry:
it unlinks a corrupt one and links the temporary file where there is none. A load only reads.

The threads of any number of processes take their file-system steps in any order. Every step of a
store is an action of its own, as far as others can see it. The temporary file is private and
complete before the lock is asked for, and a file never changes once it is linked, so reading an
entry is one step. A record lock belongs to a process, and goes when the process closes any
descriptor of the lock file.
-/
import DXBCSandbox.Common.VariantKey
import DXBCSandbox.Lib.LittleEndian

namespace DXBCSandbox

open Function (update)

abbrev CacheDigest := Vector UInt8 32

namespace CacheStore

/-! ## Entries -/

def USC_CACHE_HEADER_SIZE : ℕ := 96
def USC_CACHE_FORMAT_VERSION : ℕ := 1
def USC_CACHE_SUCCESS : ℕ := 1
def USC_CACHE_MAX_OUTPUT_SIZE : ℕ := 1024 * 1024 * 1024
def USC_CACHE_MAGIC : Bytes := [85, 83, 67, 67, 65, 67, 72, 69]

variable (sha256_bytes : Bytes → CacheDigest) (request_digest : CacheDigest)

/-- The header and the payload as a store writes them. -/
def entry_bytes (data : Bytes) : Bytes :=
  USC_CACHE_MAGIC ++ (leBytes 4 USC_CACHE_FORMAT_VERSION ++ (leBytes 4 USC_CACHE_HEADER_SIZE ++
    (leBytes 4 USC_CACHE_SUCCESS ++ (leBytes 4 0 ++ (request_digest.toList ++
      ((sha256_bytes data).toList ++ (leBytes 8 data.length ++ data)))))))

/-- The header and the size are as a store writes them. -/
def header_is_valid (bytes : Bytes) : Bool :=
  let stored_size := leValue (slice bytes 88 8)
  USC_CACHE_HEADER_SIZE ≤ bytes.length ∧ slice bytes 0 8 = USC_CACHE_MAGIC ∧
    leValue (slice bytes 8 4) = USC_CACHE_FORMAT_VERSION ∧
    leValue (slice bytes 12 4) = USC_CACHE_HEADER_SIZE ∧
    leValue (slice bytes 16 4) = USC_CACHE_SUCCESS ∧ leValue (slice bytes 20 4) = 0 ∧
    slice bytes 24 32 = request_digest.toList ∧ stored_size ≤ USC_CACHE_MAX_OUTPUT_SIZE ∧
    bytes.length = USC_CACHE_HEADER_SIZE + stored_size

inductive CacheNode where
  | regular (bytes : Bytes)
  | other
  deriving DecidableEq

def entry_payload : CacheNode → Option Bytes
  | .other => none
  | .regular bytes =>
    let payload := bytes.drop USC_CACHE_HEADER_SIZE
    if header_is_valid request_digest bytes ∧
        (sha256_bytes payload).toList = slice bytes 56 32 then some payload
    else none

inductive CacheEntryInspection where
  | missing | corrupt | identical | different | unavailable
  deriving DecidableEq

def inspect_cache_entry (expected_data : Bytes) : Option CacheNode → CacheEntryInspection
  | none => .missing
  | some node =>
    match entry_payload sha256_bytes request_digest node with
    | none => .corrupt
    | some payload => if payload = expected_data then .identical else .different

def usc_cache_load (node : Option CacheNode) : Option Bytes :=
  node.bind (entry_payload sha256_bytes request_digest)

/-! ## Calls -/

/-- Where a store is. It has a descriptor of the lock file from `opened` to `closing`. -/
inductive StorePhase where
  | opened
  | locking
  | inspecting (attempt : ℕ)
  | unlinking (attempt : ℕ)
  | linking (attempt : ℕ)
  | unlocking (ok : Bool)
  | releasing (ok : Bool)
  | closing (ok : Bool)
  | returning (ok : Bool)
  deriving DecidableEq

structure StoreCall where
  process : ℕ
  request_digest : CacheDigest
  data : Bytes
  phase : StorePhase

def shardOf : UInt8 := request_digest[0]

inductive CacheReturn where
  | stored (request_digest : CacheDigest) (data : Bytes) (ok : Bool)
  | loaded (request_digest : CacheDigest) (result : Option Bytes)
  deriving DecidableEq

/-- The files and the processes. A mutex names the call that holds it, a lock its process. -/
structure CacheSystem where
  entries : CacheDigest → Option CacheNode
  lock_owner : UInt8 → Option ℕ
  publish_mutex : ℕ → Option ℕ
  calls : ℕ → Option StoreCall
  returns : List CacheReturn

/-- One step. A call may also meet an error of the operating system, and then goes on without
what it asked for; an error while it reads an entry is taken for a corrupt entry. -/
inductive CacheAction where
  | store (id process : ℕ) (request_digest : CacheDigest) (data : Bytes) (prepared : Bool)
  | advance (id : ℕ)
  | fail (id : ℕ)
  | readError (id : ℕ)
  | load (request_digest : CacheDigest) (available : Bool)

variable (system : CacheSystem)

def setPhase (id : ℕ) (call : StoreCall) (phase : StorePhase) : CacheSystem :=
  { system with calls := update system.calls id (some { call with phase := phase }) }

/-- The process gives up its record lock on the lock file of a shard. -/
def dropLock (process : ℕ) (shard : UInt8) : CacheSystem :=
  { system with
    lock_owner := update system.lock_owner shard
      (if system.lock_owner shard = some process then none else system.lock_owner shard) }

def afterInspection (attempt : ℕ) : CacheEntryInspection → StorePhase
  | .identical => .unlocking true
  | .different => .unlocking false
  | .unavailable => .unlocking false
  | .corrupt => .unlinking attempt
  | .missing => .linking attempt

/-- The next step of a store, where it can take one. -/
def advance (id : ℕ) (call : StoreCall) : Option CacheSystem :=
  let shard := shardOf call.request_digest
  match call.phase with
  | .opened =>
    if system.publish_mutex call.process = none then
      some (setPhase { system with
        publish_mutex := update system.publish_mutex call.process (some id) }
          id call .locking)
    else none
  | .locking =>
    if system.lock_owner shard = none ∨ system.lock_owner shard = some call.process then
      some (setPhase { system with
        lock_owner := update system.lock_owner shard (some call.process) }
          id call (.inspecting 0))
    else none
  | .inspecting attempt =>
    if attempt < 8 then
      some (setPhase system id call (afterInspection attempt (inspect_cache_entry sha256_bytes
        call.request_digest call.data (system.entries call.request_digest))))
    else some (setPhase system id call (.unlocking false))
  | .unlinking attempt =>
    -- Where the entry is already gone, the unlink fails with `ENOENT` and the loop goes on too.
    some (setPhase { system with
      entries := update system.entries call.request_digest none }
        id call (.inspecting (attempt + 1)))
  | .linking attempt =>
    match system.entries call.request_digest with
    | none =>
      some (setPhase { system with
        entries := update system.entries call.request_digest
          (some (.regular (entry_bytes sha256_bytes call.request_digest call.data))) }
            id call (.unlocking true))
    | some _ => some (setPhase system id call (.inspecting (attempt + 1)))
  | .unlocking ok =>
    some (setPhase (dropLock system call.process shard) id call (.releasing ok))
  | .releasing ok =>
    some (setPhase { system with
      publish_mutex := update system.publish_mutex call.process none }
        id call (.closing ok))
  | .closing ok => some (setPhase (dropLock system call.process shard) id call (.returning ok))
  | .returning ok =>
    some { system with
      calls := update system.calls id none
      returns := system.returns ++ [.stored call.request_digest call.data ok] }

def failStep (id : ℕ) (call : StoreCall) : Option CacheSystem :=
  match call.phase with
  | .opened => some (setPhase system id call (.closing false))
  | .locking => some (setPhase system id call (.releasing false))
  | .inspecting _ => some (setPhase system id call (.unlocking false))
  | .unlinking _ => some (setPhase system id call (.unlocking false))
  | .linking _ => some (setPhase system id call (.unlocking false))
  | _ => none

def readErrorStep (id : ℕ) (call : StoreCall) : Option CacheSystem :=
  match call.phase with
  | .inspecting attempt =>
    if attempt < 8 ∧ (system.entries call.request_digest).isSome then
      some (setPhase system id call (.unlinking attempt))
    else none
  | _ => none

/-- A new call. Without its temporary file or its lock descriptor it only returns. -/
def startStore (system : CacheSystem) (id process : ℕ) (request_digest : CacheDigest)
    (data : Bytes) (prepared : Bool) : CacheSystem :=
  let phase : StorePhase :=
    if prepared ∧ data.length ≤ USC_CACHE_MAX_OUTPUT_SIZE then .opened else .returning false
  { system with
    calls := update system.calls id (some ⟨process, request_digest, data, phase⟩) }

def step (system : CacheSystem) : CacheAction → Option CacheSystem
  | .store id process request_digest data prepared =>
    match system.calls id with
    | none => some (startStore system id process request_digest data prepared)
    | some _ => none
  | .advance id => (system.calls id).bind (advance sha256_bytes system id)
  | .fail id => (system.calls id).bind (failStep system id)
  | .readError id => (system.calls id).bind (readErrorStep system id)
  | .load request_digest available =>
    some { system with
      returns := system.returns ++ [.loaded request_digest
        (if available then
          usc_cache_load sha256_bytes request_digest (system.entries request_digest)
        else none)] }

/-- No call is under way, and nothing has been returned; the entries may be anything. -/
def Quiet : Prop :=
  (∀ shard, system.lock_owner shard = none) ∧ (∀ process, system.publish_mutex process = none) ∧
    (∀ id, system.calls id = none) ∧ system.returns = []

end CacheStore

end DXBCSandbox
