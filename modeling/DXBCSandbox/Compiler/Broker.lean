/-
The source window of the compiler broker (`src/compiler/unity_compiler_broker.c`).

A compiler process keeps every source it was given, so the broker counts the bytes of the distinct
sources since the process started, and recycles the process when they pass a budget. The sources
are kept as digests in an open-addressing table. Clearing the window only counts an epoch up: a
record of another epoch is an empty slot.

Every function here runs under the protocol mutex, so an operation is one step. What the compiler
process and the allocator do in it comes from outside ([`BrokerOutcome`]). A probe loop that has
gone around the whole table without an end never ends, and then there is no result.
-/
import DXBCSandbox.Common.VariantKey
import DXBCSandbox.Lib.LittleEndian

namespace DXBCSandbox

abbrev SourceDigest := Vector UInt8 32

structure BrokerSourceRecord where
  digest : SourceDigest
  size : ℕ
  epoch : ℕ

/-- The part of the channel that the broker looks at. -/
structure UnityCompilerChannel where
  process_id : ℤ
  socket_fd : ℤ

structure UnityCompilerBroker where
  channel : UnityCompilerChannel
  compiler_process_starts : ℕ
  compiler_process_recycles : ℕ
  source_residency_budget_bytes : ℕ
  tracked_source_window_bytes : ℕ
  peak_tracked_source_window_bytes : ℕ
  unique_source_submissions : ℕ
  source_digest_scans : ℕ
  source_tracking_failures : ℕ
  source_budget_recycles : ℕ
  source_records : List BrokerSourceRecord
  source_record_count : ℕ
  source_record_capacity : ℕ
  source_record_epoch : ℕ

namespace Broker

def sizeofRecord : ℕ := 48

def zeroRecord : BrokerSourceRecord := ⟨Vector.replicate 32 0, 0, 0⟩

variable (broker : UnityCompilerBroker)

def source_window_clear_locked : UnityCompilerBroker :=
  let source_record_epoch := (broker.source_record_epoch + 1) % 2 ^ 64
  { broker with
    tracked_source_window_bytes := 0
    source_record_count := 0
    source_record_epoch := if source_record_epoch = 0 then 1 else source_record_epoch
    source_records :=
      if source_record_epoch = 0 then
        List.replicate broker.source_records.length zeroRecord
      else broker.source_records }

def source_record_slot (digest : SourceDigest) (size capacity : ℕ) : ℕ :=
  let hash : UInt64 := UInt64.ofNat (leValue (digest.toList.take 8))
  let mixed : UInt64 :=
    UInt64.ofNat size + (0x9e3779b97f4a7c15 : UInt64) + (hash <<< 6) + (hash >>> 2)
  let hash : UInt64 := hash ^^^ mixed
  let hash : UInt64 := hash ^^^ (hash >>> 30)
  let hash : UInt64 := hash * 0xbf58476d1ce4e5b9
  let hash : UInt64 := hash ^^^ (hash >>> 27)
  let hash : UInt64 := hash * 0x94d049bb133111eb
  let hash : UInt64 := hash ^^^ (hash >>> 31)
  hash.toNat &&& (capacity - 1)

/-- The loop to the next slot that is not of this epoch. -/
def probe_free (records : List BrokerSourceRecord) (capacity epoch : ℕ) : (fuel slot : ℕ) → Option ℕ
  | 0, _ => none
  | fuel + 1, slot =>
    match records[slot]? with
    | none => none
    | some record =>
      if record.epoch = epoch then
        probe_free records capacity epoch fuel ((slot + 1) &&& (capacity - 1))
      else some slot

def source_record_insert_unchecked (records : List BrokerSourceRecord) (capacity epoch : ℕ)
    (digest : SourceDigest) (size : ℕ) : Option (List BrokerSourceRecord) := do
  let slot ← probe_free records capacity epoch capacity (source_record_slot digest size capacity)
  pure (records.set slot ⟨digest, size, epoch⟩)

variable (calloc_succeeds : Bool)

def source_record_grow_locked (broker : UnityCompilerBroker) :
    Option (Bool × UnityCompilerBroker) :=
  let capacity :=
    if broker.source_record_capacity ≠ 0 then broker.source_record_capacity * 2 % 2 ^ 64 else 64
  if capacity < broker.source_record_capacity ∨ SIZE_MAX / sizeofRecord < capacity then
    some (false, broker)
  else if ¬ calloc_succeeds then some (false, broker)
  else do
    let records ← broker.source_records.foldlM (fun records old =>
      if old.epoch = broker.source_record_epoch then
        source_record_insert_unchecked records capacity broker.source_record_epoch old.digest
          old.size
      else pure records) (List.replicate capacity zeroRecord)
    pure (true, { broker with source_records := records, source_record_capacity := capacity })

/-- The loop that looks for a record of this epoch: whether it was found. -/
def find_record (broker : UnityCompilerBroker) (digest : SourceDigest) (size : ℕ) :
    (fuel slot : ℕ) → Option Bool
  | 0, _ => none
  | fuel + 1, slot =>
    match broker.source_records[slot]? with
    | none => none
    | some record =>
      if record.epoch ≠ broker.source_record_epoch then some false
      else if record.size = size ∧ record.digest = digest then some true
      else find_record broker digest size fuel
        ((slot + 1) &&& (broker.source_record_capacity - 1))

/-- Whether the source is already recorded; an empty table has nothing. -/
def source_is_recorded (digest : SourceDigest) (size : ℕ) : Option Bool :=
  if 0 < broker.source_record_capacity then
    find_record broker digest size broker.source_record_capacity
      (source_record_slot digest size broker.source_record_capacity)
  else some false

def reserve_record (broker : UnityCompilerBroker) : Option (Bool × UnityCompilerBroker) :=
  if broker.source_record_capacity = 0 ∨
      broker.source_record_capacity - broker.source_record_capacity / 4 <
        broker.source_record_count + 1 then
    source_record_grow_locked calloc_succeeds broker
  else some (true, broker)

/-- The end of `source_window_record_locked`, for a source that is not yet recorded. -/
def add_record (source : CString) (digest : SourceDigest) : Option (Bool × UnityCompilerBroker) :=
  let source_size := source.bytes.length
  if UINT64_MAX - broker.tracked_source_window_bytes < source_size then some (false, broker)
  else do
    let records ← source_record_insert_unchecked broker.source_records
      broker.source_record_capacity broker.source_record_epoch digest source_size
    let tracked_source_window_bytes := broker.tracked_source_window_bytes + source_size
    pure (true,
      { broker with
        source_records := records
        source_record_count := broker.source_record_count + 1
        tracked_source_window_bytes := tracked_source_window_bytes
        peak_tracked_source_window_bytes :=
          max broker.peak_tracked_source_window_bytes tracked_source_window_bytes
        unique_source_submissions := broker.unique_source_submissions + 1 })

/-- `source_window_record_locked` once the digest has been taken. -/
def record_source (broker : UnityCompilerBroker) (source : CString) (digest : SourceDigest) :
    Option (Bool × UnityCompilerBroker) := do
  let recorded ← source_is_recorded broker digest source.bytes.length
  if recorded then pure (true, broker)
  else
    let (reserved, broker) ← reserve_record calloc_succeeds broker
    if reserved then add_record broker source digest else pure (false, broker)

def source_window_record_locked (common_sha256 : Bytes → SourceDigest)
    (calloc_succeeds : Bool) (broker : UnityCompilerBroker) (source : Option CString) :
    Option (Bool × UnityCompilerBroker) :=
  match source with
  | none => some (true, broker)
  | some source =>
    if broker.source_residency_budget_bytes = 0 then some (true, broker)
    else
      let digest := common_sha256 source.bytes
      let broker := { broker with source_digest_scans := broker.source_digest_scans + 1 }
      record_source calloc_succeeds broker source digest

/-- What a step meets outside of the broker: the channel that the compiler call leaves, whether
the allocator has memory, and the answer and the channel of the recycle request. -/
structure BrokerOutcome where
  channel : UnityCompilerChannel
  calloc_succeeds : Bool
  recycle_succeeds : Bool
  recycled_channel : UnityCompilerChannel

def hasProcess (channel : UnityCompilerChannel) : Bool :=
  0 < channel.process_id ∨ 0 ≤ channel.socket_fd

def recycle_process_locked (outcome : BrokerOutcome) (source_budget_recycle : Bool)
    (broker : UnityCompilerBroker) : Bool × UnityCompilerBroker :=
  let had_process := hasProcess broker.channel
  let broker := { broker with channel := outcome.recycled_channel }
  if ¬ outcome.recycle_succeeds then (false, broker)
  else
    let broker := source_window_clear_locked broker
    (true,
      { broker with
        compiler_process_recycles :=
          broker.compiler_process_recycles + if had_process then 1 else 0
        source_budget_recycles := broker.source_budget_recycles +
          if had_process ∧ source_budget_recycle then 1 else 0 })

end Broker

def unity_compiler_broker_source_window_requires_recycle
    (budget_bytes tracked_bytes tracked_unique_source_count : ℕ) : Bool :=
  if budget_bytes = 0 ∨ tracked_unique_source_count ≤ 1 then false
  else budget_bytes < tracked_bytes

namespace Broker

/-- The process was started, has died or was replaced. -/
def process_changed (process_before process_after : ℤ) : Bool :=
  (process_before ≤ 0 ∧ 0 < process_after) ∨ (0 < process_before ∧ process_after ≤ 0) ∨
    (0 < process_before ∧ 0 < process_after ∧ process_before ≠ process_after)

/-- The recording of a source has failed: the process goes, and with it the window. -/
def record_failed (outcome : BrokerOutcome) (process_after : ℤ) (broker : UnityCompilerBroker) :
    UnityCompilerBroker :=
  let broker :=
    { broker with source_tracking_failures := broker.source_tracking_failures + 1 }
  if 0 < process_after then
    let (recycled, broker) := recycle_process_locked outcome true broker
    if recycled then source_window_clear_locked broker else broker
  else source_window_clear_locked broker

def enforce_budget (outcome : BrokerOutcome) (process_after : ℤ) (broker : UnityCompilerBroker) :
    UnityCompilerBroker :=
  if 0 < process_after ∧ unity_compiler_broker_source_window_requires_recycle
      broker.source_residency_budget_bytes broker.tracked_source_window_bytes
      broker.source_record_count then
    let (recycled, broker) := recycle_process_locked outcome true broker
    if recycled then broker
    else { broker with source_tracking_failures := broker.source_tracking_failures + 1 }
  else broker

/-- The window of a process that is no longer the same is cleared. -/
def notice_process (process_before : ℤ) (broker : UnityCompilerBroker) : UnityCompilerBroker :=
  let process_after := broker.channel.process_id
  let broker :=
    if process_changed process_before process_after then source_window_clear_locked broker
    else broker
  { broker with
    compiler_process_starts := broker.compiler_process_starts +
      if process_before ≤ 0 ∧ 0 < process_after then 1 else 0 }

def finish_protocol_transaction_locked (common_sha256 : Bytes → SourceDigest)
    (outcome : BrokerOutcome) (process_before : ℤ) (submitted_source : Option CString)
    (broker : UnityCompilerBroker) : Option UnityCompilerBroker := do
  let process_after := broker.channel.process_id
  let (recorded, broker) ← source_window_record_locked common_sha256 outcome.calloc_succeeds
    (notice_process process_before broker) submitted_source
  if recorded then pure (enforce_budget outcome process_after broker)
  else pure (record_failed outcome process_after broker)

end Broker

open Broker

/-- A request of the broker: the call into the compiler, and what follows it. A response from the
cache submits no source. -/
def unity_compiler_broker_transaction (common_sha256 : Bytes → SourceDigest)
    (outcome : BrokerOutcome) (submitted_source : Option CString)
    (broker : UnityCompilerBroker) : Option UnityCompilerBroker :=
  let process_before := broker.channel.process_id
  finish_protocol_transaction_locked common_sha256 outcome process_before submitted_source
    { broker with channel := outcome.channel }

def unity_compiler_broker_set_source_residency_budget (outcome : BrokerOutcome)
    (budget_bytes : ℕ) (broker : UnityCompilerBroker) : Bool × UnityCompilerBroker :=
  if broker.source_residency_budget_bytes ≠ budget_bytes then
    if hasProcess broker.channel then
      let (recycled, broker) := recycle_process_locked outcome false broker
      if recycled then (true, { broker with source_residency_budget_bytes := budget_bytes })
      else (false, broker)
    else
      (true, { source_window_clear_locked broker with
        source_residency_budget_bytes := budget_bytes })
  else (true, broker)

def unity_compiler_broker_recycle_process (outcome : BrokerOutcome)
    (broker : UnityCompilerBroker) : Bool × UnityCompilerBroker :=
  recycle_process_locked outcome false broker

/-- A new broker, with the channel as the start has left it. -/
def unity_compiler_broker_create (channel : UnityCompilerChannel) : UnityCompilerBroker where
  channel := channel
  compiler_process_starts := if 0 < channel.process_id then 1 else 0
  compiler_process_recycles := 0
  source_residency_budget_bytes := 0
  tracked_source_window_bytes := 0
  peak_tracked_source_window_bytes := 0
  unique_source_submissions := 0
  source_digest_scans := 0
  source_tracking_failures := 0
  source_budget_recycles := 0
  source_records := []
  source_record_count := 0
  source_record_capacity := 0
  source_record_epoch := 1

/-! ## Runs -/

/-- One call of the broker. Calls that are not transactions leave the window alone, whatever they
do to the channel. -/
inductive BrokerEvent where
  | transaction (outcome : BrokerOutcome) (submitted_source : Option CString)
  | setBudget (outcome : BrokerOutcome) (budget_bytes : ℕ)
  | recycle (outcome : BrokerOutcome)
  | other (channel : UnityCompilerChannel)

namespace Broker

variable (common_sha256 : Bytes → SourceDigest)

def step (broker : UnityCompilerBroker) : BrokerEvent → Option UnityCompilerBroker
  | .transaction outcome source =>
    unity_compiler_broker_transaction common_sha256 outcome source broker
  | .setBudget outcome budget_bytes =>
    some (unity_compiler_broker_set_source_residency_budget outcome budget_bytes broker).2
  | .recycle outcome => some (unity_compiler_broker_recycle_process outcome broker).2
  | .other channel => some { broker with channel := channel }

def run (events : List BrokerEvent) (broker : UnityCompilerBroker) : Option UnityCompilerBroker :=
  events.foldlM (step common_sha256) broker

end Broker

end DXBCSandbox
