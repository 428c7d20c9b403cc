/-
Coalescing of concurrent compiler requests (`src/compiler/unity_compiler_singleflight.c`).

Calls with the same key share an entry: the call that creates it runs the operation, the others
wait for its outcome, and whoever leaves last removes the entry. Entries live on a heap and are
found through a list, so a call holds an address that may outlive its entry; an access to a
freed entry raises `fault`. Everything a call does under the mutex is one step, and so is the
return of the operation, which runs outside the mutex, and the destruction of an entry, which
happens after the mutex has been released.

Allocation succeeds. A participant is a thread, so the participant count does not wrap. The trace
of a state is a ghost: it records who joined, executed, left and destroyed, newest first, and an
entry is named there by the call that created it.
-/
import Mathlib.Data.Finset.Card

namespace DXBCSandbox

open Function (update)

def USC_SINGLE_FLIGHT_KEY_SIZE : ℕ := 32

abbrev SingleFlightKey := Vector UInt8 USC_SINGLE_FLIGHT_KEY_SIZE

namespace SingleFlight

abbrev Address := ℕ

/-- What an operation returns: bytes on success, or perhaps an error on failure. -/
structure OperationOutcome where
  result : Option (List UInt8)
  size : ℕ
  error : Option (List UInt8)
  size_eq : size = (result.map List.length).getD 0
  error_eq : result.isSome = true → error = none

/-- The arguments of a call. `out_error` is whether the pointer is there. -/
structure Call where
  key : SingleFlightKey
  out_error : Bool

/-- What a call gives back through its result and its out pointers. -/
structure Returned where
  result : Option (List UInt8)
  out_size : ℕ
  out_error : Option (List UInt8)
  out_joined_existing : Bool

/-- `SingleFlightEntry`, and the call that created it (a ghost). -/
structure SingleFlightEntry (Caller : Type) where
  key : SingleFlightKey
  participant_count : ℕ
  /-- Whether it has been broadcast. Who waits then is woken, and nobody begins to wait later. -/
  completed_condition : Bool
  completed : Bool
  result : Option (List UInt8)
  result_size : ℕ
  error : Option (List UInt8)
  owner : Caller

inductive CallerState where
  /-- Before the first lock. -/
  | idle
  /-- The owner, while the operation runs. -/
  | operating (entry : Address)
  /-- The owner, before the second lock. -/
  | operated (entry : Address) (outcome : OperationOutcome)
  /-- In `pthread_cond_wait`. -/
  | waiting (entry : Address)
  /-- Behind the wait loop, before the second lock. -/
  | woken (entry : Address)
  /-- The last participant, before `destroy_entry`. -/
  | destroying (entry : Address) (returned : Returned)
  | returned (returned : Returned)

def CallerState.entry : CallerState → Option Address
  | .operating a => some a
  | .operated a _ => some a
  | .waiting a => some a
  | .woken a => some a
  | _ => none

/-- What the ghost trace records. Entries are named by their owner. -/
inductive Event (Caller : Type) where
  | joined (caller owner : Caller)
  | executed (owner : Caller) (outcome : OperationOutcome)
  /-- `last` is whether the entry was unlinked. -/
  | left (caller owner : Caller) (last : Bool)
  | destroyed (caller owner : Caller)

def Event.owner {Caller : Type} : Event Caller → Caller
  | .joined _ o => o
  | .executed o _ => o
  | .left _ o _ => o
  | .destroyed _ o => o

def Event.caller {Caller : Type} : Event Caller → Caller
  | .joined c _ => c
  | .executed o _ => o
  | .left c _ _ => c
  | .destroyed c _ => c

/-- The table, the heap, the calls, and the ghosts. -/
structure State (Caller : Type) where
  entries : List Address
  heap : Address → Option (SingleFlightEntry Caller)
  callers : Caller → CallerState
  fault : Bool
  trace : List (Event Caller)

/-- `usc_single_flight_create`, before any call. -/
def State.initial (Caller : Type) : State Caller :=
  ⟨[], fun _ => none, fun _ => .idle, false, []⟩

section Execute

variable {Caller : Type} [DecidableEq Caller] (calls : Caller → Call) (s : State Caller)

/-- A read through a pointer to an entry. -/
def State.access (a : Address) (f : SingleFlightEntry Caller → State Caller) : State Caller :=
  match s.heap a with
  | some e => f e
  | none => { s with fault := true }

def find_entry (key : SingleFlightKey) : Option Address :=
  s.entries.find? fun a => (s.heap a).any fun e => e.key = key

/-- `copy_entry_result(entry, out_size, out_error)`. -/
def copy_entry_result (e : SingleFlightEntry Caller) (out_error : Bool) :
    Option (List UInt8) × ℕ × Option (List UInt8) :=
  match e.result with
  | none => (none, 0, if out_error then e.error else none)
  | some bytes => (some (bytes.take e.result_size), e.result_size, none)

/-- The first critical section. The address is what `calloc` returns if it is called. -/
def enter (c : Caller) (fresh : Address) : Option (State Caller) :=
  match s.callers c with
  | .idle =>
    match find_entry s (calls c).key with
    | none =>
      if (s.heap fresh).isSome then none
      else some { s with
        entries := fresh :: s.entries
        heap := update s.heap fresh
          (some ⟨(calls c).key, 1, false, false, none, 0, none, c⟩)
        callers := update s.callers c (.operating fresh)
        trace := .joined c c :: s.trace }
    | some a => some <| s.access a fun e =>
      { s with
        heap := update s.heap a
          (some { e with participant_count := e.participant_count + 1 })
        callers := update s.callers c (if e.completed then .woken a else .waiting a)
        trace := .joined c e.owner :: s.trace }
  | _ => none

def operate (c : Caller) (outcome : OperationOutcome) : Option (State Caller) :=
  match s.callers c with
  | .operating a => some { s with
      callers := update s.callers c (.operated a outcome)
      trace := .executed c outcome :: s.trace }
  | _ => none

/-- A wakeup in the wait loop. A spurious one, before the broadcast, leads back into the loop. -/
def wake (c : Caller) : Option (State Caller) :=
  match s.callers c with
  | .waiting a => some <| s.access a fun e =>
    if e.completed_condition ∧ e.completed then
      { s with callers := update s.callers c (.woken a) }
    else s
  | _ => none

/-- The end of the second critical section: copy the result and leave. -/
def leave_entry (c : Caller) (a : Address) (e : SingleFlightEntry Caller) (joined : Bool) :
    State Caller :=
  let (result, out_size, out_error) := copy_entry_result e (calls c).out_error
  let returned : Returned := ⟨result, out_size, out_error, joined⟩
  let e' := { e with participant_count := e.participant_count - 1 }
  let last_participant := decide (e'.participant_count = 0)
  { s with
    entries := if last_participant then s.entries.erase a else s.entries
    heap := update s.heap a (some e')
    callers := update s.callers c
      (if last_participant then .destroying a returned else .returned returned)
    trace := .left c e.owner last_participant :: s.trace }

/-- The second critical section. The owner first stores the outcome. -/
def leave (c : Caller) : Option (State Caller) :=
  match s.callers c with
  | .operated a outcome => some <| s.access a fun e =>
    leave_entry calls s c a
      { e with
        result := outcome.result
        result_size := if outcome.result.isSome then outcome.size else 0
        error := outcome.error
        completed := true
        completed_condition := true } false
  | .woken a => some <| s.access a fun e => leave_entry calls s c a e true
  | _ => none

/-- `destroy_entry`, after the mutex has been released. -/
def destroy (c : Caller) : Option (State Caller) :=
  match s.callers c with
  | .destroying a returned => some <| s.access a fun e =>
    { s with
      heap := update s.heap a none
      callers := update s.callers c (.returned returned)
      trace := .destroyed c e.owner :: s.trace }
  | _ => none

/-- One step of `usc_single_flight_execute`, by one call. -/
inductive Step (s s' : State Caller) : Prop where
  | enter (c : Caller) (fresh : Address) (h : enter calls s c fresh = some s')
  | operate (c : Caller) (outcome : OperationOutcome) (h : operate s c outcome = some s')
  | wake (c : Caller) (h : wake s c = some s')
  | leave (c : Caller) (h : leave calls s c = some s')
  | destroy (c : Caller) (h : destroy s c = some s')

inductive Reachable : State Caller → Prop where
  | initial : Reachable (.initial Caller)
  | step {s s' : State Caller} (h : Reachable s) (hstep : Step calls s s') : Reachable s'

end Execute

end SingleFlight

end DXBCSandbox
