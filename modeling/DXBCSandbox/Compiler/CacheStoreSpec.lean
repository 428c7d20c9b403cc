/-
The compiler cache is write-once, as long as no process gives up its record lock too early.

A store closes its descriptor of the lock file after it has released the mutex. If another thread
of its process has taken the record lock by then, the close drops that lock, and a store of another
process can come between the look at a corrupt entry and its unlinking. The runs in which that does
not happen, and in which no read of a valid entry fails, keep every valid entry.
-/
import DXBCSandbox.Compiler.CacheStore
import DXBCSandbox.Common.Fields

namespace DXBCSandbox

open List Option Function

namespace CacheStore

variable {sha256_bytes : Bytes → CacheDigest}

/-! ## The file format -/

lemma next_field {bytes field rest : Bytes} {offset : ℕ}
    (h : bytes.drop offset = field ++ rest) (size next : ℕ) (hsize : field.length = size)
    (hnext : offset + size = next) : slice bytes offset size = field ∧ bytes.drop next = rest := by
  subst hsize hnext
  exact (drop_eq_append_iff bytes field rest offset).mp h

lemma length_entry_bytes (request_digest : CacheDigest) (data : Bytes) :
    (entry_bytes sha256_bytes request_digest data).length = 96 + data.length := by
  have hmagic : USC_CACHE_MAGIC.length = 8 := rfl
  simp only [entry_bytes, length_append, length_leBytes, Vector.length_toList, hmagic]
  omega

lemma entry_payload_entry_bytes (request_digest : CacheDigest) {data : Bytes}
    (h : data.length ≤ USC_CACHE_MAX_OUTPUT_SIZE) :
    entry_payload sha256_bytes request_digest
      (.regular (entry_bytes sha256_bytes request_digest data)) = some data := by
  have hlen : (entry_bytes sha256_bytes request_digest data).length = _ :=
    length_entry_bytes request_digest data
  have hstart : (entry_bytes sha256_bytes request_digest data).drop 0 = _ := drop_zero
  conv_rhs at hstart => unfold entry_bytes
  generalize entry_bytes sha256_bytes request_digest data = bytes at hstart hlen ⊢
  obtain ⟨hmagic, hrest⟩ := next_field hstart 8 8 rfl rfl
  obtain ⟨hver, hrest⟩ := next_field hrest 4 12 (length_leBytes _ _) rfl
  obtain ⟨hhdr, hrest⟩ := next_field hrest 4 16 (length_leBytes _ _) rfl
  obtain ⟨hsucc, hrest⟩ := next_field hrest 4 20 (length_leBytes _ _) rfl
  obtain ⟨hresv, hrest⟩ := next_field hrest 4 24 (length_leBytes _ _) rfl
  obtain ⟨hdig, hrest⟩ := next_field hrest 32 56 Vector.length_toList rfl
  obtain ⟨hsha, hrest⟩ := next_field hrest 32 88 Vector.length_toList rfl
  obtain ⟨hsize, hrest⟩ := next_field hrest 8 96 (length_leBytes _ _) rfl
  have hstored : leValue (slice bytes 88 8) = data.length := by
    unfold USC_CACHE_MAX_OUTPUT_SIZE at h
    rw [hsize, leValue_leBytes (by omega)]
  have hvalid : header_is_valid request_digest bytes = true := by
    unfold header_is_valid
    dsimp only
    rw [decide_eq_true_iff, hstored, hver, hhdr, hsucc, hresv]
    refine ⟨?_, hmagic, rfl, rfl, rfl, rfl, hdig, h, hlen⟩
    rw [hlen]
    exact Nat.le_add_right 96 _
  have hpay : bytes.drop USC_CACHE_HEADER_SIZE = data := hrest
  unfold entry_payload
  dsimp only
  rw [hpay, if_pos ⟨hvalid, hsha.symm⟩]

/-! ## What holds of a call -/

/-- Between taking and giving back the record lock. -/
def InWindow : StorePhase → Prop
  | .inspecting _ => True
  | .unlinking _ => True
  | .linking _ => True
  | .unlocking _ => True
  | _ => False

/-- Between taking and giving back the mutex. -/
def HoldsMutex : StorePhase → Prop
  | .locking => True
  | .releasing _ => True
  | phase => InWindow phase

def Succeeded (phase : StorePhase) : Prop :=
  phase = .unlocking true ∨ phase = .releasing true ∨ phase = .closing true ∨
    phase = .returning true

lemma InWindow.holdsMutex {phase : StorePhase} (h : InWindow phase) : HoldsMutex phase := by
  cases phase with
  | locking => trivial
  | releasing ok => trivial
  | _ => exact h

variable (sha256_bytes) in
def payloadOf (system : CacheSystem) (request_digest : CacheDigest) : Option Bytes :=
  usc_cache_load sha256_bytes request_digest (system.entries request_digest)

variable (sha256_bytes) in
/-- A call holds what its phase needs. -/
structure CallOk (system : CacheSystem) (id : ℕ) (call : StoreCall) : Prop where
  mutex : HoldsMutex call.phase → system.publish_mutex call.process = some id
  lock : InWindow call.phase →
    system.lock_owner (shardOf call.request_digest) = some call.process
  size : (∀ ok, call.phase ≠ .returning ok) → call.data.length ≤ USC_CACHE_MAX_OUTPUT_SIZE
  unlinking : ∀ attempt, call.phase = .unlinking attempt →
    payloadOf sha256_bytes system call.request_digest = none
  succeeded : Succeeded call.phase →
    payloadOf sha256_bytes system call.request_digest = some call.data

/-- What a load returns after a store that has succeeded. -/
def Agrees (first second : CacheReturn) : Prop :=
  ∀ request_digest data result, first = .stored request_digest data true →
    second = .loaded request_digest (some result) → result = data

variable (sha256_bytes) in
structure SystemInv (system : CacheSystem) : Prop where
  calls : ∀ id call, system.calls id = some call → CallOk sha256_bytes system id call
  returned : ∀ request_digest data, .stored request_digest data true ∈ system.returns →
    payloadOf sha256_bytes system request_digest = some data
  order : system.returns.Pairwise Agrees

variable {system : CacheSystem}

lemma SystemInv.quiet (h : Quiet system) : SystemInv sha256_bytes system := by
  obtain ⟨-, -, hcalls, hreturns⟩ := h
  refine ⟨?_, ?_, ?_⟩
  · intro id call hcall
    rw [hcalls id] at hcall
    cases hcall
  · intro request_digest data hmem
    rw [hreturns] at hmem
    cases hmem
  · rw [hreturns]
    exact List.Pairwise.nil

variable {call : StoreCall} {id : ℕ} (h : SystemInv sha256_bytes system)
  (hcall : system.calls id = some call)

include hcall in
include h in
lemma SystemInv.window_unique {id' : ℕ} {call' : StoreCall}
    (hcall' : system.calls id' = some call') (hmutex : HoldsMutex call.phase)
    (hlock : system.lock_owner (shardOf call.request_digest) = some call.process)
    (hwindow : InWindow call'.phase)
    (hshard : shardOf call'.request_digest = shardOf call.request_digest) : id' = id := by
  have hok := h.calls id call hcall
  have hok' := h.calls id' call' hcall'
  have hlock' := hok'.lock hwindow
  rw [hshard, hlock] at hlock'
  have hmutex' := hok'.mutex hwindow.holdsMutex
  rw [← some.inj hlock', hok.mutex hmutex] at hmutex'
  exact (some.inj hmutex').symm

/-! ## Steps -/

variable (sha256_bytes) in
/-- Every valid entry is still there, unchanged. -/
def Keeps (system system' : CacheSystem) : Prop :=
  ∀ request_digest payload, payloadOf sha256_bytes system request_digest = some payload →
    system'.entries request_digest = system.entries request_digest

variable {system' : CacheSystem} {request_digest : CacheDigest}

lemma Keeps.payload (h : Keeps sha256_bytes system system') {payload : Bytes}
    (hpay : payloadOf sha256_bytes system request_digest = some payload) :
    payloadOf sha256_bytes system' request_digest = some payload := by
  unfold payloadOf
  rw [h request_digest payload hpay]
  exact hpay

lemma keeps_of_entries (h : system'.entries = system.entries) :
    Keeps sha256_bytes system system' := by
  intro request_digest _ _
  rw [h]

lemma CallOk.frame (h : CallOk sha256_bytes system id call)
    (hmutex : HoldsMutex call.phase → system'.publish_mutex call.process = system.publish_mutex
      call.process)
    (hlock : InWindow call.phase → system'.lock_owner (shardOf call.request_digest) =
      system.lock_owner (shardOf call.request_digest))
    (hunlink : ∀ attempt, call.phase = .unlinking attempt → payloadOf sha256_bytes system'
      call.request_digest = none) (hkeeps : Keeps sha256_bytes system system') :
    CallOk sha256_bytes system' id call where
  mutex := fun hphase => (hmutex hphase).trans (h.mutex hphase)
  lock := fun hphase => (hlock hphase).trans (h.lock hphase)
  size := h.size
  unlinking := hunlink
  succeeded := fun hphase => hkeeps.payload (h.succeeded hphase)

include h

lemma SystemInv.move (id : ℕ) (call : StoreCall) (phase : StorePhase)
    (hcalls : system'.calls = Function.update system.calls id (some { call with phase := phase
      })) (hreturns : system'.returns = system.returns)
    (hown : CallOk sha256_bytes system' id { call with phase := phase })
    (hothers : ∀ id' call', id' ≠ id → system.calls id' = some call' → CallOk sha256_bytes
      system' id' call') (hkeeps : Keeps sha256_bytes system system') :
    SystemInv sha256_bytes system' := by
  refine ⟨?_, ?_, ?_⟩
  · intro id' call' hcall'
    rw [hcalls] at hcall'
    by_cases hid : id' = id
    · subst hid
      rw [update_self] at hcall'
      cases hcall'
      exact hown
    · rw [update_of_ne hid] at hcall'
      exact hothers id' call' hid hcall'
  · intro request_digest data hmem
    rw [hreturns] at hmem
    exact hkeeps.payload (h.returned request_digest data hmem)
  · rw [hreturns]
    exact h.order

lemma SystemInv.setPhase {phase : StorePhase}
    (hown : CallOk sha256_bytes system id { call with phase := phase }) :
    SystemInv sha256_bytes (setPhase system id call phase) := by
  refine h.move id call phase rfl rfl ?_ ?_ ?_
  · exact hown.frame (fun _ => rfl) (fun _ => rfl) hown.unlinking (keeps_of_entries rfl)
  · intro id' call' _ hcall'
    have hok := h.calls id' call' hcall'
    exact hok.frame (fun _ => rfl) (fun _ => rfl) hok.unlinking (keeps_of_entries rfl)
  · exact keeps_of_entries rfl

omit h in
lemma CallOk.phase (h : CallOk sha256_bytes system id call) {phase : StorePhase}
    (hsize : ∀ ok, call.phase ≠ .returning ok) (hmutex : HoldsMutex phase → HoldsMutex call.phase)
    (hlock : InWindow phase → InWindow call.phase)
    (hunlink : ∀ attempt, phase = .unlinking attempt → payloadOf sha256_bytes system
      call.request_digest = none)
    (hsucc : Succeeded phase → payloadOf sha256_bytes system call.request_digest = some call.data) :
    CallOk sha256_bytes system id { call with phase := phase } where
  mutex := fun hphase => h.mutex (hmutex hphase)
  lock := fun hphase => h.lock (hlock hphase)
  size := fun _ => h.size hsize
  unlinking := hunlink
  succeeded := hsucc

include hcall

lemma SystemInv.takeMutex (hphase : call.phase = .opened)
    (hfree : system.publish_mutex call.process = none) :
    SystemInv sha256_bytes (CacheStore.setPhase { system with
      publish_mutex := update system.publish_mutex call.process (some id) }
        id call .locking) := by
  refine h.move id call .locking rfl rfl ?_ ?_ (keeps_of_entries rfl)
  · constructor
    case mutex => exact fun _ => update_self ..
    case lock => exact False.elim
    case size => exact fun _ => (h.calls id call hcall).size (by simp [hphase])
    case unlinking => exact fun _ hfalse => by cases hfalse
    case succeeded => rintro (hfalse | hfalse | hfalse | hfalse) <;> cases hfalse
  · intro id' call' hid hcall'
    have hok := h.calls id' call' hcall'
    refine hok.frame (fun hmutex => ?_) (fun _ => rfl) hok.unlinking (keeps_of_entries rfl)
    refine update_of_ne (fun hproc => ?_) _ _
    have hheld := hok.mutex hmutex
    rw [hproc, hfree] at hheld
    cases hheld

lemma SystemInv.takeLock (hphase : call.phase = .locking)
    (hfree : system.lock_owner (shardOf call.request_digest) = none ∨ system.lock_owner
      (shardOf call.request_digest) = some call.process) :
    SystemInv sha256_bytes (CacheStore.setPhase { system with
      lock_owner := update system.lock_owner (shardOf call.request_digest)
        (some call.process) } id call (.inspecting 0)) := by
  have hmutex : HoldsMutex call.phase := by
    rw [hphase]
    trivial
  refine h.move id call (.inspecting 0) rfl rfl ?_ ?_ (keeps_of_entries rfl)
  · constructor
    case mutex => exact fun _ => (h.calls id call hcall).mutex hmutex
    case lock => exact fun _ => update_self ..
    case size => exact fun _ => (h.calls id call hcall).size (by simp [hphase])
    case unlinking => exact fun _ hfalse => by cases hfalse
    case succeeded => rintro (hfalse | hfalse | hfalse | hfalse) <;> cases hfalse
  · intro id' call' hid hcall'
    have hok := h.calls id' call' hcall'
    refine hok.frame (fun _ => rfl) (fun hwindow => ?_) hok.unlinking (keeps_of_entries rfl)
    refine update_of_ne (fun hshard => ?_) _ _
    -- A call in the window has the lock of its process, so it would be of this process.
    rcases hfree with hnone | hown
    · have hheld := hok.lock hwindow
      rw [hshard, hnone] at hheld
      cases hheld
    · exact hid (h.window_unique hcall hcall' hmutex hown hwindow hshard)

omit hcall

omit h in
/-- Giving up a record lock takes nothing from a call that is not in its window. -/
theorem dropLock_owner {process : ℕ} {shard shard' : UInt8}
    (h : shard' = shard → system.lock_owner shard ≠ some process) :
    (dropLock system process shard).lock_owner shard' = system.lock_owner shard' := by
  unfold dropLock
  dsimp only
  by_cases hshard : shard' = shard
  · subst hshard
    rw [update_self, if_neg (h rfl)]
  · rw [update_of_ne hshard]

/-- A step in which the process gives up its record lock, with no other call of it in the
window. -/
theorem SystemInv.giveLock {phase : StorePhase} (hnowindow : ¬ InWindow phase)
    (hown : CallOk sha256_bytes system id { call with phase := phase })
    (halone : ∀ id' call', id' ≠ id → system.calls id' = some call' → call'.process =
    call.process → shardOf call'.request_digest = shardOf call.request_digest → ¬ InWindow
      call'.phase) :
    SystemInv sha256_bytes (CacheStore.setPhase
      (dropLock system call.process (shardOf call.request_digest)) id call phase) := by
  refine h.move id call phase rfl rfl ?_ ?_ (keeps_of_entries rfl)
  · exact hown.frame (fun _ => rfl) (fun hwindow => absurd hwindow hnowindow) hown.unlinking
      (keeps_of_entries rfl)
  · intro id' call' hid hcall'
    have hok := h.calls id' call' hcall'
    refine hok.frame (fun _ => rfl) (fun hwindow => ?_) hok.unlinking (keeps_of_entries rfl)
    apply dropLock_owner
    intro hshard hheld
    have hlock := hok.lock hwindow
    rw [hshard, hheld] at hlock
    exact halone id' call' hid hcall' (some.inj hlock).symm hshard hwindow

include hcall

lemma SystemInv.giveMutex {ok : Bool} (hphase : call.phase = .releasing ok) :
    SystemInv sha256_bytes (CacheStore.setPhase { system with
      publish_mutex := update system.publish_mutex call.process none }
        id call (.closing ok)) := by
  have hmutex : HoldsMutex call.phase := by
    rw [hphase]
    trivial
  have hcur := h.calls id call hcall
  refine h.move id call (.closing ok) rfl rfl ?_ ?_ (keeps_of_entries rfl)
  · constructor
    case mutex => exact False.elim
    case lock => exact False.elim
    case size => exact fun _ => hcur.size (by simp [hphase])
    case unlinking => exact fun _ hfalse => by cases hfalse
    case succeeded =>
      intro hsucc
      apply hcur.succeeded
      rw [hphase]
      rcases hsucc with hfalse | hfalse | hclosing | hfalse
      · cases hfalse
      · cases hfalse
      · cases hclosing
        exact .inr (.inl rfl)
      · cases hfalse
  · intro id' call' hid hcall'
    have hok := h.calls id' call' hcall'
    refine hok.frame (fun hheld => ?_) (fun _ => rfl) hok.unlinking (keeps_of_entries rfl)
    refine update_of_ne (fun hproc => ?_) _ _
    have heq := hok.mutex hheld
    rw [hproc, hcur.mutex hmutex] at heq
    exact hid (some.inj heq).symm

omit hcall in
omit h in
lemma keeps_update (h : payloadOf sha256_bytes system request_digest = none)
    (node : Option CacheNode) :
    Keeps sha256_bytes system { system with
      entries := update system.entries request_digest node } := by
  intro request_digest' payload hpay
  refine update_of_ne (fun heq => ?_) _ _
  rw [heq, h] at hpay
  cases hpay

/-- The call replaces an entry that is not valid, and no other call is about to unlink it. -/
theorem SystemInv.replaceEntry (hwindow : InWindow call.phase)
    (hnone : payloadOf sha256_bytes system call.request_digest = none) (node : Option CacheNode)
    {phase : StorePhase} (hphase : ∀ attempt, phase ≠ .unlinking attempt)
    (hsucc : Succeeded phase → usc_cache_load sha256_bytes call.request_digest node = some
      call.data) :
    SystemInv sha256_bytes (CacheStore.setPhase { system with
      entries := update system.entries call.request_digest node } id call phase) := by
  have hcur := h.calls id call hcall
  have hkeeps := keeps_update hnone node
  refine h.move id call phase rfl rfl ?_ ?_ hkeeps
  · constructor
    case mutex => exact fun _ => hcur.mutex hwindow.holdsMutex
    case lock => exact fun _ => hcur.lock hwindow
    case size =>
      refine fun _ => hcur.size fun ok hreturning => ?_
      rw [hreturning] at hwindow
      exact hwindow
    case unlinking => exact fun attempt heq => absurd heq (hphase attempt)
    case succeeded =>
      intro hdone
      have hent : update system.entries call.request_digest node
          call.request_digest = node := update_self ..
      exact (congrArg (usc_cache_load sha256_bytes call.request_digest) hent).trans (hsucc hdone)
  · intro id' call' hid hcall'
    have hok := h.calls id' call' hcall'
    refine hok.frame (fun _ => rfl) (fun _ => rfl) (fun attempt hunlink => ?_) hkeeps
    by_cases hdig : call'.request_digest = call.request_digest
    · have hwindow' : InWindow call'.phase := by
        rw [hunlink]
        trivial
      exact absurd (h.window_unique hcall hcall' hwindow.holdsMutex (hcur.lock hwindow)
        hwindow' (by rw [hdig])) hid
    · have hent : update system.entries call.request_digest node
          call'.request_digest = system.entries call'.request_digest :=
        update_of_ne hdig ..
      have hold := hok.unlinking attempt hunlink
      unfold payloadOf at hold ⊢
      rw [← hent] at hold
      exact hold

lemma SystemInv.finish {ok : Bool} (hphase : call.phase = .returning ok) :
    SystemInv sha256_bytes { system with
      calls := update system.calls id none
      returns := system.returns ++ [.stored call.request_digest call.data ok] } := by
  refine ⟨?_, ?_, ?_⟩
  · intro id' call' hcall'
    dsimp only at hcall'
    by_cases hid : id' = id
    · rw [hid, update_self] at hcall'
      cases hcall'
    · rw [update_of_ne hid] at hcall'
      have hok := h.calls id' call' hcall'
      exact hok.frame (fun _ => rfl) (fun _ => rfl) hok.unlinking (keeps_of_entries rfl)
  · intro request_digest data hmem
    rcases mem_append.mp hmem with hold | hnew
    · exact h.returned request_digest data hold
    · cases mem_singleton.mp hnew
      apply (h.calls id call hcall).succeeded
      rw [hphase]
      exact .inr (.inr (.inr rfl))
  · rw [pairwise_append]
    refine ⟨h.order, pairwise_singleton _ _, ?_⟩
    intro first _ second hsnd request_digest data result _ hloaded
    rw [mem_singleton.mp hsnd] at hloaded
    cases hloaded

omit hcall

lemma SystemInv.load (request_digest : CacheDigest) (available : Bool) :
    SystemInv sha256_bytes { system with
      returns := system.returns ++ [.loaded request_digest
        (if available then
          usc_cache_load sha256_bytes request_digest (system.entries request_digest)
        else none)] } := by
  refine ⟨?_, ?_, ?_⟩
  · intro id call hcall
    have hok := h.calls id call hcall
    exact hok.frame (fun _ => rfl) (fun _ => rfl) hok.unlinking (keeps_of_entries rfl)
  · intro request_digest' data hmem
    rcases mem_append.mp hmem with hold | hnew
    · exact h.returned request_digest' data hold
    · cases mem_singleton.mp hnew
  · rw [pairwise_append]
    refine ⟨h.order, pairwise_singleton _ _, ?_⟩
    intro first hfst second hsnd request_digest' data result hstored hloaded
    rw [hstored] at hfst
    have hpay := h.returned request_digest' data hfst
    rw [mem_singleton.mp hsnd] at hloaded
    obtain ⟨rfl, hres⟩ := CacheReturn.loaded.inj hloaded
    cases available with
    | false => cases hres
    | true =>
      unfold payloadOf at hpay
      rw [if_pos rfl, hpay] at hres
      exact (some.inj hres).symm

lemma SystemInv.start (process : ℕ) (request_digest : CacheDigest) (data : Bytes)
    (prepared : Bool) :
    SystemInv sha256_bytes (startStore system id process request_digest data prepared) := by
  refine h.move id ⟨process, request_digest, data, .opened⟩ _ rfl rfl ?_ ?_ (keeps_of_entries rfl)
  · by_cases hready : prepared = true ∧ data.length ≤ USC_CACHE_MAX_OUTPUT_SIZE
    · rw [if_pos hready]
      constructor
      case mutex => exact False.elim
      case lock => exact False.elim
      case size => exact fun _ => hready.2
      case unlinking => exact fun _ hfalse => by cases hfalse
      case succeeded => rintro (hfalse | hfalse | hfalse | hfalse) <;> cases hfalse
    · rw [if_neg hready]
      constructor
      case mutex => exact False.elim
      case lock => exact False.elim
      case size => exact fun hne => absurd rfl (hne false)
      case unlinking => exact fun _ hfalse => by cases hfalse
      case succeeded => rintro (hfalse | hfalse | hfalse | hfalse) <;> cases hfalse
  · intro id' call' _ hcall'
    have hok := h.calls id' call' hcall'
    exact hok.frame (fun _ => rfl) (fun _ => rfl) hok.unlinking (keeps_of_entries rfl)

omit h

/-! ## Runs -/

variable (sha256_bytes) in
/-- The step does not close a descriptor of the lock file while another thread of the process is
in the window of the shard, and it is not a failing read of a valid entry. -/
def Careful (system : CacheSystem) : CacheAction → Prop
  | .advance id => ∀ call ok, system.calls id = some call → call.phase = .closing ok →
      ∀ id' call', system.calls id' = some call' → call'.process = call.process →
        shardOf call'.request_digest = shardOf call.request_digest → ¬ InWindow call'.phase
  | .readError id => ∀ call, system.calls id = some call →
      payloadOf sha256_bytes system call.request_digest = none
  | _ => True

lemma inspect_spec (h : CallOk sha256_bytes system id call) {attempt : ℕ}
    (hphase : call.phase = .inspecting attempt) :
    CallOk sha256_bytes system id { call with
      phase := afterInspection attempt (inspect_cache_entry sha256_bytes call.request_digest
        call.data (system.entries call.request_digest)) } := by
  have hwindow : InWindow call.phase := by
    rw [hphase]
    trivial
  have hsize : ∀ ok, call.phase ≠ .returning ok := by
    intro ok hfalse
    rw [hphase] at hfalse
    cases hfalse
  refine h.phase hsize (fun _ => hwindow.holdsMutex) (fun _ => hwindow) ?_ ?_
  · intro attempt' hunlink
    unfold payloadOf usc_cache_load
    cases hnode : system.entries call.request_digest with
    | none => rfl
    | some node =>
      cases hpay : entry_payload sha256_bytes call.request_digest node with
      | none => exact hpay
      | some payload =>
        rw [hnode, inspect_cache_entry, hpay] at hunlink
        dsimp only at hunlink
        split at hunlink <;> cases hunlink
  · intro hdone
    unfold payloadOf usc_cache_load
    cases hnode : system.entries call.request_digest with
    | none =>
      rw [hnode] at hdone
      rcases hdone with hfalse | hfalse | hfalse | hfalse <;> cases hfalse
    | some node =>
      cases hpay : entry_payload sha256_bytes call.request_digest node with
      | none =>
        rw [hnode, inspect_cache_entry, hpay] at hdone
        rcases hdone with hfalse | hfalse | hfalse | hfalse <;> cases hfalse
      | some payload =>
        rw [hnode, inspect_cache_entry, hpay] at hdone
        dsimp only at hdone
        split at hdone
        case isTrue heq =>
          rw [← heq]
          exact hpay
        case isFalse => rcases hdone with hfalse | hfalse | hfalse | hfalse <;> cases hfalse

lemma abandon_spec (h : CallOk sha256_bytes system id call) {phase : StorePhase}
    (hsize : ∀ ok, call.phase ≠ .returning ok) (hmutex : HoldsMutex phase → HoldsMutex call.phase)
    (hlock : InWindow phase → InWindow call.phase) (hunlink : ∀ attempt, phase ≠ .unlinking attempt)
    (hsucc : ¬ Succeeded phase) :
    CallOk sha256_bytes system id { call with phase := phase } :=
  h.phase hsize hmutex hlock (fun attempt heq => absurd heq (hunlink attempt))
    fun hdone => absurd hdone hsucc

lemma not_succeeded_inspecting (attempt : ℕ) : ¬ Succeeded (.inspecting attempt) := by
  rintro (hfalse | hfalse | hfalse | hfalse) <;> cases hfalse

include h

include hcall

lemma advance_spec (hcare : Careful sha256_bytes system (.advance id))
    (hstep : advance sha256_bytes system id call = some system') :
    SystemInv sha256_bytes system' ∧ Keeps sha256_bytes system system' := by
  have hok := h.calls id call hcall
  unfold advance at hstep
  dsimp only at hstep
  split at hstep
  case h_1 hphase =>
    split at hstep
    case isTrue hfree =>
      cases hstep
      exact ⟨h.takeMutex hcall hphase hfree, keeps_of_entries rfl⟩
    case isFalse => cases hstep
  case h_2 hphase =>
    split at hstep
    case isTrue hfree =>
      cases hstep
      exact ⟨h.takeLock hcall hphase hfree, keeps_of_entries rfl⟩
    case isFalse => cases hstep
  case h_3 attempt hphase =>
    split at hstep
    case isTrue =>
      cases hstep
      exact ⟨h.setPhase (inspect_spec hok hphase), keeps_of_entries rfl⟩
    case isFalse =>
      cases hstep
      refine ⟨h.setPhase (abandon_spec hok ?_ ?_ ?_ ?_ ?_), keeps_of_entries rfl⟩
      · simp [hphase]
      · simp [hphase, HoldsMutex, InWindow]
      · simp [hphase, InWindow]
      · simp
      · simp [Succeeded]
  case h_4 attempt hphase =>
    cases hstep
    have hnone := hok.unlinking attempt hphase
    have hwindow : InWindow call.phase := by
      rw [hphase]
      trivial
    refine ⟨h.replaceEntry hcall hwindow hnone none (by simp) ?_, keeps_update hnone none⟩
    exact fun hdone => absurd hdone (not_succeeded_inspecting _)
  case h_5 attempt hphase =>
    have hwindow : InWindow call.phase := by
      rw [hphase]
      trivial
    split at hstep
    case h_1 hent =>
      cases hstep
      have hnone : payloadOf sha256_bytes system call.request_digest = none := by
        unfold payloadOf
        rw [hent]
        rfl
      refine ⟨h.replaceEntry hcall hwindow hnone _ (by simp) fun _ => ?_, keeps_update hnone _⟩
      exact entry_payload_entry_bytes call.request_digest (hok.size (by simp [hphase]))
    case h_2 =>
      cases hstep
      refine ⟨h.setPhase (abandon_spec hok ?_ ?_ ?_ ?_ ?_), keeps_of_entries rfl⟩
      · simp [hphase]
      · simp [hphase, HoldsMutex, InWindow]
      · simp [hphase, InWindow]
      · simp
      · exact not_succeeded_inspecting _
  case h_6 ok hphase =>
    cases hstep
    have hwindow : InWindow call.phase := by
      rw [hphase]
      trivial
    refine ⟨h.giveLock (fun hwindow => hwindow) ?_ ?_, keeps_of_entries rfl⟩
    · refine hok.phase (by simp [hphase]) (by simp [hphase, HoldsMutex, InWindow]) False.elim
        (by simp) fun hdone => hok.succeeded ?_
      rw [hphase]
      simp only [Succeeded, StorePhase.releasing.injEq, reduceCtorEq, false_or, or_false] at hdone
      rw [hdone]
      exact .inl rfl
    · intro id' call' hid hcall' _ hshard hwindow'
      exact hid (h.window_unique hcall hcall' hwindow.holdsMutex (hok.lock hwindow) hwindow' hshard)
  case h_7 ok hphase =>
    cases hstep
    exact ⟨h.giveMutex hcall hphase, keeps_of_entries rfl⟩
  case h_8 ok hphase =>
    cases hstep
    refine ⟨h.giveLock (fun hwindow => hwindow) ?_ ?_, keeps_of_entries rfl⟩
    · refine hok.phase (by simp [hphase]) False.elim False.elim (by simp)
        fun hdone => hok.succeeded ?_
      rw [hphase]
      simp only [Succeeded, StorePhase.returning.injEq, reduceCtorEq, false_or] at hdone
      rw [hdone]
      exact .inr (.inr (.inl rfl))
    · exact fun id' call' _ => hcare call ok hcall hphase id' call'
  case h_9 ok hphase =>
    cases hstep
    exact ⟨h.finish hcall hphase, keeps_of_entries rfl⟩

lemma fail_spec (hstep : failStep system id call = some system') :
    SystemInv sha256_bytes system' ∧ Keeps sha256_bytes system system' := by
  have hok := h.calls id call hcall
  unfold failStep at hstep
  split at hstep
  case h_1 hphase =>
    cases hstep
    refine ⟨h.setPhase (abandon_spec hok ?_ ?_ ?_ ?_ ?_), keeps_of_entries rfl⟩
    · simp [hphase]
    · exact False.elim
    · exact False.elim
    · simp
    · simp [Succeeded]
  case h_2 hphase =>
    cases hstep
    refine ⟨h.setPhase (abandon_spec hok ?_ ?_ ?_ ?_ ?_), keeps_of_entries rfl⟩
    · simp [hphase]
    · simp [hphase, HoldsMutex]
    · exact False.elim
    · simp
    · simp [Succeeded]
  case h_6 => cases hstep
  all_goals
    rename_i attempt hphase
    cases hstep
    refine ⟨h.setPhase (abandon_spec hok ?_ ?_ ?_ ?_ ?_), keeps_of_entries rfl⟩
    · simp [hphase]
    · simp [hphase, HoldsMutex, InWindow]
    · simp [hphase, InWindow]
    · simp
    · simp [Succeeded]

lemma read_error_spec (hcare : Careful sha256_bytes system (.readError id))
    (hstep : readErrorStep system id call = some system') :
    SystemInv sha256_bytes system' ∧ Keeps sha256_bytes system system' := by
  have hok := h.calls id call hcall
  unfold readErrorStep at hstep
  split at hstep
  case h_1 attempt hphase =>
    split at hstep
    case isTrue =>
      cases hstep
      refine ⟨h.setPhase (hok.phase ?_ ?_ ?_ ?_ ?_), keeps_of_entries rfl⟩
      · simp [hphase]
      · simp [hphase, HoldsMutex, InWindow]
      · simp [hphase, InWindow]
      · exact fun _ _ => hcare call hcall
      · simp [Succeeded]
    case isFalse => cases hstep
  case h_2 => cases hstep

omit hcall

lemma step_spec {action : CacheAction} (hcare : Careful sha256_bytes system action)
    (hstep : step sha256_bytes system action = some system') :
    SystemInv sha256_bytes system' ∧ Keeps sha256_bytes system system' := by
  cases action with
  | store id process request_digest data prepared =>
    dsimp only [step] at hstep
    split at hstep
    case h_1 =>
      cases hstep
      exact ⟨h.start process request_digest data prepared, keeps_of_entries rfl⟩
    case h_2 => cases hstep
  | advance id =>
    obtain ⟨call, hcall, hadvance⟩ := bind_eq_some_iff.mp hstep
    exact advance_spec h hcall hcare hadvance
  | fail id =>
    obtain ⟨call, hcall, hfail⟩ := bind_eq_some_iff.mp hstep
    exact fail_spec h hcall hfail
  | readError id =>
    obtain ⟨call, hcall, hread⟩ := bind_eq_some_iff.mp hstep
    exact read_error_spec h hcall hcare hread
  | load request_digest available =>
    cases hstep
    exact ⟨h.load request_digest available, keeps_of_entries rfl⟩

omit h

variable (sha256_bytes) in
inductive CarefullyReachable (start : CacheSystem) : CacheSystem → Prop
  | start : CarefullyReachable start start
  | step {system system' : CacheSystem} {action : CacheAction} :
      CarefullyReachable start system → Careful sha256_bytes system action →
        step sha256_bytes system action = some system' → CarefullyReachable start system'

lemma SystemInv.of_reachable {start : CacheSystem} (hquiet : Quiet start)
    (h : CarefullyReachable sha256_bytes start system) : SystemInv sha256_bytes system := by
  induction h with
  | start => exact SystemInv.quiet hquiet
  | step _ hcare hstep ih => exact (step_spec ih hcare hstep).1

lemma advance_calls (hstep : advance sha256_bytes system id call = some system') {id' : ℕ}
    (hid : id' ≠ id) :
    system'.calls id' = system.calls id' := by
  have hset : ∀ (moved : CacheSystem) (phase : StorePhase), moved.calls = system.calls →
      (setPhase moved id call phase).calls id' = system.calls id' := by
    intro moved phase hcalls
    rw [setPhase, hcalls]
    exact update_of_ne hid ..
  unfold advance at hstep
  dsimp only at hstep
  split at hstep
  case h_9 =>
    cases hstep
    exact update_of_ne hid ..
  all_goals
    first
    | (cases hstep; exact hset _ _ rfl)
    | (split at hstep <;> cases hstep <;> exact hset _ _ rfl)

lemma reachable_alone {start : CacheSystem} (h : CarefullyReachable sha256_bytes start system)
    (halone : ∀ id', id' ≠ id → system.calls id' = none) {n : ℕ}
    (hrun : (List.replicate n (CacheAction.advance id)).foldlM (step sha256_bytes) system =
      some system') : CarefullyReachable sha256_bytes start system' := by
  induction n generalizing system with
  | zero =>
    cases hrun
    exact h
  | succ n ih =>
    rw [replicate_succ, foldlM_cons] at hrun
    obtain ⟨next, hstep, hrest⟩ := bind_eq_some_iff.mp hrun
    have hcare : Careful sha256_bytes system (.advance id) := by
      intro call ok hcall hphase id' call' hcall' _ _ hwindow
      by_cases hid : id' = id
      · subst hid
        rw [hcall] at hcall'
        cases hcall'
        rw [hphase] at hwindow
        exact hwindow
      · rw [halone id' hid] at hcall'
        cases hcall'
    refine ih (h.step hcare hstep) (fun id' hid => ?_) hrest
    obtain ⟨call, -, hadvance⟩ := bind_eq_some_iff.mp hstep
    rw [advance_calls hadvance hid]
    exact halone id' hid

end CacheStore

open CacheStore

/-- **The cache is write-once in every run of careful steps.** Once a store has succeeded, every
later load that finds an entry returns its payload, and no store of another payload succeeds. And
no careful step removes or replaces a valid entry. -/
theorem usc_cache_write_once_when_careful (sha256_bytes : Bytes → CacheDigest)
    {start system : CacheSystem} (hquiet : Quiet start)
    (h : CarefullyReachable sha256_bytes start system) :
    (∀ before after request_digest data,
      system.returns = before ++ .stored request_digest data true :: after →
        (∀ result, .loaded request_digest (some result) ∈ after → result = data) ∧
        ∀ data' ok, .stored request_digest data' ok ∈ before ++ after → data' ≠ data → ok = false) ∧
    ∀ action system', Careful sha256_bytes system action →
      step sha256_bytes system action = some system' → ∀ request_digest payload,
        usc_cache_load sha256_bytes request_digest (system.entries request_digest) =
          some payload → system'.entries request_digest = system.entries request_digest := by
  have hinv := SystemInv.of_reachable hquiet h
  refine ⟨?_, fun action system' hcareful hstep => (step_spec hinv hcareful hstep).2⟩
  intro before after request_digest data hreturns
  have hpayload := hinv.returned request_digest data (by
    rw [hreturns]
    exact mem_append_right _ mem_cons_self)
  constructor
  · intro result hloaded
    have horder := hinv.order
    rw [hreturns, pairwise_append] at horder
    exact (pairwise_cons.mp horder.2.1).1 _ hloaded request_digest data result rfl rfl
  · intro data' ok hstored hne
    by_contra hok
    have htrue : ok = true := by simpa using hok
    subst htrue
    have hpayload' := hinv.returned request_digest data' (by
      rw [hreturns]
      rcases mem_append.mp hstored with hbefore | hafter
      · exact mem_append_left _ hbefore
      · exact mem_append_right _ (mem_cons_of_mem _ hafter))
    rw [hpayload] at hpayload'
    exact hne (some.inj hpayload').symm

/-- The digests of three payloads of one byte. -/
def samplePayloadDigest (bytes : Bytes) : CacheDigest :=
  if bytes = [1] then #v[75, 245, 18, 47, 52, 69, 84, 197, 59, 222, 46, 187, 140, 210, 183, 227,
    209, 96, 10, 214, 49, 195, 133, 165, 215, 204, 226, 60, 119, 133, 69, 154]
  else if bytes = [2] then #v[219, 193, 180, 201, 0, 255, 228, 141, 87, 91, 93, 165, 198, 56, 4, 1,
    37, 246, 93, 176, 254, 62, 36, 73, 75, 118, 234, 152, 100, 87, 217, 134]
  else if bytes = [3] then #v[8, 79, 237, 8, 185, 120, 175, 77, 125, 25, 106, 116, 70, 168, 107, 88,
    0, 158, 99, 107, 97, 29, 177, 98, 17, 182, 90, 154, 173, 255, 41, 197]
  else Vector.replicate 32 0

def sampleRequest : CacheDigest := Vector.replicate 32 0
def neighbourRequest : CacheDigest := (Vector.replicate 32 0).set 1 1

def corruptCache : CacheSystem where
  entries := fun request_digest =>
    if request_digest = sampleRequest then some (.regular []) else none
  lock_owner := fun _ => none
  publish_mutex := fun _ => none
  calls := fun _ => none
  returns := []

lemma corruptCache_quiet : Quiet corruptCache := ⟨fun _ => rfl, fun _ => rfl, fun _ => rfl, rfl⟩

theorem usc_cache_write_once_when_careful_sample :
    ∃ system, CarefullyReachable samplePayloadDigest corruptCache system ∧
      .stored sampleRequest [3] true ∈ system.returns ∧
      ∀ action system', Careful samplePayloadDigest system action →
        step samplePayloadDigest system action = some system' → ∀ request_digest payload,
          usc_cache_load samplePayloadDigest request_digest (system.entries request_digest) =
            some payload → system'.entries request_digest = system.entries request_digest := by
  have hstart : CarefullyReachable samplePayloadDigest corruptCache
      (startStore corruptCache 3 1 sampleRequest [3] true) := by
    have hcareful : Careful samplePayloadDigest corruptCache
        (.store 3 1 sampleRequest [3] true) := trivial
    exact .step .start hcareful rfl
  have hreturns : ((replicate 10 (CacheAction.advance 3)).foldlM (step samplePayloadDigest)
      (startStore corruptCache 3 1 sampleRequest [3] true)).map (·.returns) =
        some [.stored sampleRequest [3] true] := by
    decide +kernel
  obtain ⟨system, hrun, hstored⟩ := map_eq_some_iff.mp hreturns
  have hreachable := reachable_alone hstart (fun id hid => update_of_ne hid ..) hrun
  refine ⟨system, hreachable, ?_, ?_⟩
  · rw [hstored]
    exact mem_cons_self
  · exact (usc_cache_write_once_when_careful samplePayloadDigest corruptCache_quiet hreachable).2

/-- A thread of process 0 has published a neighbour and not yet closed its descriptor. Another one
finds the entry corrupt, and loses its record lock to that close. A store of process 1 repairs the
entry, and then the second thread unlinks it. -/
def earlyClose : List CacheAction :=
  [.store 1 0 neighbourRequest [1] true] ++ List.replicate 6 (.advance 1) ++
    [.store 2 0 sampleRequest [2] true] ++ List.replicate 3 (.advance 2) ++ [.advance 1] ++
    [.store 3 1 sampleRequest [3] true] ++ List.replicate 10 (.advance 3) ++
    [.load sampleRequest true] ++ List.replicate 7 (.advance 2) ++ [.load sampleRequest true]

theorem early_close_replaces_entry : Quiet corruptCache ∧
      (earlyClose.foldlM (step samplePayloadDigest) corruptCache).map (·.returns) =
        some [.stored sampleRequest [3] true, .loaded sampleRequest (some [3]),
          .stored sampleRequest [2] true, .loaded sampleRequest (some [2])] := by
  refine ⟨corruptCache_quiet, ?_⟩
  decide +kernel

end DXBCSandbox
