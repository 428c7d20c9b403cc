/-
The writer of oracle packs, step by step (`oracle_pack_writer_add`, `_add_preprocess` and
`_finalize` of `src/common/oracle_pack.c`), with allocations that fail.

The writer's arrays are allocated cells of which the first `count` are in use. A call reads its
input, copies it, makes room and stores the record, and every one of these steps may fail with the
writer as far as it has got. Which allocations fail is a list that every allocation takes one
answer from; allocations past its end succeed.

An allocation inside a helper that never sees the writer (the serialised key, the metadata, the
parsed container) is made before the helper reads its input. The helper then fails with the status
that its own allocation failure is reported as, so the statuses a caller can see are the source's.

A call that succeeds is a call of the writer's functional model (`writer_add_eq_ok`,
`writer_add_preprocess_eq_ok`), and a call that fails leaves the writer alone, so what is known of
the functional model's writers holds of every writer in memory.
-/
import DXBCSandbox.Common.OraclePackRoundTrip
import DXBCSandbox.Lib.Fallible

namespace DXBCSandbox

open List Option

namespace PackWriter

open Fallible

/-- An array on the heap and the number of its cells in use. -/
structure OwnedArray (α : Type) where
  cells : List (Option α)
  count : ℕ

namespace OwnedArray

variable {α : Type} (array : OwnedArray α)

def items : List α := (array.cells.take array.count).filterMap id

def capacity : ℕ := array.cells.length

/-- `realloc`: the cells there are stay. -/
def resize (capacity : ℕ) : OwnedArray α :=
  { array with cells := array.cells ++ List.replicate (capacity - array.cells.length) none }

def push (item : α) : OwnedArray α where
  cells := array.cells.set array.count (some item)
  count := array.count + 1

/-- An array with the given elements in its cells. -/
def withItems (items : List α) : OwnedArray α :=
  { array with cells := items.map some ++ array.cells.drop items.length }

end OwnedArray

structure WriterMemory where
  compiler_fingerprint : Digest
  environment_fingerprint : Digest
  entries : OwnedArray OwnedEntry
  preprocesses : OwnedArray OwnedPreprocess
  finalized : Bool

def WriterMemory.toWriter (memory : WriterMemory) : OraclePackWriter where
  compiler_fingerprint := memory.compiler_fingerprint
  environment_fingerprint := memory.environment_fingerprint
  entries := memory.entries.items
  capacity := memory.entries.capacity
  preprocesses := memory.preprocesses.items
  preprocess_capacity := memory.preprocesses.capacity
  finalized := memory.finalized

structure WriterState where
  memory : WriterMemory
  allocations : List Bool

abbrev Action := Fallible WriterState OraclePackStatus

def malloc : Action Bool := fun s =>
  match s.allocations with
  | [] => (.ok true, s)
  | answer :: allocations => (.ok answer, { s with allocations })

/-- An allocation whose failure is reported with the given status. -/
def allocate (status : OraclePackStatus) : Action Unit := do
  let answer ← malloc
  failWhen (answer = false) status

def liftResult {α : Type} : Except OraclePackStatus α → Action α
  | .ok a => pure a
  | .error status => fail status

def owned_bytes_copy (input : OraclePackBytes) : Action Bytes :=
  if input.count = 0 then pure [] else do
    allocate .allocationFailed
    pure input.list

def grow {α : Type} (element_size : ℕ) (array : OwnedArray α) : Action (OwnedArray α) :=
  if array.count = array.capacity then
    match grow_capacity element_size array.count array.capacity with
    | none => fail .sizeOverflow
    | some new_capacity => do
      allocate .allocationFailed
      pure (array.resize new_capacity)
  else pure array

section

variable (rt : UnityCommon) (sha256 : Bytes → Digest)

/-- `variant_key_serialize`, and `variant_key_digest`, which serialises the key again. -/
def serialize_key (key : VariantKey) : Action Bytes := do
  allocate .allocationFailed
  match variant_key_serialize key with
  | .error status => fail (variant_status status)
  | .ok bytes => pure bytes

def writer_add (input : OraclePackEntryInput) : Action Unit := do
  failWhen (¬ bytes_are_consistent input.stripped_dxbc ∨
      ¬ bytes_are_consistent input.linked_glcore ∨
      ¬ bytes_are_consistent input.compile_request_transcript ∨
      input.authority.compiler_fingerprint = none ∨
      input.authority.environment_fingerprint = none) .invalidArgument
  let s ← current
  failWhen (s.memory.finalized = true) .alreadyFinalized
  failWhen (¬ authority_matches_writer s.memory.toWriter input.authority) .authorityMismatch
  failWhen (input.stripped_dxbc.count = 0 ∨ input.compile_request_transcript.count = 0)
    .invalidValue
  allocate .invalidDxbc
  failWhen (¬ validate_dxbc rt input.stripped_dxbc.list) .invalidDxbc
  let variant_key ← serialize_key input.variant_key
  let digested ← serialize_key input.variant_key
  let variant_key_digest := sha256 digested
  failWhen (s.memory.entries.items.any (·.variant_key_digest == variant_key_digest) = true)
    .duplicateKey
  allocate .allocationFailed
  let metadata ← liftResult (encode_metadata input.normalized_metadata)
  let stripped_dxbc ← owned_bytes_copy input.stripped_dxbc
  let linked_glcore ← owned_bytes_copy input.linked_glcore
  let transcript ← owned_bytes_copy input.compile_request_transcript
  let transcript_digest := sha256 transcript
  let array ← grow OWNED_ENTRY_SIZE s.memory.entries
  update fun s => { s with memory := { s.memory with
    entries := array.push {
      variant_key := variant_key
      variant_key_digest := variant_key_digest
      stripped_dxbc := stripped_dxbc
      linked_glcore := linked_glcore
      transcript := transcript
      transcript_digest := transcript_digest
      metadata := metadata } } }

def writer_add_preprocess (input : OraclePackPreprocessInput) : Action Unit := do
  failWhen (¬ bytes_are_consistent input.request_transcript ∨
      ¬ bytes_are_consistent input.serialized_result ∨
      input.authority.compiler_fingerprint = none ∨
      input.authority.environment_fingerprint = none) .invalidArgument
  let s ← current
  failWhen (s.memory.finalized = true) .alreadyFinalized
  failWhen (¬ authority_matches_writer s.memory.toWriter input.authority) .authorityMismatch
  failWhen (input.request_transcript.count = 0 ∨ input.serialized_result.count = 0) .invalidValue
  let request_digest := sha256 input.request_transcript.list
  let result_digest := sha256 input.serialized_result.list
  match s.memory.preprocesses.items.find? (·.request_digest == request_digest) with
  | some existing =>
    failWhen (¬ (existing.transcript = input.request_transcript.list ∧
      existing.result = input.serialized_result.list)) .duplicateKey
  | none => do
    let transcript ← owned_bytes_copy input.request_transcript
    let result ← owned_bytes_copy input.serialized_result
    let array ← grow OWNED_PREPROCESS_SIZE s.memory.preprocesses
    update fun s => { s with memory := { s.memory with
      preprocesses := array.push {
        transcript := transcript
        request_digest := request_digest
        result := result
        result_digest := result_digest } } }

/-- The records are sorted where they are, one array after the other. -/
def writer_finalize : Action Bytes := do
  let s ← current
  failWhen (s.memory.finalized = true) .alreadyFinalized
  let entries := qsort compare_owned_entries s.memory.entries.items
  update fun s => { s with memory := { s.memory with
    finalized := true, entries := s.memory.entries.withItems entries } }
  failWhen (adjacent_any (fun a b => compare_owned_entries a b ≠ .lt) entries = true) .duplicateKey
  let preprocesses := qsort compare_owned_preprocesses s.memory.preprocesses.items
  update fun s => { s with memory := { s.memory with
    preprocesses := s.memory.preprocesses.withItems preprocesses } }
  let bytes ← liftResult (finalize_bytes sha256 s.memory.toWriter)
  allocate .allocationFailed
  pure bytes

end

/-! ## What the steps leave alone -/

lemma keeps_malloc : Keeps WriterState.memory malloc := by
  intro s
  unfold malloc
  split <;> rfl

lemma keeps_allocate (status : OraclePackStatus) : Keeps WriterState.memory (allocate status) :=
  keeps_malloc.bind fun _ => keeps_failWhen _ _

variable {α : Type}

lemma keeps_liftResult (result : Except OraclePackStatus α) :
    Keeps WriterState.memory (liftResult result) := by
  cases result with
  | error status => exact keeps_fail status
  | ok a => exact keeps_pure a

lemma keeps_owned_bytes_copy (input : OraclePackBytes) :
    Keeps WriterState.memory (owned_bytes_copy input) := by
  unfold owned_bytes_copy
  split
  · exact keeps_pure []
  · exact (keeps_allocate _).bind fun _ => keeps_pure _

lemma keeps_grow (element_size : ℕ) (array : OwnedArray α) :
    Keeps WriterState.memory (grow element_size array) := by
  unfold grow
  split
  · split
    · exact keeps_fail _
    · exact (keeps_allocate _).bind fun _ => keeps_pure _
  · exact keeps_pure _

lemma keeps_serialize_key (key : VariantKey) : Keeps WriterState.memory (serialize_key key) := by
  apply (keeps_allocate _).bind
  intro _
  split
  · exact keeps_fail _
  · exact keeps_pure _

variable {u : Unit} {t : WriterState}

section

variable {rt : UnityCommon} {sha256 : Bytes → Digest}

/-- **A call that fails leaves the writer as it was**: everything that may fail comes before the
one step that writes. -/
theorem atomic_writer_add (input : OraclePackEntryInput) :
    Atomic WriterState.memory (writer_add rt sha256 input) := by
  apply (keeps_failWhen _ _).bind_atomic
  intro _
  apply keeps_current.bind_atomic
  intro s
  apply (keeps_failWhen _ _).bind_atomic
  intro _
  apply (keeps_failWhen _ _).bind_atomic
  intro _
  apply (keeps_failWhen _ _).bind_atomic
  intro _
  apply (keeps_allocate _).bind_atomic
  intro _
  apply (keeps_failWhen _ _).bind_atomic
  intro _
  apply (keeps_serialize_key _).bind_atomic
  intro variant_key
  apply (keeps_serialize_key _).bind_atomic
  intro digested
  apply (keeps_failWhen _ _).bind_atomic
  intro _
  apply (keeps_allocate _).bind_atomic
  intro _
  apply (keeps_liftResult _).bind_atomic
  intro metadata
  apply (keeps_owned_bytes_copy _).bind_atomic
  intro stripped_dxbc
  apply (keeps_owned_bytes_copy _).bind_atomic
  intro linked_glcore
  apply (keeps_owned_bytes_copy _).bind_atomic
  intro transcript
  apply (keeps_grow _ _).bind_atomic
  intro array
  exact atomic_update _

lemma atomic_writer_add_preprocess (input : OraclePackPreprocessInput) :
    Atomic WriterState.memory (writer_add_preprocess sha256 input) := by
  apply (keeps_failWhen _ _).bind_atomic
  intro _
  apply keeps_current.bind_atomic
  intro s
  apply (keeps_failWhen _ _).bind_atomic
  intro _
  apply (keeps_failWhen _ _).bind_atomic
  intro _
  apply (keeps_failWhen _ _).bind_atomic
  intro _
  dsimp only
  split
  · exact (keeps_failWhen _ _).atomic
  · apply (keeps_owned_bytes_copy _).bind_atomic
    intro transcript
    apply (keeps_owned_bytes_copy _).bind_atomic
    intro result
    apply (keeps_grow _ _).bind_atomic
    intro array
    exact atomic_update _

/-! ## Arrays -/

/-- The cells in use hold elements, and there are as many cells as the count says. -/
structure OwnedArray.Valid {α : Type} (array : OwnedArray α) : Prop where
  count_le : array.count ≤ array.cells.length
  filled : array.cells.take array.count = array.items.map some

variable {array : OwnedArray α}

lemma OwnedArray.Valid.length_items (h : array.Valid) : array.items.length = array.count := by
  have hlen := congrArg length h.filled
  rw [length_take, Nat.min_eq_left h.count_le, length_map] at hlen
  exact hlen.symm

variable {items : List α}

lemma OwnedArray.items_of_take (h : array.cells.take array.count = items.map some) :
    array.items = items := by
  rw [OwnedArray.items, h, filterMap_map]
  exact filterMap_some

lemma OwnedArray.valid_of_take (hle : array.count ≤ array.cells.length)
    (h : array.cells.take array.count = items.map some) :
    array.Valid :=
  ⟨hle, by rw [h, OwnedArray.items_of_take h]⟩

lemma OwnedArray.Valid.push (h : array.Valid) (hroom : array.count < array.cells.length)
    (item : α) :
    (array.push item).Valid ∧ (array.push item).items = array.items ++ [item] ∧
      (array.push item).capacity = array.capacity := by
  have htake : (array.push item).cells.take (array.push item).count =
      (array.items ++ [item]).map some := by
    show (array.cells.set array.count (some item)).take (array.count + 1) = _
    rw [take_add_one, take_set_of_le (Nat.le_refl _), getElem?_set_self hroom, h.filled, map_append]
    rfl
  refine ⟨OwnedArray.valid_of_take ?_ htake, OwnedArray.items_of_take htake, ?_⟩
  · show array.count + 1 ≤ (array.cells.set array.count (some item)).length
    rw [length_set]
    exact hroom
  · exact length_set

variable {element_size : ℕ}

lemma lt_of_grow_capacity {capacity new_capacity : ℕ}
    (h : grow_capacity element_size capacity capacity = some new_capacity) :
    capacity < new_capacity := by
  unfold grow_capacity at h
  rw [if_neg (not_not_intro rfl)] at h
  dsimp only at h
  by_cases hzero : capacity = 0
  · rw [if_pos hzero] at h
    split at h
    · nomatch h
    · rw [← some.inj h]
      omega
  · rw [if_neg hzero] at h
    split at h
    · nomatch h
    · rw [← some.inj h]
      omega

lemma grow_eq_ok {array' : OwnedArray α} {s : WriterState} (hvalid : array.Valid)
    (h : grow element_size array s = (.ok array', t)) :
    array'.Valid ∧ array'.items = array.items ∧ array'.count < array'.cells.length ∧
      grow_capacity element_size array.items.length array.capacity = some array'.capacity := by
  unfold grow at h
  rw [hvalid.length_items]
  by_cases hfull : array.count = array.capacity
  · rw [if_pos hfull] at h
    cases hgrow : grow_capacity element_size array.count array.capacity with
    | none =>
      rw [hgrow] at h
      nomatch h
    | some new_capacity =>
      rw [hgrow] at h
      obtain ⟨_, s', -, h⟩ := bind_eq_ok h
      have harray : array.resize new_capacity = array' := Except.ok.inj (congrArg Prod.fst h)
      have hlt : array.cells.length < new_capacity := by
        rw [hfull] at hgrow
        exact lt_of_grow_capacity hgrow
      have htake : (array.resize new_capacity).cells.take (array.resize new_capacity).count =
          array.items.map some := by
        show (array.cells ++ _).take array.count = _
        rw [take_append_of_le_length hvalid.count_le, hvalid.filled]
      have hcap : (array.resize new_capacity).cells.length = new_capacity := by
        show (array.cells ++ replicate (new_capacity - array.cells.length) none).length = _
        rw [length_append, length_replicate]
        omega
      have hcnt : (array.resize new_capacity).count < (array.resize new_capacity).cells.length := by
        rw [hcap]
        exact Nat.lt_of_le_of_lt hvalid.count_le hlt
      rw [← harray]
      refine ⟨OwnedArray.valid_of_take (Nat.le_of_lt hcnt) htake,
        OwnedArray.items_of_take htake, hcnt, ?_⟩
      rw [OwnedArray.capacity, hcap]
  · rw [if_neg hfull] at h
    have harray : array = array' := Except.ok.inj (congrArg Prod.fst h)
    rw [← harray]
    refine ⟨hvalid, rfl, Nat.lt_of_le_of_ne hvalid.count_le hfull, ?_⟩
    rw [grow_capacity, if_pos hfull]

variable {s t : WriterState} {bytes : Bytes}

lemma owned_bytes_copy_eq_ok {input : OraclePackBytes} (hcons : bytes_are_consistent input = true)
    (h : owned_bytes_copy input s = (.ok bytes, t)) :
    bytes = input.list := by
  unfold owned_bytes_copy at h
  split at h
  next hzero =>
    have hlen := length_list_of_consistent hcons
    rw [hzero] at hlen
    rw [eq_nil_of_length_eq_zero hlen]
    exact (Except.ok.inj (congrArg Prod.fst h)).symm
  next =>
    obtain ⟨_, _, -, h⟩ := bind_eq_ok h
    exact (Except.ok.inj (congrArg Prod.fst h)).symm

lemma serialize_key_eq_ok {key : VariantKey} (h : serialize_key key s = (.ok bytes, t)) :
    variant_key_serialize key = .ok bytes := by
  obtain ⟨_, s', -, hrest⟩ := bind_eq_ok h
  cases hkey : variant_key_serialize key with
  | error status =>
    rw [hkey] at hrest
    nomatch hrest
  | ok bytes' =>
    rw [hkey] at hrest
    exact congrArg Except.ok (Except.ok.inj (congrArg Prod.fst hrest))

lemma liftResult_eq_ok {result : Except OraclePackStatus α} {a : α}
    (h : liftResult result s = (.ok a, t)) : result = .ok a := by
  cases result with
  | error status => nomatch h
  | ok b => exact congrArg Except.ok (Except.ok.inj (congrArg Prod.fst h))

/-- The writer's arrays are as their counts say. -/
structure WriterMemory.Valid (memory : WriterMemory) : Prop where
  entries : memory.entries.Valid
  preprocesses : memory.preprocesses.Valid

/-- **A call that succeeds is the call of the functional model.** -/
theorem writer_add_eq_ok {input : OraclePackEntryInput} (hvalid : s.memory.Valid)
    (h : writer_add rt sha256 input s = (.ok u, t)) :
    oracle_pack_writer_add rt sha256 s.memory.toWriter input = .ok t.memory.toWriter ∧
      t.memory.Valid := by
  obtain ⟨harg, h1⟩ := failWhen_bind_eq_ok h
  obtain ⟨hfin, h2⟩ := failWhen_bind_eq_ok h1
  obtain ⟨hauth, h3⟩ := failWhen_bind_eq_ok h2
  obtain ⟨hval, h4⟩ := failWhen_bind_eq_ok h3
  obtain ⟨_, s5, -, hs5, h5⟩ := (keeps_allocate _).bind_eq_ok h4
  obtain ⟨hdxbc, h6⟩ := failWhen_bind_eq_ok h5
  obtain ⟨variant_key, s7, hkey, hs7, h7⟩ := (keeps_serialize_key _).bind_eq_ok h6
  obtain ⟨digested, s8, hdigested, hs8, h8⟩ := (keeps_serialize_key _).bind_eq_ok h7
  obtain ⟨hduplicate, h9⟩ := failWhen_bind_eq_ok h8
  obtain ⟨_, s10, -, hs10, h10⟩ := (keeps_allocate _).bind_eq_ok h9
  obtain ⟨metadata, s11, hmeta, hs11, h11⟩ := (keeps_liftResult _).bind_eq_ok h10
  obtain ⟨stripped_dxbc, s12, hstripped, hs12, h12⟩ := (keeps_owned_bytes_copy _).bind_eq_ok h11
  obtain ⟨linked_glcore, s13, hglcore, hs13, h13⟩ := (keeps_owned_bytes_copy _).bind_eq_ok h12
  obtain ⟨transcript, s14, htr, hs14, h14⟩ := (keeps_owned_bytes_copy _).bind_eq_ok h13
  obtain ⟨array, s15, hgrow, hs15, h15⟩ := (keeps_grow _ _).bind_eq_ok h14
  have hmemory : s15.memory = s.memory := by
    rw [hs15, hs14, hs13, hs12, hs11, hs10, hs8, hs7, hs5]
  have ht : t.memory = { s15.memory with entries := array.push ⟨variant_key, sha256 digested,
      stripped_dxbc, linked_glcore, transcript, sha256 transcript, metadata⟩ } :=
    (congrArg (·.2.memory) h15).symm
  simp only [not_or, not_not] at harg
  obtain ⟨hdxbc_consistent, hglc, htrc, hcomp, henv⟩ :=
    harg
  have hkey_bytes := serialize_key_eq_ok hkey
  have hdig : digested = variant_key :=
    Except.ok.inj ((serialize_key_eq_ok hdigested).symm.trans hkey_bytes)
  obtain ⟨harray, hitems, hroom, hcap⟩ := grow_eq_ok hvalid.entries hgrow
  obtain ⟨hpush, hpushed, hcells⟩ := harray.push hroom ⟨variant_key, sha256 variant_key,
    input.stripped_dxbc.list, input.linked_glcore.list, input.compile_request_transcript.list,
    sha256 input.compile_request_transcript.list, metadata⟩
  rw [owned_bytes_copy_eq_ok hdxbc_consistent hstripped, owned_bytes_copy_eq_ok hglc hglcore,
    owned_bytes_copy_eq_ok htrc htr, hdig, hmemory] at ht
  rw [hdig] at hduplicate
  constructor
  · have hwriter : t.memory.toWriter = { s.memory.toWriter with
        entries := s.memory.entries.items ++
          [{ variant_key
             variant_key_digest := sha256 variant_key
             stripped_dxbc := input.stripped_dxbc.list
             linked_glcore := input.linked_glcore.list
             transcript := input.compile_request_transcript.list
             transcript_digest := sha256 input.compile_request_transcript.list
             metadata }]
        capacity := array.capacity } := by
      rw [ht, ← hcells, ← hitems, ← hpushed]
      rfl
    rw [hwriter]
    have hnfin : ¬ s.memory.toWriter.finalized = true := hfin
    have hnew : ¬ s.memory.toWriter.entries.any (·.variant_key_digest == sha256 variant_key) =
        true := hduplicate
    have hroom : grow_capacity OWNED_ENTRY_SIZE s.memory.toWriter.entries.length
        s.memory.toWriter.capacity = some array.capacity := hcap
    unfold oracle_pack_writer_add
    rw [if_neg (by simp [hdxbc_consistent, hglc, htrc, hcomp,
      henv]), if_neg hnfin, if_neg hauth, if_neg hval, if_neg hdxbc,
      hkey_bytes]
    dsimp only
    rw [if_neg hnew, liftResult_eq_ok hmeta]
    rw [hroom]
    rfl
  · rw [ht]
    exact ⟨hpush, hvalid.preprocesses⟩

lemma writer_add_preprocess_eq_ok {input : OraclePackPreprocessInput} (hvalid : s.memory.Valid)
    (h : writer_add_preprocess sha256 input s = (.ok u, t)) :
    oracle_pack_writer_add_preprocess sha256 s.memory.toWriter input = .ok t.memory.toWriter ∧
      t.memory.Valid := by
  obtain ⟨harg, h1⟩ := failWhen_bind_eq_ok h
  obtain ⟨hfin, h2⟩ := failWhen_bind_eq_ok h1
  obtain ⟨hauth, h3⟩ := failWhen_bind_eq_ok h2
  obtain ⟨hval, h4⟩ := failWhen_bind_eq_ok h3
  simp only [not_or, not_not] at harg
  obtain ⟨htrc, hresc, hcomp, henv⟩ := harg
  have hnfin : ¬ s.memory.toWriter.finalized = true := hfin
  unfold oracle_pack_writer_add_preprocess
  rw [if_neg (by simp [htrc, hresc, hcomp, henv]), if_neg hnfin, if_neg hauth, if_neg hval]
  dsimp only at h4 ⊢
  cases hfind : s.memory.preprocesses.items.find?
      (·.request_digest == sha256 input.request_transcript.list) with
  | some existing =>
    have hfound : s.memory.toWriter.preprocesses.find?
        (·.request_digest == sha256 input.request_transcript.list) = some existing := hfind
    rw [hfind] at h4
    dsimp only at h4
    unfold failWhen at h4
    by_cases hsame : existing.transcript = input.request_transcript.list ∧
        existing.result = input.serialized_result.list
    · rw [if_neg (not_not_intro hsame)] at h4
      have ht : s = t := congrArg Prod.snd h4
      rw [hfound, ← ht]
      dsimp only
      rw [if_pos hsame]
      exact ⟨rfl, hvalid⟩
    · rw [if_pos hsame] at h4
      nomatch h4
  | none =>
    have hfound : s.memory.toWriter.preprocesses.find?
        (·.request_digest == sha256 input.request_transcript.list) = none := hfind
    rw [hfind] at h4
    obtain ⟨transcript, s5, htr, hs5, h5⟩ := (keeps_owned_bytes_copy _).bind_eq_ok h4
    obtain ⟨result, s6, hres, hs6, h6⟩ := (keeps_owned_bytes_copy _).bind_eq_ok h5
    obtain ⟨array, s7, hgrow, hs7, h7⟩ := (keeps_grow _ _).bind_eq_ok h6
    have hmemory : s7.memory = s.memory := by rw [hs7, hs6, hs5]
    have ht : t.memory = { s7.memory with preprocesses := array.push ⟨transcript,
        sha256 input.request_transcript.list, result, sha256 input.serialized_result.list⟩ } :=
      (congrArg (·.2.memory) h7).symm
    obtain ⟨harray, hitems, hroom, hcap⟩ := grow_eq_ok hvalid.preprocesses hgrow
    obtain ⟨hpush, hpushed, hcells⟩ := harray.push hroom ⟨input.request_transcript.list,
      sha256 input.request_transcript.list, input.serialized_result.list,
      sha256 input.serialized_result.list⟩
    rw [owned_bytes_copy_eq_ok htrc htr, owned_bytes_copy_eq_ok hresc hres, hmemory] at ht
    have hgrown : grow_capacity OWNED_PREPROCESS_SIZE s.memory.toWriter.preprocesses.length
        s.memory.toWriter.preprocess_capacity = some array.capacity := hcap
    have hwriter : t.memory.toWriter = { s.memory.toWriter with
        preprocesses := s.memory.preprocesses.items ++
          [{ transcript := input.request_transcript.list
             request_digest := sha256 input.request_transcript.list
             result := input.serialized_result.list
             result_digest := sha256 input.serialized_result.list }]
        preprocess_capacity := array.capacity } := by
      rw [ht, ← hcells, ← hitems, ← hpushed]
      rfl
    rw [hfound, hwriter]
    rw [hgrown, ht]
    exact ⟨rfl, hvalid.entries, hpush⟩

end

/-! ## Runs of calls -/

/-- `oracle_pack_writer_create`. An allocation that fails leaves no writer to call. -/
def writer_create (authority : OraclePackAuthorityInput) : Except OraclePackStatus WriterMemory :=
  match authority.compiler_fingerprint, authority.environment_fingerprint with
  | some compiler_fingerprint, some environment_fingerprint =>
    if ¬ authority_is_valid authority then .error .invalidValue
    else .ok ⟨compiler_fingerprint, environment_fingerprint, ⟨[], 0⟩, ⟨[], 0⟩, false⟩
  | _, _ => .error .invalidArgument

inductive WriterCall where
  | add (input : OraclePackEntryInput)
  | add_preprocess (input : OraclePackPreprocessInput)
  | finalize

section

variable (rt : UnityCommon) (sha256 : Bytes → Digest)

def writerCall : WriterCall → Action Unit
  | .add input => writer_add rt sha256 input
  | .add_preprocess input => writer_add_preprocess sha256 input
  | .finalize => do
    let _ ← writer_finalize sha256

/-- The state after calls, of which any may fail. -/
def runCalls (calls : List WriterCall) (s : WriterState) : WriterState :=
  calls.foldl (fun s call => (writerCall rt sha256 call s).2) s

def Reachable (s : WriterState) : Prop :=
  ∃ authority memory allocations calls,
    writer_create authority = .ok memory ∧ s = runCalls rt sha256 calls ⟨memory, allocations⟩

end

section

variable {rt : UnityCommon} {sha256 : Bytes → Digest} {s : WriterState}

lemma fails_writerCall (h : s.memory.finalized = true) (call : WriterCall) :
    Fails (writerCall rt sha256 call) s := by
  cases call with
  | add input =>
    apply fails_failWhen_bind
    exact ⟨_, congrArg Prod.fst (failWhen_bind_pos h s)⟩
  | add_preprocess input =>
    apply fails_failWhen_bind
    exact ⟨_, congrArg Prod.fst (failWhen_bind_pos h s)⟩
  | finalize =>
    apply fails_bind
    exact ⟨_, congrArg Prod.fst (failWhen_bind_pos h s)⟩

/-- A call of `finalize` leaves a finalised writer, whether it succeeds or not. -/
theorem finalized_writer_finalize (s : WriterState) :
    (writer_finalize sha256 s).2.memory.finalized = true := by
  unfold writer_finalize
  rw [bind_ok (rfl : current s = (.ok s, s))]
  by_cases h : s.memory.finalized = true
  · rw [failWhen_bind_pos h]
    exact h
  · -- The flag is the first thing that is written, and nothing behind it writes the flag.
    let finalized : WriterState → Bool := fun s => s.memory.finalized
    have hrest : ∀ (bad : Prop) [Decidable bad] (preprocesses : List OwnedPreprocess)
        (bytes : Except OraclePackStatus Bytes), Keeps finalized (do
          failWhen bad OraclePackStatus.duplicateKey
          update fun s => { s with memory := { s.memory with
            preprocesses := s.memory.preprocesses.withItems preprocesses } }
          let bytes ← liftResult bytes
          allocate .allocationFailed
          pure bytes) := by
      intro bad _ preprocesses bytes
      apply (keeps_failWhen _ _).bind
      intro _
      apply Keeps.bind
      · exact keeps_update fun _ => rfl
      intro _
      apply ((keeps_liftResult _).part WriterMemory.finalized).bind
      intro bytes
      apply ((keeps_allocate _).part WriterMemory.finalized).bind
      intro _
      exact keeps_pure bytes
    rw [failWhen_bind_neg h]
    exact hrest _ _ _ _

lemma snd_writerCall_finalize (s : WriterState) :
    (writerCall rt sha256 .finalize s).2 = (writer_finalize sha256 s).2 := by
  rcases bind_cases (writer_finalize sha256) (fun _ => pure ()) s with
    ⟨e, s', hrun, heq⟩ | ⟨bytes, s', hrun, heq⟩
  · rw [hrun]
    exact congrArg Prod.snd heq
  · rw [hrun]
    exact congrArg Prod.snd heq

variable {call : WriterCall}

lemma not_finalized_of_ok (h : (writerCall rt sha256 call s).1 = .ok u) :
    s.memory.finalized = false := by
  rw [← Bool.not_eq_true]
  intro hfin
  obtain ⟨status, hfail⟩ : Fails (writerCall rt sha256 call) s := fails_writerCall hfin call
  rw [h] at hfail
  nomatch hfail

/-- **What a call may do**: nothing, finalise, or what a successful call of the functional model
does. -/
theorem writerCall_cases (call : WriterCall) (s : WriterState) :
    (writerCall rt sha256 call s).2.memory = s.memory ∨
      (writerCall rt sha256 call s).2.memory.finalized = true ∨
      s.memory.finalized = false ∧ (s.memory.Valid → (writerCall rt sha256 call s).2.memory.Valid ∧
        ∃ call', packCall rt sha256 s.memory.toWriter call' =
          .ok (writerCall rt sha256 call s).2.memory.toWriter) := by
  cases call with
  | add input =>
    cases hrun : (writer_add rt sha256 input s).1 with
    | error status => exact .inl (atomic_writer_add input s status hrun)
    | ok u =>
      have hopen : s.memory.finalized = false :=
        not_finalized_of_ok (show (writerCall rt sha256 (.add input) s).1 = _ from hrun)
      refine .inr (.inr ⟨hopen, fun hvalid => ?_⟩)
      obtain ⟨hadd, hvalid'⟩ := writer_add_eq_ok hvalid (Prod.ext hrun rfl)
      exact ⟨hvalid', .add input, hadd⟩
  | add_preprocess input =>
    cases hrun : (writer_add_preprocess sha256 input s).1 with
    | error status => exact .inl (atomic_writer_add_preprocess input s status hrun)
    | ok u =>
      have hopen : s.memory.finalized = false := not_finalized_of_ok
        (show (writerCall rt sha256 (.add_preprocess input) s).1 = _ from hrun)
      refine .inr (.inr ⟨hopen, fun hvalid => ?_⟩)
      obtain ⟨hadd, hvalid'⟩ := writer_add_preprocess_eq_ok hvalid (Prod.ext hrun rfl)
      exact ⟨hvalid', .add_preprocess input, hadd⟩
  | finalize =>
    rw [snd_writerCall_finalize]
    exact .inr (.inl (finalized_writer_finalize s))

lemma finalized_runCalls (h : s.memory.finalized = true) (calls : List WriterCall) :
    (runCalls rt sha256 calls s).memory.finalized = true := by
  induction calls generalizing s with
  | nil => exact h
  | cons call calls ih =>
    apply ih
    rcases @writerCall_cases rt sha256 call s with hmemory | hfin | ⟨hopen, -⟩
    · rw [hmemory]
      exact h
    · exact hfin
    · rw [h] at hopen
      nomatch hopen

/-! ## Open writers -/

/-- What holds of a writer that may still be added to: its arrays are in order, its records are
good, and it still has the records it had. -/
structure OpenWriter (rt : UnityCommon) (sha256 : Bytes → Digest)
    (compiler environment : Digest) (kept : List OwnedPreprocess) (memory : WriterMemory) :
    Prop where
  valid : memory.Valid
  ok : WriterOk rt sha256 memory.toWriter
  compiler_eq : memory.compiler_fingerprint = compiler
  environment_eq : memory.environment_fingerprint = environment
  kept_subset : kept ⊆ memory.preprocesses.items

lemma packCall_extends {writer writer' : OraclePackWriter} {call : PackCall}
    (hok : WriterOk rt sha256 writer) (h : packCall rt sha256 writer call = .ok writer') :
    writer'.compiler_fingerprint = writer.compiler_fingerprint ∧
      writer'.environment_fingerprint = writer.environment_fingerprint ∧
      writer.preprocesses ⊆ writer'.preprocesses := by
  cases call with
  | add input =>
    obtain ⟨-, entry, capacity, -, -, -, rfl⟩ := pack_add_eq_ok.mp h
    exact ⟨rfl, rfl, fun _ hr => hr⟩
  | add_preprocess input =>
    obtain ⟨-, record, -, ⟨-, rfl⟩ | ⟨-, capacity, -, rfl⟩⟩ :=
      (pack_add_preprocess_eq_ok hok).mp h
    · exact ⟨rfl, rfl, fun _ hr => hr⟩
    · exact ⟨rfl, rfl, fun _ hr => mem_append_left _ hr⟩

variable {compiler environment : Digest} {kept : List OwnedPreprocess}

lemma OpenWriter.writerCall (h : OpenWriter rt sha256 compiler environment kept s.memory)
    (hopen : (writerCall rt sha256 call s).2.memory.finalized = false) :
    OpenWriter rt sha256 compiler environment kept (writerCall rt sha256 call s).2.memory := by
  rcases @writerCall_cases rt sha256 call s with hmemory | hfin | ⟨-, hcall⟩
  · rw [hmemory]
    exact h
  · rw [hfin] at hopen
    nomatch hopen
  · obtain ⟨hvalid, call', hcall⟩ := hcall h.valid
    obtain ⟨hcomp, henv, hsubset⟩ := packCall_extends h.ok hcall
    exact ⟨hvalid, h.ok.packCall hcall, hcomp.trans h.compiler_eq,
      henv.trans h.environment_eq, fun _ hr => hsubset (h.kept_subset hr)⟩

/-- **A run of calls keeps the records** of a writer that is still open at its end. -/
theorem OpenWriter.runCalls (calls : List WriterCall)
    (h : OpenWriter rt sha256 compiler environment kept s.memory)
    (hopen : (runCalls rt sha256 calls s).memory.finalized = false) :
    OpenWriter rt sha256 compiler environment kept (runCalls rt sha256 calls s).memory := by
  induction calls generalizing s with
  | nil => exact h
  | cons call calls ih =>
    have hstep : (PackWriter.writerCall rt sha256 call s).2.memory.finalized = false := by
      rw [← Bool.not_eq_true]
      intro hfin
      have hend : (PackWriter.runCalls rt sha256 (call :: calls) s).memory.finalized = true :=
        finalized_runCalls hfin calls
      rw [hopen] at hend
      nomatch hend
    exact ih (h.writerCall hstep) hopen

lemma openWriter_of_create {authority : OraclePackAuthorityInput} {memory : WriterMemory}
    (h : writer_create authority = .ok memory) :
    OpenWriter rt sha256 memory.compiler_fingerprint memory.environment_fingerprint [] memory := by
  unfold writer_create at h
  split at h
  next compiler_fingerprint environment_fingerprint _ _ =>
    split at h
    · nomatch h
    · obtain rfl := Except.ok.inj h
      have hok : WriterOk rt sha256 (WriterMemory.toWriter
          ⟨compiler_fingerprint, environment_fingerprint, ⟨[], 0⟩, ⟨[], 0⟩, false⟩) :=
        ⟨fun _ he => (nomatch he), fun _ hr => (nomatch hr), nodup_nil, nodup_nil⟩
      exact ⟨⟨⟨Nat.le_refl _, rfl⟩, ⟨Nat.le_refl _, rfl⟩⟩, hok, rfl, rfl, nil_subset _⟩
  next => nomatch h

lemma Reachable.openWriter (h : Reachable rt sha256 s) (hopen : s.memory.finalized = false) :
    OpenWriter rt sha256 s.memory.compiler_fingerprint s.memory.environment_fingerprint
      s.memory.preprocesses.items s.memory := by
  obtain ⟨authority, memory, allocations, calls, hcreate, rfl⟩ := h
  have hstart : OpenWriter rt sha256 memory.compiler_fingerprint memory.environment_fingerprint []
      (⟨memory, allocations⟩ : WriterState).memory := openWriter_of_create hcreate
  have hend := hstart.runCalls calls hopen
  exact ⟨hend.valid, hend.ok, rfl, rfl, fun _ hr => hr⟩

/-! ## A record that is there already -/

variable {input : OraclePackPreprocessInput} {record : OwnedPreprocess}

/-- A valid input whose request digest a record already has is compared with that record. -/
theorem writer_add_preprocess_found {existing : OwnedPreprocess}
    (h : OpenWriter rt sha256 compiler environment kept s.memory)
    (hopen : s.memory.finalized = false)
    (hadds : AddsPreprocess sha256 compiler environment input record)
    (hmem : existing ∈ s.memory.preprocesses.items)
    (hdig : existing.request_digest = record.request_digest) :
    writer_add_preprocess sha256 input s =
      if existing = record then (.ok (), s) else (.error .duplicateKey, s) := by
  have hauth : authority_matches_writer s.memory.toWriter input.authority = true := by
    apply authority_matches_writer_iff.mpr
    show AuthorityMatches s.memory.compiler_fingerprint s.memory.environment_fingerprint _
    rw [h.compiler_eq, h.environment_eq]
    exact hadds.authority
  have htr : input.request_transcript.count ≠ 0 := by
    rw [← length_list_of_consistent hadds.transcript_consistent, ← hadds.transcript]
    exact hadds.ok.transcript_ne
  have hres : input.serialized_result.count ≠ 0 := by
    rw [← length_list_of_consistent hadds.result_consistent, ← hadds.result]
    exact hadds.ok.result_ne
  -- No two records have one digest, so the search stops at this one.
  have hfind : s.memory.preprocesses.items.find?
      (·.request_digest == sha256 input.request_transcript.list) = some existing := by
    rw [← hadds.transcript, ← hadds.ok.request_digest]
    cases hfind : s.memory.preprocesses.items.find? (·.request_digest == record.request_digest) with
    | none => exact absurd (beq_iff_eq.mpr hdig) (find?_eq_none.mp hfind existing hmem)
    | some found =>
      have hfound := find?_some hfind
      exact congrArg some (inj_on_of_nodup_map h.ok.preprocesses_nodup
        (mem_of_find?_eq_some hfind) hmem ((beq_iff_eq.mp hfound).trans hdig.symm))
  have hsame : (existing.transcript = input.request_transcript.list ∧
      existing.result = input.serialized_result.list) ↔ existing = record := by
    rw [← hadds.transcript, ← hadds.result]
    constructor
    · rintro ⟨htr, hres⟩
      exact (h.ok.preprocesses existing hmem).eq hadds.ok htr hres
    · rintro rfl
      exact ⟨rfl, rfl⟩
  unfold writer_add_preprocess
  rw [failWhen_bind_neg (by simp [hadds.transcript_consistent, hadds.result_consistent,
      hadds.authority.compiler_eq, hadds.authority.environment_eq]),
    bind_ok (rfl : current s = (.ok s, s)), failWhen_bind_neg (by simp [hopen]),
    failWhen_bind_neg (not_not_intro hauth),
    failWhen_bind_neg (by simp [htr, hres])]
  rw [hfind]
  dsimp only
  unfold failWhen
  by_cases heq : existing = record
  · rw [if_pos heq, if_neg (not_not_intro (hsame.mpr heq))]
    rfl
  · rw [if_neg heq, if_pos (fun h => heq (hsame.mp h))]
    rfl

lemma OpenWriter.add_preprocess (h : OpenWriter rt sha256 compiler environment kept s.memory)
    (hrun : writer_add_preprocess sha256 input s = (.ok u, t)) :
    ∃ record, AddsPreprocess sha256 compiler environment input record ∧
      OpenWriter rt sha256 compiler environment [record] t.memory := by
  obtain ⟨hadd, hvalid⟩ := writer_add_preprocess_eq_ok h.valid hrun
  have hcall : packCall rt sha256 s.memory.toWriter (.add_preprocess input) =
      .ok t.memory.toWriter := hadd
  obtain ⟨hcomp, henv, -⟩ := packCall_extends h.ok hcall
  obtain ⟨-, record, hadds, hwriter⟩ := (pack_add_preprocess_eq_ok h.ok).mp hadd
  have hadds : AddsPreprocess sha256 compiler environment input record := by
    rw [← h.compiler_eq, ← h.environment_eq]
    exact hadds
  have hmem : record ∈ t.memory.toWriter.preprocesses := by
    rcases hwriter with ⟨hmem, heq⟩ | ⟨-, capacity, -, heq⟩
    · rw [heq]
      exact hmem
    · rw [heq]
      exact mem_append_right _ mem_cons_self
  exact ⟨record, hadds, hvalid, h.ok.packCall hcall, hcomp.trans h.compiler_eq,
    henv.trans h.environment_eq, cons_subset.mpr ⟨hmem, nil_subset _⟩⟩

lemma OpenWriter.fails_of_conflict
    (h : OpenWriter rt sha256 compiler environment [record] s.memory)
    (hdig : sha256 input.request_transcript.list = record.request_digest)
    (hconf : ¬ (record.transcript = input.request_transcript.list ∧ record.result =
      input.serialized_result.list)) :
    Fails (writer_add_preprocess sha256 input) s := by
  cases hrun : (writer_add_preprocess sha256 input s).1 with
  | error status => exact ⟨status, hrun⟩
  | ok u =>
    obtain ⟨record', hadds, hopen⟩ := h.add_preprocess (Prod.ext hrun rfl)
    obtain ⟨hadd, -⟩ := writer_add_preprocess_eq_ok h.valid (Prod.ext hrun rfl)
    have hcall : packCall rt sha256 s.memory.toWriter (.add_preprocess input) =
        .ok (writer_add_preprocess sha256 input s).2.memory.toWriter := hadd
    have hrec := (packCall_extends h.ok hcall).2.2 (h.kept_subset mem_cons_self)
    have hrec' := hopen.kept_subset mem_cons_self
    have heq : record = record' := by
      apply inj_on_of_nodup_map hopen.ok.preprocesses_nodup hrec hrec'
      rw [hadds.ok.request_digest, hadds.transcript, hdig]
    exact absurd ⟨heq ▸ hadds.transcript, heq ▸ hadds.result⟩ hconf

/-- **The writer is atomic.** A call that fails leaves the arrays of every writer, and all else of
it, as they were. A preprocess record that a caller has added may be added again, with no effect,
as long as the writer is open, and an input with the digest of its request and other bytes is
refused. After a successful `finalize` every call fails, whatever has been called in between. -/
theorem oracle_pack_writer_calls_are_atomic (rt : UnityCommon) (sha256 : Bytes → Digest) :
    (∀ input s status, (writer_add rt sha256 input s).1 = .error status →
      (writer_add rt sha256 input s).2.memory = s.memory) ∧
    (∀ input s status, (writer_add_preprocess sha256 input s).1 = .error status →
      (writer_add_preprocess sha256 input s).2.memory = s.memory) ∧
    (∀ input s t calls, Reachable rt sha256 s → writer_add_preprocess sha256 input s = (.ok (), t) →
      (runCalls rt sha256 calls t).memory.finalized = false →
      writer_add_preprocess sha256 input (runCalls rt sha256 calls t) =
        (.ok (), runCalls rt sha256 calls t) ∧
      ∀ conflicting : OraclePackPreprocessInput,
        sha256 conflicting.request_transcript.list = sha256 input.request_transcript.list →
        ¬ (conflicting.request_transcript.list = input.request_transcript.list ∧
          conflicting.serialized_result.list = input.serialized_result.list) →
        Fails (writer_add_preprocess sha256 conflicting) (runCalls rt sha256 calls t) ∧
        ∀ record, AddsPreprocess sha256 t.memory.compiler_fingerprint
            t.memory.environment_fingerprint conflicting record →
          writer_add_preprocess sha256 conflicting (runCalls rt sha256 calls t) =
            (.error .duplicateKey, runCalls rt sha256 calls t)) ∧
    (∀ s t bytes calls call, writer_finalize sha256 s = (.ok bytes, t) →
      Fails (writerCall rt sha256 call) (runCalls rt sha256 calls t)) := by
  refine ⟨fun input => atomic_writer_add input, fun input => atomic_writer_add_preprocess input,
    ?_, ?_⟩
  · intro input s t calls hreachable hrun hopen
    have hsopen : s.memory.finalized = false := not_finalized_of_ok
      (congrArg Prod.fst (show writerCall rt sha256 (.add_preprocess input) s = _ from hrun))
    obtain ⟨record, hadds, hstart⟩ := (hreachable.openWriter hsopen).add_preprocess hrun
    have hend := hstart.runCalls calls hopen
    have hmem := hend.kept_subset mem_cons_self
    constructor
    · rw [writer_add_preprocess_found hend hopen hadds hmem rfl, if_pos rfl]
    · intro conflicting hdigest hconflict
      rw [← hadds.transcript, ← hadds.result] at hconflict
      rw [← hadds.transcript, ← hadds.ok.request_digest] at hdigest
      constructor
      · apply hend.fails_of_conflict hdigest
        rintro ⟨htranscript, hresult⟩
        exact hconflict ⟨htranscript.symm, hresult.symm⟩
      · intro other hother
        rw [hstart.compiler_eq, hstart.environment_eq] at hother
        have hsame : record.request_digest = other.request_digest := by
          rw [hother.ok.request_digest, hother.transcript, hdigest]
        rw [writer_add_preprocess_found hend hopen hother hmem hsame, if_neg]
        rintro rfl
        exact hconflict ⟨hother.transcript.symm, hother.result.symm⟩
  · intro s t bytes calls call hrun
    apply fails_writerCall
    apply finalized_runCalls
    have hfinalized := @finalized_writer_finalize sha256 s
    rw [hrun] at hfinalized
    exact hfinalized

/-- A record that is added twice, and one that disagrees with it, to a new writer. -/
theorem oracle_pack_writer_calls_are_atomic_sample : ∃ s t, Reachable .reference lengthDigest s ∧
      writer_add_preprocess lengthDigest ⟨view_bytes [2], view_bytes [3], sampleAuthority⟩ s =
        (.ok (), t) ∧
      writer_add_preprocess lengthDigest ⟨view_bytes [2], view_bytes [3], sampleAuthority⟩ t =
        (.ok (), t) ∧
      Fails (writer_add_preprocess lengthDigest
        ⟨view_bytes [2], view_bytes [4], sampleAuthority⟩) t := by
  have hcreate : writer_create sampleAuthority =
      .ok ⟨Vector.replicate 32 1, Vector.replicate 32 2, ⟨[], 0⟩, ⟨[], 0⟩, false⟩ := rfl
  have hreachable : Reachable .reference lengthDigest
      ⟨⟨Vector.replicate 32 1, Vector.replicate 32 2, ⟨[], 0⟩, ⟨[], 0⟩, false⟩, []⟩ :=
    ⟨_, _, [], [], hcreate, rfl⟩
  have hagain := (oracle_pack_writer_calls_are_atomic .reference lengthDigest).2.2.1
    ⟨view_bytes [2], view_bytes [3], sampleAuthority⟩ _ _ [] hreachable rfl rfl
  have hconflict := hagain.2 ⟨view_bytes [2], view_bytes [4], sampleAuthority⟩ rfl (by decide)
  exact ⟨_, _, hreachable, rfl, hagain.1, hconflict.1⟩

end

end PackWriter

end DXBCSandbox
