/-
The string set of the compile authority (`src/compiler/unity_compile_authority.c`).

The set is an open-addressing table of borrowed strings. It doubles before it is 70 percent full,
so a probe always comes to an empty slot, and a span is found exactly when a string with its bytes
was inserted. The set borrows the strings, and nothing here writes to them, so a slot is the string.

Whether an allocation succeeds is up to the world outside.
-/
import DXBCSandbox.Common.VariantKey
import DXBCSandbox.Lib.Fallible
import DXBCSandbox.Lib.LinearProbe

namespace DXBCSandbox

open List Option

inductive UnityCompileAuthorityStatus where
  | ok | invalidArgument | missingPreprocessContract | missingVariantFamilies
  | missingPlatformCapabilities | invalidKeywordIndex | ambiguousKeywordName | outOfMemory
  deriving DecidableEq

/-- Why a run gives no authority: a status, or a read of a null string or a loop without an end. -/
inductive AuthorityStop where
  | status (status : UnityCompileAuthorityStatus)
  | undefined
  deriving DecidableEq

structure StringSet where
  slots : List (Option CString)
  capacity : ℕ
  count : ℕ

inductive StringSetInsertResult where
  | error | present | inserted
  deriving DecidableEq

namespace CompileAuthority

open Fallible

abbrev AuthorityM (World : Type) := Fallible World AuthorityStop

variable {World : Type} (malloc : World → Bool × World)

/-- An allocation of `count` items of `size` bytes. -/
def allocate (count size : ℕ) : AuthorityM World Bool := fun world =>
  if SIZE_MAX / size < count then (.ok false, world)
  else
    let allocated := malloc world
    (.ok allocated.1, allocated.2)

def POINTER_SIZE : ℕ := 8

variable (value : Bytes)

def hash_span : UInt64 :=
  value.foldl (fun hash byte => (hash ^^^ byte.toUInt64) * 1099511628211) 1469598103934665603

def string_matches_span (string : Option CString) (value : Bytes) : Bool :=
  match string with
  | none => false
  | some string => string.bytes.length = value.length ∧ string.bytes = value

/-- The loop over the slots from a span's own slot on. -/
def probe_slots (slots : List (Option CString)) (capacity : ℕ) (stop : Option CString → Bool) :
    (fuel slot : ℕ) → Option ℕ
  | 0, _ => none
  | fuel + 1, slot =>
    match slots[slot]? with
    | none => none
    | some entry =>
      if stop entry then some slot
      else probe_slots slots capacity stop fuel ((slot + 1) &&& (capacity - 1))

def first_slot (capacity : ℕ) : ℕ :=
  (hash_span value).toNat &&& (capacity - 1)

/-- A probe that comes back to where it started never ends. -/
def find_slot (slots : List (Option CString)) (capacity : ℕ) (stop : Option CString → Bool)
    (value : Bytes) : AuthorityM World ℕ :=
  match probe_slots slots capacity stop capacity (first_slot value capacity) with
  | none => fail .undefined
  | some slot => pure slot

/-- The loop that doubles a capacity. Less than `fuel` rounds pass every `size_t`. -/
def doubled_capacity : (fuel capacity requested : ℕ) → Option ℕ
  | 0, _, _ => none
  | fuel + 1, capacity, requested =>
    if capacity < requested then
      if SIZE_MAX / 2 < capacity then none else doubled_capacity fuel (capacity * 2) requested
    else some capacity

def rehash_slot (capacity : ℕ) (slots : List (Option CString)) (value : Option CString) :
    AuthorityM World (List (Option CString)) :=
  match value with
  | none => pure slots
  | some value => do
    let slot ← find_slot slots capacity Option.isNone value.bytes
    pure (slots.set slot (some value))

def string_set_rehash (set : StringSet) (requested_capacity : ℕ) :
    AuthorityM World (Option StringSet) :=
  match doubled_capacity 64 16 requested_capacity with
  | none => pure none
  | some capacity => do
    let allocated ← allocate malloc capacity POINTER_SIZE
    if allocated then do
      let slots ← set.slots.foldlM (rehash_slot capacity) (List.replicate capacity none)
      pure (some { set with slots, capacity })
    else pure none

def string_set_reserve (set : StringSet) : AuthorityM World (Option StringSet) :=
  if set.capacity = 0 ∨ set.capacity * 7 % 2 ^ 64 / 10 < set.count + 1 then
    let requested := if set.capacity ≠ 0 then set.capacity * 2 % 2 ^ 64 else 16
    if requested < set.capacity then pure none else string_set_rehash malloc set requested
  else pure (some set)

def stops_at (entry : Option CString) : Bool :=
  entry.isNone || string_matches_span entry value

def string_set_insert_span (set : StringSet) (value : Bytes) (stored_value : CString) :
    AuthorityM World (StringSetInsertResult × StringSet) := do
  let reserved ← string_set_reserve malloc set
  match reserved with
  | none => pure (.error, set)
  | some set => do
    let slot ← find_slot set.slots set.capacity (stops_at value) value
    if string_matches_span (set.slots[slot]?.getD none) value then pure (.present, set)
    else
      pure (.inserted,
        { set with slots := set.slots.set slot (some stored_value), count := set.count + 1 })

def string_set_contains_span (set : StringSet) (value : Bytes) : AuthorityM World Bool :=
  if set.capacity = 0 then pure false
  else do
    let slot ← find_slot set.slots set.capacity (stops_at value) value
    pure (string_matches_span (set.slots[slot]?.getD none) value)

def emptySet : StringSet := ⟨[], 0, 0⟩

/-! ## Probes -/

def FailsWithStatus (stop : AuthorityStop) : Prop :=
  ∃ status : UnityCompileAuthorityStatus, status ≠ .ok ∧ stop = .status status

def spans (slots : List (Option CString)) : List (Option Bytes) :=
  slots.map (Option.map CString.bytes)

def keys (set : StringSet) : List Bytes := (spans set.slots).reduceOption

lemma length_spans (slots : List (Option CString)) : (spans slots).length = slots.length :=
  length_map _

lemma string_matches_span_iff {string : Option CString} {value : Bytes} :
    string_matches_span string value = true ↔ string.map CString.bytes = some value := by
  cases string with
  | none => simp [string_matches_span]
  | some string =>
    simp only [string_matches_span, decide_eq_true_eq, Option.map_some, some.injEq]
    exact ⟨And.right, fun h => ⟨congrArg length h, h⟩⟩

lemma stops_at_eq (entry : Option CString) :
    stops_at value entry = LinearProbe.stopsFor value (entry.map CString.bytes) := by
  cases entry with
  | none => rfl
  | some string =>
    rw [Bool.eq_iff_iff]
    simp [stops_at, LinearProbe.stopsFor, string_matches_span_iff]

section Probes

variable {slots : List (Option CString)} {capacity k : ℕ}

lemma first_slot_lt (hcap : capacity = 2 ^ k) (value : Bytes) :
    first_slot value capacity < capacity := by
  unfold first_slot
  rw [hcap, Nat.and_two_pow_sub_one_eq_mod]
  exact Nat.mod_lt _ (Nat.two_pow_pos k)

lemma probe_slots_eq (hcap : capacity = 2 ^ k) (hlen : slots.length = capacity)
    (stop : Option Bytes → Bool) (fuel slot : ℕ) :
    probe_slots slots capacity (fun entry => stop (entry.map CString.bytes)) fuel slot =
      LinearProbe.probe (spans slots) stop fuel slot := by
  rw [spans, LinearProbe.probe_map]
  induction fuel generalizing slot with
  | zero => rfl
  | succ fuel ih =>
    unfold probe_slots LinearProbe.probe
    cases slots[slot]? with
    | none => rfl
    | some entry =>
      dsimp only
      rw [ih, hlen, hcap, Nat.and_two_pow_sub_one_eq_mod]

lemma find_slot_of_probe (hcap : capacity = 2 ^ k) (hlen : slots.length = capacity)
    {stop : Option CString → Bool} {stopSpan : Option Bytes → Bool}
    (hstop : ∀ entry, stop entry = stopSpan (entry.map CString.bytes)) {value : Bytes}
    {slot : ℕ} (hprobe : LinearProbe.probe (spans slots) stopSpan (spans slots).length
      (first_slot value capacity) = some slot) :
    find_slot slots capacity stop value = (pure slot : AuthorityM World ℕ) := by
  have hsame : stop = fun entry => stopSpan (entry.map CString.bytes) := funext hstop
  rw [length_spans, hlen] at hprobe
  rw [find_slot, hsame, probe_slots_eq hcap hlen, hprobe]

end Probes

/-! ## The invariant -/

/-- Every string is filed where a probe finds it, and a table that is not empty has room. -/
structure SetInv (set : StringSet) : Prop where
  length : set.slots.length = set.capacity
  power : set.capacity = 0 ∨ ∃ k, set.capacity = 2 ^ (k + 4)
  capacity_le : set.capacity ≤ SIZE_MAX / POINTER_SIZE
  count : set.count = (keys set).length
  table : LinearProbe.Table (fun value => first_slot value set.capacity) (spans set.slots)
  load : set.count * 10 ≤ set.capacity * 7

lemma setInv_empty : SetInv emptySet := by
  refine ⟨rfl, .inl rfl, Nat.zero_le _, rfl, ?_, Nat.le_refl _⟩
  exact LinearProbe.table_empty (n := 0) fun _ h => absurd h (Nat.lt_irrefl 0)

lemma SetInv.nodup {set : StringSet} (h : SetInv set) : (keys set).Nodup := h.table.nodup

/-! ## Filing -/

lemma spans_cons (string : CString) (slots : List (Option CString)) :
    (spans (some string :: slots)).reduceOption = string.bytes :: (spans slots).reduceOption :=
  reduceOption_cons_of_some _ _

lemma spans_set (slots : List (Option CString)) (slot : ℕ) (string : CString) :
    spans (slots.set slot (some string)) = (spans slots).set slot (some string.bytes) := by
  rw [spans, spans, map_set, Option.map_some]

def Filed (capacity : ℕ) (slots : List (Option CString)) (value : Bytes)
    (slots' : List (Option CString)) : Prop :=
  slots'.length = capacity ∧
  LinearProbe.Table (fun value => first_slot value capacity) (spans slots') ∧
  (spans slots').reduceOption.Perm (value :: (spans slots).reduceOption)

variable {string : CString}

section Filing

variable {slots : List (Option CString)} {capacity k : ℕ}

/-- A string that is not there goes into the slot where the probe ends. -/
theorem exists_free_slot (hlen : slots.length = capacity)
    (htable : LinearProbe.Table (fun value => first_slot value capacity) (spans slots))
    (hload : (spans slots).reduceOption.length < capacity)
    (hnew : string.bytes ∉ (spans slots).reduceOption) :
    ∃ slot, LinearProbe.probe (spans slots) LinearProbe.stopsEmpty (spans slots).length
        (first_slot string.bytes capacity) = some slot ∧
      Filed capacity slots string.bytes (slots.set slot (some string)) := by
  obtain ⟨slot, hprobe, -, htable', hperm⟩ := htable.insert (k := string.bytes)
    (by rw [length_spans, hlen]; exact hload) hnew
  refine ⟨slot, hprobe, ?_, ?_, ?_⟩
  · rw [length_set, hlen]
  · rw [spans_set]
    exact htable'
  · rw [spans_set]
    exact hperm

lemma rehash_slot_ends (hcap : capacity = 2 ^ k) (hlen : slots.length = capacity)
    (htable : LinearProbe.Table (fun value => first_slot value capacity) (spans slots))
    (hload : (spans slots).reduceOption.length < capacity)
    (hnew : string.bytes ∉ (spans slots).reduceOption) :
    Ends FailsWithStatus (rehash_slot capacity slots (some string) : AuthorityM World _)
      (Filed capacity slots string.bytes) := by
  obtain ⟨slot, hprobe, hfiled⟩ := exists_free_slot hlen htable hload hnew
  have hstop : ∀ entry : Option CString,
      entry.isNone = LinearProbe.stopsEmpty (entry.map CString.bytes) := by
    intro entry
    cases entry <;> rfl
  unfold rehash_slot
  dsimp only
  rw [find_slot_of_probe hcap hlen hstop hprobe]
  exact .pure hfiled

end Filing

/-! ## Operations -/

section Operations

variable {set : StringSet}

lemma allocate_ends (count size : ℕ) : Ends FailsWithStatus (allocate malloc count size)
      fun allocated => allocated = true → count ≤ SIZE_MAX / size := by
  constructor
  · intro world allocated world' hrun halloc
    by_contra hlarge
    rw [allocate, if_pos (Nat.lt_of_not_le hlarge)] at hrun
    cases hrun
    nomatch halloc
  · intro world stop world' hrun
    unfold allocate at hrun
    split at hrun
    · nomatch hrun
    · nomatch hrun

lemma doubled_capacity_spec {fuel requested j capacity : ℕ}
    (h : doubled_capacity fuel (2 ^ j) requested = some capacity) :
    requested ≤ capacity ∧ ∃ i, capacity = 2 ^ (i + j) := by
  induction fuel generalizing j with
  | zero => nomatch h
  | succ fuel ih =>
    unfold doubled_capacity at h
    by_cases hsmall : 2 ^ j < requested
    · rw [if_pos hsmall] at h
      split at h
      · nomatch h
      · rw [← Nat.pow_succ] at h
        obtain ⟨hle, i, hi⟩ := ih h
        exact ⟨hle, i + 1, by rw [hi]; congr 1; omega⟩
    · rw [if_neg hsmall] at h
      cases h
      exact ⟨Nat.le_of_not_lt hsmall, 0, by rw [Nat.zero_add]⟩

lemma string_set_rehash_ends (h : SetInv set) {requested : ℕ} (hmore : set.count < requested)
    (hroom : set.count * 10 ≤ requested * 7) :
    Ends FailsWithStatus (string_set_rehash malloc set requested) fun result =>
      ∀ set', result = some set' → SetInv set' ∧ (keys set').Perm (keys set) ∧
        set'.count = set.count ∧ requested ≤ set'.capacity := by
  unfold string_set_rehash
  cases hdoubled : doubled_capacity 64 16 requested with
  | none => exact .pure nofun
  | some capacity =>
    obtain ⟨hrequested, i, hcap⟩ := doubled_capacity_spec (j := 4) hdoubled
    have hcnt := h.count
    apply Ends.bind (allocate_ends malloc capacity POINTER_SIZE)
    intro allocated halloc
    refine .ite (fun hyes => ?_) fun _ => .pure nofun
    -- The part of the old table that is done, filed in the new one.
    refine .bind (Q := fun slots => slots.length = capacity ∧
      LinearProbe.Table (fun value => first_slot value capacity) (spans slots) ∧
      (spans slots).reduceOption.Perm (keys set)) ?_ ?_
    · refine Ends.foldlM (I := fun done slots => slots.length = capacity ∧
        LinearProbe.Table (fun value => first_slot value capacity) (spans slots) ∧
        (spans slots).reduceOption.Perm (spans done).reduceOption) ⟨?_, ?_, ?_⟩ ?_
      · exact length_replicate
      · rw [spans, map_replicate]
        exact LinearProbe.table_empty fun value _ => first_slot_lt hcap value
      · rw [spans, map_replicate, map_none, reduceOption_replicate_none]
        exact .refl _
      · rintro done entry ⟨rest, hslots⟩ slots ⟨hlen, htable, hperm⟩
        have hkeys : keys set = (spans done).reduceOption ++
            (spans (entry :: rest)).reduceOption := by
          rw [keys, hslots, spans, map_append, reduceOption_append]
          rfl
        have hsnoc : (spans (done ++ [entry])).reduceOption = (spans done).reduceOption ++
            [entry.map CString.bytes].reduceOption := by
          rw [spans, map_append, reduceOption_append]
          rfl
        cases entry with
        | none =>
          refine .pure ⟨hlen, htable, ?_⟩
          rw [hsnoc, map_none, reduceOption_cons_of_none]
          simpa using hperm
        | some string =>
          rw [spans_cons] at hkeys
          have hnodup := h.nodup
          rw [hkeys] at hnodup
          have hnew : string.bytes ∉ (spans slots).reduceOption := by
            rw [hperm.mem_iff]
            exact fun hmem => disjoint_of_nodup_append hnodup hmem mem_cons_self
          have hload : (spans slots).reduceOption.length < capacity := by
            have hlen' := congrArg length hkeys
            rw [length_append, length_cons] at hlen'
            rw [hperm.length_eq]
            omega
          refine (rehash_slot_ends hcap hlen htable hload hnew).mono ?_
          rintro slots' ⟨hlen', htable', hperm'⟩
          refine ⟨hlen', htable', ?_⟩
          rw [hsnoc, Option.map_some, reduceOption_cons_of_some]
          exact hperm'.trans ((hperm.cons _).trans (perm_append_singleton _ _).symm)
    · rintro slots ⟨hlen, htable, hperm⟩
      refine .pure fun set' hset' => ?_
      obtain rfl := (some.inj hset').symm
      have hlength_keys := hperm.length_eq
      refine ⟨⟨hlen, .inr ⟨i, hcap⟩, halloc hyes, ?_, htable, ?_⟩, hperm, rfl, hrequested⟩
      · show set.count = (spans slots).reduceOption.length
        omega
      · show set.count * 10 ≤ capacity * 7
        omega

lemma string_set_reserve_ends (h : SetInv set) :
    Ends FailsWithStatus (string_set_reserve malloc set) fun result =>
      ∀ set', result = some set' → SetInv set' ∧ (keys set').Perm (keys set) ∧
        (set'.count + 1) * 10 ≤ set'.capacity * 7 := by
  have hcapacity_le : set.capacity ≤ 2305843009213693951 := h.capacity_le
  have hload := h.load
  have hdouble : set.capacity * 2 % 2 ^ 64 = set.capacity * 2 := Nat.mod_eq_of_lt (by omega)
  have hscaled : set.capacity * 7 % 2 ^ 64 = set.capacity * 7 := Nat.mod_eq_of_lt (by omega)
  have hleast : set.capacity ≠ 0 → 16 ≤ set.capacity := by
    intro hne
    obtain ⟨k, hk⟩ := h.power.resolve_left hne
    rw [hk]
    have hsixteen : 2 ^ 4 ≤ 2 ^ (k + 4) := Nat.pow_le_pow_right (by decide) (by omega)
    exact hsixteen
  unfold string_set_reserve
  rw [hdouble, hscaled]
  refine .ite (fun hfull => ?_) fun hroom => .pure fun set' hset' => ?_
  · refine .ite (fun _ => .pure nofun) fun _ => ?_
    have hrequested : set.count < (if set.capacity ≠ 0 then set.capacity * 2 else 16) ∧
        (set.count + 1) * 10 ≤ (if set.capacity ≠ 0 then set.capacity * 2 else 16) * 7 := by
      split
      next hne =>
        have hsixteen := hleast hne
        omega
      next hzero =>
        omega
    refine (string_set_rehash_ends malloc h hrequested.1 (by omega)).mono ?_
    intro result hres set' hset'
    obtain ⟨hinv, hperm, hcnt, hcap⟩ := hres set' hset'
    exact ⟨hinv, hperm, by omega⟩
  · obtain rfl := some.inj hset'
    exact ⟨h, .refl _, by omega⟩

/-- The probe for a span ends, and it ends at the span exactly when the span is in the set. -/
theorem find_slot_ends (h : SetInv set) (hroom : set.count < set.capacity) (value : Bytes) :
    Ends FailsWithStatus (find_slot set.slots set.capacity (stops_at value) value : AuthorityM World ℕ)
      fun slot => (string_matches_span (set.slots[slot]?.getD none) value = true ↔
        value ∈ keys set) ∧
        ∀ string : CString, string.bytes = value → value ∉ keys set →
          Filed set.capacity set.slots value (set.slots.set slot (some string)) := by
  have hcap : ∃ k, set.capacity = 2 ^ k := by
    obtain ⟨k, hk⟩ := h.power.resolve_left (by omega)
    exact ⟨k + 4, hk⟩
  obtain ⟨k, hcap⟩ := hcap
  have hload : (spans set.slots).reduceOption.length < set.capacity := by
    rw [← show set.count = (spans set.slots).reduceOption.length from h.count]
    exact hroom
  obtain ⟨slot, hprobe, hfound⟩ := h.table.lookup
    (by rw [length_spans, h.length]; exact hload) value
  rw [find_slot_of_probe hcap h.length (stops_at_eq value) hprobe]
  refine .pure ⟨?_, ?_⟩
  · rw [keys, ← hfound, string_matches_span_iff, spans, getElem?_map]
    cases set.slots[slot]? with
    | none => simp
    | some entry => simp
  · rintro string rfl hnew
    obtain ⟨slot', hprobe', hfiled⟩ := exists_free_slot h.length h.table hload hnew
    rw [LinearProbe.probe_of_notMem hnew, hprobe'] at hprobe
    obtain rfl := some.inj hprobe
    exact hfiled

def Inserted (set : StringSet) (value : Bytes) : StringSetInsertResult × StringSet → Prop
  | (.error, _) => True
  | (.present, set') => value ∈ keys set ∧ SetInv set' ∧ (keys set').Perm (keys set)
  | (.inserted, set') => value ∉ keys set ∧ SetInv set' ∧ (keys set').Perm (value :: keys set)

/-- **Insertion** adds a span that is not there, and says so. -/
theorem string_set_insert_span_ends (h : SetInv set) {value : Bytes}
    (hstring : string.bytes = value) :
    Ends FailsWithStatus (string_set_insert_span malloc set value string) (Inserted set value) := by
  unfold string_set_insert_span
  apply Ends.bind (string_set_reserve_ends malloc h)
  intro reserved hresv
  cases reserved with
  | none => exact .pure trivial
  | some set' =>
    obtain ⟨hinv, hperm, hroom⟩ := hresv set' rfl
    apply Ends.bind (find_slot_ends hinv (by omega) value)
    rintro slot ⟨hmatch, hfree⟩
    rw [hperm.mem_iff] at hmatch hfree
    refine .ite (fun hpres => .pure ⟨hmatch.mp hpres, hinv, hperm⟩) fun habsent => ?_
    have hnew : value ∉ keys set := fun hmem => habsent (hmatch.mpr hmem)
    obtain ⟨hlen, htable, hfiled⟩ := hfree string hstring hnew
    have hcnt := hinv.count
    have hlength_keys := hfiled.length_eq
    rw [length_cons, show (spans set'.slots).reduceOption.length = set'.count from
      hcnt.symm] at hlength_keys
    exact .pure ⟨hnew, ⟨hlen, hinv.power, hinv.capacity_le, hlength_keys.symm, htable, hroom⟩,
      hfiled.trans (hperm.cons value)⟩

lemma string_set_contains_span_ends (h : SetInv set) (value : Bytes) :
    Ends FailsWithStatus (string_set_contains_span set value : AuthorityM World Bool)
      fun found => found = true ↔ value ∈ keys set := by
  unfold string_set_contains_span
  have hcnt := h.count
  have hload := h.load
  refine .ite (fun hempty => .pure ?_) fun hsome => ?_
  · have hnone : keys set = [] := length_eq_zero_iff.mp (by omega)
    rw [hnone]
    simp
  · apply Ends.bind (find_slot_ends h (by omega) value)
    rintro slot ⟨hmatch, -⟩
    exact .pure hmatch

end Operations

end CompileAuthority

end DXBCSandbox
