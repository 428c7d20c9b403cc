/-
The source window is exact.

The table is seen through its slots: a record of the current epoch is a key, every other record an
empty slot. So a clear empties all slots at once, and the table is an instance of linear probing.

What the window is for is said without the table ([`recordedSources`]): a call forgets the sources
or adds the one it was given, as its own data and the report of the recording say. The invariant
ties the keys to these sources, and every call keeps it.
-/
import DXBCSandbox.Compiler.Broker
import DXBCSandbox.Lib.LinearProbe
import DXBCSandbox.Lib.Loops

namespace DXBCSandbox

open List Option

namespace Broker

open LinearProbe

abbrev SourceKey := SourceDigest × ℕ

/-- A record of the epoch is taken, every other slot is empty. -/
def slotOf (epoch : ℕ) (record : BrokerSourceRecord) : Option SourceKey :=
  if record.epoch = epoch then some (record.digest, record.size) else none

def slotsOf (records : List BrokerSourceRecord) (epoch : ℕ) : List (Option SourceKey) :=
  records.map (slotOf epoch)

def homeOf (capacity : ℕ) (key : SourceKey) : ℕ := source_record_slot key.1 key.2 capacity

def keysOf (records : List BrokerSourceRecord) (epoch : ℕ) : List SourceKey :=
  (slotsOf records epoch).reduceOption

@[simp] lemma length_slotsOf (records : List BrokerSourceRecord) (epoch : ℕ) :
    (slotsOf records epoch).length = records.length := length_map _

/-! ## The loops are probes -/

section Loops

variable {records : List BrokerSourceRecord} {capacity epoch k : ℕ}

lemma next_slot (hcap : capacity = 2 ^ k) (slot : ℕ) :
    (slot + 1) &&& (capacity - 1) = (slot + 1) % capacity := by
  rw [hcap, Nat.and_two_pow_sub_one_eq_mod]

lemma homeOf_lt (hcap : capacity = 2 ^ k) (key : SourceKey) : homeOf capacity key < capacity := by
  unfold homeOf source_record_slot
  dsimp only
  rw [hcap, Nat.and_two_pow_sub_one_eq_mod]
  exact Nat.mod_lt _ (Nat.two_pow_pos k)

lemma probe_free_eq (hcap : capacity = 2 ^ k) (hlen : records.length = capacity)
    (fuel slot : ℕ) : probe_free records capacity epoch fuel slot =
      probe (slotsOf records epoch) stopsEmpty fuel slot := by
  rw [slotsOf, probe_map]
  induction fuel generalizing slot with
  | zero => rfl
  | succ fuel ih =>
    unfold probe_free probe
    cases records[slot]? with
    | none => rfl
    | some record =>
      dsimp only
      by_cases hlive : record.epoch = epoch
      · rw [if_pos hlive, if_neg (by simp [stopsEmpty, slotOf, hlive]), ih, next_slot hcap, hlen]
      · rw [if_neg hlive, if_pos (by simp [stopsEmpty, slotOf, hlive])]

lemma find_record_eq {broker : UnityCompilerBroker} (hcap : broker.source_record_capacity = 2 ^ k)
    (hlen : broker.source_records.length = broker.source_record_capacity)
    (digest : SourceDigest) (size fuel slot : ℕ) :
    find_record broker digest size fuel slot =
      (probe (slotsOf broker.source_records broker.source_record_epoch)
        (stopsFor (digest, size)) fuel slot).map fun i =>
          decide ((slotsOf broker.source_records broker.source_record_epoch)[i]? =
            some (some (digest, size))) := by
  rw [slotsOf, probe_map]
  induction fuel generalizing slot with
  | zero => rfl
  | succ fuel ih =>
    unfold find_record probe
    cases hrec : broker.source_records[slot]? with
    | none => rfl
    | some record =>
      dsimp only
      by_cases hlive : record.epoch = broker.source_record_epoch
      · rw [if_neg (not_not.mpr hlive)]
        by_cases hkey : record.size = size ∧ record.digest = digest
        · rw [if_pos hkey, if_pos (by simp [stopsFor, slotOf, hlive, hkey])]
          simp [hrec, slotOf, hlive, hkey]
        · have hne : ¬ (record.digest = digest ∧ record.size = size) := fun h => hkey h.symm
          rw [if_neg hkey, if_neg (by simp [stopsFor, slotOf, hlive, hne]), ih,
            next_slot hcap, hlen]
      · rw [if_pos hlive, if_pos (by simp [stopsFor, slotOf, hlive])]
        simp [hrec, slotOf, hlive]

end Loops

/-! ## The table -/

structure TableInv (records : List BrokerSourceRecord) (capacity epoch : ℕ) : Prop where
  length : records.length = capacity
  power : capacity = 0 ∨ ∃ k, capacity = 2 ^ (k + 6)
  capacity_le : capacity ≤ SIZE_MAX / sizeofRecord
  epoch_pos : 0 < epoch
  epoch_lt : epoch < 2 ^ 64
  epochs : ∀ record ∈ records, record.epoch ≤ epoch
  table : Table (homeOf capacity) (slotsOf records epoch)
  load : 4 * (keysOf records epoch).length ≤ 3 * capacity

section Table

variable {records : List BrokerSourceRecord} {capacity epoch : ℕ}

lemma slotsOf_set (i : ℕ) (key : SourceKey) :
    slotsOf (records.set i ⟨key.1, key.2, epoch⟩) epoch =
      (slotsOf records epoch).set i (some key) := by
  rw [slotsOf, slotsOf, map_set, slotOf, if_pos rfl]

lemma insert_spec {k : ℕ} (hcap : capacity = 2 ^ k) (hlen : records.length = capacity)
    (htable : Table (homeOf capacity) (slotsOf records epoch))
    (hepochs : ∀ record ∈ records, record.epoch ≤ epoch)
    (hload : (keysOf records epoch).length < capacity) {key : SourceKey}
    (hnew : key ∉ keysOf records epoch) :
    ∃ records', source_record_insert_unchecked records capacity epoch key.1 key.2 = some records' ∧
      records'.length = capacity ∧ (∀ record ∈ records', record.epoch ≤ epoch) ∧
      Table (homeOf capacity) (slotsOf records' epoch) ∧
      (keysOf records' epoch).Perm (key :: keysOf records epoch) := by
  obtain ⟨i, hprobe, hi, htable', hperm⟩ := htable.insert (k := key)
    (by rw [length_slotsOf, hlen]; exact hload) hnew
  rw [length_slotsOf, hlen] at hprobe
  refine ⟨records.set i ⟨key.1, key.2, epoch⟩, ?_, ?_, ?_, ?_, ?_⟩
  · unfold source_record_insert_unchecked
    rw [probe_free_eq hcap hlen]
    exact bind_eq_some_iff.mpr ⟨i, hprobe, rfl⟩
  · rw [length_set]
    exact hlen
  · intro record hrec
    rcases mem_or_eq_of_mem_set hrec with hold | rfl
    · exact hepochs record hold
    · exact Nat.le_refl epoch
  · rw [slotsOf_set]
    exact htable'
  · rw [keysOf, slotsOf_set]
    exact hperm

lemma slotsOf_zero (hepoch : 0 < epoch) (n : ℕ) :
    slotsOf (List.replicate n zeroRecord) epoch = List.replicate n none := by
  rw [slotsOf, map_replicate]
  congr 1
  exact if_neg (Nat.ne_of_lt hepoch)

lemma keysOf_append (front back : List BrokerSourceRecord) :
    keysOf (front ++ back) epoch = keysOf front epoch ++ keysOf back epoch := by
  rw [keysOf, slotsOf, map_append, reduceOption_append]
  rfl

variable {record : BrokerSourceRecord}

lemma keysOf_singleton_live (h : record.epoch = epoch) :
    keysOf [record] epoch = [(record.digest, record.size)] := by
  rw [keysOf, slotsOf, map_singleton, slotOf, if_pos h]
  rfl

lemma keysOf_singleton_stale (h : ¬ record.epoch = epoch) : keysOf [record] epoch = [] := by
  rw [keysOf, slotsOf, map_singleton, slotOf, if_neg h]
  rfl

lemma rehash_spec {k : ℕ} {larger : ℕ} (hlarger : larger = 2 ^ k) (hepoch : 0 < epoch)
    (hnodup : (keysOf records epoch).Nodup) (hload : (keysOf records epoch).length < larger) :
    ∃ records', records.foldlM (fun records old =>
        if old.epoch = epoch then
          source_record_insert_unchecked records larger epoch old.digest old.size
        else pure records) (List.replicate larger zeroRecord) = some records' ∧
      records'.length = larger ∧ (∀ record ∈ records', record.epoch ≤ epoch) ∧
      Table (homeOf larger) (slotsOf records' epoch) ∧
      (keysOf records' epoch).Perm (keysOf records epoch) := by
  -- The new table has the keys of the records that are done.
  apply foldlM_list_inv records (fun done table => table.length = larger ∧
    (∀ record ∈ table, record.epoch ≤ epoch) ∧ Table (homeOf larger) (slotsOf table epoch) ∧
    (keysOf table epoch).Perm (keysOf done epoch))
  · refine ⟨length_replicate, ?_, ?_, ?_⟩
    · intro record hrec
      rw [eq_of_mem_replicate hrec]
      exact Nat.zero_le epoch
    · rw [slotsOf_zero hepoch]
      exact table_empty fun key _ => homeOf_lt hlarger key
    · rw [keysOf, slotsOf_zero hepoch, reduceOption_replicate_none]
      exact List.Perm.refl []
  · intro done old rest table hspl ⟨hlen, hepochs, htable, hperm⟩
    by_cases hlive : old.epoch = epoch
    · rw [if_pos hlive]
      rw [hspl, keysOf_append, ← singleton_append, keysOf_append,
        keysOf_singleton_live hlive] at hnodup hload
      have hnew : (old.digest, old.size) ∉ keysOf table epoch := by
        rw [hperm.mem_iff]
        intro hmem
        exact (nodup_append.mp hnodup).2.2 _ hmem _ mem_cons_self rfl
      have hroom : (keysOf table epoch).length < larger := by
        rw [hperm.length_eq]
        simp only [length_append, length_cons] at hload
        omega
      obtain ⟨table', hinsert, hlen', hepochs', htable', hperm'⟩ :=
        insert_spec hlarger hlen htable hepochs hroom hnew
      refine ⟨table', hinsert, hlen', hepochs', htable', ?_⟩
      rw [keysOf_append, keysOf_singleton_live hlive]
      exact hperm'.trans ((hperm.cons _).trans (perm_append_singleton _ _).symm)
    · rw [if_neg hlive]
      refine ⟨table, rfl, hlen, hepochs, htable, ?_⟩
      rw [keysOf_append, keysOf_singleton_stale hlive, append_nil]
      exact hperm

end Table

/-! ## The recorded sources -/

section Recorded

variable (common_sha256 : Bytes → SourceDigest) (sources : List CString)

def sizeOfSources : ℕ := (sources.map fun source => source.bytes.length).sum

/-- A source is recorded once. Without a budget, and without a source, nothing is. -/
def submit (budget : ℕ) : Option CString → List CString
  | none => sources
  | some source => if budget = 0 ∨ source ∈ sources then sources else sources ++ [source]

/-- Whether the recording of the transaction's source is reported as a success. -/
def reportsSuccess (broker : UnityCompilerBroker) (outcome : BrokerOutcome)
    (source : Option CString) : Bool :=
  (source_window_record_locked common_sha256 outcome.calloc_succeeds
    (notice_process broker.channel.process_id { broker with channel := outcome.channel })
    source).any (·.1)

/-- The sources after a transaction. They are forgotten with the process that was given them, and
where the recording fails, unless its process cannot be recycled. -/
def afterTransaction (broker : UnityCompilerBroker) (outcome : BrokerOutcome)
    (source : Option CString) : List CString :=
  let process_after := outcome.channel.process_id
  let budget := broker.source_residency_budget_bytes
  let sources :=
    if process_changed broker.channel.process_id process_after then [] else sources
  if reportsSuccess common_sha256 broker outcome source then
    let sources := submit sources budget source
    if 0 < process_after ∧ outcome.recycle_succeeds ∧
        unity_compiler_broker_source_window_requires_recycle budget (sizeOfSources sources)
          sources.length then []
    else sources
  else if 0 < process_after ∧ ¬ outcome.recycle_succeeds then sources else []

def afterEvent (broker : UnityCompilerBroker) : BrokerEvent → List CString
  | .transaction outcome source => afterTransaction common_sha256 sources broker outcome source
  | .setBudget outcome budget_bytes =>
    if broker.source_residency_budget_bytes = budget_bytes ∨
      (hasProcess broker.channel ∧ ¬ outcome.recycle_succeeds) then sources else []
  | .recycle outcome => if outcome.recycle_succeeds then [] else sources
  | .other _ => sources

/-- The distinct sources that were recorded since the last clear. -/
def recordedSources : List BrokerEvent → UnityCompilerBroker → List CString → List CString
  | [], _, sources => sources
  | event :: events, broker, sources =>
    match step common_sha256 broker event with
    | some broker' =>
      recordedSources events broker' (afterEvent common_sha256 sources broker event)
    | none => sources

end Recorded

/-! ## The window -/

variable (common_sha256 : Bytes → SourceDigest)

def keyOf (source : CString) : SourceKey := (common_sha256 source.bytes, source.bytes.length)

/-- The table has exactly the given sources, and the counters say how many there are and how large
they are. -/
structure WindowInv (records : List BrokerSourceRecord) (capacity epoch count bytes : ℕ)
    (sources : List CString) : Prop extends TableInv records capacity epoch where
  distinct : sources.Nodup
  keys : (keysOf records epoch).Perm (sources.map (keyOf common_sha256))
  count_eq : count = sources.length
  bytes_eq : bytes = sizeOfSources sources

def Inv (broker : UnityCompilerBroker) (sources : List CString) : Prop :=
  WindowInv common_sha256 broker.source_records broker.source_record_capacity
    broker.source_record_epoch broker.source_record_count broker.tracked_source_window_bytes
    sources

variable {common_sha256}

lemma Inv.create (channel : UnityCompilerChannel) :
    Inv common_sha256 (unity_compiler_broker_create channel) [] where
  length := rfl
  power := .inl rfl
  capacity_le := Nat.zero_le _
  epoch_pos := Nat.one_pos
  epoch_lt := show 1 < 2 ^ 64 by decide
  epochs := nofun
  table := table_empty (n := 0) fun _ h => absurd h (Nat.lt_irrefl 0)
  load := Nat.le_refl 0
  distinct := nodup_nil
  keys := List.Perm.refl []
  count_eq := rfl
  bytes_eq := rfl

variable {records : List BrokerSourceRecord} {epoch : ℕ}

lemma slotsOf_of_lt (h : ∀ record ∈ records, record.epoch < epoch) :
    slotsOf records epoch = List.replicate records.length none := by
  rw [slotsOf, eq_replicate_iff]
  refine ⟨length_map _, fun o ho => ?_⟩
  obtain ⟨record, hrec, rfl⟩ := mem_map.mp ho
  exact if_neg (Nat.ne_of_lt (h record hrec))

variable {capacity : ℕ}

lemma clear_records (h : TableInv records capacity epoch) {records' : List BrokerSourceRecord}
    {epoch' : ℕ} (hlen : records'.length = records.length) (hpos : 0 < epoch')
    (hlt : epoch' < 2 ^ 64) (hstale : ∀ record ∈ records', record.epoch < epoch') :
    TableInv records' capacity epoch' ∧ keysOf records' epoch' = [] := by
  have hslots := slotsOf_of_lt hstale
  have hkeys : keysOf records' epoch' = [] := by
    rw [keysOf, hslots, reduceOption_replicate_none]
  refine ⟨⟨hlen.trans h.length, h.power, h.capacity_le, hpos, hlt, ?_, ?_, ?_⟩, hkeys⟩
  · exact fun record hrec => Nat.le_of_lt (hstale record hrec)
  · rw [hslots]
    apply table_empty
    intro key hcap
    rw [hlen, h.length] at hcap ⊢
    rcases h.power with hzero | ⟨k, hk⟩
    · omega
    · exact homeOf_lt hk key
  · rw [hkeys]
    exact Nat.zero_le _

variable {broker : UnityCompilerBroker} {sources : List CString}
  (h : Inv common_sha256 broker sources)

include h in
lemma Inv.clear : Inv common_sha256 (source_window_clear_locked broker) [] := by
  have hlt := h.epoch_lt
  obtain ⟨htable, hkeys⟩ : TableInv (source_window_clear_locked broker).source_records
      broker.source_record_capacity (source_window_clear_locked broker).source_record_epoch ∧
      keysOf (source_window_clear_locked broker).source_records
        (source_window_clear_locked broker).source_record_epoch = [] := by
    unfold source_window_clear_locked
    dsimp only
    -- Only the last epoch wraps around, and then the table is wiped.
    by_cases hwrap : (broker.source_record_epoch + 1) % 2 ^ 64 = 0
    · rw [if_pos hwrap, if_pos hwrap]
      apply clear_records h.toTableInv length_replicate Nat.one_pos (by decide)
      intro record hrec
      rw [eq_of_mem_replicate hrec]
      exact Nat.one_pos
    · rw [if_neg hwrap, if_neg hwrap]
      have hnext : (broker.source_record_epoch + 1) % 2 ^ 64 = broker.source_record_epoch + 1 := by
        omega
      rw [hnext]
      apply clear_records h.toTableInv rfl (Nat.succ_pos _) (by omega)
      exact fun record hrec => Nat.lt_succ_of_le (h.epochs record hrec)
  exact ⟨htable, nodup_nil, by rw [hkeys]; rfl, rfl, rfl⟩

/-! ## Recording a source -/

lemma TableInv.load_lt (h : TableInv records capacity epoch) (hpos : 0 < capacity) :
    (keysOf records epoch).length < capacity := by
  have := h.load
  omega

lemma source_is_recorded_eq
    (h : TableInv broker.source_records broker.source_record_capacity broker.source_record_epoch)
    (key : SourceKey) : source_is_recorded broker key.1 key.2 =
      some (decide (key ∈ keysOf broker.source_records broker.source_record_epoch)) := by
  unfold source_is_recorded
  rcases h.power with hzero | ⟨k, hk⟩
  · have hnone : broker.source_records = [] := by
      rw [← length_eq_zero_iff, h.length, hzero]
    rw [if_neg (by omega), hnone]
    rfl
  · have hpos : 0 < broker.source_record_capacity := by
      rw [hk]
      exact Nat.two_pow_pos _
    have hload := h.load_lt hpos
    obtain ⟨i, hprobe, hfound⟩ := h.table.lookup (by rw [length_slotsOf, h.length]; exact hload) key
    rw [length_slotsOf, h.length] at hprobe
    rw [if_pos hpos, find_record_eq hk h.length]
    refine map_eq_some_iff.mpr ⟨i, hprobe, ?_⟩
    exact decide_eq_decide.mpr hfound

/-- The fields that a growth of the table leaves alone. -/
structure SameWindow (broker broker' : UnityCompilerBroker) : Prop where
  channel : broker'.channel = broker.channel
  budget : broker'.source_residency_budget_bytes = broker.source_residency_budget_bytes
  bytes : broker'.tracked_source_window_bytes = broker.tracked_source_window_bytes
  count : broker'.source_record_count = broker.source_record_count

lemma SameWindow.refl (broker : UnityCompilerBroker) : SameWindow broker broker :=
  ⟨rfl, rfl, rfl, rfl⟩

lemma WindowInv.count_keys {count bytes : ℕ}
    (h : WindowInv common_sha256 records capacity epoch count bytes sources) :
    (keysOf records epoch).length = count := by
  rw [h.keys.length_eq, length_map, h.count_eq]

lemma next_capacity (hpower : capacity = 0 ∨ ∃ k, capacity = 2 ^ (k + 6))
    (hle : capacity ≤ SIZE_MAX / sizeofRecord) :
    ∃ k, (if capacity ≠ 0 then capacity * 2 % 2 ^ 64 else 64) = 2 ^ (k + 6) ∧
      2 * capacity ≤ 2 ^ (k + 6) := by
  rcases hpower with rfl | ⟨k, hk⟩
  · exact ⟨0, rfl, by decide⟩
  · have hpos := Nat.two_pow_pos (k + 6)
    have hsmall : capacity * 2 < 2 ^ 64 := by
      unfold SIZE_MAX sizeofRecord at hle
      omega
    have hdouble : 2 ^ (k + 1 + 6) = 2 * 2 ^ (k + 6) := by
      rw [show k + 1 + 6 = (k + 6) + 1 by omega, Nat.pow_succ, Nat.mul_comm]
    refine ⟨k + 1, ?_, ?_⟩
    · rw [if_pos (by omega), Nat.mod_eq_of_lt hsmall, hk, hdouble, Nat.mul_comm]
    · rw [hk, hdouble]

include h

lemma grow_spec (calloc_succeeds : Bool) : ∃ grown broker',
      source_record_grow_locked calloc_succeeds broker = some (grown, broker') ∧
      Inv common_sha256 broker' sources ∧ SameWindow broker broker' ∧
      (grown = true → 64 ≤ broker'.source_record_capacity ∧
        2 * broker.source_record_capacity ≤ broker'.source_record_capacity) := by
  obtain ⟨k, hcap, hdouble⟩ := next_capacity h.power h.capacity_le
  have hpow : 2 ^ 6 ≤ 2 ^ (k + 6) := Nat.pow_le_pow_right (by decide) (Nat.le_add_left 6 k)
  have hload := h.load
  unfold source_record_grow_locked
  dsimp only
  rw [hcap]
  by_cases hlarge : 2 ^ (k + 6) < broker.source_record_capacity ∨
      SIZE_MAX / sizeofRecord < 2 ^ (k + 6)
  · rw [if_pos hlarge]
    exact ⟨false, broker, rfl, h, SameWindow.refl broker, fun hfalse => by cases hfalse⟩
  · rw [if_neg hlarge]
    by_cases hcalloc : calloc_succeeds = true
    · rw [if_neg (not_not.mpr hcalloc)]
      obtain ⟨records, hrehash, hlen, hepochs, htable, hperm⟩ :=
        rehash_spec (k := k + 6) rfl h.epoch_pos h.table.nodup (by omega)
      have htable' : TableInv records (2 ^ (k + 6)) broker.source_record_epoch := by
        refine ⟨hlen, .inr ⟨k, rfl⟩, by omega, h.epoch_pos, h.epoch_lt, hepochs, htable, ?_⟩
        rw [hperm.length_eq]
        omega
      exact ⟨true, _, bind_eq_some_iff.mpr ⟨records, hrehash, rfl⟩,
        ⟨htable', h.distinct, hperm.trans h.keys, h.count_eq, h.bytes_eq⟩, ⟨rfl, rfl, rfl, rfl⟩,
        fun _ => ⟨hpow, hdouble⟩⟩
    · rw [if_pos hcalloc]
      exact ⟨false, broker, rfl, h, SameWindow.refl broker, fun hfalse => by cases hfalse⟩

lemma reserve_spec (calloc_succeeds : Bool) : ∃ reserved broker',
      reserve_record calloc_succeeds broker = some (reserved, broker') ∧
      Inv common_sha256 broker' sources ∧ SameWindow broker broker' ∧
      (reserved = true → 0 < broker'.source_record_capacity ∧
        4 * (broker.source_record_count + 1) ≤ 3 * broker'.source_record_capacity) := by
  have hcnt := h.count_keys
  have hload := h.load
  unfold reserve_record
  by_cases hfull : broker.source_record_capacity = 0 ∨
      broker.source_record_capacity - broker.source_record_capacity / 4 <
        broker.source_record_count + 1
  · rw [if_pos hfull]
    obtain ⟨grown, broker', hgrow, hinv, hsame, hroom⟩ := grow_spec h calloc_succeeds
    refine ⟨grown, broker', hgrow, hinv, hsame, fun hgrown => ?_⟩
    obtain ⟨hleast, hdouble⟩ := hroom hgrown
    omega
  · rw [if_neg hfull]
    refine ⟨true, broker, rfl, h, SameWindow.refl broker, fun _ => ?_⟩
    -- The capacity is a multiple of four, so a quarter of it is exact.
    obtain ⟨k, hk⟩ : ∃ k, broker.source_record_capacity = 2 ^ (k + 6) :=
      h.power.resolve_left fun hzero => hfull (.inl hzero)
    have hfour : broker.source_record_capacity = 4 * 2 ^ (k + 4) := by
      rw [hk, show k + 6 = (k + 4) + 2 by omega, Nat.pow_add, Nat.mul_comm]
    omega

omit h

/-- What a recording leaves of the other fields. -/
structure Recording (broker broker' : UnityCompilerBroker) : Prop where
  channel : broker'.channel = broker.channel
  budget : broker'.source_residency_budget_bytes = broker.source_residency_budget_bytes
  count : broker'.source_record_count ≤ broker.source_record_count + 1

lemma SameWindow.recording {broker' : UnityCompilerBroker} (h : SameWindow broker broker') :
    Recording broker broker' :=
  ⟨h.channel, h.budget, h.count ▸ Nat.le_succ _⟩

variable {source : CString}

include h

/-- A source that has not been recorded is added, unless its size does not fit. -/
theorem add_record_spec (hpos : 0 < broker.source_record_capacity)
    (hroom : 4 * (broker.source_record_count + 1) ≤ 3 * broker.source_record_capacity)
    (hnew : source ∉ sources)
    (hkey : keyOf common_sha256 source ∉ keysOf broker.source_records broker.source_record_epoch) :
    ∃ added broker', add_record broker source (common_sha256 source.bytes) = some (added, broker') ∧
      Inv common_sha256 broker' (if added then sources ++ [source] else sources) ∧
      Recording broker broker' := by
  obtain ⟨k, hk⟩ := h.power.resolve_left (by omega)
  unfold add_record
  dsimp only
  by_cases hlarge : UINT64_MAX - broker.tracked_source_window_bytes < source.bytes.length
  · rw [if_pos hlarge]
    exact ⟨false, broker, rfl, h, (SameWindow.refl broker).recording⟩
  · rw [if_neg hlarge]
    obtain ⟨records, hinsert, hlen, hepochs, htable, hperm⟩ :=
      insert_spec hk h.length h.table h.epochs (h.load_lt hpos) hkey
    have hkeys : (keysOf records broker.source_record_epoch).length =
        broker.source_record_count + 1 := by
      rw [hperm.length_eq, length_cons, h.count_keys]
    have htable' : TableInv records broker.source_record_capacity broker.source_record_epoch :=
      ⟨hlen, h.power, h.capacity_le, h.epoch_pos, h.epoch_lt, hepochs, htable,
        by rw [hkeys]; exact hroom⟩
    refine ⟨true, _, bind_eq_some_iff.mpr ⟨records, hinsert, rfl⟩, ⟨htable', ?_, ?_, ?_, ?_⟩,
      rfl, rfl, Nat.le_refl _⟩
    · exact h.distinct.append (nodup_singleton source) (by simpa using hnew)
    · rw [if_pos rfl, map_append]
      exact hperm.trans ((h.keys.cons _).trans (perm_append_singleton _ _).symm)
    · rw [if_pos rfl, length_append, ← h.count_eq]
      rfl
    · rw [if_pos rfl, sizeOfSources, map_append, sum_append, ← sizeOfSources, ← h.bytes_eq]
      rfl

omit h in
/-- The source is in the window, or it has no namesake there. -/
def Distinct (common_sha256 : Bytes → SourceDigest) (sources : List CString)
    (source : CString) : Prop :=
  ∀ other ∈ sources, common_sha256 other.bytes = common_sha256 source.bytes → other = source

lemma mem_keys_iff (hdist : Distinct common_sha256 sources source) :
    keyOf common_sha256 source ∈ keysOf broker.source_records broker.source_record_epoch ↔
      source ∈ sources := by
  rw [h.keys.mem_iff, List.mem_map]
  constructor
  · rintro ⟨other, hother, heq⟩
    rw [← hdist other hother (Prod.mk.inj heq).1]
    exact hother
  · intro hmem
    exact ⟨source, hmem, rfl⟩

lemma record_source_spec (calloc_succeeds : Bool) (hdist : Distinct common_sha256 sources source) :
    ∃ recorded broker', record_source calloc_succeeds broker source
        (common_sha256 source.bytes) = some (recorded, broker') ∧
      Inv common_sha256 broker' (if recorded then
        if source ∈ sources then sources else sources ++ [source] else sources) ∧
      Recording broker broker' := by
  have hmem := mem_keys_iff h hdist
  have hfind := source_is_recorded_eq h.toTableInv (keyOf common_sha256 source)
  by_cases hrec : source ∈ sources
  · rw [decide_eq_true (hmem.mpr hrec)] at hfind
    rw [if_pos hrec]
    exact ⟨true, broker, bind_eq_some_iff.mpr ⟨true, hfind, rfl⟩, h,
      (SameWindow.refl broker).recording⟩
  · rw [decide_eq_false fun hkey => hrec (hmem.mp hkey)] at hfind
    rw [if_neg hrec]
    obtain ⟨reserved, roomy, hreserve, hinv, hsame, hroom⟩ := reserve_spec h calloc_succeeds
    by_cases hresv : reserved = true
    · subst hresv
      obtain ⟨hpos, hload⟩ := hroom rfl
      have hkey : keyOf common_sha256 source ∉
          keysOf roomy.source_records roomy.source_record_epoch := by
        rw [mem_keys_iff hinv hdist]
        exact hrec
      obtain ⟨added, broker', hadd, hinv', hrecording⟩ :=
        add_record_spec hinv hpos (hsame.count ▸ hload) hrec hkey
      refine ⟨added, broker', bind_eq_some_iff.mpr ⟨false, hfind, ?_⟩, hinv', ?_⟩
      · exact bind_eq_some_iff.mpr ⟨(true, roomy), hreserve, hadd⟩
      · exact ⟨hrecording.channel.trans hsame.channel, hrecording.budget.trans hsame.budget,
          hsame.count ▸ hrecording.count⟩
    · refine ⟨false, roomy, bind_eq_some_iff.mpr ⟨false, hfind, ?_⟩, hinv, hsame.recording⟩
      exact bind_eq_some_iff.mpr ⟨(reserved, roomy), hreserve, if_neg hresv⟩

variable {source : Option CString}

lemma record_spec (calloc_succeeds : Bool)
    (hdist : ∀ text, source = some text → Distinct common_sha256 sources text) :
    ∃ recorded broker', source_window_record_locked common_sha256 calloc_succeeds broker source =
        some (recorded, broker') ∧
      Inv common_sha256 broker' (if recorded then
        submit sources broker.source_residency_budget_bytes source else sources) ∧
      Recording broker broker' := by
  unfold source_window_record_locked
  cases source with
  | none => exact ⟨true, broker, rfl, h, (SameWindow.refl broker).recording⟩
  | some source =>
    dsimp only [submit]
    by_cases hzero : broker.source_residency_budget_bytes = 0
    · rw [if_pos hzero, if_pos (.inl hzero)]
      exact ⟨true, broker, rfl, h, (SameWindow.refl broker).recording⟩
    · rw [if_neg hzero]
      simp only [hzero, false_or]
      -- The scan is only counted, so the window is still the same.
      have hscanned : Inv common_sha256
          { broker with source_digest_scans := broker.source_digest_scans + 1 } sources := h
      obtain ⟨recorded, broker', hrec, hinv, hrecording⟩ :=
        record_source_spec hscanned calloc_succeeds (hdist source rfl)
      exact ⟨recorded, broker', hrec, hinv, hrecording.channel, hrecording.budget, hrecording.count⟩

omit h

/-! ## Calls -/

include h

lemma recycle_spec (outcome : BrokerOutcome) (source_budget_recycle : Bool) :
    Inv common_sha256 (recycle_process_locked outcome source_budget_recycle broker).2
        (if outcome.recycle_succeeds then [] else sources) ∧
      (recycle_process_locked outcome source_budget_recycle broker).1 = outcome.recycle_succeeds ∧
      (recycle_process_locked outcome source_budget_recycle broker).2.source_residency_budget_bytes =
        broker.source_residency_budget_bytes := by
  unfold recycle_process_locked
  dsimp only
  by_cases hsucc : outcome.recycle_succeeds = true
  · rw [if_neg (not_not.mpr hsucc), if_pos hsucc]
    have hsame : Inv common_sha256 { broker with channel := outcome.recycled_channel } sources := h
    exact ⟨hsame.clear, hsucc.symm, rfl⟩
  · rw [if_pos hsucc, if_neg hsucc]
    exact ⟨h, (Bool.eq_false_iff.mpr hsucc).symm, rfl⟩

lemma notice_spec (process_before : ℤ) : Inv common_sha256 (notice_process process_before broker)
        (if process_changed process_before broker.channel.process_id then [] else sources) ∧
      (notice_process process_before broker).source_residency_budget_bytes =
        broker.source_residency_budget_bytes := by
  unfold notice_process
  dsimp only
  by_cases hchg : process_changed process_before broker.channel.process_id = true
  · rw [if_pos hchg, if_pos hchg]
    exact ⟨h.clear, rfl⟩
  · rw [if_neg hchg, if_neg hchg]
    exact ⟨h, rfl⟩

lemma record_failed_spec (outcome : BrokerOutcome) (process_after : ℤ) :
    Inv common_sha256 (record_failed outcome process_after broker)
        (if 0 < process_after ∧ ¬ outcome.recycle_succeeds then sources else []) ∧
      (record_failed outcome process_after broker).source_residency_budget_bytes =
        broker.source_residency_budget_bytes := by
  have hsame : Inv common_sha256
      { broker with source_tracking_failures := broker.source_tracking_failures + 1 } sources := h
  obtain ⟨hinv, hres, hbudget⟩ := recycle_spec hsame outcome true
  unfold record_failed
  dsimp only
  by_cases hproc : 0 < process_after
  · rw [if_pos hproc, hres]
    by_cases hsucc : outcome.recycle_succeeds = true
    · rw [if_pos hsucc, if_neg (fun hand => hand.2 hsucc)]
      exact ⟨hinv.clear, hbudget⟩
    · rw [if_neg hsucc] at hinv ⊢
      rw [if_pos ⟨hproc, hsucc⟩]
      exact ⟨hinv, hbudget⟩
  · rw [if_neg hproc, if_neg (fun hand => hproc hand.1)]
    exact ⟨hsame.clear, rfl⟩

omit h in
/-- At most one source, or no more bytes than the budget. -/
def WithinBudget (broker : UnityCompilerBroker) : Prop :=
  broker.source_record_count ≤ 1 ∨
    broker.tracked_source_window_bytes ≤ broker.source_residency_budget_bytes

omit h in
lemma Inv.withinBudget_of_nil (h : Inv common_sha256 broker []) : WithinBudget broker :=
  .inl (h.count_eq ▸ Nat.zero_le 1)

lemma enforce_budget_spec (outcome : BrokerOutcome) (process_after : ℤ) :
    Inv common_sha256 (enforce_budget outcome process_after broker)
        (if 0 < process_after ∧ outcome.recycle_succeeds ∧
          unity_compiler_broker_source_window_requires_recycle
            broker.source_residency_budget_bytes (sizeOfSources sources) sources.length then []
        else sources) ∧
      (broker.source_residency_budget_bytes ≠ 0 → outcome.recycle_succeeds = true →
        0 < process_after ∨ broker.source_record_count ≤ 1 →
          WithinBudget (enforce_budget outcome process_after broker)) ∧
      (enforce_budget outcome process_after broker).source_residency_budget_bytes =
        broker.source_residency_budget_bytes := by
  obtain ⟨hinv, hres, hsame⟩ := recycle_spec h outcome true
  rw [← h.count_eq, ← h.bytes_eq]
  unfold enforce_budget
  dsimp only
  by_cases hover : 0 < process_after ∧ unity_compiler_broker_source_window_requires_recycle
      broker.source_residency_budget_bytes broker.tracked_source_window_bytes
      broker.source_record_count = true
  · rw [if_pos hover, hres]
    by_cases hsucc : outcome.recycle_succeeds = true
    · rw [if_pos hsucc] at hinv ⊢
      rw [if_pos ⟨hover.1, hsucc, hover.2⟩]
      exact ⟨hinv, fun _ _ _ => hinv.withinBudget_of_nil, hsame⟩
    · rw [if_neg hsucc] at hinv ⊢
      rw [if_neg fun hand => hsucc hand.2.1]
      exact ⟨hinv, fun _ htrue => absurd htrue hsucc, hsame⟩
  · rw [if_neg hover, if_neg fun hand => hover ⟨hand.1, hand.2.2⟩]
    refine ⟨h, fun hbudget _ hproc => ?_, rfl⟩
    rcases hproc with hproc | hone
    · have hquiet : ¬ unity_compiler_broker_source_window_requires_recycle
          broker.source_residency_budget_bytes broker.tracked_source_window_bytes
          broker.source_record_count = true := fun hrequires => hover ⟨hproc, hrequires⟩
      unfold unity_compiler_broker_source_window_requires_recycle at hquiet
      unfold WithinBudget
      by_cases hone : broker.source_record_count ≤ 1
      · exact .inl hone
      · rw [if_neg (not_or.mpr ⟨hbudget, hone⟩), decide_eq_true_iff] at hquiet
        exact .inr (Nat.not_lt.mp hquiet)
    · exact .inl hone

/-- A transaction ends and keeps the window exact. Where a process ran before it or runs after it
and a recycle request is granted, it also keeps the budget. -/
theorem transaction_spec (outcome : BrokerOutcome)
    (hdist : ∀ text, source = some text → Distinct common_sha256 sources text) :
    ∃ broker', unity_compiler_broker_transaction common_sha256 outcome source broker =
        some broker' ∧
      Inv common_sha256 broker' (afterTransaction common_sha256 sources broker outcome source) ∧
      (broker.source_residency_budget_bytes ≠ 0 → outcome.recycle_succeeds = true →
        0 < broker.channel.process_id ∨ 0 < outcome.channel.process_id → WithinBudget broker') := by
  have hcalled : Inv common_sha256 { broker with channel := outcome.channel } sources := h
  obtain ⟨hnoticed, hnoticedBudget⟩ := notice_spec hcalled broker.channel.process_id
  have hdist' : ∀ text, source = some text → Distinct common_sha256
      (if process_changed broker.channel.process_id outcome.channel.process_id then []
      else sources) text := by
    intro text htext other hother
    split at hother
    · cases hother
    · exact hdist text htext other hother
  obtain ⟨recorded, broker₁, hrec, hinv, hrecording⟩ :=
    record_spec hnoticed outcome.calloc_succeeds hdist'
  have hreports : reportsSuccess common_sha256 broker outcome source = recorded := by
    rw [reportsSuccess, hrec]
    rfl
  have hbudget := hrecording.budget.trans hnoticedBudget
  dsimp only at hbudget
  unfold unity_compiler_broker_transaction finish_protocol_transaction_locked
  dsimp only [afterTransaction]
  rw [hreports]
  by_cases hrecorded : recorded = true
  · subst hrecorded
    rw [if_pos rfl, hnoticedBudget] at hinv
    obtain ⟨hinv₂, hwithin, -⟩ := enforce_budget_spec hinv outcome outcome.channel.process_id
    rw [hbudget] at hinv₂ hwithin
    refine ⟨_, bind_eq_some_iff.mpr ⟨(true, broker₁), hrec, rfl⟩, hinv₂,
      fun hne hsucc hproc => hwithin hne hsucc ?_⟩
    by_cases hafter : 0 < outcome.channel.process_id
    · exact .inl hafter
    · -- The process has died in the call, so the window has only the new source.
      have hchg : process_changed broker.channel.process_id outcome.channel.process_id = true := by
        rw [process_changed, decide_eq_true_iff]
        omega
      rw [if_pos hchg] at hnoticed
      have hzero := hnoticed.count_eq
      have hone := hrecording.count
      rw [length_nil] at hzero
      omega
  · rw [if_neg hrecorded] at hinv ⊢
    obtain ⟨hinv₂, -⟩ := record_failed_spec hinv outcome outcome.channel.process_id
    refine ⟨_, bind_eq_some_iff.mpr ⟨(recorded, broker₁), hrec, if_neg hrecorded⟩, hinv₂,
      fun _ hsucc _ => ?_⟩
    rw [if_neg fun hand => hand.2 hsucc] at hinv₂
    exact hinv₂.withinBudget_of_nil

lemma set_budget_spec (outcome : BrokerOutcome) (budget_bytes : ℕ) : Inv common_sha256
      (unity_compiler_broker_set_source_residency_budget outcome budget_bytes broker).2
      (afterEvent common_sha256 sources broker (.setBudget outcome budget_bytes)) := by
  obtain ⟨hinv, hres, -⟩ := recycle_spec h outcome false
  unfold unity_compiler_broker_set_source_residency_budget
  dsimp only [afterEvent]
  by_cases hbudget : broker.source_residency_budget_bytes = budget_bytes
  · rw [if_neg (not_not.mpr hbudget), if_pos (.inl hbudget)]
    exact h
  · rw [if_pos hbudget]
    by_cases hproc : hasProcess broker.channel = true
    · rw [if_pos hproc, hres]
      by_cases hsucc : outcome.recycle_succeeds = true
      · rw [if_pos hsucc] at hinv ⊢
        rw [if_neg (not_or.mpr ⟨hbudget, fun hand => hand.2 hsucc⟩)]
        exact hinv
      · rw [if_neg hsucc] at hinv ⊢
        rw [if_pos (.inr ⟨hproc, hsucc⟩)]
        exact hinv
    · rw [if_neg hproc, if_neg (not_or.mpr ⟨hbudget, fun hand => hproc hand.1⟩)]
      exact h.clear

/-! ## Runs -/

omit h in
def submittedSources (events : List BrokerEvent) : List CString :=
  events.filterMap fun event =>
    match event with
    | .transaction _ source => source
    | _ => none

omit h in
lemma mem_afterEvent {event : BrokerEvent} {text : CString}
    (hmem : text ∈ afterEvent common_sha256 sources broker event) :
    text ∈ sources ∨ text ∈ submittedSources [event] := by
  cases event with
  | transaction outcome source =>
    cases source with
    | none =>
      dsimp only [afterEvent, afterTransaction, submit] at hmem
      grind
    | some source =>
      have hsubm : source ∈ submittedSources [.transaction outcome (some source)] := mem_cons_self
      dsimp only [afterEvent, afterTransaction, submit] at hmem
      grind
  | setBudget outcome budget_bytes =>
    dsimp only [afterEvent] at hmem
    grind
  | recycle outcome =>
    dsimp only [afterEvent] at hmem
    grind
  | other channel => exact .inl hmem

lemma step_spec (event : BrokerEvent)
    (hdist : ∀ text ∈ submittedSources [event], Distinct common_sha256 sources text) :
    ∃ broker', step common_sha256 broker event = some broker' ∧
      Inv common_sha256 broker' (afterEvent common_sha256 sources broker event) := by
  cases event with
  | transaction outcome source =>
    have hsubmitted : ∀ text, source = some text → Distinct common_sha256 sources text := by
      rintro text rfl
      exact hdist text mem_cons_self
    obtain ⟨broker', hstep, hinv, -⟩ := transaction_spec h outcome hsubmitted
    exact ⟨broker', hstep, hinv⟩
  | setBudget outcome budget_bytes =>
    exact ⟨_, rfl, set_budget_spec h outcome budget_bytes⟩
  | recycle outcome => exact ⟨_, rfl, (recycle_spec h outcome false).1⟩
  | other channel => exact ⟨_, rfl, h⟩

omit h

/-- No two different submitted sources have one digest. -/
def CollisionFree (common_sha256 : Bytes → SourceDigest) (sources : List CString) : Prop :=
  ∀ source ∈ sources, Distinct common_sha256 sources source

lemma run_spec (events : List BrokerEvent) {submitted : List CString}
    (hfree : CollisionFree common_sha256 submitted)
    (hevents : ∀ text ∈ submittedSources events, text ∈ submitted)
    (h : Inv common_sha256 broker sources) (hsources : ∀ text ∈ sources, text ∈ submitted) :
    ∃ broker', run common_sha256 events broker = some broker' ∧
      Inv common_sha256 broker' (recordedSources common_sha256 events broker sources) ∧
      ∀ text ∈ recordedSources common_sha256 events broker sources, text ∈ submitted := by
  induction events generalizing broker sources with
  | nil => exact ⟨broker, rfl, h, hsources⟩
  | cons event events ih =>
    have happend : submittedSources (event :: events) =
        submittedSources [event] ++ submittedSources events := filterMap_append (l := [event])
    have hfirst : ∀ text ∈ submittedSources [event], text ∈ submitted :=
      fun text htext => hevents text (happend ▸ mem_append_left _ htext)
    obtain ⟨broker₁, hstep, hinv⟩ := step_spec h event fun text htext other hother =>
      hfree text (hfirst text htext) other (hsources other hother)
    obtain ⟨broker', hrun, hinv', hsubset⟩ := ih
      (fun text htext => hevents text (happend ▸ mem_append_right _ htext)) hinv
      fun text htext => (mem_afterEvent htext).elim (hsources text) (hfirst text)
    refine ⟨broker', bind_eq_some_iff.mpr ⟨broker₁, hstep, hrun⟩, ?_⟩
    rw [recordedSources, hstep]
    exact ⟨hinv', hsubset⟩

structure WindowExact (common_sha256 : Bytes → SourceDigest)
    (broker : UnityCompilerBroker) (sources : List CString) : Prop where
  /-- The live records are those of the distinct sources, each once. -/
  distinct : sources.Nodup
  records : (keysOf broker.source_records broker.source_record_epoch).Perm
    (sources.map (keyOf common_sha256))
  bytes : broker.tracked_source_window_bytes = sizeOfSources sources
  count : broker.source_record_count = sources.length
  capacity : broker.source_record_capacity = 0 ∨ ∃ k, broker.source_record_capacity = 2 ^ k
  load : 4 * broker.source_record_count ≤ 3 * broker.source_record_capacity
  /-- Every probe loop ends. -/
  search_ends : ∀ key : SourceKey, ∃ found, source_is_recorded broker key.1 key.2 = some found
  insert_ends : ∀ key : SourceKey, 0 < broker.source_record_capacity →
    ∃ slot, probe_free broker.source_records broker.source_record_capacity
      broker.source_record_epoch broker.source_record_capacity
      (source_record_slot key.1 key.2 broker.source_record_capacity) = some slot
  /-- A source is recognised exactly when it is one of them. -/
  recognised : ∀ source, Distinct common_sha256 sources source →
    (source_is_recorded broker (common_sha256 source.bytes) source.bytes.length = some true ↔
      source ∈ sources)

include h

lemma Inv.exact : WindowExact common_sha256 broker sources where
  distinct := h.distinct
  records := h.keys
  bytes := h.bytes_eq
  count := h.count_eq
  capacity := h.power.imp_right fun ⟨k, hk⟩ => ⟨k + 6, hk⟩
  load := h.count_keys ▸ h.load
  search_ends := fun key => ⟨_, source_is_recorded_eq h.toTableInv key⟩
  insert_ends := by
    intro key hpos
    obtain ⟨k, hk⟩ := h.power.resolve_left (by omega)
    have hload := h.load_lt hpos
    have hfree : (slotsOf broker.source_records broker.source_record_epoch).reduceOption.length <
        (slotsOf broker.source_records broker.source_record_epoch).length := by
      rw [length_slotsOf, h.length]
      exact hload
    obtain ⟨i, hi⟩ := exists_empty hfree
    have hhome : homeOf broker.source_record_capacity key <
        (slotsOf broker.source_records broker.source_record_epoch).length := by
      rw [length_slotsOf, h.length]
      exact homeOf_lt hk key
    obtain ⟨slot, hslot⟩ := exists_probe stopsEmpty hhome hi rfl
    rw [length_slotsOf, h.length] at hslot
    rw [probe_free_eq hk h.length]
    exact ⟨slot, hslot⟩
  recognised := by
    intro source hdist
    have hfind : source_is_recorded broker (common_sha256 source.bytes) source.bytes.length = _ :=
      source_is_recorded_eq h.toTableInv (keyOf common_sha256 source)
    rw [hfind, some_inj, decide_eq_true_iff]
    exact mem_keys_iff h hdist

end Broker

open Broker

/-- **The source window is exact after every run of the broker.** And after a transaction with a
budget and a granted recycle request there is at most one source or the bytes are within the
budget, unless no process ran before the transaction and none runs after it. -/
theorem unity_compiler_broker_source_window_exact
    (common_sha256 : Bytes → SourceDigest) (channel : UnityCompilerChannel)
    (events : List BrokerEvent) (hfree : CollisionFree common_sha256 (submittedSources events)) :
    (∃ broker, run common_sha256 events (unity_compiler_broker_create channel) = some broker ∧
      WindowExact common_sha256 broker
        (recordedSources common_sha256 events (unity_compiler_broker_create channel) [])) ∧
    ∀ before outcome source broker broker', events = before ++ [.transaction outcome source] →
      run common_sha256 before (unity_compiler_broker_create channel) = some broker →
      run common_sha256 events (unity_compiler_broker_create channel) = some broker' →
      broker.source_residency_budget_bytes ≠ 0 → outcome.recycle_succeeds = true →
      0 < broker.channel.process_id ∨ 0 < outcome.channel.process_id →
        broker'.source_record_count ≤ 1 ∨
          broker'.tracked_source_window_bytes ≤ broker'.source_residency_budget_bytes := by
  have hempty : ∀ text ∈ ([] : List CString), text ∈ submittedSources events :=
    fun _ htext => absurd htext not_mem_nil
  constructor
  · obtain ⟨broker, hrun, hinv, -⟩ := run_spec events hfree (fun _ htext => htext)
      (Inv.create channel) hempty
    exact ⟨broker, hrun, hinv.exact⟩
  · intro before outcome source broker broker' hsplit hbefore hrun hbudget hsucceeds hprocess
    have happend : submittedSources events =
        submittedSources before ++ submittedSources [.transaction outcome source] := by
      rw [hsplit]
      exact filterMap_append
    obtain ⟨broker₀, hrun₀, hinv, hsources⟩ := run_spec before hfree
      (fun text htext => happend ▸ mem_append_left _ htext) (Inv.create channel) hempty
    obtain rfl := some.inj (hrun₀.symm.trans hbefore)
    obtain ⟨broker₁, hstep, -, hwithin⟩ := transaction_spec hinv outcome (by
      rintro text (rfl : source = _) other hother
      exact hfree text (happend ▸ mem_append_right _ mem_cons_self) other (hsources other hother))
    have hlast : run common_sha256 events (unity_compiler_broker_create channel) =
        some broker₁ := by
      unfold run
      rw [hsplit, foldlM_append]
      refine bind_eq_some_iff.mpr ⟨_, hbefore, ?_⟩
      exact bind_eq_some_iff.mpr ⟨broker₁, hstep, rfl⟩
    obtain rfl := some.inj (hlast.symm.trans hrun)
    exact hwithin hbudget hsucceeds hprocess

def sampleDigest (bytes : Bytes) : SourceDigest :=
  if bytes = [65] then #v[85, 154, 234, 208, 130, 100, 213, 121, 93, 57, 9, 113, 140, 221, 5, 171,
    212, 149, 114, 232, 79, 229, 85, 144, 238, 243, 26, 136, 160, 143, 223, 253]
  else if bytes = [66] then #v[223, 126, 112, 229, 2, 21, 68, 244, 131, 75, 190, 230, 74, 158, 55, 137,
    254, 188, 75, 232, 20, 112, 223, 98, 156, 173, 109, 219, 3, 50, 10, 92]
  else Vector.replicate 32 0

def sourceA : CString := .ofBytes [65]
def sourceB : CString := .ofBytes [66]

variable (process_id : ℤ)

/-- A step at whose end the process has the given id. -/
def sampleOutcome : BrokerOutcome where
  channel := ⟨process_id, -1⟩
  calloc_succeeds := true
  recycle_succeeds := true
  recycled_channel := ⟨0, -1⟩

/-- A budget of one byte and two sources of one byte each. -/
def sampleEvents : List BrokerEvent :=
  [.setBudget (sampleOutcome 0) 1, .transaction (sampleOutcome process_id) (some sourceA),
    .transaction (sampleOutcome process_id) (some sourceB)]

/-- With a process, the second source is over the budget and the process is recycled. The next
process is given the first source again. -/
def recycledEvents : List BrokerEvent :=
  sampleEvents 7 ++ [.transaction (sampleOutcome 7) (some sourceA)]

lemma recycledEvents_collisionFree :
    CollisionFree sampleDigest (submittedSources recycledEvents) := by
  have hsrcs : submittedSources recycledEvents = [sourceA, sourceB, sourceA] := rfl
  have hdist : ∀ s ∈ [sourceA, sourceB, sourceA], ∀ t ∈ [sourceA, sourceB, sourceA],
      sampleDigest t.bytes = sampleDigest s.bytes → t = s := by decide
  rw [hsrcs]
  exact hdist

theorem unity_compiler_broker_source_window_exact_sample :
    CollisionFree sampleDigest (submittedSources recycledEvents) ∧
      ∃ broker, run sampleDigest recycledEvents (unity_compiler_broker_create ⟨0, -1⟩) =
        some broker ∧ WindowExact sampleDigest broker [sourceA] ∧
        (broker.source_record_count ≤ 1 ∨
          broker.tracked_source_window_bytes ≤ broker.source_residency_budget_bytes) := by
  obtain ⟨⟨broker', hrun, hexact⟩, hwithin⟩ := unity_compiler_broker_source_window_exact
    sampleDigest ⟨0, -1⟩ recycledEvents recycledEvents_collisionFree
  have hbefore : (run sampleDigest (sampleEvents 7)
      (unity_compiler_broker_create ⟨0, -1⟩)).map (fun broker =>
        (broker.source_residency_budget_bytes, broker.source_record_count)) = some (1, 0) := by
    decide +kernel
  have hrecorded : recordedSources sampleDigest recycledEvents
      (unity_compiler_broker_create ⟨0, -1⟩) [] = [sourceA] := by
    decide +kernel
  obtain ⟨broker, hbroker, hfields⟩ := map_eq_some_iff.mp hbefore
  obtain ⟨hbudget, -⟩ := Prod.mk.inj hfields
  refine ⟨recycledEvents_collisionFree, broker', hrun, hrecorded ▸ hexact, ?_⟩
  refine hwithin (sampleEvents 7) (sampleOutcome 7) (some sourceA) broker broker' rfl hbroker hrun
    ?_ rfl (.inr (by decide))
  rw [hbudget]
  decide

/-- Without a process nothing is recycled, and the window passes the budget. -/
theorem idle_window_passes_budget : (sampleOutcome 0).recycle_succeeds = true ∧
      (run sampleDigest (sampleEvents 0) (unity_compiler_broker_create ⟨0, -1⟩)).map
        (fun broker => (broker.source_residency_budget_bytes, broker.source_record_count,
          broker.tracked_source_window_bytes)) = some (1, 2, 2) := by
  refine ⟨rfl, ?_⟩
  decide +kernel

end DXBCSandbox
