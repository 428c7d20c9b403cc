/-
The layout of an oracle pack.

`packBytes` is the pack of sorted entries and preprocess records. The reader accepts a byte
string exactly when it is the pack of some content, so a pack has one encoding. Its views
and lookups show that content.
-/
import DXBCSandbox.Common.OraclePackRecords

namespace DXBCSandbox

open List Option Checks

/-! ## Directories -/

/-- The bytes of a directory of records, whose first record is at `offset`. -/
def directoryBytes (offset : ℕ) : List (Digest × Bytes) → Bytes
  | [] => []
  | r :: rs => r.1.toList ++ (leBytes 8 offset ++ (leBytes 8 r.2.length ++
      directoryBytes (offset + r.2.length) rs))

def recordsBytes (rs : List (Digest × Bytes)) : Bytes := rs.flatMap Prod.snd

lemma length_directoryBytes (offset : ℕ) (rs : List (Digest × Bytes)) :
    (directoryBytes offset rs).length = rs.length * 48 := by
  induction rs generalizing offset with
  | nil => simp [directoryBytes]
  | cons r rs ih =>
    simp only [directoryBytes, length_append, length_digest, length_leBytes, ih, length_cons]
    omega

lemma recordsBytes_cons (r : Digest × Bytes) (rs : List (Digest × Bytes)) :
    recordsBytes (r :: rs) = r.2 ++ recordsBytes rs := flatMap_cons

variable {r : Digest × Bytes}

lemma drop_eq_directory_cons_iff {data rest : Bytes} {base offset : ℕ}
    {rs : List (Digest × Bytes)} :
    data.drop base = directoryBytes offset (r :: rs) ++ rest ↔
      slice data base 32 = r.1.toList ∧ slice data (base + 32) 8 = leBytes 8 offset ∧
      slice data (base + 40) 8 = leBytes 8 r.2.length ∧
      data.drop (base + 48) = directoryBytes (offset + r.2.length) rs ++ rest := by
  simp only [directoryBytes, append_assoc, drop_eq_append_iff, length_leBytes, length_digest,
    Nat.add_assoc, Nat.reduceAdd]

/-- A directory, and the records where it says they are. -/
structure DirectoryAt (data : Bytes) (base offset : ℕ) (rs : List (Digest × Bytes)) :
    Prop where
  directory : data.drop base = directoryBytes offset rs ++ data.drop (base + rs.length * 48)
  records : data.drop offset =
    recordsBytes rs ++ data.drop (offset + (recordsBytes rs).length)
  bound : offset + (recordsBytes rs).length ≤ data.length

variable {data : Bytes} {base offset : ℕ} {rs : List (Digest × Bytes)}

lemma directoryAt_cons_iff (hsize : data.length ≤ SIZE_MAX) :
    DirectoryAt data base offset (r :: rs) ↔
      base + 48 ≤ data.length ∧ slice data base 32 = r.1.toList ∧
      load_size data (base + 32) = offset ∧ load_size data (base + 40) = r.2.length ∧
      slice data offset r.2.length = r.2 ∧
      DirectoryAt data (base + 48) (offset + r.2.length) rs := by
  have hbase : base + (r :: rs).length * 48 = base + 48 + rs.length * 48 := by
    rw [length_cons]
    omega
  have hoff : offset + (recordsBytes (r :: rs)).length =
      offset + r.2.length + (recordsBytes rs).length := by
    rw [recordsBytes_cons, length_append]
    omega
  constructor
  · rintro ⟨hdir, hrec, hbnd⟩
    rw [hbase] at hdir
    rw [hoff] at hrec hbnd
    obtain ⟨hdig, h32, h40, hdir⟩ := drop_eq_directory_cons_iff.mp hdir
    rw [recordsBytes_cons, append_assoc, drop_eq_append_iff] at hrec
    have h32 := (slice_eq_size_iff (by omega)).mp h32
    have h40 := (slice_eq_size_iff (by omega)).mp h40
    exact ⟨by omega, hdig, h32.2, h40.2, hrec.1, hdir, hrec.2, hbnd⟩
  · rintro ⟨hlen, hdig, h32, h40, hr, hdir, hrec, hbnd⟩
    refine ⟨?_, ?_, ?_⟩
    · rw [hbase]
      exact drop_eq_directory_cons_iff.mpr ⟨hdig,
        (slice_eq_size_iff (by omega)).mpr ⟨by omega, h32⟩,
        (slice_eq_size_iff (by omega)).mpr ⟨by omega, h40⟩, hdir⟩
    · rw [hoff, recordsBytes_cons, append_assoc, drop_eq_append_iff]
      exact ⟨hr, hrec⟩
    · rw [hoff]
      exact hbnd

variable {index : ℕ}

lemma DirectoryAt.directory_record (h : DirectoryAt data base offset rs)
    (hsize : data.length ≤ SIZE_MAX) (hidx : index < rs.length) :
    directory_record data base index = (rs[index].2, rs[index].1.toList) := by
  induction rs generalizing base offset index with
  | nil => exact absurd hidx (Nat.not_lt_zero _)
  | cons r rs ih =>
    obtain ⟨-, hdig, h32, h40, hr, hrest⟩ := (directoryAt_cons_iff hsize).mp h
    cases index with
    | zero =>
      unfold DXBCSandbox.directory_record ORACLE_PACK_DIGEST_SIZE
      simp only [Nat.zero_mul, Nat.add_zero, h32, h40, hr, hdig, getElem_cons_zero]
      rfl
    | succ index =>
      have hshift : DXBCSandbox.directory_record data base (index + 1) =
          DXBCSandbox.directory_record data (base + 48) index := by
        unfold DXBCSandbox.directory_record ORACLE_PACK_DIRECTORY_ENTRY_SIZE
        rw [show base + (index + 1) * 48 = base + 48 + index * 48 by omega]
      rw [hshift, ih hrest (by simpa using hidx)]
      rfl

section Validate

variable {α : Type} {parse : (data expected_digest : Bytes) → Except OraclePackStatus α}
  {previous : Option Bytes}

lemma validate_directory_accepts {i : ℕ} (hsize : data.length ≤ SIZE_MAX)
    (h : DirectoryAt data (base + i * 48) offset rs)
    (hparse : ∀ r ∈ rs, ∃ a, parse r.2 r.1.toList = .ok a) (hprev : ∀ p ∈ previous, p.length = 32)
    (hsorted : (previous.toList ++ rs.map fun r => r.1.toList).IsChain fun a b => compare a b =
      .lt) :
    validate_directory parse data base rs.length i offset previous =
      .ok (offset + (recordsBytes rs).length) := by
  induction rs generalizing i offset previous with
  | nil => rfl
  | cons r rs ih =>
    have hbnd := h.bound
    rw [recordsBytes_cons, length_append] at hbnd
    obtain ⟨hlen, hdig, h32, h40, hr, hrest⟩ := (directoryAt_cons_iff hsize).mp h
    obtain ⟨a, ha⟩ := hparse r mem_cons_self
    have hfst : previous.any (fun p => memcmp p r.1.toList ≠ .lt) = false := by
      cases previous with
      | none => rfl
      | some p =>
        rw [toList_some, map_cons, cons_append, nil_append, isChain_cons_cons] at hsorted
        have hp : p.length = r.1.toList.length := by
          rw [length_digest]
          exact hprev p rfl
        simp [memcmp_eq hp, hsorted.1]
    rw [length_cons, validate_directory]
    unfold ORACLE_PACK_DIRECTORY_ENTRY_SIZE ORACLE_PACK_DIGEST_SIZE
    dsimp only
    rw [hdig, hfst, if_neg Bool.false_ne_true, h32, h40, if_neg (by
      rintro (h | h | h)
      · omega
      · exact h rfl
      · omega), hr, ha]
    dsimp only
    rw [(add_size_eq_some (.inl (by omega))).mpr ⟨rfl, by omega⟩]
    dsimp only
    rw [if_neg (by omega), ih (by rwa [Nat.add_mul, Nat.one_mul, ← Nat.add_assoc])
      (forall_mem_cons.mp hparse).2, recordsBytes_cons, length_append,
      Nat.add_assoc]
    · intro p hp
      rw [← some.inj hp, length_digest]
    · rw [map_cons] at hsorted
      exact hsorted.right_of_append

lemma validate_directory_spec {n i e : ℕ} (hsize : data.length ≤ SIZE_MAX)
    (hbase : base + (i + n) * 48 ≤ data.length) (hoff : offset ≤ data.length)
    (hprev : ∀ p ∈ previous, p.length = 32)
    (h : validate_directory parse data base n i offset previous = .ok e) :
    ∃ rs : List (Digest × Bytes), rs.length = n ∧ DirectoryAt data (base + i * 48) offset rs ∧
      (∀ r ∈ rs, ∃ a, parse r.2 r.1.toList = .ok a) ∧
      (previous.toList ++ rs.map fun r => r.1.toList).IsChain (fun a b => compare a b = .lt) ∧
      e = offset + (recordsBytes rs).length := by
  induction n generalizing i offset previous with
  | zero =>
    obtain rfl : offset = e := Except.ok.inj h
    refine ⟨[], rfl, ⟨?_, ?_, hoff⟩, by simp, ?_, rfl⟩
    · simp [directoryBytes]
    · simp [recordsBytes]
    · cases previous <;> simp
  | succ n ih =>
    rw [validate_directory] at h
    unfold ORACLE_PACK_DIRECTORY_ENTRY_SIZE ORACLE_PACK_DIGEST_SIZE at h
    dsimp only at h
    obtain ⟨hfst, h⟩ := ite_error_eq_ok.mp h
    obtain ⟨hflds, h⟩ := ite_error_eq_ok.mp h
    simp only [not_or, not_not] at hflds
    obtain ⟨hle, h32, h40⟩ := hflds
    rw [h32] at hle h40 h
    split at h
    · simp at h
    · rename_i a ha
      split at h
      · simp at h
      · rename_i cursor hadd
        obtain ⟨rfl, -⟩ := (add_size_eq_some (.inl (load_size_le data _))).mp hadd
        obtain ⟨hcursor, h⟩ := ite_error_eq_ok.mp h
        have hdlen : (slice data (base + i * 48) 32).length = 32 := length_slice (by omega)
        have hrlen : (slice data offset (load_size data (base + i * 48 + 40))).length =
            load_size data (base + i * 48 + 40) := length_slice (by omega)
        have hrest := ih (by omega) (by omega) (fun p hp => by rw [← some.inj hp]; exact hdlen) h
        obtain ⟨rs, hn, hdir, hparse, hchain, he⟩ := hrest
        let r : Digest × Bytes := (digestOf (slice data (base + i * 48) 32) hdlen,
          slice data offset (load_size data (base + i * 48 + 40)))
        have hr : r.2.length = load_size data (base + i * 48 + 40) := hrlen
        refine ⟨r :: rs, by rw [length_cons, hn], ?_, ?_, ?_, ?_⟩
        · rw [directoryAt_cons_iff hsize, hr]
          rw [Nat.add_mul, Nat.one_mul, ← Nat.add_assoc] at hdir
          exact ⟨by omega, rfl, h32, rfl, rfl, hdir⟩
        · intro q hq
          rcases mem_cons.mp hq with rfl | hq
          · exact ⟨a, ha⟩
          · exact hparse q hq
        · cases previous with
          | none => exact hchain
          | some p =>
            rw [toList_some, map_cons, cons_append, nil_append, isChain_cons_cons]
            refine ⟨?_, hchain⟩
            have hp : p.length = (slice data (base + i * 48) 32).length := by
              rw [hdlen]
              exact hprev p rfl
            rw [any_some, memcmp_eq hp, decide_eq_true_eq, not_not] at hfst
            exact hfst
        · rw [he, recordsBytes_cons, length_append, hr]
          omega

end Validate

/-! ## Packs -/

/-- What a pack holds. -/
structure PackContent where
  compiler_fingerprint : Digest
  environment_fingerprint : Digest
  entries : List OwnedEntry
  preprocesses : List OwnedPreprocess

namespace PackContent

variable (content : PackContent)

def entryRecords : List (Digest × Bytes) :=
  content.entries.map fun entry => (entry.variant_key_digest, entryBytes entry)

def preprocessRecords : List (Digest × Bytes) :=
  content.preprocesses.map fun record => (record.request_digest, preprocessBytes record)

def preprocessDirectory : ℕ := 192 + content.entries.length * 48

def payloadOffset : ℕ := content.preprocessDirectory + content.preprocesses.length * 48

def preprocessOffset : ℕ := content.payloadOffset + (recordsBytes content.entryRecords).length

def packSize : ℕ := content.preprocessOffset + (recordsBytes content.preprocessRecords).length

def headFields : List Bytes :=
  [k_pack_magic, leBytes 4 4, leBytes 4 192, leBytes 8 content.packSize,
    leBytes 8 content.entries.length, leBytes 8 192, leBytes 8 (content.entries.length * 48),
    leBytes 8 content.preprocesses.length, leBytes 8 content.preprocessDirectory,
    leBytes 8 (content.preprocesses.length * 48), leBytes 8 content.payloadOffset,
    leBytes 8 (content.packSize - content.payloadOffset), content.compiler_fingerprint.toList,
    content.environment_fingerprint.toList]

def bodyBytes : Bytes :=
  directoryBytes content.payloadOffset content.entryRecords ++
    (directoryBytes content.preprocessOffset content.preprocessRecords ++
      (recordsBytes content.entryRecords ++ recordsBytes content.preprocessRecords))

def packDigest (sha256 : Bytes → Digest) : Digest :=
  sha256 (content.headFields.flatten ++ List.replicate ORACLE_PACK_DIGEST_SIZE 0 ++
    (leBytes 8 0 ++ content.bodyBytes))

/-- A pack: its head, its digest and its body. -/
def packBytes (sha256 : Bytes → Digest) : Bytes :=
  content.headFields.flatten ++ ((content.packDigest sha256).toList ++
    (leBytes 8 0 ++ content.bodyBytes))

lemma length_headFields : content.headFields.flatten.length = 152 := by
  have hmagic : k_pack_magic.length = 8 := by decide
  simp only [headFields, flatten_cons, flatten_nil, length_append, length_nil,
    length_leBytes, length_digest, hmagic]

lemma length_packBytes (sha256 : Bytes → Digest) :
    (content.packBytes sha256).length = content.packSize := by
  simp only [packBytes, bodyBytes, length_append, length_headFields, length_digest,
    length_leBytes, length_directoryBytes, entryRecords, preprocessRecords, length_map,
    packSize, preprocessOffset, payloadOffset, preprocessDirectory]
  omega

variable {content} {sha256 : Bytes → Digest} {data : Bytes}

lemma packSize_bounds : content.entries.length ≤ content.preprocessDirectory ∧
    192 ≤ content.preprocessDirectory ∧ content.preprocesses.length ≤ content.payloadOffset ∧
    content.preprocessDirectory ≤ content.payloadOffset ∧
    content.payloadOffset ≤ content.packSize := by
  unfold packSize preprocessOffset payloadOffset preprocessDirectory
  omega

/-- The loads and slices that the head of a pack has. -/
def FieldsAt (content : PackContent) (data : Bytes) : Prop :=
  slice data 0 8 = k_pack_magic ∧ load_le32 data 8 = ORACLE_PACK_FORMAT_VERSION ∧
    (load_le32 data 12).toNat = 192 ∧ load_size data 16 = content.packSize ∧
    load_size data 24 = content.entries.length ∧ load_size data 32 = 192 ∧
    load_size data 40 = content.entries.length * 48 ∧
    load_size data 48 = content.preprocesses.length ∧
    load_size data 56 = content.preprocessDirectory ∧
    load_size data 64 = content.preprocesses.length * 48 ∧
    load_size data 72 = content.payloadOffset ∧
    load_size data 80 = content.packSize - content.payloadOffset ∧
    slice data 88 32 = content.compiler_fingerprint.toList ∧
    slice data 120 32 = content.environment_fingerprint.toList

lemma fieldsAt_iff (hsize : content.packSize ≤ SIZE_MAX) (hlen : data.length = content.packSize) :
    content.FieldsAt data ↔ slice data 0 152 = content.headFields.flatten := by
  have hmagic : k_pack_magic.length = 8 := by decide
  have hbnds := @packSize_bounds content
  have hents : 192 + content.entries.length * 48 = content.preprocessDirectory := rfl
  have hpres : content.preprocessDirectory + content.preprocesses.length * 48 =
    content.payloadOffset := rfl
  have hhead : slice data 0 152 = content.headFields.flatten ↔
      data.drop 0 = content.headFields.flatten ++ data.drop 152 := by
    rw [drop_eq_append_iff, length_headFields, and_iff_left rfl]
  rw [hhead]
  simp only [headFields, flatten_cons, flatten_nil, append_assoc, nil_append,
    drop_eq_append_iff, length_leBytes, length_digest, hmagic, Nat.zero_add, Nat.reduceAdd,
    and_true]
  simp (disch := omega) only [slice_eq_word, slice_eq_size, ← UInt32.toNat_inj, FieldsAt]
  rfl

/-- Bytes of the length of a pack are the pack exactly when its head, its digest and its body are
there. -/
theorem eq_packBytes_iff (hsize : content.packSize ≤ SIZE_MAX)
    (hlen : data.length = content.packSize) :
    data = content.packBytes sha256 ↔ content.FieldsAt data ∧
      slice data 152 32 = (pack_digest sha256 data).toList ∧ load_size data 184 = 0 ∧
      data.drop 192 = content.bodyBytes := by
  have hbnds := @packSize_bounds content
  have htail : data.drop 184 = leBytes 8 0 ++ content.bodyBytes ↔
      load_size data 184 = 0 ∧ data.drop 192 = content.bodyBytes := by
    rw [drop_eq_append_iff, length_leBytes, slice_eq_size (Nat.zero_le _) (by omega)]
  have hdig : slice data 0 152 = content.headFields.flatten →
      data.drop 184 = leBytes 8 0 ++ content.bodyBytes →
      pack_digest sha256 data = content.packDigest sha256 := by
    intro hhead htail
    rw [pack_digest, hhead, htail, packDigest]
  rw [fieldsAt_iff hsize hlen, ← htail,
    show data = content.packBytes sha256 ↔ data.drop 0 = _ by rw [drop_zero], packBytes,
    drop_eq_append_iff, length_headFields, drop_eq_append_iff, length_digest]
  refine and_congr_right fun hhead => and_congr_left fun hrest => ?_
  rw [hdig hhead hrest]

lemma drop_eq_bodyBytes_iff (hlen : data.length = content.packSize) :
    data.drop 192 = content.bodyBytes ↔
      DirectoryAt data 192 content.payloadOffset content.entryRecords ∧
      DirectoryAt data content.preprocessDirectory content.preprocessOffset
        content.preprocessRecords := by
  have hents : content.entryRecords.length = content.entries.length := length_map _
  have hpres : content.preprocessRecords.length = content.preprocesses.length :=
    length_map _
  have hfst : 192 + content.entryRecords.length * 48 = content.preprocessDirectory := by
    rw [hents, preprocessDirectory]
  have hsnd : content.preprocessDirectory + content.preprocessRecords.length * 48 =
      content.payloadOffset := by
    rw [hpres, payloadOffset]
  have hend : content.preprocessOffset + (recordsBytes content.preprocessRecords).length =
      data.length := by
    rw [hlen, packSize]
  constructor
  · intro h
    rw [bodyBytes, drop_eq_append_iff, length_directoryBytes, hfst, drop_eq_append_iff,
      length_directoryBytes, hsnd, drop_eq_append_iff] at h
    obtain ⟨h1, h2, h3, h4⟩ := h
    change data.drop content.preprocessOffset = _ at h4
    refine ⟨⟨?_, ?_, ?_⟩, ⟨?_, ?_, by omega⟩⟩
    · rw [hfst, drop_eq_append_iff, length_directoryBytes, hfst]
      exact ⟨h1, rfl⟩
    · rw [drop_eq_append_iff]
      exact ⟨h3, rfl⟩
    · rw [← preprocessOffset]
      omega
    · rw [hsnd, drop_eq_append_iff, length_directoryBytes, hsnd]
      exact ⟨h2, rfl⟩
    · rw [hend, drop_length, append_nil]
      exact h4
  · rintro ⟨h1, h2⟩
    have h3 := h1.records
    have h4 := h2.records
    rw [← preprocessOffset] at h3
    rw [hend, drop_length, append_nil] at h4
    rw [h1.directory, hfst, h2.directory, hsnd, h3, h4, bodyBytes]

end PackContent

/-! ## The reader -/

/-- What the reader checks of a pack. -/
structure ContentOk (rt : UnityCommon) (sha256 : Bytes → Digest) (content : PackContent) :
    Prop where
  compiler : fingerprint_has_value (some content.compiler_fingerprint.toList) = true
  environment : fingerprint_has_value (some content.environment_fingerprint.toList) = true
  entries : ∀ entry ∈ content.entries, EntryOk rt sha256 entry
  preprocesses : ∀ record ∈ content.preprocesses, PreprocessOk sha256 record
  entries_sorted : SortedBy (fun entry => entry.variant_key_digest.toList) content.entries
  preprocesses_sorted : SortedBy (fun record => record.request_digest.toList) content.preprocesses
  size_le : content.packSize ≤ SIZE_MAX

variable {rt : UnityCommon} {sha256 : Bytes → Digest} {content : PackContent}

lemma length_le_recordsBytes (h : r ∈ rs) : r.2.length ≤ (recordsBytes rs).length := by
  induction rs with
  | nil => cases h
  | cons q rs ih =>
    rw [recordsBytes_cons, length_append]
    rcases mem_cons.mp h with rfl | h
    · omega
    · have := ih h
      omega

variable (hok : ContentOk rt sha256 content)

include hok

lemma ContentOk.entrySize_le {entry : OwnedEntry} (h : entry ∈ content.entries) :
    entrySize entry ≤ SIZE_MAX := by
  have hmem : (entry.variant_key_digest, entryBytes entry) ∈ content.entryRecords :=
    mem_map_of_mem h
  have hle := length_le_recordsBytes hmem
  have hsize := hok.size_le
  unfold PackContent.packSize PackContent.preprocessOffset at hsize
  rw [length_entryBytes] at hle
  omega

lemma ContentOk.preprocessSize_le {record : OwnedPreprocess} (h : record ∈ content.preprocesses) :
    preprocessSize record ≤ SIZE_MAX := by
  have hmem : (record.request_digest, preprocessBytes record) ∈ content.preprocessRecords :=
    mem_map_of_mem h
  have hle := length_le_recordsBytes hmem
  have hsize := hok.size_le
  unfold PackContent.packSize at hsize
  rw [length_preprocessBytes] at hle
  omega

lemma ContentOk.parse_entryRecords :
    ∀ r ∈ content.entryRecords, ∃ view, parse_entry rt sha256 r.2 r.1.toList true = .ok view := by
  intro r hr
  obtain ⟨entry, hent, rfl⟩ := mem_map.mp hr
  exact ⟨_, parse_entry_accepts (hok.entries entry hent) (hok.entrySize_le hent) true⟩

lemma ContentOk.parse_preprocessRecords : ∀ r ∈ content.preprocessRecords,
      ∃ view, parse_preprocess sha256 r.2 r.1.toList true = .ok view := by
  intro r hr
  obtain ⟨record, hrec, rfl⟩ := mem_map.mp hr
  exact ⟨_, parse_preprocess_accepts (hok.preprocesses record hrec)
    (hok.preprocessSize_le hrec) true⟩

omit hok

lemma directory_layout_eq_some {n m : ℕ} {r : ℕ × ℕ × ℕ × ℕ} : directory_layout n m = some r ↔
      r = (n * 48, m * 48, 192 + n * 48, 192 + n * 48 + m * 48) ∧
        192 + n * 48 + m * 48 ≤ SIZE_MAX := by
  unfold directory_layout ORACLE_PACK_DIRECTORY_ENTRY_SIZE ORACLE_PACK_HEADER_SIZE
  constructor
  · intro h
    obtain ⟨a, ha, h⟩ := bind_eq_some_iff.mp h
    obtain ⟨b, hb, h⟩ := bind_eq_some_iff.mp h
    obtain ⟨c, hc, h⟩ := bind_eq_some_iff.mp h
    obtain ⟨d, hd, h⟩ := bind_eq_some_iff.mp h
    obtain ⟨rfl, ha⟩ := (multiply_size_eq_some (by decide)).mp ha
    obtain ⟨rfl, hb⟩ := (multiply_size_eq_some (by decide)).mp hb
    obtain ⟨rfl, hc⟩ := (add_size_eq_some (.inr (by decide))).mp hc
    obtain ⟨rfl, hd⟩ := (add_size_eq_some (.inr (by omega))).mp hd
    exact ⟨(some.inj h).symm, hd⟩
  · rintro ⟨rfl, hle⟩
    apply bind_eq_some_iff.mpr
    refine ⟨n * 48, (multiply_size_eq_some (by decide)).mpr ⟨rfl, by omega⟩, ?_⟩
    apply bind_eq_some_iff.mpr
    refine ⟨m * 48, (multiply_size_eq_some (by decide)).mpr ⟨rfl, by omega⟩, ?_⟩
    apply bind_eq_some_iff.mpr
    refine ⟨192 + n * 48, (add_size_eq_some (.inr (by decide))).mpr ⟨rfl, by omega⟩, ?_⟩
    apply bind_eq_some_iff.mpr
    exact ⟨192 + n * 48 + m * 48, (add_size_eq_some (.inr (by omega))).mpr ⟨rfl, hle⟩, rfl⟩

def PackContent.layout (content : PackContent) : PackLayout where
  entry_count := content.entries.length
  preprocess_count := content.preprocesses.length
  compile_directory_offset := 192
  preprocess_directory_offset := content.preprocessDirectory

variable {α : Type} {bytes : α → Bytes} {digest : α → Digest} {items : List α}

lemma isChain_digests (h : SortedBy (fun a => (digest a).toList) items) :
    ((none : Option Bytes).toList ++
      (items.map fun a => (digest a, bytes a)).map fun r => r.1.toList).IsChain
      fun a b => compare a b = .lt := by
  rw [Option.toList_none, List.nil_append, List.map_map, List.isChain_map]
  exact sortedBy_iff_isChain.mp h

include hok in
/-- The pack of a checked content is accepted. -/
lemma validate_pack_accepts :
    validate_pack rt sha256 (content.packBytes sha256) = .ok content.layout := by
  have hsize := hok.size_le
  have hlen := content.length_packBytes sha256
  obtain ⟨⟨h0, h8, h12, h16, h24, h32, h40, h48, h56, h64, h72, h80, h88, h120⟩, h152, h184,
    hbody⟩ := (PackContent.eq_packBytes_iff hsize hlen).mp (Eq.refl (content.packBytes sha256))
  generalize content.packBytes sha256 = data at *
  obtain ⟨hdir, hdir'⟩ := (PackContent.drop_eq_bodyBytes_iff hlen).mp hbody
  have hbnds := @PackContent.packSize_bounds content
  have hents : 192 + content.entries.length * 48 = content.preprocessDirectory := rfl
  have hpres : content.preprocessDirectory + content.preprocesses.length * 48 =
    content.payloadOffset := rfl
  have h184 : load_le64 data 184 = 0 := UInt64.toNat_inj.mp h184
  have hdirs : directory_layout content.entries.length content.preprocesses.length =
      some (content.entries.length * 48, content.preprocesses.length * 48,
        content.preprocessDirectory, content.payloadOffset) :=
    directory_layout_eq_some.mpr ⟨rfl, by omega⟩
  have hentryCount : content.entryRecords.length = content.entries.length := length_map _
  have hpreprocessCount : content.preprocessRecords.length = content.preprocesses.length :=
    length_map _
  have hfst : validate_directory
      (fun record digest => parse_entry rt sha256 record digest true) data 192
      content.entries.length 0 content.payloadOffset none = .ok content.preprocessOffset := by
    rw [← hentryCount]
    exact validate_directory_accepts (by omega) hdir hok.parse_entryRecords (by simp)
      (isChain_digests hok.entries_sorted)
  have hsnd : validate_directory
      (fun record digest => parse_preprocess sha256 record digest true) data
      content.preprocessDirectory content.preprocesses.length 0 content.preprocessOffset none =
      .ok content.packSize := by
    rw [← hpreprocessCount]
    exact validate_directory_accepts (by omega) hdir' hok.parse_preprocessRecords (by simp)
      (isChain_digests hok.preprocesses_sorted)
  unfold validate_pack ORACLE_PACK_DIGEST_SIZE ORACLE_PACK_HEADER_SIZE
  rw [if_neg (by omega), if_neg (by rw [h0]; simp), if_neg (by rw [h8]; simp), if_neg (by omega),
    if_neg (by rw [h12]; simp), if_neg (by omega), if_neg (by omega), if_neg (by
      rw [h88, h120, h152, hok.compiler, hok.environment, h184]
      simp
      rfl)]
  dsimp only
  rw [h24, h48, hdirs]
  dsimp only
  rw [if_neg (by
    rw [h32, h40, h56, h64, h72, h80, hlen]
    simp
    omega), hfst]
  change (validate_directory _ _ _ _ _ _ _ >>= _) = _
  rw [hsnd]
  change (if content.packSize ≠ data.length then _ else _) = _
  rw [if_neg (by omega)]
  rfl

lemma exists_map_eq {β : Type} (f : α → β) (P : α → Prop) {bs : List β}
    (h : ∀ b ∈ bs, ∃ a, P a ∧ f a = b) : ∃ as : List α, as.map f = bs ∧ ∀ a ∈ as, P a := by
  induction bs with
  | nil => exact ⟨[], rfl, by simp⟩
  | cons b bs ih =>
    obtain ⟨a, ha, rfl⟩ := h b mem_cons_self
    obtain ⟨as, rfl, has⟩ := ih (forall_mem_cons.mp h).2
    refine ⟨a :: as, rfl, ?_⟩
    intro c hc
    rcases mem_cons.mp hc with rfl | hc
    · exact ha
    · exact has c hc

lemma sortedBy_of_digests
    (h : ((none : Option Bytes).toList ++ (items.map fun a => (digest a, bytes a)).map
      fun r => r.1.toList).IsChain fun a b => compare a b = .lt) :
    SortedBy (fun a => (digest a).toList) items := by
  rw [Option.toList_none, List.nil_append, List.map_map, List.isChain_map] at h
  exact sortedBy_iff_isChain.mpr h

lemma toList_digest_inj {a b : Digest} (h : a.toList = b.toList) : a = b :=
  Vector.toList_inj.mp h

lemma exists_entries_of_records
    (h : ∀ r ∈ rs, ∃ view, parse_entry rt sha256 r.2 r.1.toList true = .ok view) :
    ∃ entries : List OwnedEntry,
      (entries.map fun entry => (entry.variant_key_digest, entryBytes entry)) = rs ∧
      ∀ entry ∈ entries, EntryOk rt sha256 entry := by
  apply exists_map_eq
  intro r hr
  obtain ⟨view, hview⟩ := h r hr
  obtain ⟨entry, hok, hbytes, hdig, -⟩ := parse_entry_spec hview
  exact ⟨entry, hok, Prod.ext (toList_digest_inj hdig) hbytes.symm⟩

lemma exists_preprocesses_of_records
    (h : ∀ r ∈ rs, ∃ view, parse_preprocess sha256 r.2 r.1.toList true = .ok view) :
    ∃ preprocesses : List OwnedPreprocess,
      (preprocesses.map fun record => (record.request_digest, preprocessBytes record)) = rs ∧
      ∀ record ∈ preprocesses, PreprocessOk sha256 record := by
  apply exists_map_eq
  intro r hr
  obtain ⟨view, hview⟩ := h r hr
  obtain ⟨record, hok, hbytes, hdig, -⟩ := parse_preprocess_spec hview
  exact ⟨record, hok, Prod.ext (toList_digest_inj hdig) hbytes.symm⟩

/-- **Packs have one encoding.** What the reader accepts is the pack of its content. -/
theorem validate_pack_spec {layout : PackLayout} (h : validate_pack rt sha256 data = .ok layout) :
    ∃ content, ContentOk rt sha256 content ∧ data = content.packBytes sha256 ∧
      layout = content.layout := by
  unfold validate_pack ORACLE_PACK_DIGEST_SIZE ORACLE_PACK_HEADER_SIZE at h
  simp only [ite_error_eq_ok] at h
  obtain ⟨hlen16, h0, h8, hlen, h12, -, h16, hprints, h⟩ := h
  rw [not_not] at h0 h8 h12 h16
  simp only [not_or, not_not] at hprints
  obtain ⟨hcomp, henv, hdig, h184⟩ := hprints
  have hsize : data.length ≤ SIZE_MAX := h16 ▸ load_size_le data 16
  split at h
  · simp at h
  · rename_i d1 d2 d3 d4 hdirs
    obtain ⟨heq, hle⟩ := directory_layout_eq_some.mp hdirs
    obtain ⟨rfl, rfl, rfl, rfl⟩ : d1 = _ ∧ d2 = _ ∧ d3 = _ ∧ d4 = _ := by
      simpa only [Prod.mk.injEq] using heq
    obtain ⟨hflds, h⟩ := ite_error_eq_ok.mp h
    simp only [not_or, not_not] at hflds
    obtain ⟨h32, h40, h56, h64, h72, hpay, h80⟩ := hflds
    obtain ⟨cursor, hfst, h⟩ := bind_eq_ok.mp h
    obtain ⟨cursor', hsnd, h⟩ := bind_eq_ok.mp h
    obtain ⟨hend, hlay⟩ := ite_error_eq_ok.mp h
    rw [not_not] at hend
    obtain ⟨rs, hn, hdir, hparse, hchain, rfl⟩ := validate_directory_spec hsize (by omega)
      (by omega) (by simp) hfst
    obtain ⟨rs', hn', hdir', hparse', hchain', rfl⟩ := validate_directory_spec hsize (by omega)
      hdir.bound (by simp) hsnd
    obtain ⟨entries, rfl, hents⟩ := exists_entries_of_records hparse
    obtain ⟨preprocesses, rfl, hpres⟩ := exists_preprocesses_of_records hparse'
    rw [length_map] at hn hn'
    let content : PackContent :=
      { compiler_fingerprint := digestOf (slice data 88 32) (length_slice (by omega))
        environment_fingerprint := digestOf (slice data 120 32) (length_slice (by omega))
        entries := entries
        preprocesses := preprocesses }
    have hpayloadOffset : content.payloadOffset =
        192 + load_size data 24 * 48 + load_size data 48 * 48 := by
      rw [PackContent.payloadOffset, PackContent.preprocessDirectory, ← hn, ← hn']
    have hpackSize : content.packSize = data.length := by
      rw [← hend, ← hpayloadOffset]
      rfl
    have hbody : data.drop 192 = content.bodyBytes := by
      rw [PackContent.drop_eq_bodyBytes_iff hpackSize.symm, PackContent.preprocessOffset,
        hpayloadOffset, PackContent.preprocessDirectory,
        show content.entries.length = load_size data 24 from hn]
      rw [Nat.zero_mul, Nat.add_zero] at hdir hdir'
      exact ⟨hdir, hdir'⟩
    have hdata : data = content.packBytes sha256 := by
      have hdirectory : content.preprocessDirectory = 192 + load_size data 24 * 48 := by
        rw [PackContent.preprocessDirectory, ← hn]
      refine (PackContent.eq_packBytes_iff (hpackSize ▸ hsize) hpackSize.symm).mpr
        ⟨?_, hdig.symm, congrArg UInt64.toNat h184, hbody⟩
      unfold PackContent.FieldsAt
      rw [hpackSize, hpayloadOffset, hdirectory,
        show content.entries.length = load_size data 24 from hn,
        show content.preprocesses.length = load_size data 48 from hn']
      exact ⟨h0, h8, h12, h16, rfl, h32, h40, rfl, h56, h64, h72, h80, rfl, rfl⟩
    refine ⟨content, ⟨hcomp, henv, hents, hpres,
      sortedBy_of_digests hchain, sortedBy_of_digests hchain', hpackSize ▸ hsize⟩, hdata, ?_⟩
    rw [← Except.ok.inj hlay, PackContent.layout, PackContent.preprocessDirectory,
      show content.entries.length = load_size data 24 from hn,
      show content.preprocesses.length = load_size data 48 from hn']

/-! ## Lookups -/

/-- The search of a directory finds a digest where it is, and nothing when it is nowhere. -/
theorem search_directory_spec {digests : List Digest} {digest : Digest}
    (hdigests : ∀ k (h : k < digests.length), slice data
      (base + k * ORACLE_PACK_DIRECTORY_ENTRY_SIZE) ORACLE_PACK_DIGEST_SIZE = digests[k].toList)
    (hsorted : SortedBy Vector.toList digests) {low high : ℕ} (hhigh : high ≤ digests.length) :
    match search_directory data base digest low high with
    | some k => ∃ h : k < digests.length, digests[k] = digest
    | none => ∀ k (h : k < digests.length), low ≤ k → k < high → digests[k] ≠ digest := by
  have hlen : ∀ d d' : Digest, d.toList.length = d'.toList.length := by
    intro d d'
    rw [length_digest, length_digest]
  have hlt := pairwise_iff_getElem.mp hsorted
  fun_induction search_directory data base digest low high with
  | case1 low high hlow middle directory hcmp ih =>
    -- The digest is smaller than the middle one, so it is in the lower half.
    have hmid : middle < digests.length := by omega
    rw [show slice data directory _ = _ from hdigests middle hmid, memcmp_eq (hlen _ _)] at hcmp
    have ih := ih (by omega)
    split at ih
    · exact ih
    · rename_i hnone
      intro k hk hge hhi heq
      rcases Nat.lt_or_ge k middle with hkm | hkm
      · exact ih k hk hge hkm heq
      · rw [← heq] at hcmp
        rcases Nat.eq_or_lt_of_le hkm with rfl | hkm
        · rw [Std.ReflOrd.compare_self] at hcmp
          exact absurd hcmp (by decide)
        · have := compare_lt_trans hcmp (hlt middle k hmid hk hkm)
          rw [Std.ReflOrd.compare_self] at this
          exact absurd this (by decide)
  | case2 low high hlow middle directory hcmp ih =>
    -- The digest is greater than the middle one, so it is in the upper half.
    have hmid : middle < digests.length := by omega
    rw [show slice data directory _ = _ from hdigests middle hmid, memcmp_eq (hlen _ _)] at hcmp
    have ih := ih hhigh
    split at ih
    · exact ih
    · rename_i hnone
      intro k hk hge hhi heq
      rcases Nat.lt_or_ge middle k with hkm | hkm
      · exact ih k hk hkm hhi heq
      · rw [← heq] at hcmp
        have hcmp := Std.OrientedCmp.gt_iff_lt.mp hcmp
        rcases Nat.eq_or_lt_of_le hkm with rfl | hkm
        · rw [Std.ReflOrd.compare_self] at hcmp
          exact absurd hcmp (by decide)
        · have := compare_lt_trans hcmp (hlt k middle hk hmid hkm)
          rw [Std.ReflOrd.compare_self] at this
          exact absurd this (by decide)
  | case3 low high hlow middle directory hcmp =>
    have hmid : middle < digests.length := by omega
    rw [show slice data directory _ = _ from hdigests middle hmid, memcmp_eq (hlen _ _)] at hcmp
    exact ⟨hmid, (toList_digest_inj (Std.LawfulEqOrd.eq_of_compare hcmp)).symm⟩
  | case4 low high hlow =>
    intro k hk hge hhi
    omega

def PackContent.pack (content : PackContent) (sha256 : Bytes → Digest) : OraclePack where
  data := content.packBytes sha256
  layout := content.layout

include hok

lemma oracle_pack_open_memory_eq :
    oracle_pack_open_memory rt sha256 (content.packBytes sha256) = .ok (content.pack sha256) := by
  unfold oracle_pack_open_memory
  rw [validate_pack_accepts hok]
  rfl

lemma ContentOk.directories : (content.packBytes sha256).length ≤ SIZE_MAX ∧
      DirectoryAt (content.packBytes sha256) 192 content.payloadOffset content.entryRecords ∧
      DirectoryAt (content.packBytes sha256) content.preprocessDirectory
        content.preprocessOffset content.preprocessRecords := by
  have hlen := content.length_packBytes sha256
  obtain ⟨-, -, -, hbody⟩ :=
    (PackContent.eq_packBytes_iff hok.size_le hlen).mp (Eq.refl (content.packBytes sha256))
  exact ⟨hlen ▸ hok.size_le, (PackContent.drop_eq_bodyBytes_iff hlen).mp hbody⟩

omit hok in
lemma oracle_pack_authority_eq : oracle_pack_authority (content.pack sha256) =
      ⟨content.compiler_fingerprint.toList, content.environment_fingerprint.toList⟩ := by
  have hflds : (content.packBytes sha256).drop 0 = content.packBytes sha256 := drop_zero
  have hmagic : k_pack_magic.length = 8 := by decide
  simp only [PackContent.packBytes, PackContent.headFields, flatten_cons, flatten_nil,
    append_assoc, drop_eq_append_iff, length_leBytes, length_digest, hmagic, Nat.zero_add,
    Nat.reduceAdd] at hflds
  obtain ⟨-, -, -, -, -, -, -, -, -, -, -, -, h88, h120, -⟩ := hflds
  unfold oracle_pack_authority PackContent.pack ORACLE_PACK_DIGEST_SIZE
  simp only [PackContent.packBytes, PackContent.headFields, flatten_cons, flatten_nil, append_assoc]
  rw [h88, h120]
  rfl

lemma oracle_pack_entry_at_eq (index : ℕ) :
    oracle_pack_entry_at rt sha256 (content.pack sha256) index =
      if h : index < content.entries.length then .ok (entryView content.entries[index])
      else .error .notFound := by
  obtain ⟨hsize, hdir, -⟩ := hok.directories
  unfold oracle_pack_entry_at
  change (if content.entries.length ≤ index then Except.error OraclePackStatus.notFound else _) = _
  split_ifs with hle hlt hlt
  · omega
  · rfl
  · have hidx : index < content.entryRecords.length := by
      rw [PackContent.entryRecords, length_map]
      exact hlt
    have hrec := hdir.directory_record hsize hidx
    have hmem := getElem_mem hlt
    change parse_entry rt sha256 (directory_record (content.packBytes sha256) 192 index).1
      (directory_record (content.packBytes sha256) 192 index).2 false = _
    rw [hrec]
    simp only [PackContent.entryRecords, getElem_map]
    exact parse_entry_accepts (hok.entries _ hmem) (hok.entrySize_le hmem) false
  · omega

lemma oracle_pack_preprocess_at_eq (index : ℕ) :
    oracle_pack_preprocess_at sha256 (content.pack sha256) index =
      if h : index < content.preprocesses.length then
        .ok (preprocessView content.preprocesses[index])
      else .error .notFound := by
  obtain ⟨hsize, -, hdir⟩ := hok.directories
  unfold oracle_pack_preprocess_at
  change (if content.preprocesses.length ≤ index then Except.error OraclePackStatus.notFound
    else _) = _
  split_ifs with hle hlt hlt
  · omega
  · rfl
  · have hidx : index < content.preprocessRecords.length := by
      rw [PackContent.preprocessRecords, length_map]
      exact hlt
    have hrec := hdir.directory_record hsize hidx
    have hmem := getElem_mem hlt
    change parse_preprocess sha256
      (directory_record (content.packBytes sha256) content.preprocessDirectory index).1
      (directory_record (content.packBytes sha256) content.preprocessDirectory index).2 false = _
    rw [hrec]
    simp only [PackContent.preprocessRecords, getElem_map]
    exact parse_preprocess_accepts (hok.preprocesses _ hmem) (hok.preprocessSize_le hmem) false
  · omega

omit hok

lemma DirectoryAt.digests (h : DirectoryAt data base offset rs) (hsize : data.length ≤ SIZE_MAX)
    (hidx : index < (rs.map Prod.fst).length) :
    slice data (base + index * ORACLE_PACK_DIRECTORY_ENTRY_SIZE) ORACLE_PACK_DIGEST_SIZE =
      (rs.map Prod.fst)[index].toList := by
  rw [length_map] at hidx
  have hrec := congrArg Prod.snd (h.directory_record hsize hidx)
  rw [getElem_map]
  exact hrec

lemma DirectoryAt.search (h : DirectoryAt data base offset rs) (hsize : data.length ≤ SIZE_MAX)
    (hsorted : SortedBy (fun r => r.1.toList) rs) (digest : Digest) :
    (∃ k, ∃ hk : k < rs.length, search_directory data base digest 0 rs.length = some k ∧
      rs[k].1 = digest) ∨
    search_directory data base digest 0 rs.length = none ∧ ∀ r ∈ rs, r.1 ≠ digest := by
  have hsorted : SortedBy Vector.toList (rs.map Prod.fst) := by
    rw [SortedBy, pairwise_map]
    exact hsorted
  have hlen : (rs.map Prod.fst).length = rs.length := length_map _
  have hspec : match search_directory data base digest 0 rs.length with
      | some k => ∃ h : k < (rs.map Prod.fst).length, (rs.map Prod.fst)[k] = digest
      | none => ∀ k (h : k < (rs.map Prod.fst).length), 0 ≤ k → k < rs.length →
          (rs.map Prod.fst)[k] ≠ digest :=
    search_directory_spec (fun k hk => h.digests hsize hk) hsorted (Nat.le_of_eq hlen.symm)
  cases hsearch : search_directory data base digest 0 rs.length with
  | some k =>
    rw [hsearch] at hspec
    obtain ⟨hk, heq⟩ := hspec
    rw [getElem_map] at heq
    exact .inl ⟨k, hlen ▸ hk, rfl, heq⟩
  | none =>
    rw [hsearch] at hspec
    refine .inr ⟨rfl, ?_⟩
    intro r hr
    obtain ⟨k, hk, rfl⟩ := getElem_of_mem hr
    have hne := hspec k (hlen.symm ▸ hk) (Nat.zero_le k) hk
    rw [getElem_map] at hne
    exact hne

include hok

lemma oracle_pack_lookup_digest_eq (digest : Digest) :
    (∃ entry ∈ content.entries, entry.variant_key_digest = digest ∧
      oracle_pack_lookup_digest rt sha256 (content.pack sha256) digest = .ok (entryView entry)) ∨
    (∀ entry ∈ content.entries, entry.variant_key_digest ≠ digest) ∧
      oracle_pack_lookup_digest rt sha256 (content.pack sha256) digest = .error .notFound := by
  obtain ⟨hsize, hdir, -⟩ := hok.directories
  have hlen : content.entryRecords.length = content.entries.length := length_map _
  have hsorted : SortedBy (fun r : Digest × Bytes => r.1.toList) content.entryRecords := by
    rw [PackContent.entryRecords, SortedBy, pairwise_map]
    exact hok.entries_sorted
  have hlookup : oracle_pack_lookup_digest rt sha256 (content.pack sha256) digest =
      match search_directory (content.packBytes sha256) 192 digest 0 content.entries.length with
      | some middle => oracle_pack_entry_at rt sha256 (content.pack sha256) middle
      | none => .error .notFound := rfl
  rw [hlookup, ← hlen]
  obtain ⟨k, hk, hsearch, hdig⟩ | ⟨hsearch, hne⟩ := hdir.search hsize hsorted digest
  · rw [hsearch]
    dsimp only
    rw [hlen] at hk
    rw [oracle_pack_entry_at_eq hok, dif_pos hk]
    simp only [PackContent.entryRecords, getElem_map] at hdig
    exact .inl ⟨_, getElem_mem hk, hdig, rfl⟩
  · rw [hsearch]
    refine .inr ⟨?_, rfl⟩
    intro entry hent
    exact hne _ (mem_map_of_mem hent)

lemma oracle_pack_lookup_preprocess_digest_eq (digest : Digest) :
    (∃ record ∈ content.preprocesses, record.request_digest = digest ∧
      oracle_pack_lookup_preprocess_digest sha256 (content.pack sha256) digest =
        .ok (preprocessView record)) ∨
    (∀ record ∈ content.preprocesses, record.request_digest ≠ digest) ∧
      oracle_pack_lookup_preprocess_digest sha256 (content.pack sha256) digest =
        .error .notFound := by
  obtain ⟨hsize, -, hdir⟩ := hok.directories
  have hlen : content.preprocessRecords.length = content.preprocesses.length :=
    length_map _
  have hsorted : SortedBy (fun r : Digest × Bytes => r.1.toList) content.preprocessRecords := by
    rw [PackContent.preprocessRecords, SortedBy, pairwise_map]
    exact hok.preprocesses_sorted
  have hlookup : oracle_pack_lookup_preprocess_digest sha256 (content.pack sha256) digest =
      match search_directory (content.packBytes sha256) content.preprocessDirectory digest 0
        content.preprocesses.length with
      | some middle => oracle_pack_preprocess_at sha256 (content.pack sha256) middle
      | none => .error .notFound := rfl
  rw [hlookup, ← hlen]
  obtain ⟨k, hk, hsearch, hdig⟩ | ⟨hsearch, hne⟩ := hdir.search hsize hsorted digest
  · rw [hsearch]
    dsimp only
    rw [hlen] at hk
    rw [oracle_pack_preprocess_at_eq hok, dif_pos hk]
    simp only [PackContent.preprocessRecords, getElem_map] at hdig
    exact .inl ⟨_, getElem_mem hk, hdig, rfl⟩
  · rw [hsearch]
    refine .inr ⟨?_, rfl⟩
    intro record hrec
    exact hne _ (mem_map_of_mem hrec)

end DXBCSandbox
