/-
The records of an oracle pack.

`entryBytes` and `preprocessBytes` are the bytes of a compile entry and of a preprocess
record. The writer stores them into the zeros of its buffer. The reader accepts exactly
these bytes, and its views show the parts of the record.
-/
import DXBCSandbox.Common.OraclePackMetadata

namespace DXBCSandbox

open List Option Checks

/-! ## Compile entries -/

variable (entry : OwnedEntry)

def glcoreFlag : ℕ := if 0 < entry.linked_glcore.length then 1 else 0

def entrySize : ℕ :=
  136 + entry.variant_key.length + entry.stripped_dxbc.length + entry.linked_glcore.length +
    entry.transcript.length + entry.metadata.length

def entryHeader : List Bytes :=
  [k_entry_magic, leBytes 4 4, leBytes 4 136, leBytes 8 (entrySize entry),
    leBytes 4 (glcoreFlag entry), leBytes 4 0, leBytes 8 entry.variant_key.length,
    leBytes 8 entry.stripped_dxbc.length, leBytes 8 entry.linked_glcore.length,
    leBytes 8 entry.transcript.length, leBytes 8 entry.metadata.length,
    entry.variant_key_digest.toList, entry.transcript_digest.toList]

/-- An entry in a pack: its header and its parts. -/
def entryBytes : Bytes := (entryHeader entry ++ entry.parts).flatten

@[simp] lemma length_k_entry_magic : k_entry_magic.length = 8 := by decide

lemma length_digest (digest : Digest) : digest.toList.length = 32 := by
  rw [Vector.length_toList]
  rfl

lemma length_entryHeader : (entryHeader entry).flatten.length = 136 := by
  simp only [entryHeader, flatten_cons, flatten_nil, length_append, length_nil,
    length_leBytes, length_digest, length_k_entry_magic]

lemma length_entryBytes : (entryBytes entry).length = entrySize entry := by
  rw [entryBytes, flatten_append, length_append, length_entryHeader]
  simp only [OwnedEntry.parts, flatten_cons, flatten_nil, length_append, length_nil, entrySize]
  omega

variable {data : Bytes} {entry : OwnedEntry}

/-- Bytes of the length of an entry are its bytes exactly when the fields and the parts are there. -/
theorem eq_entryBytes_iff (hsize : entrySize entry ≤ SIZE_MAX)
    (hlen : data.length = entrySize entry) :
    data = entryBytes entry ↔
      slice data 0 8 = k_entry_magic ∧ load_le32 data 8 = ORACLE_PACK_FORMAT_VERSION ∧
      (load_le32 data 12).toNat = 136 ∧ load_size data 16 = entrySize entry ∧
      (load_le32 data 24).toNat = glcoreFlag entry ∧ load_le32 data 28 = 0 ∧
      load_size data 32 = entry.variant_key.length ∧
      load_size data 40 = entry.stripped_dxbc.length ∧
      load_size data 48 = entry.linked_glcore.length ∧
      load_size data 56 = entry.transcript.length ∧ load_size data 64 = entry.metadata.length ∧
      slice data 72 32 = entry.variant_key_digest.toList ∧
      slice data 104 32 = entry.transcript_digest.toList ∧
      slice data 136 entry.variant_key.length = entry.variant_key ∧
      slice data (136 + entry.variant_key.length) entry.stripped_dxbc.length = entry.stripped_dxbc ∧
      slice data (136 + entry.variant_key.length + entry.stripped_dxbc.length)
        entry.linked_glcore.length = entry.linked_glcore ∧
      slice data (136 + entry.variant_key.length + entry.stripped_dxbc.length +
        entry.linked_glcore.length) entry.transcript.length = entry.transcript ∧
      slice data (136 + entry.variant_key.length + entry.stripped_dxbc.length +
        entry.linked_glcore.length + entry.transcript.length) entry.metadata.length =
        entry.metadata := by
  have hzero : data = entryBytes entry ↔ data.drop 0 = entryBytes entry := by
    rw [drop_zero]
  have hflag : glcoreFlag entry < 2 ^ 32 := by
    unfold glcoreFlag
    split_ifs <;> decide
  have hend : data.drop (entrySize entry) = [] ↔ True := by simp [hlen]
  rw [hzero]
  unfold entrySize at *
  simp only [entryBytes, entryHeader, OwnedEntry.parts, cons_append, nil_append,
    flatten_cons, flatten_nil, drop_eq_append_iff, length_leBytes, length_digest,
    length_k_entry_magic, Nat.zero_add, Nat.reduceAdd, hend, and_true]
  simp (disch := omega) only [slice_eq_word, slice_eq_size, ← UInt32.toNat_inj, entrySize]
  rfl

def startsFrom (offset : ℕ) : List ℕ → List ℕ
  | [] => []
  | length :: lengths => offset :: startsFrom (offset + length) lengths

lemma entry_starts_eq_some {size offset e : ℕ} {lengths starts : List ℕ}
    (hsize : size ≤ SIZE_MAX) (hpos : 0 < offset) (hoff : offset ≤ size) :
    entry_starts size offset lengths = some (starts, e) ↔
      starts = startsFrom offset lengths ∧ e = offset + lengths.sum ∧ e ≤ size := by
  induction lengths generalizing offset starts with
  | nil =>
    rw [entry_starts, some.injEq, Prod.mk.injEq]
    simp only [startsFrom, sum_nil, Nat.add_zero]
    constructor
    · rintro ⟨rfl, rfl⟩
      exact ⟨rfl, rfl, hoff⟩
    · rintro ⟨rfl, rfl, -⟩
      exact ⟨rfl, rfl⟩
  | cons length lengths ih =>
    rw [entry_starts, startsFrom, sum_cons]
    cases hadd : add_size offset length with
    | none =>
      have hbig : ¬ offset + length ≤ SIZE_MAX := by
        intro hle
        rw [(add_size_eq_some (.inr hpos)).mpr ⟨rfl, hle⟩] at hadd
        simp at hadd
      constructor
      · intro h
        simp at h
      · rintro ⟨-, rfl, hle⟩
        omega
    | some next =>
      obtain ⟨rfl, hnext⟩ := (add_size_eq_some (.inr hpos)).mp hadd
      dsimp only
      split_ifs with hbig
      · constructor
        · intro h
          simp at h
        · rintro ⟨-, rfl, hle⟩
          omega
      · rw [map_eq_some_iff]
        constructor
        · rintro ⟨⟨ss, e'⟩, hrest, heq⟩
          obtain ⟨rfl, rfl⟩ := Prod.mk.inj heq
          obtain ⟨rfl, rfl, hle⟩ := (ih (by omega) (by omega)).mp hrest
          exact ⟨rfl, by omega, hle⟩
        · rintro ⟨rfl, rfl, hle⟩
          refine ⟨(startsFrom (offset + length) lengths, _), ?_, rfl⟩
          exact (ih (by omega) (by omega)).mpr ⟨rfl, by omega, hle⟩

lemma flags_eq {flags : UInt32} (h : flags &&& ~~~ORACLE_PACK_KNOWN_FLAGS = 0) :
    flags.toNat = if flags &&& ORACLE_PACK_FLAG_GLCORE_PRESENT ≠ 0 then 1 else 0 := by
  have hmod : (flags &&& ORACLE_PACK_FLAG_GLCORE_PRESENT).toNat = flags.toNat % 2 := by
    rw [ORACLE_PACK_FLAG_GLCORE_PRESENT, UInt32.toNat_and]
    exact Nat.and_one_is_mod _
  have hspl : flags = flags &&& ORACLE_PACK_FLAG_GLCORE_PRESENT := by
    calc flags = flags &&& (~~~ORACLE_PACK_KNOWN_FLAGS ||| ORACLE_PACK_KNOWN_FLAGS) := by
          rw [UInt32.or_comm, UInt32.or_not_self, UInt32.and_neg_one]
      _ = (flags &&& ~~~ORACLE_PACK_KNOWN_FLAGS) ||| (flags &&& ORACLE_PACK_KNOWN_FLAGS) :=
          UInt32.toBitVec_inj.mp BitVec.and_or_distrib_left
      _ = flags &&& ORACLE_PACK_FLAG_GLCORE_PRESENT := by
          rw [h, UInt32.zero_or, ORACLE_PACK_KNOWN_FLAGS]
  have hsmall : flags.toNat < 2 := by
    rw [hspl, hmod]
    exact Nat.mod_lt _ (by decide)
  rw [← hspl]
  split_ifs with hne
  · have hpos : flags.toNat ≠ 0 := fun hzero => hne (UInt32.toNat_inj.mp hzero)
    omega
  · rw [not_not] at hne
    rw [hne]
    rfl

def digestOf (bytes : Bytes) (h : bytes.length = 32) : Digest :=
  ⟨bytes.toArray, by rw [List.size_toArray, h]; rfl⟩

variable {digest : Bytes}

section Entries

variable {rt : UnityCommon} {sha256 : Bytes → Digest}

/-- What the reader checks of an entry. -/
structure EntryOk (rt : UnityCommon) (sha256 : Bytes → Digest) (entry : OwnedEntry) :
    Prop where
  variant_key : validate_variant_key_bytes sha256 entry.variant_key
    entry.variant_key_digest.toList = true
  dxbc : validate_dxbc rt entry.stripped_dxbc = true
  transcript_ne : entry.transcript.length ≠ 0
  transcript_digest : entry.transcript_digest = sha256 entry.transcript
  metadata : ∃ canonical ps, MetadataOk canonical ps ∧ entry.metadata = metadataBytes canonical ps

def entryView (entry : OwnedEntry) : OraclePackEntryView where
  variant_key_bytes := view_bytes entry.variant_key
  variant_key_digest := entry.variant_key_digest.toList
  stripped_dxbc := view_bytes entry.stripped_dxbc
  linked_glcore := optional_view entry.linked_glcore
  compile_request_transcript := view_bytes entry.transcript
  compile_request_digest := entry.transcript_digest.toList
  normalized_metadata_bytes := view_bytes entry.metadata

lemma validate_variant_key_bytes_length
    (h : validate_variant_key_bytes sha256 data digest = true) : 20 ≤ data.length := by
  unfold validate_variant_key_bytes at h
  split_ifs at h with hbad
  omega

lemma validate_dxbc_length (h : validate_dxbc rt data = true) : data.length ≠ 0 := by
  unfold validate_dxbc at h
  split_ifs at h with hbad
  exact hbad

lemma EntryOk.metadata_length (hok : EntryOk rt sha256 entry) : 40 ≤ entry.metadata.length := by
  obtain ⟨canonical, ps, -, heq⟩ := hok.metadata
  rw [heq, length_metadataBytes, metadataSize]
  omega

/-- The bytes of a checked entry are accepted and show it. -/
lemma parse_entry_accepts (hok : EntryOk rt sha256 entry) (hsize : entrySize entry ≤ SIZE_MAX)
    (validate_payload : Bool) :
    parse_entry rt sha256 (entryBytes entry) entry.variant_key_digest.toList validate_payload =
      .ok (entryView entry) := by
  have hkey := validate_variant_key_bytes_length hok.variant_key
  have hdxbc := validate_dxbc_length hok.dxbc
  have htr := hok.transcript_ne
  have hmeta := hok.metadata_length
  have hlen := length_entryBytes entry
  obtain ⟨canonical, ps, hmok, hmeq⟩ := hok.metadata
  have hparse := parse_metadata_envelope hmok
  rw [← hmeq] at hparse
  obtain ⟨h0, h8, h12, h16, h24, h28, h32, h40, h48, h56, h64, h72, h104, p0, p1, p2, p3, p4⟩ :=
    (eq_entryBytes_iff hsize hlen).mp (Eq.refl (entryBytes entry))
  have hflags : load_le32 (entryBytes entry) 24 =
      if entry.linked_glcore.length ≠ 0 then 1 else 0 := by
    apply UInt32.toNat_inj.mp
    rw [h24, glcoreFlag]
    split_ifs
    · rfl
    · omega
    · omega
    · rfl
  have hlens : (range 5).map (fun i => load_size (entryBytes entry) (32 + i * 8)) =
      [entry.variant_key.length, entry.stripped_dxbc.length, entry.linked_glcore.length,
        entry.transcript.length, entry.metadata.length] := by
    simp only [range, range.loop, map_cons, map_nil, Nat.zero_mul,
      Nat.reduceMul, Nat.reduceAdd, Nat.add_zero, h32, h40, h48, h56, h64]
  have hstarts : entry_starts (entryBytes entry).length ORACLE_PACK_ENTRY_HEADER_SIZE
      [entry.variant_key.length, entry.stripped_dxbc.length, entry.linked_glcore.length,
        entry.transcript.length, entry.metadata.length] =
      some (startsFrom 136 [entry.variant_key.length, entry.stripped_dxbc.length,
        entry.linked_glcore.length, entry.transcript.length, entry.metadata.length],
        entrySize entry) := by
    refine (entry_starts_eq_some (by omega) (by decide) ?_).mpr ⟨rfl, ?_, by omega⟩
    · rw [hlen, entrySize, ORACLE_PACK_ENTRY_HEADER_SIZE]
      omega
    · simp only [sum_cons, sum_nil, entrySize, ORACLE_PACK_ENTRY_HEADER_SIZE]
      omega
  unfold parse_entry
  rw [if_neg (by
    rw [h0, h8, h12, h16, h28, hlen, entrySize, ORACLE_PACK_ENTRY_HEADER_SIZE]
    simp
    omega)]
  dsimp only
  rw [if_neg (by
    rw [hflags]
    split_ifs <;> decide), if_neg (by
    simp only [Nat.zero_mul, Nat.reduceMul, Nat.reduceAdd, Nat.add_zero, Nat.one_mul, h32, h40,
      h48, h56, h64, h72, hflags]
    rintro (h | h | h | h | h | h)
    · omega
    · omega
    · omega
    · omega
    · apply h
      split_ifs with hne
      · exact ⟨fun _ => hne, fun _ => by decide⟩
      · exact ⟨fun h => absurd h (by decide), fun h => absurd h hne⟩
    · exact h rfl)]
  rw [hlens, hstarts]
  dsimp only
  rw [if_neg (by rw [hlen]; simp)]
  simp only [startsFrom, getD_cons_zero, getD_cons_succ, Nat.zero_mul, Nat.reduceMul,
    Nat.reduceAdd, Nat.add_zero, Nat.one_mul, h32, h40, h48, h56, h64, p0, p1, p2, p3, p4, h72,
    h104]
  rw [if_neg (by
    rw [hok.variant_key, hok.dxbc]
    simp), if_neg (by
    rw [hok.transcript_digest, hparse]
    simp [Except.toOption])]
  rfl

/-- Whatever is accepted is the bytes of a checked entry. -/
lemma parse_entry_spec {view : OraclePackEntryView}
    (h : parse_entry rt sha256 data digest true = .ok view) :
    ∃ entry : OwnedEntry, EntryOk rt sha256 entry ∧ data = entryBytes entry ∧
      entry.variant_key_digest.toList = digest ∧ entrySize entry ≤ SIZE_MAX := by
  unfold parse_entry at h
  obtain ⟨hhdr, h⟩ := ite_error_eq_ok.mp h
  rw [not_or, not_or, not_or, not_or, not_or, not_not, not_not, not_not, not_not, not_not] at hhdr
  obtain ⟨hlen, h0, h8, h12, h16, h28⟩ := hhdr
  unfold ORACLE_PACK_ENTRY_HEADER_SIZE at hlen h12 h
  dsimp only at h
  obtain ⟨hflags, h⟩ := ite_error_eq_ok.mp h
  obtain ⟨hlens, h⟩ := ite_error_eq_ok.mp h
  rw [not_not] at hflags
  simp only [Nat.zero_mul, Nat.reduceMul, Nat.reduceAdd, Nat.add_zero, Nat.one_mul, not_or,
    not_not] at hlens
  obtain ⟨l0, l1, l3, l4, hglcore, h72⟩ := hlens
  have hsize : data.length ≤ SIZE_MAX := h16 ▸ load_size_le data 16
  cases hstarts : entry_starts data.length 136
      ((range 5).map fun i => load_size data (32 + i * 8)) with
  | none =>
    rw [hstarts] at h
    simp at h
  | some found =>
    obtain ⟨starts, e⟩ := found
    rw [hstarts] at h
    dsimp only at h
    obtain ⟨hend, h⟩ := ite_error_eq_ok.mp h
    obtain ⟨hkey, h⟩ := ite_error_eq_ok.mp h
    obtain ⟨htr, -⟩ := ite_error_eq_ok.mp h
    rw [not_not] at hend
    obtain ⟨rfl, he, hle⟩ := (entry_starts_eq_some hsize (by decide) (by omega)).mp hstarts
    simp only [range, range.loop, map_cons, map_nil, sum_cons,
      sum_nil, startsFrom, getD_cons_zero, getD_cons_succ, Nat.zero_mul,
      Nat.reduceMul, Nat.reduceAdd, Nat.add_zero, Nat.one_mul, not_and, not_or, not_not,
      true_implies] at he hkey htr
    obtain ⟨hkey, hdxbc⟩ := hkey
    obtain ⟨htr, hmeta⟩ := htr
    generalize h32 : load_size data 32 = n0 at l0 he hkey hdxbc htr hmeta
    generalize h40 : load_size data 40 = n1 at l1 he hdxbc htr hmeta
    generalize h48 : load_size data 48 = n2 at hglcore he htr hmeta
    generalize h56 : load_size data 56 = n3 at l3 he htr hmeta
    generalize h64 : load_size data 64 = n4 at l4 he hmeta
    have hn0 : (slice data 136 n0).length = n0 := length_slice (by omega)
    have hn1 : (slice data (136 + n0) n1).length = n1 := length_slice (by omega)
    have hn2 : (slice data (136 + n0 + n1) n2).length = n2 := length_slice (by omega)
    have hn3 : (slice data (136 + n0 + n1 + n2) n3).length = n3 := length_slice (by omega)
    have hn4 : (slice data (136 + n0 + n1 + n2 + n3) n4).length = n4 := length_slice (by omega)
    let entry : OwnedEntry :=
      { variant_key := slice data 136 n0
        variant_key_digest := digestOf (slice data 72 32) (length_slice (by omega))
        stripped_dxbc := slice data (136 + n0) n1
        linked_glcore := slice data (136 + n0 + n1) n2
        transcript := slice data (136 + n0 + n1 + n2) n3
        transcript_digest := sha256 (slice data (136 + n0 + n1 + n2) n3)
        metadata := slice data (136 + n0 + n1 + n2 + n3) n4 }
    have hent : entrySize entry = data.length := by
      simp only [entrySize, entry, hn0, hn1, hn2, hn3, hn4]
      omega
    have hflag : glcoreFlag entry = (load_le32 data 24).toNat := by
      rw [flags_eq hflags, glcoreFlag]
      simp only [entry, hn2, hglcore]
      split_ifs
      · rfl
      · omega
      · omega
      · rfl
    have hparse : ∃ layout, parse_metadata_bytes (slice data (136 + n0 + n1 + n2 + n3) n4) =
        .ok layout := by
      rw [parse_metadata_eq_bytes (by omega)] at hmeta
      cases hp : parse_metadata_bytes (slice data (136 + n0 + n1 + n2 + n3) n4) with
      | error status =>
        rw [hp] at hmeta
        exact absurd rfl hmeta
      | ok layout => exact ⟨layout, rfl⟩
    obtain ⟨layout, hparse⟩ := hparse
    refine ⟨entry, ⟨?_, hdxbc, ?_, rfl, parse_metadata_bytes_spec hparse⟩, ?_, h72, hent ▸ hsize⟩
    · rw [show entry.variant_key_digest.toList = digest from h72]
      exact hkey
    · simp only [entry, hn3]
      exact l3
    · rw [eq_entryBytes_iff (hent ▸ hsize) hent.symm, hent, hflag]
      simp only [entry, hn0, hn1, hn2, hn3, hn4]
      exact ⟨h0, h8, h12, h16, trivial, h28, h32, h40, h48, h56, h64, rfl, htr.symm, trivial, trivial,
        trivial, trivial, trivial⟩

end Entries

/-! ## Preprocess records -/

variable (record : OwnedPreprocess)

def preprocessSize : ℕ :=
  112 + record.transcript.length + record.result.length

def preprocessFields : List Bytes :=
  [k_preprocess_magic, leBytes 4 4, leBytes 4 112, leBytes 8 (preprocessSize record),
    leBytes 4 0, leBytes 4 0, leBytes 8 record.transcript.length, leBytes 8 record.result.length,
    record.request_digest.toList, record.result_digest.toList, record.transcript, record.result]

/-- A preprocess record in a pack. -/
def preprocessBytes : Bytes := (preprocessFields record).flatten

@[simp] lemma length_k_preprocess_magic : k_preprocess_magic.length = 8 := by decide

lemma length_preprocessBytes : (preprocessBytes record).length = preprocessSize record := by
  simp only [preprocessBytes, preprocessFields, flatten_cons, flatten_nil,
    length_append, length_nil, length_leBytes, length_digest,
    length_k_preprocess_magic, preprocessSize]
  omega

variable {record : OwnedPreprocess}

lemma eq_preprocessBytes_iff (hsize : preprocessSize record ≤ SIZE_MAX)
    (hlen : data.length = preprocessSize record) :
    data = preprocessBytes record ↔
      slice data 0 8 = k_preprocess_magic ∧ load_le32 data 8 = ORACLE_PACK_FORMAT_VERSION ∧
      (load_le32 data 12).toNat = 112 ∧ load_size data 16 = preprocessSize record ∧
      load_le32 data 24 = 0 ∧ load_le32 data 28 = 0 ∧
      load_size data 32 = record.transcript.length ∧ load_size data 40 = record.result.length ∧
      slice data 48 32 = record.request_digest.toList ∧
      slice data 80 32 = record.result_digest.toList ∧
      slice data 112 record.transcript.length = record.transcript ∧
      slice data (112 + record.transcript.length) record.result.length = record.result := by
  have hzero : data = preprocessBytes record ↔ data.drop 0 = preprocessBytes record := by
    rw [drop_zero]
  have hend : data.drop (preprocessSize record) = [] ↔ True := by simp [hlen]
  rw [hzero]
  unfold preprocessSize at *
  simp only [preprocessBytes, preprocessFields, flatten_cons, flatten_nil,
    drop_eq_append_iff, length_leBytes, length_digest, length_k_preprocess_magic, Nat.zero_add,
    Nat.reduceAdd, hend, and_true]
  simp (disch := omega) only [slice_eq_word, slice_eq_size, ← UInt32.toNat_inj, preprocessSize]
  rfl

section Preprocesses

variable {sha256 : Bytes → Digest}

structure PreprocessOk (sha256 : Bytes → Digest) (record : OwnedPreprocess) : Prop where
  transcript_ne : record.transcript.length ≠ 0
  result_ne : record.result.length ≠ 0
  request_digest : record.request_digest = sha256 record.transcript
  result_digest : record.result_digest = sha256 record.result

def preprocessView (record : OwnedPreprocess) : OraclePackPreprocessView where
  request_transcript := view_bytes record.transcript
  request_digest := record.request_digest.toList
  serialized_result := view_bytes record.result
  result_digest := record.result_digest.toList

lemma parse_preprocess_accepts (hok : PreprocessOk sha256 record)
    (hsize : preprocessSize record ≤ SIZE_MAX) (validate_payload : Bool) :
    parse_preprocess sha256 (preprocessBytes record) record.request_digest.toList
      validate_payload = .ok (preprocessView record) := by
  have htr := hok.transcript_ne
  have hres := hok.result_ne
  have hlen := length_preprocessBytes record
  obtain ⟨h0, h8, h12, h16, h24, h28, h32, h40, h48, h80, p0, p1⟩ :=
    (eq_preprocessBytes_iff hsize hlen).mp (Eq.refl (preprocessBytes record))
  have hsize' := hsize
  unfold preprocessSize at hsize'
  have hsizes : (do
      let result_offset ← add_size ORACLE_PACK_PREPROCESS_HEADER_SIZE record.transcript.length
      let end_offset ← add_size result_offset record.result.length
      pure (result_offset, end_offset)) =
      some (112 + record.transcript.length, preprocessSize record) := by
    apply bind_eq_some_iff.mpr
    refine ⟨112 + record.transcript.length,
      (add_size_eq_some (.inr (by decide))).mpr ⟨rfl, by omega⟩, ?_⟩
    apply bind_eq_some_iff.mpr
    exact ⟨preprocessSize record, (add_size_eq_some (.inr (by omega))).mpr ⟨rfl, hsize⟩, rfl⟩
  unfold parse_preprocess
  rw [if_neg (by
    rw [h0, h8, h12, h16, h24, h28, hlen, preprocessSize, ORACLE_PACK_PREPROCESS_HEADER_SIZE]
    simp
    omega)]
  dsimp only
  rw [h32, h40, h48, if_neg (by
    simp only [not_or, not_not]
    exact ⟨htr, hres, trivial⟩), hsizes]
  dsimp only
  unfold ORACLE_PACK_PREPROCESS_HEADER_SIZE
  rw [if_neg (by rw [hlen]; simp), p0, p1, h80, if_neg (by rw [hok.request_digest]; simp),
    if_neg (by rw [hok.result_digest]; simp)]
  rfl

lemma parse_preprocess_spec {view : OraclePackPreprocessView}
    (h : parse_preprocess sha256 data digest true = .ok view) :
    ∃ record : OwnedPreprocess, PreprocessOk sha256 record ∧ data = preprocessBytes record ∧
      record.request_digest.toList = digest ∧ preprocessSize record ≤ SIZE_MAX := by
  unfold parse_preprocess at h
  obtain ⟨hhdr, h⟩ := ite_error_eq_ok.mp h
  rw [not_or, not_or, not_or, not_or, not_or, not_or, not_not, not_not, not_not, not_not, not_not,
    not_not] at hhdr
  obtain ⟨hlen, h0, h8, h12, h16, h24, h28⟩ := hhdr
  unfold ORACLE_PACK_PREPROCESS_HEADER_SIZE at hlen h12 h
  dsimp only at h
  obtain ⟨hlens, h⟩ := ite_error_eq_ok.mp h
  rw [not_or, not_or, not_not] at hlens
  obtain ⟨l0, l1, h48⟩ := hlens
  have hsize : data.length ≤ SIZE_MAX := h16 ▸ load_size_le data 16
  split at h
  · simp at h
  · rename_i result_offset end_offset hsizes
    obtain ⟨hend, h⟩ := ite_error_eq_ok.mp h
    obtain ⟨hreq, h⟩ := ite_error_eq_ok.mp h
    obtain ⟨hres, -⟩ := ite_error_eq_ok.mp h
    obtain ⟨t1, hadd, hsizes⟩ := bind_eq_some_iff.mp hsizes
    obtain ⟨t2, hadd', hsizes⟩ := bind_eq_some_iff.mp hsizes
    obtain ⟨rfl, rfl⟩ := Prod.mk.inj (some.inj hsizes)
    obtain ⟨rfl, hle⟩ := (add_size_eq_some (.inr (by decide))).mp hadd
    obtain ⟨rfl, hle'⟩ := (add_size_eq_some (.inr (by omega))).mp hadd'
    simp only [true_and, not_not] at hend hreq hres
    have hn0 : (slice data 112 (load_size data 32)).length = load_size data 32 :=
      length_slice (by omega)
    have hn1 : (slice data (112 + load_size data 32) (load_size data 40)).length =
        load_size data 40 := length_slice (by omega)
    let record : OwnedPreprocess :=
      { transcript := slice data 112 (load_size data 32)
        request_digest := sha256 (slice data 112 (load_size data 32))
        result := slice data (112 + load_size data 32) (load_size data 40)
        result_digest := sha256 (slice data (112 + load_size data 32) (load_size data 40)) }
    have hrec : preprocessSize record = data.length := by
      simp only [preprocessSize, record, hn0, hn1]
      omega
    refine ⟨record, ⟨?_, ?_, rfl, rfl⟩, ?_, ?_, hrec ▸ hsize⟩
    · simp only [record, hn0]
      exact l0
    · simp only [record, hn1]
      exact l1
    · rw [eq_preprocessBytes_iff (hrec ▸ hsize) hrec.symm, hrec]
      simp only [record, hn0, hn1]
      exact ⟨h0, h8, h12, h16, h24, h28, trivial, trivial, hreq.symm, hres.symm, trivial, trivial⟩
    · rw [← h48]
      exact hreq

end Preprocesses

/-! ## Stores -/

lemma copy_entry_bytes_eq (data : Bytes) (encoded offset : ℕ) (fields : List Bytes) :
    copy_entry_bytes data encoded offset fields = store_chunks data (encoded + offset) fields := by
  induction fields generalizing data offset with
  | nil => rfl
  | cons field fields ih =>
    rw [copy_entry_bytes, store_chunks]
    split_ifs with h
    · rw [ih, Nat.add_assoc]
    · obtain rfl : field = [] := length_eq_zero_iff.mp (by omega)
      rw [ih, overwrite_nil]
      rfl

variable {encoded : ℕ}

lemma store_entry_zeros (entry : OwnedEntry) (hsize : entrySize entry ≤ SIZE_MAX)
    (a c : Bytes) {n : ℕ} (hn : entrySize entry ≤ n) (hencoded : encoded = a.length) :
    store_entry (a ++ (List.replicate n 0 ++ c)) encoded entry (entrySize entry) =
      (a ++ entryBytes entry) ++ (List.replicate (n - entrySize entry) 0 ++ c) := by
  have hsize' := hsize
  unfold entrySize at hsize'
  have hflag : (if 0 < entry.linked_glcore.length then ORACLE_PACK_FLAG_GLCORE_PRESENT
      else 0).toNat = glcoreFlag entry := by
    unfold glcoreFlag
    split_ifs <;> rfl
  have hstores : ∀ data, store_entry data encoded entry (entrySize entry) =
      store_chunks data encoded (entryHeader entry ++ entry.parts) := by
    intro data
    rw [store_chunks_append, length_entryHeader]
    unfold store_entry ORACLE_PACK_ENTRY_HEADER_SIZE
    dsimp only
    rw [copy_entry_bytes_eq, store_size_eq _ _ hsize, store_size_eq _ _ (by omega),
      store_size_eq _ _ (by omega), store_size_eq _ _ (by omega), store_size_eq _ _ (by omega),
      store_size_eq _ _ (by omega), store_le32_eq, store_le32_eq, store_le32_eq, store_le32_eq,
      hflag]
    simp only [entryHeader, store_chunks, length_leBytes, length_digest, length_k_entry_magic,
      Nat.add_assoc, Nat.reduceAdd]
    rfl
  rw [hstores, store_chunks_zeros _ _ _ (by
    rw [← entryBytes, length_entryBytes]
    exact hn) hencoded, ← entryBytes, length_entryBytes]

/-- A preprocess record, stored into an area of zeros. Two of its words are not stored. -/
theorem store_preprocess_zeros (record : OwnedPreprocess) (hsize : preprocessSize record ≤ SIZE_MAX)
    (a c : Bytes) {n : ℕ} (hn : preprocessSize record ≤ n) (hencoded : encoded = a.length) :
    store_preprocess (a ++ (List.replicate n 0 ++ c)) encoded record (preprocessSize record) =
      (a ++ preprocessBytes record) ++ (List.replicate (n - preprocessSize record) 0 ++ c) := by
  have hsize' := hsize
  unfold preprocessSize at hsize' hn
  let front := [k_preprocess_magic, leBytes 4 4, leBytes 4 112, leBytes 8 (preprocessSize record)]
  let back := [leBytes 8 record.transcript.length, leBytes 8 record.result.length,
    record.request_digest.toList, record.result_digest.toList, record.transcript, record.result]
  have hfront : front.flatten.length = 24 := by
    simp only [front, flatten_cons, flatten_nil, length_append, length_nil,
      length_leBytes, length_k_preprocess_magic]
  have hback : back.flatten.length = 80 + record.transcript.length + record.result.length := by
    simp only [back, flatten_cons, flatten_nil, length_append, length_nil,
      length_leBytes, length_digest]
    omega
  have hstores : ∀ data, store_preprocess data encoded record (preprocessSize record) =
      store_chunks (store_chunks data encoded front) (encoded + 32) back := by
    intro data
    unfold store_preprocess ORACLE_PACK_PREPROCESS_HEADER_SIZE
    dsimp only
    rw [store_size_eq _ _ hsize, store_size_eq _ _ (by omega), store_size_eq _ _ (by omega),
      store_le32_eq, store_le32_eq]
    simp only [front, back, store_chunks, length_leBytes, length_digest,
      length_k_preprocess_magic, Nat.add_assoc, Nat.reduceAdd]
    rfl
  have hgap : replicate (n - 24) (0 : UInt8) =
      (leBytes 4 0 ++ leBytes 4 0) ++ replicate (n - 32) 0 := by
    rw [show leBytes 4 0 ++ leBytes 4 0 = replicate 8 (0 : UInt8) by decide,
      replicate_append_replicate]
    congr 1
    omega
  have hcnt : n - 32 - (80 + record.transcript.length + record.result.length) =
      n - (112 + record.transcript.length + record.result.length) := by omega
  have hbytes : preprocessBytes record =
      front.flatten ++ ((leBytes 4 0 ++ leBytes 4 0) ++ back.flatten) := by
    simp [preprocessBytes, preprocessFields, front, back]
  rw [hstores, store_chunks_zeros front a c (by omega) hencoded, hfront, hgap, append_assoc
    (leBytes 4 0 ++ leBytes 4 0), ← append_assoc (a ++ front.flatten),
    store_chunks_zeros back _ c (by omega) (by
      simp only [length_append, length_leBytes]
      omega), hback, hbytes, preprocessSize, hcnt]
  simp only [append_assoc]

end DXBCSandbox
