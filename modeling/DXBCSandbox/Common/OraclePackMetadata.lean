/-
The metadata envelope of an oracle pack.

`metadataBytes` is the envelope of canonical bytes and precision records. The writer
produces it for the records sorted by key. The reader accepts a byte string exactly when
it is the envelope of records that are sorted by key.
-/
import DXBCSandbox.Common.Fields
import DXBCSandbox.Lib.KeySort
import Mathlib.Data.List.Chain

namespace DXBCSandbox

open List Option Checks

/-! ## Comparison -/

lemma memcmp_eq {a b : Bytes} (h : a.length = b.length) : memcmp a b = compare a b := by
  induction a generalizing b with
  | nil =>
    obtain rfl : b = [] := length_eq_zero_iff.mp h.symm
    rfl
  | cons x a ih =>
    cases b with
    | nil => simp at h
    | cons y b => rw [memcmp, ih (by simpa using h), List.compare_cons_cons]

/-- Comparing up to the shorter length and then the lengths is the lexicographic order. -/
theorem compare_bytes_eq (a b : Bytes) : compare_bytes a b = compare a b := by
  unfold compare_bytes
  induction a generalizing b with
  | nil =>
    cases b with
    | nil => rfl
    | cons y b =>
      simp only [List.length_nil, List.length_cons, Nat.zero_min, List.take_zero]
      rw [List.compare_nil_cons]
      simp [memcmp, Nat.compare_eq_lt]
  | cons x a ih =>
    cases b with
    | nil =>
      simp only [List.length_nil, List.length_cons, Nat.min_zero, List.take_zero]
      rw [List.compare_cons_nil]
      simp [memcmp, Nat.compare_eq_gt]
    | cons y b =>
      have hmin : min (a.length + 1) (b.length + 1) = min a.length b.length + 1 := by omega
      have hlen : compare (a.length + 1) (b.length + 1) = compare a.length b.length := by
        simp only [Nat.compare_eq_ite_lt]
        simp
      simp only [List.length_cons, hmin, List.take_succ_cons, memcmp, hlen]
      rw [List.compare_cons_cons, ← ih b, Ordering.then_assoc]

/-- Adjacent elements are never out of order exactly when the list is sorted. -/
theorem adjacent_any_eq_false {α : Type} {test : α → α → Bool} {items : List α} :
    adjacent_any test items = false ↔ items.IsChain fun a b => test a b = false := by
  induction items with
  | nil => simp [adjacent_any]
  | cons a items ih =>
    cases items with
    | nil => simp [adjacent_any]
    | cons b items => rw [adjacent_any, Bool.or_eq_false_iff, ih, isChain_cons_cons]

/-! ## The envelope -/

@[ext] structure Precision where
  key : Bytes
  value : UInt32
  deriving DecidableEq

def precisionBytes (p : Precision) : Bytes :=
  leBytes 8 p.key.length ++ (leBytes 4 p.value.toNat ++ (leBytes 4 0 ++ p.key))

def precisionsBytes (ps : List Precision) : Bytes := ps.flatMap precisionBytes

def metadataSize (canonical : Bytes) (ps : List Precision) : ℕ :=
  40 + canonical.length + (precisionsBytes ps).length

def metadataBytes (canonical : Bytes) (ps : List Precision) : Bytes :=
  k_metadata_magic ++ (leBytes 4 1 ++ (leBytes 4 40 ++ (leBytes 8 (metadataSize canonical ps) ++
    (leBytes 8 canonical.length ++ (leBytes 8 ps.length ++ (canonical ++ precisionsBytes ps))))))

/-- An envelope that is written: its precisions are sorted by key and have values of the
enumeration, and its size fits. -/
structure MetadataOk (canonical : Bytes) (ps : List Precision) : Prop where
  key_ne : ∀ p ∈ ps, p.key ≠ []
  value_le : ∀ p ∈ ps, p.value ≤ 3
  sorted : SortedBy Precision.key ps
  size_le : metadataSize canonical ps ≤ SIZE_MAX

@[simp] lemma length_k_metadata_magic : k_metadata_magic.length = 8 := by decide

lemma length_precisionBytes (p : Precision) : (precisionBytes p).length = 16 + p.key.length := by
  simp only [precisionBytes, length_append, length_leBytes]
  omega

lemma length_metadataBytes (canonical : Bytes) (ps : List Precision) :
    (metadataBytes canonical ps).length = metadataSize canonical ps := by
  simp only [metadataBytes, metadataSize, length_append, length_leBytes, length_k_metadata_magic]
  omega

lemma precisionsBytes_cons (p : Precision) (ps : List Precision) :
    precisionsBytes (p :: ps) = precisionBytes p ++ precisionsBytes ps := flatMap_cons

lemma precisions_length_le (ps : List Precision) :
    16 * ps.length ≤ (precisionsBytes ps).length := by
  induction ps with
  | nil => exact Nat.zero_le _
  | cons p ps ih =>
    rw [precisionsBytes_cons, length_append, length_precisionBytes, length_cons]
    omega

/-! ## Reading -/

variable {data rest : Bytes} {offset : ℕ}

lemma drop_eq_precisionBytes_iff {p : Precision} : data.drop offset = precisionBytes p ++ rest ↔
      slice data offset 8 = leBytes 8 p.key.length ∧
      slice data (offset + 8) 4 = leBytes 4 p.value.toNat ∧
      slice data (offset + 12) 4 = leBytes 4 0 ∧
      slice data (offset + 16) p.key.length = p.key ∧
      data.drop (offset + 16 + p.key.length) = rest := by
  simp only [precisionBytes, append_assoc, drop_eq_append_iff, length_leBytes,
    Nat.add_assoc, Nat.reduceAdd]

variable {ps : List Precision} {previous : Option Bytes}

lemma parse_precisions_accepts (hsize : data.length ≤ SIZE_MAX) (hkey : ∀ p ∈ ps, p.key ≠ [])
    (hvalue : ∀ p ∈ ps, p.value ≤ 3)
    (hsorted : (previous.toList ++ ps.map Precision.key).IsChain fun a b => compare a b = .lt)
    (hdata : data.drop offset = precisionsBytes ps ++ rest) :
    parse_precisions data ps.length offset previous =
      some (offset + (precisionsBytes ps).length) := by
  induction ps generalizing offset previous with
  | nil => rfl
  | cons p ps ih =>
    rw [precisionsBytes_cons, append_assoc] at hdata
    have hlength := congrArg length hdata
    rw [length_drop, length_append, length_precisionBytes] at hlength
    obtain ⟨hlen, hval, hzero, hk, hrest⟩ := drop_eq_precisionBytes_iff.mp hdata
    have hpkey := hkey p mem_cons_self
    have hpval := hvalue p mem_cons_self
    have hpos := length_pos_of_ne_nil hpkey
    have hlen := ((slice_eq_size_iff (by omega)).mp hlen).2
    have hval := UInt32.toNat_inj.mp ((slice_eq_word_iff p.value.toNat_lt).mp hval).2
    have hzero : load_le32 data (offset + 12) = 0 :=
      UInt32.toNat_inj.mp ((slice_eq_word_iff (by decide)).mp hzero).2
    have hprev : previous.any (fun q => compare_bytes q p.key ≠ .lt) = false := by
      cases previous with
      | none => rfl
      | some q =>
        rw [toList_some, map_cons, cons_append, nil_append, isChain_cons_cons] at hsorted
        simp [compare_bytes_eq, hsorted.1]
    have hchain : ((some p.key).toList ++ ps.map Precision.key).IsChain
        fun a b => compare a b = .lt := by
      rw [map_cons] at hsorted
      exact hsorted.right_of_append
    rw [length_cons, parse_precisions, if_neg (by
      unfold ORACLE_PACK_PRECISION_HEADER_SIZE
      omega)]
    dsimp only
    rw [hlen, hval, hzero, if_neg (by
      simp only [precision_is_valid, decide_eq_true_eq]
      exact not_or.mpr ⟨by omega, not_or.mpr ⟨not_not.mpr rfl, not_not.mpr hpval⟩⟩), if_neg (by
      unfold ORACLE_PACK_PRECISION_HEADER_SIZE
      omega)]
    rw [show offset + ORACLE_PACK_PRECISION_HEADER_SIZE = offset + 16 from rfl, hk, hprev,
      if_neg Bool.false_ne_true]
    rw [ih (forall_mem_cons.mp hkey).2
      (forall_mem_cons.mp hvalue).2 hchain hrest, precisionsBytes_cons,
      length_append, length_precisionBytes]
    congr 1
    omega

variable {n : ℕ}

lemma parse_precisions_succ {e : ℕ} (h : parse_precisions data (n + 1) offset previous = some e) :
    ∃ p : Precision, p.key ≠ [] ∧ p.value ≤ 3 ∧ (∀ q ∈ previous, compare q p.key = .lt) ∧
      (∀ rest, data.drop (offset + 16 + p.key.length) = rest →
        data.drop offset = precisionBytes p ++ rest) ∧
      offset + 16 + p.key.length ≤ data.length ∧
      parse_precisions data n (offset + 16 + p.key.length) (some p.key) = some e := by
  rw [parse_precisions] at h
  unfold ORACLE_PACK_PRECISION_HEADER_SIZE at h
  dsimp only at h
  split_ifs at h with hhdr hflds hkey hprev
  rw [not_or, not_or, not_not, not_not] at hflds
  obtain ⟨hne, hzero, hval⟩ := hflds
  have hlen : (slice data (offset + 16) (load_size data offset)).length =
      load_size data offset := length_slice (by omega)
  have hprecision : ∀ rest, data.drop (offset + 16 + load_size data offset) = rest →
      data.drop offset = precisionBytes ⟨slice data (offset + 16) (load_size data offset),
        load_le32 data (offset + 8)⟩ ++ rest := by
    intro rest hrest
    rw [drop_eq_precisionBytes_iff]
    dsimp only
    rw [hlen]
    refine ⟨(slice_eq_size_iff (load_size_le data offset)).mpr ⟨by omega, rfl⟩,
      (slice_eq_word_iff (UInt32.toNat_lt _)).mpr ⟨by omega, rfl⟩,
      (slice_eq_word_iff (by decide)).mpr ⟨by omega, by rw [hzero]; rfl⟩, rfl, hrest⟩
  refine ⟨⟨slice data (offset + 16) (load_size data offset), load_le32 data (offset + 8)⟩,
    ?_, ?_, ?_, ?_, ?_, ?_⟩
  · intro hnil
    dsimp only at hnil
    rw [hnil] at hlen
    exact hne hlen.symm
  · simpa [precision_is_valid] using hval
  · intro q hq
    rw [mem_def] at hq
    rw [hq] at hprev
    simpa [compare_bytes_eq] using hprev
  · dsimp only
    rw [hlen]
    exact hprecision
  · dsimp only
    rw [hlen]
    omega
  · dsimp only
    rw [hlen]
    exact h

lemma parse_precisions_spec {e : ℕ} (hoff : offset ≤ data.length)
    (h : parse_precisions data n offset previous = some e) :
    ∃ ps : List Precision, ps.length = n ∧ (∀ p ∈ ps, p.key ≠ []) ∧ (∀ p ∈ ps, p.value ≤ 3) ∧
      (previous.toList ++ ps.map Precision.key).IsChain (fun a b => compare a b = .lt) ∧
      data.drop offset = precisionsBytes ps ++ data.drop e ∧
      e = offset + (precisionsBytes ps).length ∧ e ≤ data.length := by
  induction n generalizing offset previous with
  | zero =>
    obtain rfl : offset = e := some.inj h
    refine ⟨[], rfl, by simp, by simp, ?_, rfl, rfl, hoff⟩
    cases previous <;> simp
  | succ n ih =>
    obtain ⟨p, hkey, hval, hprev, hdata, hbnd, hrest⟩ := parse_precisions_succ h
    obtain ⟨ps, hn, hkeys, hvals, hchain, hps, he, hle⟩ := ih hbnd hrest
    refine ⟨p :: ps, by rw [length_cons, hn], ?_, ?_, ?_, ?_, ?_, hle⟩
    · intro q hq
      rcases mem_cons.mp hq with rfl | hq
      · exact hkey
      · exact hkeys q hq
    · intro q hq
      rcases mem_cons.mp hq with rfl | hq
      · exact hval
      · exact hvals q hq
    · cases previous with
      | none => exact hchain
      | some q =>
        rw [toList_some, map_cons, cons_append, nil_append, isChain_cons_cons]
        exact ⟨hprev q rfl, hchain⟩
    · rw [hdata _ hps, precisionsBytes_cons, append_assoc]
    · rw [he, precisionsBytes_cons, length_append, length_precisionBytes]
      omega

variable {canonical : Bytes}

lemma eq_metadataBytes_iff : data = metadataBytes canonical ps ↔
      slice data 0 8 = k_metadata_magic ∧ slice data 8 4 = leBytes 4 1 ∧
      slice data 12 4 = leBytes 4 40 ∧ slice data 16 8 = leBytes 8 (metadataSize canonical ps) ∧
      slice data 24 8 = leBytes 8 canonical.length ∧ slice data 32 8 = leBytes 8 ps.length ∧
      slice data 40 canonical.length = canonical ∧
      data.drop (40 + canonical.length) = precisionsBytes ps := by
  have hzero : data = metadataBytes canonical ps ↔ data.drop 0 = metadataBytes canonical ps := by
    rw [drop_zero]
  rw [hzero]
  simp only [metadataBytes, drop_eq_append_iff, length_leBytes, length_k_metadata_magic,
    Nat.zero_add, Nat.reduceAdd]

def metadataLayout (canonical : Bytes) (ps : List Precision) : MetadataLayout where
  canonical_offset := 40
  canonical_size := canonical.length
  records_offset := 40 + canonical.length
  record_count := ps.length

lemma parse_metadata_bytes_accepts (hok : MetadataOk canonical ps) :
    parse_metadata_bytes (metadataBytes canonical ps) = .ok (metadataLayout canonical ps) := by
  have hsize := hok.size_le
  have hrecs := precisions_length_le ps
  have hlen := length_metadataBytes canonical ps
  obtain ⟨h0, h8, h12, h16, h24, h32, hcanon, hps⟩ :=
    eq_metadataBytes_iff.mp (Eq.refl (metadataBytes canonical ps))
  have hsize' := hsize
  unfold metadataSize at hsize'
  have h8 := ((slice_eq_word_iff (by decide)).mp h8).2
  have h12 := ((slice_eq_word_iff (by decide)).mp h12).2
  have h16 := ((slice_eq_size_iff hsize).mp h16).2
  have h24 := ((slice_eq_size_iff (by omega)).mp h24).2
  have h32 := ((slice_eq_size_iff (by omega)).mp h32).2
  have h8 : load_le32 (metadataBytes canonical ps) 8 = ORACLE_PACK_METADATA_FORMAT_VERSION :=
    UInt32.toNat_inj.mp h8
  have hadd : add_size ORACLE_PACK_METADATA_HEADER_SIZE canonical.length =
      some (40 + canonical.length) := (add_size_eq_some (by omega)).mpr ⟨rfl, by omega⟩
  have hchain : ((none : Option Bytes).toList ++ ps.map Precision.key).IsChain
      fun a b => compare a b = .lt := by
    rw [toList_none, nil_append, isChain_map]
    exact sortedBy_iff_isChain.mp hok.sorted
  have hparse := parse_precisions_accepts (hlen ▸ hsize) hok.key_ne hok.value_le
    hchain (hps.trans (append_nil _).symm)
  unfold parse_metadata_bytes
  rw [if_neg (by
    rw [hlen, metadataSize, ORACLE_PACK_METADATA_HEADER_SIZE]
    omega), if_neg (by
    rw [h0, h8, h12, h16, hlen]
    simp [ORACLE_PACK_METADATA_HEADER_SIZE])]
  dsimp only
  rw [h24, h32, hadd]
  dsimp only
  rw [if_neg (by
    rw [hlen, metadataSize]
    omega), if_neg (by
    rw [hlen, metadataSize, ORACLE_PACK_PRECISION_HEADER_SIZE]
    omega), hparse]
  dsimp only
  rw [if_neg (by
    rw [hlen, metadataSize]
    omega)]
  rfl

lemma parse_metadata_bytes_spec {layout : MetadataLayout}
    (h : parse_metadata_bytes data = .ok layout) :
    ∃ canonical ps, MetadataOk canonical ps ∧ data = metadataBytes canonical ps := by
  unfold parse_metadata_bytes at h
  split_ifs at h with hhdr hflds
  dsimp only at h
  rw [not_or, not_or, not_or, not_not, not_not, not_not, not_not] at hflds
  obtain ⟨h0, h8, h12, h16⟩ := hflds
  unfold ORACLE_PACK_METADATA_HEADER_SIZE at h hhdr h12
  cases hadd : add_size 40 (load_size data 24) with
  | none =>
    rw [hadd] at h
    simp at h
  | some records_offset =>
    obtain ⟨rfl, -⟩ := (add_size_eq_some (.inl (load_size_le data 24))).mp hadd
    rw [hadd] at h
    dsimp only at h
    split_ifs at h with hoff hcnt
    cases hparse : parse_precisions data (load_size data 32) (40 + load_size data 24) none with
    | none =>
      rw [hparse] at h
      simp at h
    | some e =>
      rw [hparse] at h
      dsimp only at h
      split_ifs at h with hend
      rw [not_not] at hend
      obtain ⟨ps, hn, hkey, hval, hchain, hdata, he, hle⟩ :=
        parse_precisions_spec (by omega) hparse
      have hlen : (slice data 40 (load_size data 24)).length = load_size data 24 :=
        length_slice (by omega)
      rw [hend, drop_length, append_nil] at hdata
      have hsize : metadataSize (slice data 40 (load_size data 24)) ps = data.length := by
        rw [metadataSize, hlen]
        omega
      refine ⟨slice data 40 (load_size data 24), ps, ⟨hkey, hval, ?_, ?_⟩, ?_⟩
      · rw [toList_none, nil_append, isChain_map] at hchain
        exact sortedBy_iff_isChain.mpr hchain
      · rw [hsize, ← h16]
        exact load_size_le data 16
      · rw [eq_metadataBytes_iff, hsize, hlen, hn]
        refine ⟨h0, (slice_eq_word_iff (by decide)).mpr ⟨by omega, by rw [h8]; rfl⟩,
          (slice_eq_word_iff (by decide)).mpr ⟨by omega, h12⟩,
          (slice_eq_size_iff (h16 ▸ load_size_le data 16)).mpr ⟨by omega, h16⟩,
          (slice_eq_size_iff (load_size_le data 24)).mpr ⟨by omega, rfl⟩,
          (slice_eq_size_iff (load_size_le data 32)).mpr ⟨by omega, rfl⟩, rfl, hdata⟩

/-! ## Writing -/

def itemPrecision (item : OraclePackResourcePrecisionInput) : Precision :=
  ⟨item.resource_key.list, item.precision⟩

lemma length_list_of_consistent {α : Type} {array : CArray α}
    (h : bytes_are_consistent array = true) : array.list.length = array.count := by
  unfold bytes_are_consistent at h
  unfold CArray.list
  cases hv : array.values with
  | none =>
    rw [hv] at h
    exact (beq_iff_eq.mp (beq_iff_eq.mp h).symm).symm
  | some l => exact array.count_eq l hv

lemma store_precisions_zeros (items : List OraclePackResourcePrecisionInput)
    (hitems : ∀ item ∈ items, bytes_are_consistent item.resource_key = true) (a : Bytes)
    (hn : n ≤ SIZE_MAX) (h : (precisionsBytes (items.map itemPrecision)).length ≤ n)
    (hoff : offset = a.length) :
    store_precisions (a ++ List.replicate n 0) offset items =
      (a ++ precisionsBytes (items.map itemPrecision)) ++
        List.replicate (n - (precisionsBytes (items.map itemPrecision)).length) 0 := by
  induction items generalizing a n offset with
  | nil => simp [store_precisions, precisionsBytes]
  | cons item items ih =>
    have hcnt := length_list_of_consistent (hitems item mem_cons_self)
    have hkey : (itemPrecision item).key.length = item.resource_key.count := hcnt
    rw [map_cons, precisionsBytes_cons, length_append, length_precisionBytes] at h
    -- The four stores of a record are one row of chunks.
    have hstores : store_precisions (a ++ replicate n 0) offset (item :: items) =
        store_precisions (store_chunks (a ++ (replicate n 0 ++ [])) offset
          [leBytes 8 item.resource_key.count, leBytes 4 item.precision.toNat, leBytes 4 0,
            item.resource_key.list]) (offset + 16 + item.resource_key.count) items := by
      rw [store_precisions, append_nil]
      rw [store_size_eq _ _ (by omega), store_le32_eq, store_le32_eq]
      rfl
    have hflat : [leBytes 8 item.resource_key.count, leBytes 4 item.precision.toNat,
        leBytes 4 0, item.resource_key.list].flatten = precisionBytes (itemPrecision item) := by
      rw [precisionBytes, hkey]
      simp [itemPrecision]
    rw [hstores, store_chunks_zeros _ _ _ (by rw [hflat, length_precisionBytes]; omega) hoff,
      hflat, append_nil, ih (forall_mem_cons.mp hitems).2 _ (by omega)
      (by rw [length_precisionBytes]; omega)
      (by rw [length_append, length_precisionBytes, hoff, hkey]; omega),
      map_cons, precisionsBytes_cons, append_assoc a, length_append, Nat.sub_sub]

variable {items : List OraclePackResourcePrecisionInput}

lemma store_metadata_eq (hitems : ∀ item ∈ items, bytes_are_consistent item.resource_key = true)
    (hsize : metadataSize canonical (items.map itemPrecision) ≤ SIZE_MAX) :
    store_metadata canonical (metadataSize canonical (items.map itemPrecision)) items =
      metadataBytes canonical (items.map itemPrecision) := by
  have hrecs := precisions_length_le (items.map itemPrecision)
  have hsize' := hsize
  rw [length_map] at hrecs
  unfold metadataSize at hsize'
  have hcopy : ∀ data : Bytes, (if 0 < canonical.length then
      store_precisions (overwrite data 40 canonical) (40 + canonical.length) items
      else store_precisions data 40 items) =
      store_precisions (overwrite data 40 canonical) (40 + canonical.length) items := by
    intro data
    split_ifs with h
    · rfl
    · have hnil : canonical = [] := length_eq_zero_iff.mp (by omega)
      rw [hnil, overwrite_nil]
      rfl
  have hstores : store_metadata canonical (metadataSize canonical (items.map itemPrecision)) items =
      store_precisions (store_chunks ([] ++ (replicate
        (metadataSize canonical (items.map itemPrecision)) 0 ++ [])) 0
        [k_metadata_magic, leBytes 4 1, leBytes 4 40,
          leBytes 8 (metadataSize canonical (items.map itemPrecision)),
          leBytes 8 canonical.length, leBytes 8 items.length, canonical])
        (40 + canonical.length) items := by
    unfold store_metadata ORACLE_PACK_METADATA_HEADER_SIZE
    dsimp only
    rw [hcopy, store_size_eq _ _ hsize, store_size_eq _ _ (by omega), store_size_eq _ _ (by omega),
      store_le32_eq, store_le32_eq, append_nil]
    rfl
  have hflat : [k_metadata_magic, leBytes 4 1, leBytes 4 40,
      leBytes 8 (metadataSize canonical (items.map itemPrecision)), leBytes 8 canonical.length,
      leBytes 8 items.length, canonical].flatten.length = 40 + canonical.length := by
    simp
    omega
  rw [hstores, store_chunks_zeros _ [] [] (by rw [hflat, metadataSize]; omega) length_nil.symm, hflat,
    append_nil, store_precisions_zeros items hitems _ (by omega)
    (by rw [metadataSize]; omega) (by rw [nil_append, hflat]),
    show metadataSize canonical (items.map itemPrecision) - (40 + canonical.length) -
      (precisionsBytes (items.map itemPrecision)).length = 0 by rw [metadataSize]; omega]
  simp [metadataBytes]

lemma sumsTo_precisions_size
    (hitems : ∀ item ∈ items, bytes_are_consistent item.resource_key = true) :
    SumsTo (precisions_size · items) (precisionsBytes (items.map itemPrecision)).length := by
  induction items with
  | nil => exact sumsTo_some
  | cons item items ih =>
    have hkey : (itemPrecision item).key.length = item.resource_key.count :=
      length_list_of_consistent (hitems item mem_cons_self)
    rw [map_cons, precisionsBytes_cons, length_append, length_precisionBytes, hkey, Nat.add_assoc]
    have hrest := ih (forall_mem_cons.mp hitems).2
    exact (sumsTo_add_size 16).bind ((sumsTo_add_size _).bind hrest)

/-- The precisions of an input, in the order in which they are written. -/
def inputPrecisions (input : OraclePackNormalizedMetadataInput) : List Precision :=
  sortBy Precision.key (input.resource_precisions.list.map itemPrecision)

structure MetadataInputOk (input : OraclePackNormalizedMetadataInput) : Prop where
  canonical : bytes_are_consistent input.canonical_bytes = true
  precisions : bytes_are_consistent input.resource_precisions = true
  keys : ∀ item ∈ input.resource_precisions.list, bytes_are_consistent item.resource_key = true
  ok : MetadataOk input.canonical_bytes.list (inputPrecisions input)

lemma compare_precision_items_eq : compare_precision_items =
    fun a b => compare (itemPrecision a).key (itemPrecision b).key := by
  funext a b
  exact compare_bytes_eq _ _

lemma map_qsort_precisions (items : List OraclePackResourcePrecisionInput) :
    (qsort compare_precision_items items).map itemPrecision =
      sortBy Precision.key (items.map itemPrecision) := by
  rw [qsort, compare_precision_items_eq, sortBy]
  apply map_insertionSort
  intro a _ b _
  exact Iff.rfl

/-- After sorting, only equal neighbours keep a list from being sorted strictly. -/
theorem adjacent_equal_eq_false : adjacent_any (fun a b => compare_precision_items a b = .eq)
      (qsort compare_precision_items items) = false ↔
      SortedBy Precision.key (sortBy Precision.key (items.map itemPrecision)) := by
  have hle := pairwise_sortBy Precision.key (items.map itemPrecision)
  have hle := hle.isChain
  rw [← map_qsort_precisions, isChain_map] at hle
  rw [adjacent_any_eq_false, ← map_qsort_precisions, sortedBy_iff_isChain, isChain_map]
  have hcmp : ∀ a b, compare_precision_items a b =
      compare (itemPrecision a).key (itemPrecision b).key :=
    fun a b => congrFun (congrFun compare_precision_items_eq a) b
  constructor
  · intro hne
    rw [isChain_iff_getElem] at hle hne ⊢
    intro i hi
    have hle := hle i hi
    have hne := hne i hi
    rw [decide_eq_false_iff_not, hcmp] at hne
    generalize compare (itemPrecision _).key (itemPrecision _).key = order at hle hne ⊢
    cases order with
    | lt => rfl
    | eq => exact absurd rfl hne
    | gt => exact absurd rfl hle
  · intro hlt
    refine hlt.imp ?_
    intro a b hlt
    rw [decide_eq_false_iff_not, hcmp, hlt]
    decide

lemma key_ne_of_valid {item : OraclePackResourcePrecisionInput}
    (hcons : bytes_are_consistent item.resource_key = true)
    (hcnt : item.resource_key.count ≠ 0) : (itemPrecision item).key ≠ [] := by
  intro hnil
  have hlen := length_list_of_consistent hcons
  rw [show item.resource_key.list = [] from hnil] at hlen
  exact hcnt hlen.symm

lemma sort_precisions_eq_ok {sorted : List OraclePackResourcePrecisionInput} :
    sort_precisions items = .ok sorted ↔ multiply_size items.length 8 ≠ none ∧
      (∀ item ∈ items, bytes_are_consistent item.resource_key = true ∧
        item.resource_key.count ≠ 0 ∧ item.precision ≤ 3) ∧
      SortedBy Precision.key (sortBy Precision.key (items.map itemPrecision)) ∧
      sorted = qsort compare_precision_items items := by
  unfold sort_precisions
  dsimp only
  have hvalid : ∀ item : OraclePackResourcePrecisionInput,
      (¬ bytes_are_consistent item.resource_key = true ∨ item.resource_key.count = 0 ∨
        ¬ precision_is_valid item.precision = true) ↔
      ¬ (bytes_are_consistent item.resource_key = true ∧ item.resource_key.count ≠ 0 ∧
        item.precision ≤ 3) := by
    intro item
    rw [not_and_or, not_and_or, not_not, precision_is_valid, decide_eq_true_eq]
  constructor
  · intro h
    split_ifs at h with hmul hitems hsorted
    refine ⟨hmul, ?_, ?_, (Except.ok.inj h).symm⟩
    · intro item hitem
      by_contra hbad
      exact hitems ⟨item, hitem, (hvalid item).mpr hbad⟩
    · rw [Bool.not_eq_true] at hsorted
      exact adjacent_equal_eq_false.mp hsorted
  · rintro ⟨hmul, hitems, hsorted, rfl⟩
    rw [if_neg hmul, if_neg (by
      rintro ⟨item, hitem, hbad⟩
      exact (hvalid item).mp hbad (hitems item hitem)), if_neg (by
      rw [Bool.not_eq_true]
      exact adjacent_equal_eq_false.mpr hsorted)]

variable {bytes : Bytes}

/-- **What the writer encodes.** -/
theorem encode_metadata_eq_ok {input : OraclePackNormalizedMetadataInput} :
    encode_metadata input = .ok bytes ↔ MetadataInputOk input ∧
      bytes = metadataBytes input.canonical_bytes.list (inputPrecisions input) := by
  have hperm : (inputPrecisions input).Perm (input.resource_precisions.list.map itemPrecision) :=
    perm_sortBy _ _
  have hmap : (qsort compare_precision_items input.resource_precisions.list).map itemPrecision =
      inputPrecisions input := map_qsort_precisions _
  have hmem : ∀ item, item ∈ qsort compare_precision_items input.resource_precisions.list ↔
      item ∈ input.resource_precisions.list := fun item => mem_insertionSort _
  unfold encode_metadata
  constructor
  · intro h
    split_ifs at h with hcons
    rw [not_or, not_not, not_not] at hcons
    obtain ⟨sorted, hsort, h⟩ := bind_eq_ok.mp h
    obtain ⟨-, hitems, hsorted, rfl⟩ := sort_precisions_eq_ok.mp hsort
    have hkeys : ∀ item ∈ qsort compare_precision_items input.resource_precisions.list,
        bytes_are_consistent item.resource_key = true :=
      fun item hitem => (hitems item ((hmem item).mp hitem)).1
    split at h
    · simp at h
    · rename_i total htotal
      obtain ⟨rfl, htotal⟩ := ((sumsTo_add_size _).bind (sumsTo_precisions_size hkeys)
        (by decide) (by decide) total).mp htotal
      rw [← Nat.add_assoc, hmap, ← length_list_of_consistent hcons.1] at htotal h
      have hsize : metadataSize input.canonical_bytes.list (inputPrecisions input) ≤ SIZE_MAX :=
        htotal
      refine ⟨⟨hcons.1, hcons.2, fun item hitem => (hitems item hitem).1,
        ⟨?_, ?_, hsorted, hsize⟩⟩, ?_⟩
      · intro p hp
        obtain ⟨item, hitem, rfl⟩ := mem_map.mp (hperm.mem_iff.mp hp)
        exact key_ne_of_valid (hitems item hitem).1 (hitems item hitem).2.1
      · intro p hp
        obtain ⟨item, hitem, rfl⟩ := mem_map.mp (hperm.mem_iff.mp hp)
        exact (hitems item hitem).2.2
      · rw [← Except.ok.inj h, ← hmap]
        exact store_metadata_eq hkeys (by rw [hmap]; exact hsize)
  · rintro ⟨hok, rfl⟩
    have hkeys : ∀ item ∈ qsort compare_precision_items input.resource_precisions.list,
        bytes_are_consistent item.resource_key = true :=
      fun item hitem => hok.keys item ((hmem item).mp hitem)
    have hsize := hok.ok.size_le
    have hrecs := precisions_length_le (inputPrecisions input)
    have hcnt : (inputPrecisions input).length = input.resource_precisions.list.length := by
      rw [hperm.length_eq, length_map]
    have hlist := length_list_of_consistent hok.canonical
    unfold metadataSize at hsize
    have hmem' : ∀ item ∈ input.resource_precisions.list,
        itemPrecision item ∈ inputPrecisions input :=
      fun item hitem => hperm.mem_iff.mpr (mem_map_of_mem hitem)
    have hsort : sort_precisions input.resource_precisions.list =
        .ok (qsort compare_precision_items input.resource_precisions.list) := by
      refine sort_precisions_eq_ok.mpr ⟨?_, ?_, hok.ok.sorted, rfl⟩
      · rw [(multiply_size_eq_some (by decide)).mpr ⟨rfl, by omega⟩]
        simp
      · intro item hitem
        refine ⟨hok.keys item hitem, ?_, hok.ok.value_le _ (hmem' item hitem)⟩
        intro hzero
        apply hok.ok.key_ne _ (hmem' item hitem)
        exact length_eq_zero_iff.mp ((length_list_of_consistent (hok.keys item hitem)).trans hzero)
    have hsizes : (do
        let total ← add_size ORACLE_PACK_METADATA_HEADER_SIZE input.canonical_bytes.count
        precisions_size total (qsort compare_precision_items input.resource_precisions.list)) =
        some (metadataSize input.canonical_bytes.list (inputPrecisions input)) := by
      refine ((sumsTo_add_size _).bind (sumsTo_precisions_size hkeys)
        (by decide) (by decide) _).mpr ?_
      rw [hmap, metadataSize, hlist, ORACLE_PACK_METADATA_HEADER_SIZE]
      omega
    rw [if_neg (by rw [hok.canonical, hok.precisions]; simp), hsort]
    change Except.bind (.ok _) _ = _
    rw [Except.bind, hsizes]
    dsimp only
    rw [← hmap, store_metadata_eq hkeys (by rw [hmap]; exact hok.ok.size_le)]

/-! ## Views -/

lemma list_view_bytes (bytes : Bytes) : (view_bytes bytes).list = bytes := rfl

lemma bytes_are_consistent_view_bytes (h : 0 < bytes.length) :
    bytes_are_consistent (view_bytes bytes) = true := by
  have hne : (bytes.length == 0) = false := by
    rw [beq_eq_false_iff_ne]
    omega
  unfold bytes_are_consistent view_bytes
  rw [hne]
  rfl

lemma parse_metadata_eq_bytes (h : 0 < bytes.length) :
    parse_metadata (view_bytes bytes) = parse_metadata_bytes bytes := by
  unfold parse_metadata
  rw [bytes_are_consistent_view_bytes h, if_neg (by simp), list_view_bytes]

lemma parse_metadata_envelope (hok : MetadataOk canonical ps) :
    parse_metadata (view_bytes (metadataBytes canonical ps)) =
      .ok (metadataLayout canonical ps) := by
  rw [parse_metadata_eq_bytes (by rw [length_metadataBytes, metadataSize]; omega),
    parse_metadata_bytes_accepts hok]

/-- The bytes of a view, which is null when there are none. -/
def optional_view (bytes : Bytes) : OraclePackBytes :=
  if bytes.length ≠ 0 then view_bytes bytes else null_bytes

lemma list_optional_view (bytes : Bytes) : (optional_view bytes).list = bytes := by
  unfold optional_view
  split_ifs with h
  · rfl
  · exact (length_eq_zero_iff.mp (not_not.mp h)).symm

lemma bytes_are_consistent_optional_view (bytes : Bytes) :
    bytes_are_consistent (optional_view bytes) = true := by
  unfold optional_view
  split_ifs with h
  · exact bytes_are_consistent_view_bytes (by omega)
  · rfl

lemma oracle_pack_metadata_view_eq (hok : MetadataOk canonical ps) :
    oracle_pack_metadata_view (view_bytes (metadataBytes canonical ps)) =
      .ok ⟨optional_view canonical, ps.length⟩ := by
  have hcanon := (eq_metadataBytes_iff.mp (Eq.refl (metadataBytes canonical ps))).2.2.2.2.2.2.1
  unfold oracle_pack_metadata_view
  rw [parse_metadata_envelope hok]
  change Except.ok (OraclePackNormalizedMetadataView.mk (if canonical.length ≠ 0 then
    view_bytes (slice (metadataBytes canonical ps) 40 canonical.length) else null_bytes) _) = _
  rw [hcanon]
  rfl

lemma precision_at_eq {index : ℕ} (hsize : data.length ≤ SIZE_MAX)
    (hdata : data.drop offset = precisionsBytes ps ++ rest) (hidx : index < ps.length) :
    precision_at data index offset = ⟨view_bytes ps[index].key, ps[index].value⟩ := by
  induction ps generalizing index offset with
  | nil => exact absurd hidx (Nat.not_lt_zero _)
  | cons p ps ih =>
    rw [precisionsBytes_cons, append_assoc] at hdata
    have hlength := congrArg length hdata
    rw [length_drop, length_append, length_precisionBytes] at hlength
    obtain ⟨hlen, hval, -, hk, hrest⟩ := drop_eq_precisionBytes_iff.mp hdata
    have hlen := ((slice_eq_size_iff (by omega)).mp hlen).2
    have hval := UInt32.toNat_inj.mp ((slice_eq_word_iff p.value.toNat_lt).mp hval).2
    cases index with
    | zero =>
      rw [precision_at, hlen, hval]
      unfold ORACLE_PACK_PRECISION_HEADER_SIZE
      rw [hk]
      rfl
    | succ index =>
      rw [precision_at, hlen]
      exact ih hrest (by simpa using hidx)

lemma oracle_pack_metadata_precision_at_eq (hok : MetadataOk canonical ps) (index : ℕ) :
    oracle_pack_metadata_precision_at (view_bytes (metadataBytes canonical ps)) index =
      if h : index < ps.length then .ok ⟨view_bytes ps[index].key, ps[index].value⟩
      else .error .notFound := by
  have hps := (eq_metadataBytes_iff.mp (Eq.refl (metadataBytes canonical ps))).2.2.2.2.2.2.2
  have hlen := length_metadataBytes canonical ps
  unfold oracle_pack_metadata_precision_at
  rw [parse_metadata_envelope hok]
  change (if ps.length ≤ index then Except.error OraclePackStatus.notFound
    else Except.ok (precision_at (metadataBytes canonical ps) index (40 + canonical.length))) = _
  split_ifs with hle hlt hlt
  · omega
  · rfl
  · rw [precision_at_eq (hlen ▸ hok.size_le) (hps.trans (append_nil _).symm) hlt]
  · omega

end DXBCSandbox
