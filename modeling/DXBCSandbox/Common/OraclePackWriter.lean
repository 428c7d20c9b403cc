/-
The writer of oracle packs.

`oracle_pack_writer_finalize` produces the pack of the sorted records (`finalize_bytes_eq_ok`).
Each call that adds a record appends it, or finds that it is there. Calls in another order
leave a writer with the same records, so it produces the same pack.
-/
import DXBCSandbox.Common.OraclePackLayout

namespace DXBCSandbox

open List Option Checks PackContent

/-! ## Stores -/

section Records

variable {α : Type} (store : Bytes → ℕ → α → Bytes) (digest : α → Digest) (bytes : α → Bytes)

/-- The stores of records and of the directory that points to them. -/
def storeRecords (base : ℕ) (data : Bytes) (i offset : ℕ) : List α → Bytes
  | [] => data
  | r :: rs =>
    storeRecords base
      (store (store_directory data (base + i * 48) (digest r) offset (bytes r).length) offset r)
      (i + 1) (offset + (bytes r).length) rs

lemma store_directory_zeros (a c : Bytes) (d : Digest) {n offset size : ℕ} (hn : 48 ≤ n)
    (hoff : offset ≤ SIZE_MAX) (hsize : size ≤ SIZE_MAX) {base : ℕ} (hbase : base = a.length) :
    store_directory (a ++ (List.replicate n 0 ++ c)) base d offset size =
      (a ++ (d.toList ++ (leBytes 8 offset ++ leBytes 8 size))) ++
        (List.replicate (n - 48) 0 ++ c) := by
  have hstores : ∀ data, store_directory data base d offset size =
      store_chunks data base [d.toList, leBytes 8 offset, leBytes 8 size] := by
    intro data
    unfold store_directory
    dsimp only
    rw [store_size_eq _ _ hoff, store_size_eq _ _ hsize]
    simp only [store_chunks, length_leBytes, length_digest, Nat.add_assoc, Nat.reduceAdd]
  have hflat : [d.toList, leBytes 8 offset, leBytes 8 size].flatten =
      d.toList ++ (leBytes 8 offset ++ leBytes 8 size) := by simp
  have hlen : [d.toList, leBytes 8 offset, leBytes 8 size].flatten.length = 48 := by
    rw [hflat, length_append, length_append, length_digest, length_leBytes, length_leBytes]
  rw [hstores, store_chunks_zeros _ _ _ (by rw [hlen]; exact hn) hbase, hlen, hflat]

variable {store digest bytes}

lemma storeRecords_zeros {items : List α}
    (hstore : ∀ r ∈ items, ∀ (a c : Bytes) (n : ℕ), (bytes r).length ≤ n →
      store (a ++ (List.replicate n 0 ++ c)) a.length r =
        (a ++ bytes r) ++ (List.replicate (n - (bytes r).length) 0 ++ c))
    (p m c : Bytes) {base i offset d n : ℕ} (hbase : base + i * 48 = p.length)
    (hoff : offset = p.length + d + m.length) (hd : items.length * 48 ≤ d)
    (hn : (recordsBytes (items.map fun r => (digest r, bytes r))).length ≤ n)
    (hsize : offset + n ≤ SIZE_MAX) :
    storeRecords store digest bytes base
        (p ++ (List.replicate d 0 ++ (m ++ (List.replicate n 0 ++ c)))) i offset items =
      (p ++ directoryBytes offset (items.map fun r => (digest r, bytes r))) ++
        (List.replicate (d - items.length * 48) 0 ++
          ((m ++ recordsBytes (items.map fun r => (digest r, bytes r))) ++ (List.replicate
              (n - (recordsBytes (items.map fun r => (digest r, bytes r))).length) 0 ++ c))) := by
  induction items generalizing p m i offset d n with
  | nil => simp [storeRecords, directoryBytes, recordsBytes]
  | cons r items ih =>
    rw [length_cons] at hd
    rw [map_cons, recordsBytes_cons, length_append] at hn
    dsimp only at hn
    have hpre : ∀ x : Bytes, (p ++ x) ++ (replicate (d - 48) 0 ++ (m ++ (replicate n 0 ++ c))) =
        ((p ++ x) ++ (replicate (d - 48) 0 ++ m)) ++ (replicate n 0 ++ c) := by
      intro x
      simp only [append_assoc]
    have hent : ((digest r).toList ++ (leBytes 8 offset ++
        leBytes 8 (bytes r).length)).length = 48 := by
      rw [length_append, length_append, length_digest, length_leBytes, length_leBytes]
    have hlen : ((p ++ ((digest r).toList ++ (leBytes 8 offset ++
        leBytes 8 (bytes r).length))) ++ (replicate (d - 48) 0 ++ m)).length = offset := by
      rw [length_append, length_append, hent, length_append, length_replicate]
      omega
    have hone := hstore r mem_cons_self ((p ++ ((digest r).toList ++ (leBytes 8 offset ++
      leBytes 8 (bytes r).length))) ++ (replicate (d - 48) 0 ++ m)) c n (by omega)
    rw [hlen] at hone
    rw [storeRecords, store_directory_zeros p _ _ (by omega) (by omega) (by omega) hbase,
      hpre, hone]
    have hassoc : ∀ x : Bytes, ((p ++ x) ++ (replicate (d - 48) 0 ++ m) ++ bytes r) ++
        (replicate (n - (bytes r).length) 0 ++ c) =
        (p ++ x) ++ (replicate (d - 48) 0 ++ ((m ++ bytes r) ++
          (replicate (n - (bytes r).length) 0 ++ c))) := by
      intro x
      simp only [append_assoc]
    rw [hassoc, ih (forall_mem_cons.mp hstore).2]
    · rw [map_cons, directoryBytes, recordsBytes_cons, length_append, length_cons]
      simp only [append_assoc]
      rw [show d - (items.length + 1) * 48 = d - 48 - items.length * 48 by omega, Nat.sub_sub n]
    · rw [length_append, hent, ← hbase]
      omega
    · rw [length_append, hent, length_append]
      omega
    · omega
    · omega
    · omega

end Records

lemma store_entries_eq (data : Bytes) (i offset : ℕ) (entries : List OwnedEntry) :
    store_entries data i offset entries =
      (storeRecords (fun data encoded entry => store_entry data encoded entry (entrySize entry))
        OwnedEntry.variant_key_digest entryBytes 192 data i offset entries,
        offset + (recordsBytes (entries.map fun entry =>
          (entry.variant_key_digest, entryBytes entry))).length) := by
  induction entries generalizing data i offset with
  | nil => rfl
  | cons entry entries ih =>
    rw [store_entries, ih, storeRecords, map_cons, recordsBytes_cons, length_append,
      length_entryBytes]
    unfold ORACLE_PACK_ENTRY_HEADER_SIZE ORACLE_PACK_HEADER_SIZE ORACLE_PACK_DIRECTORY_ENTRY_SIZE
    rw [← entrySize, Nat.add_assoc]

lemma store_preprocesses_eq (data : Bytes) (base i offset : ℕ)
    (preprocesses : List OwnedPreprocess) :
    store_preprocesses data base i offset preprocesses = storeRecords (fun data encoded record =>
        store_preprocess data encoded record (preprocessSize record))
        OwnedPreprocess.request_digest preprocessBytes base data i offset preprocesses := by
  induction preprocesses generalizing data i offset with
  | nil => rfl
  | cons record preprocesses ih =>
    rw [store_preprocesses, ih, storeRecords, length_preprocessBytes]
    rfl

variable {entries : List OwnedEntry}

lemma store_entries_zeros {rs : List (Digest × Bytes)}
    (hrs : rs = entries.map fun entry => (entry.variant_key_digest, entryBytes entry))
    (hsizes : ∀ entry ∈ entries, entrySize entry ≤ SIZE_MAX) (p m c : Bytes) {offset d n : ℕ}
    (hbase : 192 = p.length) (hoff : offset = p.length + d + m.length)
    (hd : entries.length * 48 ≤ d) (hn : (recordsBytes rs).length ≤ n)
    (hsize : offset + n ≤ SIZE_MAX) :
    (store_entries (p ++ (List.replicate d 0 ++ (m ++ (List.replicate n 0 ++ c)))) 0 offset
        entries).1 =
      (p ++ directoryBytes offset rs) ++ (List.replicate (d - entries.length * 48) 0 ++
        ((m ++ recordsBytes rs) ++ (List.replicate (n - (recordsBytes rs).length) 0 ++ c))) := by
  subst hrs
  rw [store_entries_eq]
  refine storeRecords_zeros ?_ p m c (by omega) hoff hd hn hsize
  intro entry hent a c n hn
  rw [length_entryBytes] at hn ⊢
  exact store_entry_zeros entry (hsizes entry hent) a c hn rfl

variable {preprocesses : List OwnedPreprocess}

/-- The preprocess records and their directory, stored into two areas of zeros. -/
theorem store_preprocesses_zeros {rs : List (Digest × Bytes)}
    (hrs : rs = preprocesses.map fun record => (record.request_digest, preprocessBytes record))
    (hsizes : ∀ record ∈ preprocesses, preprocessSize record ≤ SIZE_MAX) (p m c : Bytes)
    {base offset d n : ℕ} (hbase : base = p.length) (hoff : offset = p.length + d + m.length)
    (hd : preprocesses.length * 48 ≤ d) (hn : (recordsBytes rs).length ≤ n)
    (hsize : offset + n ≤ SIZE_MAX) :
    store_preprocesses (p ++ (List.replicate d 0 ++ (m ++ (List.replicate n 0 ++ c)))) base 0
        offset preprocesses =
      (p ++ directoryBytes offset rs) ++ (List.replicate (d - preprocesses.length * 48) 0 ++
        ((m ++ recordsBytes rs) ++ (List.replicate (n - (recordsBytes rs).length) 0 ++ c))) := by
  subst hrs
  rw [store_preprocesses_eq]
  refine storeRecords_zeros ?_ p m c (by omega) hoff hd hn hsize
  intro record hrec a c n hn
  rw [length_preprocessBytes] at hn ⊢
  exact store_preprocess_zeros record (hsizes record hrec) a c hn rfl

/-! ## Sizes -/

variable {total t : ℕ}

lemma sumsTo_add_sizes (sizes : List ℕ) : SumsTo (add_sizes · sizes) sizes.sum := by
  induction sizes with
  | nil => exact sumsTo_some
  | cons size sizes ih => exact (sumsTo_add_size size).bind ih

lemma sumsTo_entries_size (entries : List OwnedEntry) :
    SumsTo (entries_size · entries) (recordsBytes (entries.map fun entry =>
      (entry.variant_key_digest, entryBytes entry))).length := by
  induction entries with
  | nil => exact sumsTo_some
  | cons entry entries ih =>
    have hsum : entrySize entry = 136 + (entry.parts.map length).sum := by
      simp only [OwnedEntry.parts, map_cons, map_nil, sum_cons, sum_nil, entrySize]
      omega
    rw [map_cons, recordsBytes_cons, length_append, length_entryBytes, hsum]
    exact (sumsTo_add_sizes _).add_size ih (by decide) (by decide)

lemma sumsTo_preprocesses_size (preprocesses : List OwnedPreprocess) :
    SumsTo (preprocesses_size · preprocesses) (recordsBytes (preprocesses.map fun record =>
      (record.request_digest, preprocessBytes record))).length := by
  induction preprocesses with
  | nil => exact sumsTo_some
  | cons record preprocesses ih =>
    have hsum : preprocessSize record =
        112 + [record.transcript.length, record.result.length].sum := by
      simp only [sum_cons, sum_nil, preprocessSize]
      omega
    rw [map_cons, recordsBytes_cons, length_append, length_preprocessBytes, hsum]
    exact (sumsTo_add_sizes _).add_size ih (by decide) (by decide)

/-! ## Finalisation -/

def writerContent (writer : OraclePackWriter) : PackContent where
  compiler_fingerprint := writer.compiler_fingerprint
  environment_fingerprint := writer.environment_fingerprint
  entries := sortBy (fun entry => entry.variant_key_digest.toList) writer.entries
  preprocesses := sortBy (fun record => record.request_digest.toList) writer.preprocesses

lemma memcmp_digest (a b : Digest) : memcmp a.toList b.toList = compare a.toList b.toList := by
  apply memcmp_eq
  rw [length_digest, length_digest]

lemma qsort_entries (entries : List OwnedEntry) : qsort compare_owned_entries entries =
      sortBy (fun entry => entry.variant_key_digest.toList) entries := by
  have hcmp : compare_owned_entries =
      fun a b => compare a.variant_key_digest.toList b.variant_key_digest.toList := by
    funext a b
    exact memcmp_digest _ _
  rw [qsort, hcmp]
  rfl

lemma qsort_preprocesses (preprocesses : List OwnedPreprocess) :
    qsort compare_owned_preprocesses preprocesses =
      sortBy (fun record => record.request_digest.toList) preprocesses := by
  have hcmp : compare_owned_preprocesses =
      fun a b => compare a.request_digest.toList b.request_digest.toList := by
    funext a b
    exact memcmp_digest _ _
  rw [qsort, hcmp]
  rfl

lemma adjacent_entries_eq_false :
    adjacent_any (fun a b => compare_owned_entries a b ≠ .lt) entries = false ↔
      SortedBy (fun entry => entry.variant_key_digest.toList) entries := by
  rw [adjacent_any_eq_false, sortedBy_iff_isChain]
  apply List.IsChain.iff
  intro a b
  rw [decide_eq_false_iff_not, not_not, compare_owned_entries, memcmp_digest]

lemma adjacent_preprocesses_eq_false :
    adjacent_any (fun a b => compare_owned_preprocesses a b ≠ .lt) preprocesses = false ↔
      SortedBy (fun record => record.request_digest.toList) preprocesses := by
  rw [adjacent_any_eq_false, sortedBy_iff_isChain]
  apply List.IsChain.iff
  intro a b
  rw [decide_eq_false_iff_not, not_not, compare_owned_preprocesses, memcmp_digest]

section Finalize

variable {sha256 : Bytes → Digest} {writer : OraclePackWriter}

lemma length_writerContent_entries :
    (writerContent writer).entries.length = writer.entries.length :=
  (perm_sortBy _ _).length_eq

lemma length_writerContent_preprocesses :
    (writerContent writer).preprocesses.length = writer.preprocesses.length :=
  (perm_sortBy _ _).length_eq

lemma writerContent_offsets :
    192 + writer.entries.length * 48 = (writerContent writer).preprocessDirectory ∧
      192 + writer.entries.length * 48 + writer.preprocesses.length * 48 =
        (writerContent writer).payloadOffset ∧
      (writerContent writer).payloadOffset ≤ (writerContent writer).packSize := by
  rw [packSize, preprocessOffset, payloadOffset,
    preprocessDirectory, length_writerContent_entries,
    length_writerContent_preprocesses]
  omega

lemma store_header_zeros (hsize : (writerContent writer).packSize ≤ SIZE_MAX) :
    store_header (List.replicate (writerContent writer).packSize 0) writer
        (writerContent writer).packSize (writer.entries.length * 48)
        (writer.preprocesses.length * 48) (writerContent writer).preprocessDirectory
        (writerContent writer).payloadOffset =
      (writerContent writer).headFields.flatten ++
        List.replicate ((writerContent writer).packSize - 152) 0 := by
  obtain ⟨hdir, hpay, hle⟩ := @writerContent_offsets writer
  have hstores : ∀ data, store_header data writer (writerContent writer).packSize
      (writer.entries.length * 48) (writer.preprocesses.length * 48)
      (writerContent writer).preprocessDirectory (writerContent writer).payloadOffset =
      store_chunks data 0 (writerContent writer).headFields := by
    intro data
    have hmagic : k_pack_magic.length = 8 := by decide
    unfold store_header ORACLE_PACK_HEADER_SIZE
    dsimp only
    have h192 : 192 ≤ SIZE_MAX := by decide
    rw [store_size_eq _ _ (by omega), store_size_eq _ _ (by omega), store_size_eq _ _ (by omega),
      store_size_eq _ _ (by omega), store_size_eq _ _ (by omega), store_size_eq _ _ (by omega),
      store_size_eq _ _ h192, store_size_eq _ _ (by omega), store_size_eq _ _ hsize,
      store_le32_eq, store_le32_eq]
    simp only [headFields, store_chunks, length_leBytes, length_digest, hmagic,
      Nat.zero_add, Nat.reduceAdd, length_writerContent_entries,
      length_writerContent_preprocesses]
    rfl
  have hlen := (writerContent writer).length_headFields
  have hzeros : replicate (writerContent writer).packSize (0 : UInt8) =
      [] ++ (replicate (writerContent writer).packSize 0 ++ []) := by simp
  rw [hstores, hzeros, store_chunks_zeros _ [] [] (by omega) length_nil.symm, hlen,
    nil_append, append_nil]

lemma store_pack_eq (hsize : (writerContent writer).packSize ≤ SIZE_MAX) : store_preprocesses
        (store_entries (store_header (List.replicate (writerContent writer).packSize 0) writer
          (writerContent writer).packSize (writer.entries.length * 48)
          (writer.preprocesses.length * 48) (writerContent writer).preprocessDirectory
          (writerContent writer).payloadOffset) 0 (writerContent writer).payloadOffset
          (writerContent writer).entries).1
        (writerContent writer).preprocessDirectory 0 (writerContent writer).preprocessOffset
        (writerContent writer).preprocesses =
      (writerContent writer).headFields.flatten ++
        (List.replicate 32 0 ++ (leBytes 8 0 ++ (writerContent writer).bodyBytes)) := by
  rw [store_header_zeros hsize]
  generalize hcontent : writerContent writer = content at *
  have hhead := content.length_headFields
  have hpack : content.packSize = content.payloadOffset +
      ((recordsBytes content.entryRecords).length +
        (recordsBytes content.preprocessRecords).length) := by
    rw [packSize, preprocessOffset]
    omega
  have hpay : content.payloadOffset =
      192 + content.entries.length * 48 + content.preprocesses.length * 48 := rfl
  have hzeros : replicate (content.packSize - 152) (0 : UInt8) =
      replicate 40 0 ++ (replicate (content.entries.length * 48) 0 ++
        (replicate (content.preprocesses.length * 48) 0 ++
          (replicate ((recordsBytes content.entryRecords).length +
            (recordsBytes content.preprocessRecords).length) 0 ++ []))) := by
    have hcnt : content.packSize - 152 = 40 + (content.entries.length * 48 +
        (content.preprocesses.length * 48 + ((recordsBytes content.entryRecords).length +
          (recordsBytes content.preprocessRecords).length))) := by omega
    rw [hcnt, append_nil, replicate_append_replicate, replicate_append_replicate,
      replicate_append_replicate]
  have hentrySize : ∀ entry ∈ content.entries, entrySize entry ≤ SIZE_MAX := by
    intro entry hent
    have hmem : (entry.variant_key_digest, entryBytes entry) ∈ content.entryRecords :=
      mem_map_of_mem hent
    have hle := length_le_recordsBytes hmem
    rw [length_entryBytes] at hle
    omega
  have hrecordSize : ∀ record ∈ content.preprocesses, preprocessSize record ≤ SIZE_MAX := by
    intro record hrec
    have hmem : (record.request_digest, preprocessBytes record) ∈ content.preprocessRecords :=
      mem_map_of_mem hrec
    have hle := length_le_recordsBytes hmem
    rw [length_preprocessBytes] at hle
    omega
  have hstart : (content.headFields.flatten ++ replicate 40 0).length = 192 := by
    rw [length_append, hhead, length_replicate]
  have hfst : content.payloadOffset = (content.headFields.flatten ++ replicate 40 0).length +
      content.entries.length * 48 +
      (replicate (content.preprocesses.length * 48) (0 : UInt8)).length := by
    rw [hstart, length_replicate]
    exact hpay
  have hsnd : content.preprocessDirectory = ((content.headFields.flatten ++
      replicate 40 0) ++ directoryBytes content.payloadOffset content.entryRecords).length := by
    rw [length_append, hstart, length_directoryBytes, entryRecords, length_map]
    rfl
  -- The entries and their directory come first.
  rw [hzeros, ← append_assoc, store_entries_zeros
    (show content.entryRecords = _ from rfl) hentrySize _ _ _ hstart.symm hfst (Nat.le_refl _) (Nat.le_add_right _ _) (by omega)]
  -- What is left of the zeros is the other directory and its records.
  rw [Nat.sub_self, replicate_zero, nil_append, Nat.add_sub_cancel_left,
    append_assoc (replicate (content.preprocesses.length * 48) 0),
    store_preprocesses_zeros (show content.preprocessRecords = _ from rfl) hrecordSize _ _ _ hsnd
    (by rw [← hsnd]; rfl) (Nat.le_refl _) (Nat.le_refl _) (by
      rw [preprocessOffset]
      omega)]
  rw [Nat.sub_self, Nat.sub_self, replicate_zero, append_nil, nil_append, bodyBytes,
    show replicate 40 (0 : UInt8) = replicate 32 0 ++ leBytes 8 0 by decide]
  simp only [append_assoc, append_nil]

lemma overwrite_digest (content : PackContent) : overwrite (content.headFields.flatten ++
        (List.replicate 32 0 ++ (leBytes 8 0 ++ content.bodyBytes))) 152
      (pack_digest sha256 (content.headFields.flatten ++
        (List.replicate 32 0 ++ (leBytes 8 0 ++ content.bodyBytes)))).toList =
      content.packBytes sha256 := by
  have hhead := content.length_headFields
  have hslice : slice (content.headFields.flatten ++
      (replicate 32 0 ++ (leBytes 8 0 ++ content.bodyBytes))) 0 152 =
      content.headFields.flatten := by
    rw [← hhead]
    exact slice_append_self _ _
  have hdrop : (content.headFields.flatten ++ (replicate 32 0 ++
      (leBytes 8 0 ++ content.bodyBytes))).drop 184 = leBytes 8 0 ++ content.bodyBytes := by
    rw [← append_assoc]
    apply drop_left'
    rw [length_append, hhead, length_replicate]
  rw [pack_digest, hslice, hdrop, overwrite_zeros _ _ _ (Nat.le_of_eq (length_digest _)) hhead.symm,
    length_digest, Nat.sub_self, replicate_zero, nil_append, append_assoc]
  rfl

lemma finalize_size_eq_some {total : ℕ} (hle : (writerContent writer).payloadOffset ≤ SIZE_MAX) :
    (do
      let total ← entries_size (writerContent writer).payloadOffset (writerContent writer).entries
      preprocesses_size total (writerContent writer).preprocesses) = some total ↔
      total = (writerContent writer).packSize ∧ (writerContent writer).packSize ≤ SIZE_MAX := by
  have hpos : 0 < (writerContent writer).payloadOffset := by
    rw [payloadOffset, preprocessDirectory]
    omega
  rw [(sumsTo_entries_size _).bind (sumsTo_preprocesses_size _) hpos hle, ← Nat.add_assoc]
  change total = (writerContent writer).packSize ∧ _ ↔ _
  exact and_congr_right (· ▸ Iff.rfl)

/-- **What a writer produces.** The digests of its records differ, the pack fits into memory,
and the bytes are those of the pack. -/
theorem finalize_bytes_eq_ok {bytes : Bytes} : finalize_bytes sha256 writer = .ok bytes ↔
      SortedBy (fun entry => entry.variant_key_digest.toList) (writerContent writer).entries ∧
      SortedBy (fun record => record.request_digest.toList) (writerContent writer).preprocesses ∧
      (writerContent writer).packSize ≤ SIZE_MAX ∧
      bytes = (writerContent writer).packBytes sha256 := by
  obtain ⟨hdir, hpay, hle⟩ := @writerContent_offsets writer
  unfold finalize_bytes
  rw [qsort_entries, qsort_preprocesses,
    show sortBy (fun entry => entry.variant_key_digest.toList) writer.entries =
      (writerContent writer).entries from rfl,
    show sortBy (fun record => record.request_digest.toList) writer.preprocesses =
      (writerContent writer).preprocesses from rfl]
  dsimp only
  rw [ite_error_eq_ok, ite_error_eq_ok, Bool.not_eq_true, Bool.not_eq_true,
    adjacent_entries_eq_false, adjacent_preprocesses_eq_false]
  refine and_congr_right fun hsorted => and_congr_right fun hsorted' => ?_
  have hres : ∀ hsize : (writerContent writer).packSize ≤ SIZE_MAX,
      (let total_size := (writerContent writer).packSize
        let stored := store_entries (store_header (replicate total_size 0) writer total_size
            (writer.entries.length * 48) (writer.preprocesses.length * 48)
            (192 + writer.entries.length * 48)
            (192 + writer.entries.length * 48 + writer.preprocesses.length * 48)) 0
          (192 + writer.entries.length * 48 + writer.preprocesses.length * 48)
          (writerContent writer).entries
        let data := store_preprocesses stored.1 (192 + writer.entries.length * 48) 0 stored.2
          (writerContent writer).preprocesses
        (.ok (overwrite data 152 (pack_digest sha256 data).toList) :
          Except OraclePackStatus Bytes)) =
        .ok ((writerContent writer).packBytes sha256) := by
    intro hsize
    have hstores := store_pack_eq hsize
    rw [hpay, hdir]
    dsimp only
    rw [store_entries_eq] at hstores ⊢
    dsimp only at hstores ⊢
    change Except.ok (overwrite (store_preprocesses _ _ 0 (writerContent writer).preprocessOffset _)
      152 (pack_digest sha256 (store_preprocesses _ _ 0 (writerContent writer).preprocessOffset
        _)).toList) = _
    rw [hstores, overwrite_digest]
  constructor
  · intro h
    split at h
    · simp at h
    · rename_i d1 d2 d3 d4 hdirs
      obtain ⟨heq, hfits⟩ := directory_layout_eq_some.mp hdirs
      obtain ⟨rfl, rfl, rfl, rfl⟩ : d1 = _ ∧ d2 = _ ∧ d3 = _ ∧ d4 = _ := by
        simpa only [Prod.mk.injEq] using heq
      split at h
      · simp at h
      · rename_i total htotal
        rw [hpay] at htotal
        obtain ⟨rfl, hsize⟩ := (finalize_size_eq_some (by omega)).mp htotal
        exact ⟨hsize, (Except.ok.inj ((hres hsize).symm.trans h)).symm⟩
  · rintro ⟨hsize, rfl⟩
    rw [directory_layout_eq_some.mpr ⟨rfl, by omega⟩]
    dsimp only
    rw [hpay, (finalize_size_eq_some (by omega)).mpr ⟨rfl, hsize⟩, ← hpay]
    exact hres hsize

end Finalize

end DXBCSandbox
