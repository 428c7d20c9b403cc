/-
Inspecting an archive agrees with opening it (`src/io/shader_blob_archive.c`).

Both go through when the layout is good, every segment decompresses and the table of the first one
reads; only the order in which they find out differs. What the validation tested about an entry is
what `get` tests again, so nothing is left that could fail.
-/
import DXBCSandbox.Io.ShaderBlobArchive

namespace DXBCSandbox

open List Option

namespace ShaderBlob

section Archive

variable {Value : Type} {T : TypeTree Value} {lz4 : Lz4}

/-! ## Layouts -/

variable {layout : ShaderBlobArchiveLayout Value}

lemma platformLayout_bounds {platform_index stage_count : ℕ}
    {offsets_outer compressed_outer decompressed_outer blob_array : Value}
    (h : platformLayout T platform_index offsets_outer compressed_outer decompressed_outer
      blob_array stage_count = some layout) :
    0 < layout.segment_count ∧ layout.segment_count ≤ INT_MAX := by
  unfold platformLayout at h
  split at h
  · rename_i offsets _ _ _ _ _
    have hle := T.count_le offsets
    split at h
    · nomatch h
    rename_i hplanes
    have hpos : 0 < T.count offsets := by
      by_contra hnot
      exact hplanes (.inr (.inr (.inr (.inr (.inr (by omega))))))
    split at h
    · nomatch h
    simp only at h
    split at h
    · nomatch h
    obtain ⟨total, -, rfl⟩ := map_eq_some_iff.mp h
    show 0 < (T.count offsets).toNat ∧ (T.count offsets).toNat ≤ INT_MAX
    omega
  · nomatch h

variable {shader_value : Value} {platform : ℤ}

lemma layout_init_bounds
    (h : shader_blob_archive_layout_init T shader_value platform = some layout) :
    0 < layout.segment_count ∧ layout.segment_count ≤ INT_MAX := by
  unfold shader_blob_archive_layout_init at h
  simp only at h
  split at h
  · split at h
    · split at h
      · nomatch h
      split at h
      · nomatch h
      split at h
      · nomatch h
      exact platformLayout_bounds h
    · nomatch h
  · nomatch h

/-! ## Segments -/

def Decompresses (T : TypeTree Value) (lz4 : Lz4) (layout : ShaderBlobArchiveLayout Value)
    (i : ℕ) (segment : ShaderBlobSegmentInfo) (bytes : Bytes) : Prop :=
  shader_blob_segment_info T layout i = some segment ∧
    shader_blob_decompress_segment T lz4 layout segment = some bytes

variable {segment : ShaderBlobSegmentInfo} {i : ℕ}

lemma Decompresses.length_eq {bytes : Bytes} (h : Decompresses T lz4 layout i segment bytes) :
    bytes.length = segment.decompressed_length := by
  have hrun := h.2
  unfold shader_blob_decompress_segment at hrun
  split at hrun
  · nomatch hrun
  obtain ⟨compressed, -, hres⟩ := bind_eq_some_iff.mp hrun
  split at hres
  · rw [← some.inj hres]
    exact lz4.length_output _ _
  · nomatch hres

lemma Decompresses.unique {segment' : ShaderBlobSegmentInfo} {bytes bytes' : Bytes}
    (h : Decompresses T lz4 layout i segment bytes)
    (h' : Decompresses T lz4 layout i segment' bytes') : segment = segment' ∧ bytes = bytes' := by
  have hseg := some.inj (h.1.symm.trans h'.1)
  subst hseg
  exact ⟨rfl, some.inj (h.2.symm.trans h'.2)⟩

def AllDecompress (T : TypeTree Value) (lz4 : Lz4) (layout : ShaderBlobArchiveLayout Value)
    (segments : List ℕ) : Prop :=
  ∀ i ∈ segments, ∃ segment bytes, Decompresses T lz4 layout i segment bytes

lemma allDecompress_cons {rest : List ℕ} : AllDecompress T lz4 layout (i :: rest) ↔
      (∃ segment bytes, Decompresses T lz4 layout i segment bytes) ∧
        AllDecompress T lz4 layout rest := forall_mem_cons

variable {segments : List ℕ}

/-- **Inspection behind the first segment.** The loop goes through exactly when every segment
decompresses, and leaves the number of entries alone. -/
theorem inspectSegments_spec (hzero : 0 ∉ segments) (entry_count result : ℤ) :
    inspectSegments T lz4 layout segments entry_count = some result ↔
      result = entry_count ∧ AllDecompress T lz4 layout segments := by
  induction segments with
  | nil =>
    rw [inspectSegments, some.injEq]
    exact ⟨fun h => ⟨h.symm, nofun⟩, fun h => h.1.symm⟩
  | cons i rest ih =>
    have hi : i ≠ 0 := fun h => hzero (h ▸ mem_cons_self)
    have ih := ih fun h => hzero (mem_cons_of_mem _ h)
    rw [inspectSegments, allDecompress_cons]
    cases hseg : shader_blob_segment_info T layout i with
    | none =>
      refine iff_of_false (nofun) ?_
      rintro ⟨-, ⟨segment, bytes, hi⟩, -⟩
      exact nomatch hseg.symm.trans hi.1
    | some segment =>
      cases hbytes : shader_blob_decompress_segment T lz4 layout segment with
      | none =>
        refine iff_of_false (fun h => ?_) ?_
        · simp only [hbytes] at h
          nomatch h
        rintro ⟨-, ⟨segment', bytes, hi⟩, -⟩
        rw [← some.inj (hseg.symm.trans hi.1)] at hi
        exact nomatch hbytes.symm.trans hi.2
      | some bytes =>
        simp only [hbytes]
        rw [if_neg hi, ih]
        exact ⟨fun h => ⟨h.1, ⟨segment, bytes, hseg, hbytes⟩, h.2⟩, fun h => ⟨h.1, h.2.2⟩⟩

structure Retained (T : TypeTree Value) (lz4 : Lz4) (layout : ShaderBlobArchiveLayout Value)
    (segments : List ℕ) (before after : ShaderBlobArchive) : Prop where
  segment_count : after.segment_count = before.segment_count
  kept : ∀ i ∉ segments, after.segments[i]? = before.segments[i]? ∧
    after.segment_lengths[i]? = before.segment_lengths[i]?
  bytes : ∀ i ∈ segments, ∀ segment bytes, Decompresses T lz4 layout i segment bytes →
    after.segments[i]? = some (some bytes) ∧
      after.segment_lengths[i]? = some (segment.decompressed_length : ℤ)

/-- **The loop of `open`.** It goes through exactly when every segment decompresses, and keeps all
of them; otherwise the archive is zeroed. -/
theorem retainSegments_spec (hnodup : segments.Nodup) (archive : ShaderBlobArchive)
    (hrange : ∀ i ∈ segments, i < archive.segments.length ∧ i < archive.segment_lengths.length) :
    (∃ after, retainSegments T lz4 layout segments archive = (true, after) ∧
        AllDecompress T lz4 layout segments ∧ Retained T lz4 layout segments archive after) ∨
      (retainSegments T lz4 layout segments archive = (false, .zeroed) ∧
        ¬ AllDecompress T lz4 layout segments) := by
  induction segments generalizing archive with
  | nil =>
    exact .inl ⟨archive, rfl, fun _ h => (nomatch h), rfl, fun _ _ => ⟨rfl, rfl⟩,
      fun _ h => (nomatch h)⟩
  | cons i rest ih =>
    rw [nodup_cons] at hnodup
    rw [retainSegments, allDecompress_cons]
    cases hseg : shader_blob_segment_info T layout i with
    | none =>
      refine .inr ⟨rfl, ?_⟩
      rintro ⟨⟨segment, bytes, hi⟩, -⟩
      exact nomatch hseg.symm.trans hi.1
    | some segment =>
      cases hbytes : shader_blob_decompress_segment T lz4 layout segment with
      | none =>
        refine .inr ⟨by simp only [hbytes]; rfl, ?_⟩
        rintro ⟨⟨segment', bytes, hi⟩, -⟩
        rw [← some.inj (hseg.symm.trans hi.1)] at hi
        exact nomatch hbytes.symm.trans hi.2
      | some bytes =>
        simp only [hbytes]
        have hi : Decompresses T lz4 layout i segment bytes := ⟨hseg, hbytes⟩
        have hplace := hrange i mem_cons_self
        rcases ih hnodup.2
          { archive with
            segment_lengths := archive.segment_lengths.set i segment.decompressed_length
            segments := archive.segments.set i (some bytes) }
          (fun j hj => by
            simp only [length_set]
            exact hrange j (mem_cons_of_mem _ hj)) with
          ⟨after, hrun, hall, hret⟩ | ⟨hrun, hnot⟩
        · refine .inl ⟨after, hrun, ⟨⟨segment, bytes, hi⟩, hall⟩, hret.segment_count,
            fun j hj => ?_, fun j hj => ?_⟩
          · have hne : i ≠ j := fun h => hj (h ▸ mem_cons_self)
            have hkept := hret.kept j fun h => hj (mem_cons_of_mem _ h)
            rwa [getElem?_set_ne hne, getElem?_set_ne hne] at hkept
          · rcases mem_cons.mp hj with rfl | hj
            · intro segment' bytes' hi'
              obtain ⟨rfl, rfl⟩ := hi.unique hi'
              have hkept := hret.kept j hnodup.1
              rwa [getElem?_set_self hplace.1, getElem?_set_self hplace.2] at hkept
            · exact hret.bytes j hj
        · exact .inr ⟨hrun, fun h => hnot h.2⟩

/-! ## Entries -/

/-- An entry lies in its segment, behind the table. -/
structure ValidEntry (T : TypeTree Value) (layout : ShaderBlobArchiveLayout Value)
    (table_end : ℕ) (entry : BlobEntry) : Prop where
  segment_nonneg : 0 ≤ entry.segment
  segment_lt : entry.segment < layout.segment_count
  offset_nonneg : 0 ≤ entry.offset
  length_nonneg : 0 ≤ entry.length
  within : ∃ segment, shader_blob_segment_info T layout entry.segment = some segment ∧
    entry.offset.toNat + entry.length.toNat ≤ segment.decompressed_length
  behind_table : entry.segment = 0 → table_end ≤ entry.offset.toNat

variable {table_end : ℕ}

lemma validEntries_spec {first_segment : Bytes} {indices : List ℕ} {entries : List BlobEntry}
    (h : validEntries T layout first_segment table_end indices = some entries) :
    entries.length = indices.length ∧ ∀ entry ∈ entries, ValidEntry T layout table_end entry := by
  induction indices generalizing entries with
  | nil =>
    rw [validEntries] at h
    rw [← some.inj h]
    exact ⟨rfl, nofun⟩
  | cons i rest ih =>
    rw [validEntries] at h
    simp only at h
    split at h
    · nomatch h
    rename_i hflds
    split at h
    · nomatch h
    rename_i segment hseg
    split at h
    · nomatch h
    rename_i hwithin
    obtain ⟨after, hafter, rfl⟩ := map_eq_some_iff.mp h
    obtain ⟨hlength, hvalid⟩ := ih hafter
    refine ⟨by rw [length_cons, length_cons, hlength], fun entry hent => ?_⟩
    rcases mem_cons.mp hent with rfl | hent
    · simp only [not_or, not_lt, not_le, not_and] at hflds hwithin
      obtain ⟨hnn, hlt, hoff, hlen⟩ := hflds
      obtain ⟨hoff', hlength', htable⟩ := hwithin
      exact ⟨hnn, hlt, hoff, hlen, ⟨segment, hseg, by dsimp only at *; omega⟩, htable⟩
    · exact hvalid entry hent

/-- The header's number of entries is an `int`, and the table ends behind that many entries. -/
theorem entry_table_header_spec {segment : Bytes} {segment_length : ℕ} {entry_count : ℤ}
    (h : shader_blob_entry_table_header segment segment_length = some (entry_count, table_end)) :
    0 ≤ entry_count ∧ entry_count ≤ INT_MAX ∧ table_end = 4 + entry_count.toNat * 12 := by
  unfold shader_blob_entry_table_header at h
  split at h
  · nomatch h
  simp only at h
  split at h
  · nomatch h
  rename_i hcnt
  split at h
  · nomatch h
  obtain ⟨rfl, rfl⟩ := Prod.mk.inj (some.inj h)
  simp only [not_or, not_lt] at hcnt
  refine ⟨Int.natCast_nonneg _, by exact_mod_cast hcnt.1, by rw [Int.toNat_natCast]⟩

/-- The table of the first segment is read and every entry of it is valid. -/
def TableReads (T : TypeTree Value) (layout : ShaderBlobArchiveLayout Value)
    (bytes : Bytes) (length : ℕ) (entry_count : ℤ) (entries : List BlobEntry) : Prop :=
  ∃ table_end, shader_blob_entry_table_header bytes length = some (entry_count, table_end) ∧
    shader_blob_validate_entries T layout bytes length entry_count table_end = some entries

/-! ## Inspecting and opening -/

/-- The archive of a layout whose segments decompress and whose table reads. -/
structure Opened (T : TypeTree Value) (lz4 : Lz4) (layout : ShaderBlobArchiveLayout Value)
    (archive : ShaderBlobArchive) : Prop where
  segment_count : archive.segment_count = layout.segment_count
  stage_count : archive.stage_count = layout.stage_count
  bytes : ∀ i < layout.segment_count, ∃ segment bytes,
    Decompresses T lz4 layout i segment bytes ∧ archive.segments[i]? = some (some bytes) ∧
      archive.segment_lengths[i]? = some (segment.decompressed_length : ℤ)
  table : ∀ segment bytes, Decompresses T lz4 layout 0 segment bytes →
    TableReads T layout bytes segment.decompressed_length archive.entry_count archive.entries

lemma range_of_pos {n : ℕ} (h : 0 < n) : List.range n = 0 :: List.range' 1 (n - 1) := by
  obtain ⟨m, rfl⟩ : ∃ m, n = m + 1 := ⟨n - 1, by omega⟩
  rw [range_eq_range', range'_succ, Nat.add_sub_cancel]

/-- Inspection is the table of the first segment, and decompressing all of them. -/
theorem inspectSegments_range (hpos : 0 < layout.segment_count) (entry_count : ℤ) :
    inspectSegments T lz4 layout (List.range layout.segment_count) 0 = some entry_count ↔
      AllDecompress T lz4 layout (List.range layout.segment_count) ∧
        ∃ segment bytes entries, Decompresses T lz4 layout 0 segment bytes ∧
          TableReads T layout bytes segment.decompressed_length entry_count entries := by
  have hzero : 0 ∉ range' 1 (layout.segment_count - 1) := by
    intro h
    have hle := (mem_range'_1.mp h).1
    omega
  rw [range_of_pos hpos, inspectSegments, allDecompress_cons]
  constructor
  · intro h
    split at h
    · nomatch h
    rename_i segment hseg
    split at h
    · nomatch h
    rename_i bytes hbytes
    rw [if_pos rfl] at h
    split at h
    · nomatch h
    rename_i count table_end hhdr
    split at h
    · nomatch h
    rename_i entries hents
    obtain ⟨rfl, hrest⟩ := (inspectSegments_spec hzero _ _).mp h
    exact ⟨⟨⟨segment, bytes, hseg, hbytes⟩, hrest⟩, segment, bytes, entries,
      ⟨hseg, hbytes⟩, table_end, hhdr, hents⟩
  · rintro ⟨⟨-, hrest⟩, segment, bytes, entries, hfst, table_end, hhdr, hents⟩
    have hseg : shader_blob_segment_info T layout 0 = some segment := hfst.1
    simp only [Nat.cast_zero, hseg, hfst.2, hhdr, hents, if_true]
    exact (inspectSegments_spec hzero _ _).mpr ⟨rfl, hrest⟩

variable {archive : ShaderBlobArchive}

/-- What `open` does with the table: it succeeds exactly when the table reads. -/
theorem retainEntries_spec {bytes : Bytes} {length : ℕ}
    (hbytes : archive.segments[0]? = some (some bytes))
    (hlen : archive.segment_lengths[0]? = some (length : ℤ)) :
    (∃ entry_count entries, TableReads T layout bytes length entry_count entries ∧
        retainEntries T layout archive = (true, { archive with
          entry_count, entries, stage_count := layout.stage_count })) ∨
      (retainEntries T layout archive = (false, .zeroed) ∧
        ∀ entry_count entries, ¬ TableReads T layout bytes length entry_count entries) := by
  rw [← head?_eq_getElem?] at hbytes hlen
  simp only [retainEntries, hbytes, hlen, Int.toNat_natCast]
  cases hhdr : shader_blob_entry_table_header bytes length with
  | none =>
    refine .inr ⟨rfl, ?_⟩
    rintro entry_count entries ⟨table_end, h, -⟩
    exact nomatch hhdr.symm.trans h
  | some header =>
    obtain ⟨entry_count, table_end⟩ := header
    have hcnt := entry_table_header_spec hhdr
    have hsize : ¬ (0 < entry_count ∧ SIZE_MAX < entry_count.toNat * 12) := by
      have hmax := hcnt.2.1
      unfold INT_MAX at hmax
      unfold SIZE_MAX
      omega
    simp only [hsize, if_false]
    cases hents : shader_blob_validate_entries T layout bytes length entry_count table_end with
    | none =>
      refine .inr ⟨rfl, ?_⟩
      rintro count entries ⟨table_end', h, hvalid⟩
      obtain ⟨rfl, rfl⟩ := Prod.mk.inj (some.inj (hhdr.symm.trans h))
      exact nomatch hents.symm.trans hvalid
    | some entries =>
      exact .inl ⟨entry_count, entries, ⟨table_end, hhdr, hents⟩, rfl⟩

/-- **Opening.** It succeeds exactly when all segments decompress and the table of the first reads;
otherwise the archive is zeroed. -/
theorem archive_open_spec (shader_value : Value) (platform : ℤ) (before : ShaderBlobArchive) :
    (∃ layout archive, shader_blob_archive_layout_init T shader_value platform = some layout ∧
        shader_blob_archive_open T lz4 shader_value platform before = (true, archive) ∧
        Opened T lz4 layout archive) ∨
      (shader_blob_archive_open T lz4 shader_value platform before = (false, .zeroed) ∧
        shader_blob_archive_inspect T lz4 shader_value platform = none) := by
  rw [shader_blob_archive_open, shader_blob_archive_inspect]
  cases hlay : shader_blob_archive_layout_init T shader_value platform with
  | none => exact .inr ⟨rfl, rfl⟩
  | some layout =>
    obtain ⟨hpos, hmax⟩ := layout_init_bounds hlay
    have hsize : ¬ (SIZE_MAX < layout.segment_count * 8 ∨ SIZE_MAX < layout.segment_count * 4) := by
      unfold INT_MAX at hmax
      unfold SIZE_MAX
      omega
    simp only [hsize, if_false]
    have hfails : ¬ AllDecompress T lz4 layout (range layout.segment_count) →
        (inspectSegments T lz4 layout (range layout.segment_count) 0) = none := by
      intro hnot
      refine eq_none_iff_forall_ne_some.mpr fun entry_count h => hnot ?_
      exact ((inspectSegments_range hpos entry_count).mp h).1
    rcases @retainSegments_spec _ T lz4 layout (range layout.segment_count) nodup_range
      { ShaderBlobArchive.zeroed with
        segment_count := layout.segment_count
        segments := replicate layout.segment_count none
        segment_lengths := replicate layout.segment_count 0 }
      (fun i hi => by
        have hlt := mem_range.mp hi
        simp only [length_replicate]
        exact ⟨hlt, hlt⟩) with ⟨after, hrun, hall, hret⟩ | ⟨hrun, hnot⟩
    · simp only [hrun]
      obtain ⟨segment, bytes, hfst⟩ := hall 0 (mem_range.mpr hpos)
      obtain ⟨hbytes, hlen⟩ := hret.bytes 0 (mem_range.mpr hpos) _ _ hfst
      rcases @retainEntries_spec _ T layout after bytes segment.decompressed_length hbytes
        hlen with ⟨entry_count, entries, htable, hopen⟩ | ⟨hopen, hnot⟩
      · refine .inl ⟨layout, _, rfl, hopen, hret.segment_count, rfl, fun i hi => ?_, ?_⟩
        · obtain ⟨segment, bytes, hi'⟩ := hall i (mem_range.mpr hi)
          exact ⟨segment, bytes, hi', hret.bytes i (mem_range.mpr hi) _ _ hi'⟩
        · intro segment' bytes' hfst'
          obtain ⟨rfl, rfl⟩ := hfst.unique hfst'
          exact htable
      · refine .inr ⟨hopen, ?_⟩
        rw [map_eq_none_iff]
        refine eq_none_iff_forall_ne_some.mpr fun entry_count h => ?_
        obtain ⟨-, segment', bytes', entries, hfst', htable⟩ :=
          (inspectSegments_range hpos entry_count).mp h
        obtain ⟨rfl, rfl⟩ := hfst.unique hfst'
        exact hnot entry_count entries htable
    · simp only [hrun]
      refine .inr ⟨trivial, ?_⟩
      rw [hfails hnot]
      rfl

lemma archive_inspect_of_opened
    (hlay : shader_blob_archive_layout_init T shader_value platform = some layout)
    (h : Opened T lz4 layout archive) :
    shader_blob_archive_inspect T lz4 shader_value platform = some
      ⟨archive.entry_count.toNat, archive.segment_count.toNat, archive.stage_count,
        layout.total_decompressed_bytes⟩ := by
  have hpos := (layout_init_bounds hlay).1
  obtain ⟨segment, bytes, hfst, -⟩ := h.bytes 0 hpos
  have hrun := (inspectSegments_range hpos archive.entry_count).mpr ⟨fun i hi => by
      obtain ⟨segment, bytes, hi, -⟩ := h.bytes i (mem_range.mp hi)
      exact ⟨segment, bytes, hi⟩, segment, bytes, _, hfst, h.table _ _ hfst⟩
  rw [shader_blob_archive_inspect, hlay]
  simp only [hrun, Option.map_some, h.segment_count, h.stage_count, Int.toNat_natCast]

/-! ## Payloads -/

/-- A payload lies inside its segment, and behind the entry table when that is segment 0. -/
def InsideArchive (archive : ShaderBlobArchive) (payload : BlobPayload) : Prop :=
  (∃ bytes, archive.segments[payload.segment]? = some (some bytes) ∧
      payload.offset + payload.length ≤ bytes.length) ∧
    (payload.segment = 0 → 4 + archive.entry_count.toNat * 12 ≤ payload.offset)

lemma archive_get_of_opened (h : Opened T lz4 layout archive) (hpos : 0 < layout.segment_count)
    {entry_index : ℤ} (hidx : 0 ≤ entry_index) (hlt : entry_index < archive.entry_count) :
    ∃ payload, shader_blob_archive_get archive entry_index = some payload ∧
      InsideArchive archive payload := by
  obtain ⟨segment, bytes, hfst, -⟩ := h.bytes 0 hpos
  obtain ⟨table_end, hhdr, hvalidate⟩ := h.table _ _ hfst
  obtain ⟨-, -, htable⟩ := entry_table_header_spec hhdr
  unfold shader_blob_validate_entries at hvalidate
  split at hvalidate
  · nomatch hvalidate
  obtain ⟨hlength, hvalid⟩ := validEntries_spec hvalidate
  rw [length_range] at hlength
  have hplace : entry_index.toNat < archive.entries.length := by omega
  have hent := hvalid _ (getElem_mem hplace)
  have hget := getElem?_eq_getElem hplace
  generalize archive.entries[entry_index.toNat] = entry at hent hget
  obtain ⟨hseg, hseg', hoff, hlen, ⟨info, hinfo, hwithin⟩, hbehind⟩ := hent
  obtain ⟨info', bytes', hdecompresses, hbytes, hlens⟩ :=
    h.bytes entry.segment.toNat (by omega)
  have hsame : info' = info := by
    have hcast : ((entry.segment.toNat : ℕ) : ℤ) = entry.segment := Int.toNat_of_nonneg hseg
    have hinfo' := hdecompresses.1
    rw [hcast] at hinfo'
    exact some.inj (hinfo'.symm.trans hinfo)
  subst hsame
  have hcnt := h.segment_count
  refine ⟨⟨entry.segment.toNat, entry.offset.toNat, entry.length.toNat⟩, ?_,
    ⟨bytes', hbytes, ?_⟩, fun hzero => ?_⟩
  · unfold shader_blob_archive_get
    rw [if_neg (by omega)]
    simp only [hget]
    rw [if_neg (by omega)]
    simp only [hlens, Int.toNat_natCast]
    rw [if_neg (by omega)]
  · rw [hdecompresses.length_eq]
    exact hwithin
  · rw [← htable]
    have hzero' : entry.segment.toNat = 0 := hzero
    exact hbehind (by omega)

/-- **Inspection agrees with opening.** They succeed on the same values with the same counts. A
failed `open` leaves a zeroed archive, and from an opened one every entry is got with a payload
inside its segment that does not touch the entry table. -/
theorem blob_archive_inspect_open (T : TypeTree Value) (lz4 : Lz4) (shader_value : Value)
    (platform : ℤ) (before : ShaderBlobArchive) :
    let opened := shader_blob_archive_open T lz4 shader_value platform before
    ((shader_blob_archive_inspect T lz4 shader_value platform).isSome ↔ opened.1 = true) ∧
      (∀ info, shader_blob_archive_inspect T lz4 shader_value platform = some info →
        (info.entry_count : ℤ) = opened.2.entry_count ∧
          (info.segment_count : ℤ) = opened.2.segment_count ∧
          info.stage_count = opened.2.stage_count) ∧
      (opened.1 = false → opened.2 = .zeroed) ∧
      (opened.1 = true → ∀ entry_index, 0 ≤ entry_index → entry_index < opened.2.entry_count →
        ∃ payload, shader_blob_archive_get opened.2 entry_index = some payload ∧
          InsideArchive opened.2 payload) := by
  intro opened
  rcases @archive_open_spec _ T lz4 shader_value platform before with
    ⟨layout, archive, hlayout, hopen, h⟩ | ⟨hopen, hinspect⟩
  · have hopened : opened = (true, archive) := hopen
    have hinspect := archive_inspect_of_opened hlayout h
    have hpos := (layout_init_bounds hlayout).1
    rw [hopened, hinspect]
    refine ⟨iff_of_true rfl rfl, fun info hinfo => ?_, fun hfalse => (nomatch hfalse),
      fun _ entry_index => archive_get_of_opened h hpos⟩
    rw [← some.inj hinfo]
    obtain ⟨segment, bytes, hfirst, -⟩ := h.bytes 0 hpos
    obtain ⟨table_end, hheader, -⟩ := h.table _ _ hfirst
    have hnonneg := (entry_table_header_spec hheader).1
    refine ⟨Int.toNat_of_nonneg hnonneg, Int.toNat_of_nonneg ?_, rfl⟩
    rw [h.segment_count]
    exact Int.natCast_nonneg _
  · have hopened : opened = (false, .zeroed) := hopen
    rw [hopened, hinspect]
    exact ⟨iff_of_false (nofun) (nofun), fun _ h => (nomatch h), fun _ => rfl, fun h => (nomatch h)⟩

end Archive

end ShaderBlob

end DXBCSandbox
