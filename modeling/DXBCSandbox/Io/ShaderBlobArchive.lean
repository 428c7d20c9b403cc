/-
The compressed program archive of a shader (`src/io/shader_blob_archive.c`).

The shader object and the decompressor come from outside. For one platform the object gives the
segments of a compressed blob, and segment 0 begins with the table of the archive's entries.
`inspect` decompresses one segment at a time and keeps none of them, `open` keeps them all.
-/
import DXBCSandbox.Runtime

namespace DXBCSandbox

/-- What the type tree library says about its values: the children of an object, the array behind a
value, and the elements of an array as the types that they are asked for. -/
structure TypeTree (Value : Type) where
  find_child : Value → String → Option Value
  get_array : Value → Option Value
  is_array : Value → Bool
  count : Value → ℤ
  stores_values : Value → Bool
  has_elements : Value → Bool
  element : Value → ℕ → Value
  array_get_int : Value → ℕ → Option ℤ
  array_get_uint : Value → ℕ → Option ℕ
  get_byte_span : Value → Option Bytes
  array_copy_bytes : Value → (offset length : ℕ) → Option Bytes
  count_le : ∀ value, count value ≤ INT_MAX

/-- The decompressor: its result, and the bytes of an output buffer of the given capacity. -/
structure Lz4 where
  result : (compressed : Bytes) → (capacity : ℕ) → ℤ
  output : (compressed : Bytes) → (capacity : ℕ) → Bytes
  length_output : ∀ compressed capacity, (output compressed capacity).length = capacity

namespace ShaderBlob

def INT_MIN : ℤ := -2147483648

structure BlobEntry where
  offset : ℤ
  length : ℤ
  segment : ℤ

/-- A segment that has not been allocated is a null pointer. -/
structure ShaderBlobArchive where
  entries : List BlobEntry
  entry_count : ℤ
  segments : List (Option Bytes)
  segment_lengths : List ℤ
  segment_count : ℤ
  stage_count : ℕ

def ShaderBlobArchive.zeroed : ShaderBlobArchive := ⟨[], 0, [], [], 0, 0⟩

structure ShaderBlobArchiveInfo where
  entry_count : ℕ
  segment_count : ℕ
  stage_count : ℕ
  total_decompressed_bytes : ℕ

structure ShaderBlobSegmentInfo where
  offset : ℕ
  compressed_length : ℕ
  decompressed_length : ℕ

section Layout

variable {Value : Type} (T : TypeTree Value)

def value_array_is_values (array : Value) : Bool :=
  T.is_array array ∧ 0 ≤ T.count array ∧ T.stores_values array ∧
    (T.count array = 0 ∨ T.has_elements array)

/-- The loop over the platforms. A platform that is listed twice is none. -/
def findPlatform (array : Value) (platform : ℤ) : List ℕ → Option ℕ → Option ℕ
  | [], found => found
  | i :: rest, found =>
    match T.array_get_int array i with
    | none => none
    | some value =>
      if value < INT_MIN ∨ (INT_MAX : ℤ) < value then none
      else if value = platform then
        if found.isSome then none else findPlatform array platform rest (some i)
      else findPlatform array platform rest found

def find_platform_index (platforms : Option Value) (platform : ℤ) : Option ℕ :=
  match platforms.bind T.get_array with
  | none => none
  | some array => findPlatform T array platform (List.range (T.count array).toNat) none

/-- `packed_blob` is there when the blob is one span of bytes. -/
structure ShaderBlobArchiveLayout (Value : Type) where
  platform_offsets : Value
  platform_compressed : Value
  platform_decompressed : Value
  blob_array : Value
  packed_blob : Option Bytes
  blob_length : ℕ
  segment_count : ℕ
  stage_count : ℕ
  total_decompressed_bytes : ℕ

def shader_blob_segment_info (layout : ShaderBlobArchiveLayout Value) (segment_index : ℤ) :
    Option ShaderBlobSegmentInfo :=
  if segment_index < 0 ∨ (layout.segment_count : ℤ) ≤ segment_index then none
  else
    match T.array_get_uint layout.platform_offsets segment_index.toNat,
        T.array_get_uint layout.platform_compressed segment_index.toNat,
        T.array_get_uint layout.platform_decompressed segment_index.toNat with
    | some offset, some compressed_length, some decompressed_length =>
      if UINT32_MAX < offset ∨ INT_MAX < compressed_length ∨ INT_MAX < decompressed_length ∨
          compressed_length = 0 ∨ decompressed_length = 0 ∨ layout.blob_length < offset ∨
          layout.blob_length - offset < compressed_length then none
      else some ⟨offset, compressed_length, decompressed_length⟩
    | _, _, _ => none

/-- The sum of the decompressed lengths, in 64 bits. -/
def totalDecompressed (layout : ShaderBlobArchiveLayout Value) : List ℕ → ℕ → Option ℕ
  | [], total => some total
  | i :: rest, total =>
    match shader_blob_segment_info T layout i with
    | none => none
    | some segment =>
      if UINT64_MAX - total < segment.decompressed_length then none
      else totalDecompressed layout rest (total + segment.decompressed_length)

/-- The planes of one platform, once the outer arrays have been checked. -/
def platformLayout (platform_index : ℕ)
    (offsets_outer compressed_outer decompressed_outer blob_array : Value) (stage_count : ℕ) :
    Option (ShaderBlobArchiveLayout Value) :=
  match T.get_array (T.element offsets_outer platform_index),
      T.get_array (T.element compressed_outer platform_index),
      T.get_array (T.element decompressed_outer platform_index) with
  | some offsets, some compressed, some decompressed =>
    if ¬ value_array_is_values T offsets ∨ ¬ value_array_is_values T compressed ∨
        ¬ value_array_is_values T decompressed ∨ T.count offsets ≠ T.count compressed ∨
        T.count offsets ≠ T.count decompressed ∨ T.count offsets ≤ 0 then none
    else if T.count blob_array < 0 then none
    else
      let packed_blob := T.get_byte_span blob_array
      let blob_length := (T.count blob_array).toNat
      if packed_blob.any fun bytes => bytes.length ≠ blob_length then none
      else
        let layout : ShaderBlobArchiveLayout Value :=
          ⟨offsets, compressed, decompressed, blob_array, packed_blob, blob_length,
            (T.count offsets).toNat, stage_count, 0⟩
        (totalDecompressed T layout (List.range layout.segment_count) 0).map fun total =>
          { layout with total_decompressed_bytes := total }
  | _, _, _ => none

def shader_blob_archive_layout_init (shader_value : Value) (platform : ℤ) :
    Option (ShaderBlobArchiveLayout Value) :=
  let platforms := T.find_child shader_value "platforms"
  match find_platform_index T platforms platform, T.find_child shader_value "offsets",
      T.find_child shader_value "compressedLengths",
      T.find_child shader_value "decompressedLengths",
      T.find_child shader_value "compressedBlob", T.find_child shader_value "stageCounts" with
  | some platform_index, some offsets, some compressed_lengths, some decompressed_lengths,
      some compressed_blob, some stage_counts =>
      match platforms.bind T.get_array, T.get_array offsets, T.get_array compressed_lengths,
          T.get_array decompressed_lengths, T.get_array stage_counts,
          T.get_array compressed_blob with
      | some platforms_array, some offsets_outer, some compressed_outer, some decompressed_outer,
          some stage_counts_array, some blob_array =>
          if ¬ value_array_is_values T platforms_array ∨
              ¬ value_array_is_values T offsets_outer ∨
              ¬ value_array_is_values T compressed_outer ∨
              ¬ value_array_is_values T decompressed_outer ∨
              ¬ value_array_is_values T stage_counts_array ∨
              T.count offsets_outer ≠ T.count platforms_array ∨
              T.count compressed_outer ≠ T.count platforms_array ∨
              T.count decompressed_outer ≠ T.count platforms_array ∨
              T.count stage_counts_array ≠ T.count platforms_array ∨
              T.count offsets_outer ≤ platform_index ∨
              T.count compressed_outer ≤ platform_index ∨
              T.count decompressed_outer ≤ platform_index ∨
              T.count stage_counts_array ≤ platform_index then none
          else
            match T.array_get_uint stage_counts_array platform_index with
            | none => none
            | some stage_count =>
              if UINT32_MAX < stage_count then none
              else platformLayout T platform_index offsets_outer compressed_outer
                decompressed_outer blob_array stage_count
      | _, _, _, _, _, _ => none
  | _, _, _, _, _, _ => none

variable (lz4 : Lz4)

/-- The decompressed bytes. The output buffer of a segment that does not decompress is freed. -/
def shader_blob_decompress_segment (layout : ShaderBlobArchiveLayout Value)
    (segment : ShaderBlobSegmentInfo) : Option Bytes :=
  if INT_MAX < segment.compressed_length ∨ INT_MAX < segment.decompressed_length then none
  else
    let compressed :=
      match layout.packed_blob with
      | some bytes => some ((bytes.drop segment.offset).take segment.compressed_length)
      | none => T.array_copy_bytes layout.blob_array segment.offset segment.compressed_length
    compressed.bind fun compressed =>
      if lz4.result compressed segment.decompressed_length = segment.decompressed_length then
        some (lz4.output compressed segment.decompressed_length)
      else none

def shader_blob_entry_table_header (segment : Bytes) (segment_length : ℕ) : Option (ℤ × ℕ) :=
  if segment_length < 4 then none
  else
    let raw_entry_count := (wordAt segment 0).toNat
    if INT_MAX < raw_entry_count ∨ SIZE_MAX < raw_entry_count * 12 ∨
        SIZE_MAX < 4 + raw_entry_count * 12 then none
    else
      let table_end := 4 + raw_entry_count * 12
      if segment_length < table_end then none else some (raw_entry_count, table_end)

def int32At (data : Bytes) (pos : ℕ) : ℤ := (wordAt data pos).toInt32.toInt

def validEntries (layout : ShaderBlobArchiveLayout Value) (first_segment : Bytes)
    (table_end : ℕ) : List ℕ → Option (List BlobEntry)
  | [] => some []
  | i :: rest =>
    let entry : BlobEntry :=
      ⟨int32At first_segment (4 + i * 12), int32At first_segment (4 + i * 12 + 4),
        int32At first_segment (4 + i * 12 + 8)⟩
    if entry.segment < 0 ∨ (layout.segment_count : ℤ) ≤ entry.segment ∨ entry.offset < 0 ∨
        entry.length < 0 then none
    else
      match shader_blob_segment_info T layout entry.segment with
      | none => none
      | some segment =>
        if segment.decompressed_length < entry.offset.toNat ∨
            segment.decompressed_length - entry.offset.toNat < entry.length.toNat ∨
            (entry.segment = 0 ∧ entry.offset.toNat < table_end) then none
        else (validEntries layout first_segment table_end rest).map fun entries =>
          entry :: entries

def shader_blob_validate_entries (layout : ShaderBlobArchiveLayout Value)
    (first_segment : Bytes) (first_segment_length : ℕ) (entry_count : ℤ) (table_end : ℕ) :
    Option (List BlobEntry) :=
  if entry_count < 0 ∨ first_segment_length < table_end then none
  else validEntries T layout first_segment table_end (List.range entry_count.toNat)

/-- The loop of `inspect` over the segments. The first one sets the number of entries. -/
def inspectSegments (layout : ShaderBlobArchiveLayout Value) : List ℕ → ℤ → Option ℤ
  | [], entry_count => some entry_count
  | i :: rest, entry_count =>
    match shader_blob_segment_info T layout i with
    | none => none
    | some segment =>
      match shader_blob_decompress_segment T lz4 layout segment with
      | none => none
      | some decompressed =>
        if i = 0 then
          match shader_blob_entry_table_header decompressed
              segment.decompressed_length with
          | none => none
          | some (entry_count, table_end) =>
            match shader_blob_validate_entries T layout decompressed
                segment.decompressed_length entry_count table_end with
            | none => none
            | some _ => inspectSegments layout rest entry_count
        else inspectSegments layout rest entry_count

def shader_blob_archive_inspect (shader_value : Value) (platform : ℤ) :
    Option ShaderBlobArchiveInfo :=
  match shader_blob_archive_layout_init T shader_value platform with
  | none => none
  | some layout =>
    (inspectSegments T lz4 layout (List.range layout.segment_count) 0).map fun entry_count =>
      ⟨entry_count.toNat, layout.segment_count, layout.stage_count, layout.total_decompressed_bytes⟩

def shader_blob_archive_close (_archive : ShaderBlobArchive) : ShaderBlobArchive := .zeroed

def retainSegments (layout : ShaderBlobArchiveLayout Value) :
    List ℕ → ShaderBlobArchive → Bool × ShaderBlobArchive
  | [], archive => (true, archive)
  | i :: rest, archive =>
    match shader_blob_segment_info T layout i with
    | none => (false, shader_blob_archive_close archive)
    | some segment =>
      let archive := { archive with
        segment_lengths := archive.segment_lengths.set i segment.decompressed_length }
      match shader_blob_decompress_segment T lz4 layout segment with
      | none => (false, shader_blob_archive_close archive)
      | some bytes => retainSegments layout rest
          { archive with segments := archive.segments.set i (some bytes) }

/-- What `open` does behind the loop: the table of the first segment. -/
def retainEntries (layout : ShaderBlobArchiveLayout Value) (archive : ShaderBlobArchive) :
    Bool × ShaderBlobArchive :=
  match archive.segments.head?, archive.segment_lengths.head? with
  | some (some first_segment), some first_length =>
    match shader_blob_entry_table_header first_segment first_length.toNat with
    | none => (false, shader_blob_archive_close archive)
    | some (entry_count, table_end) =>
      let archive := { archive with entry_count }
      if 0 < entry_count ∧ SIZE_MAX < entry_count.toNat * 12 then
        (false, shader_blob_archive_close archive)
      else
        match shader_blob_validate_entries T layout first_segment first_length.toNat
            entry_count table_end with
        | none => (false, shader_blob_archive_close archive)
        | some entries => (true, { archive with entries, stage_count := layout.stage_count })
  | _, _ => (false, shader_blob_archive_close archive)

def shader_blob_archive_open (shader_value : Value) (platform : ℤ) (_archive : ShaderBlobArchive) :
    Bool × ShaderBlobArchive :=
  match shader_blob_archive_layout_init T shader_value platform with
  | none => (false, .zeroed)
  | some layout =>
    if SIZE_MAX < layout.segment_count * 8 ∨ SIZE_MAX < layout.segment_count * 4 then
      (false, .zeroed)
    else
      let archive : ShaderBlobArchive := { ShaderBlobArchive.zeroed with
        segment_count := layout.segment_count
        segments := List.replicate layout.segment_count none
        segment_lengths := List.replicate layout.segment_count 0 }
      match retainSegments T lz4 layout (List.range layout.segment_count) archive with
      | (false, archive) => (false, archive)
      | (true, archive) => retainEntries T layout archive

end Layout

structure BlobPayload where
  segment : ℕ
  offset : ℕ
  length : ℕ

def shader_blob_archive_get (archive : ShaderBlobArchive) (entry_index : ℤ) : Option BlobPayload :=
  if entry_index < 0 ∨ archive.entry_count ≤ entry_index then none
  else
    match archive.entries[entry_index.toNat]? with
    | none => none
    | some entry =>
      if entry.segment < 0 ∨ archive.segment_count ≤ entry.segment ∨ entry.offset < 0 ∨
          entry.length < 0 then none
      else
        match archive.segment_lengths[entry.segment.toNat]? with
        | none => none
        | some length =>
          let segment_length := length.toNat
          if segment_length < entry.offset.toNat ∨
              segment_length - entry.offset.toNat < entry.length.toNat then none
          else some ⟨entry.segment.toNat, entry.offset.toNat, entry.length.toNat⟩

end ShaderBlob

end DXBCSandbox
