/-
Oracle packs (`src/common/oracle_pack.c`).

A pack has a header, a directory of compile entries, a directory of preprocess records, and
the entries and records that the directories point to. A writer collects the entries and
records, sorts them by digest and writes the pack into a buffer of zeros. A reader checks
every byte of a pack before it hands out views of it.

`common_sha256` and the runtime of the document reader are parameters. A pointer with a size
is a `CArray`. `size_t` has 64 bits, so `u64_to_size` changes nothing and `load_size` reads
through it.
-/
import DXBCSandbox.Common.VariantKey
import DXBCSandbox.Dxbc.Document
import DXBCSandbox.Lib.LittleEndian
import Mathlib.Data.List.Sort

namespace DXBCSandbox

def ORACLE_PACK_FORMAT_VERSION : UInt32 := 4
def ORACLE_PACK_METADATA_FORMAT_VERSION : UInt32 := 1
def ORACLE_PACK_DIGEST_SIZE : ℕ := 32
def ORACLE_PACK_HEADER_SIZE : ℕ := 192
def ORACLE_PACK_DIRECTORY_ENTRY_SIZE : ℕ := 48
def ORACLE_PACK_ENTRY_HEADER_SIZE : ℕ := 136
def ORACLE_PACK_PREPROCESS_HEADER_SIZE : ℕ := 112
def ORACLE_PACK_METADATA_HEADER_SIZE : ℕ := 40
def ORACLE_PACK_PRECISION_HEADER_SIZE : ℕ := 16
def ORACLE_PACK_FLAG_GLCORE_PRESENT : UInt32 := 1
def ORACLE_PACK_KNOWN_FLAGS : UInt32 := ORACLE_PACK_FLAG_GLCORE_PRESENT

def k_pack_magic : Bytes := asciiBytes "DXBCORCL"
def k_entry_magic : Bytes := asciiBytes "DXBCENTR"
def k_preprocess_magic : Bytes := asciiBytes "DXBCPREP"
def k_metadata_magic : Bytes := asciiBytes "DXBCMETA"
def k_variant_key_magic : Bytes := asciiBytes "DXBCVKEY"

inductive OraclePackStatus where
  | invalidArgument | invalidValue | invalidDxbc | invalidMetadata | authorityMismatch
  | duplicateKey | allocationFailed | sizeOverflow | alreadyFinalized | badMagic
  | unsupportedVersion | truncated | corrupt | notFound
  deriving DecidableEq

abbrev Digest := Vector UInt8 ORACLE_PACK_DIGEST_SIZE

/-! ## Bytes -/

abbrev OraclePackBytes := CArray UInt8

/-- The elements that a pointer and a count describe. -/
def CArray.list {α : Type} (array : CArray α) : List α := array.values.getD []

/-- `(OraclePackBytes){data + offset, size}`, for bytes of a buffer. -/
def view_bytes (bytes : Bytes) : OraclePackBytes where
  values := some bytes
  count := bytes.length
  count_eq := fun l h => by rw [Option.some.inj h]

def null_bytes : OraclePackBytes := ⟨none, 0, fun _ h => absurd h (by simp)⟩

variable (data : Bytes)

def load_le32 (pos : ℕ) : UInt32 :=
  le32 (byteAt data pos) (byteAt data (pos + 1)) (byteAt data (pos + 2)) (byteAt data (pos + 3))

def load_le64 (pos : ℕ) : UInt64 :=
  (List.range 8).foldl (fun value i =>
    value ||| (byteAt data (pos + i)).toUInt64 <<< UInt64.ofNat (i * 8)) 0

/-- `u64_to_size(load_le64(data + pos), &size)`. -/
def load_size (pos : ℕ) : ℕ := (load_le64 data pos).toNat

def store_le32 (pos : ℕ) (value : UInt32) : Bytes :=
  overwrite data pos (le32Bytes value)

def store_le64 (pos : ℕ) (value : UInt64) : Bytes :=
  overwrite data pos ((List.range 8).map fun i => (value >>> UInt64.ofNat (i * 8)).toUInt8)

def store_size (pos value : ℕ) : Bytes :=
  store_le64 data pos (UInt64.ofNat value)

def add_size (left right : ℕ) : Option ℕ :=
  if SIZE_MAX - right < left then none else some (left + right)

def multiply_size (left right : ℕ) : Option ℕ :=
  if left ≠ 0 ∧ SIZE_MAX / left < right then none else some (left * right)

def bytes_are_consistent {α : Type} (bytes : CArray α) : Bool :=
  bytes.values.isNone == (bytes.count == 0)

def fingerprint_has_value (fingerprint : Option Bytes) : Bool :=
  match fingerprint with
  | none => false
  | some bytes => bytes.foldl (· ||| ·) 0 ≠ 0

/-- The sign of `memcmp` on two parts of the same length. -/
def memcmp : Bytes → Bytes → Ordering
  | a :: as, b :: bs => (compare a b).then (memcmp as bs)
  | _, _ => .eq

def compare_bytes (left right : Bytes) : Ordering :=
  let common := min left.length right.length
  (memcmp (left.take common) (right.take common)).then (compare left.length right.length)

/-- `qsort`. Both callers fail when two elements compare equal, so the order of such elements
does not show. -/
def qsort {α : Type} (cmp : α → α → Ordering) (items : List α) : List α :=
  items.insertionSort fun a b => cmp a b ≠ .gt

/-- The loop over adjacent elements after a `qsort`. -/
def adjacent_any {α : Type} (test : α → α → Bool) : List α → Bool
  | a :: b :: rest => test a b || adjacent_any test (b :: rest)
  | _ => false

/-! ## Metadata -/

/-- A precision is the value of an enumeration with the values 0 to 3. -/
def precision_is_valid (precision : UInt32) : Bool := precision ≤ 3

structure OraclePackResourcePrecisionInput where
  resource_key : OraclePackBytes
  precision : UInt32

structure OraclePackNormalizedMetadataInput where
  canonical_bytes : OraclePackBytes
  resource_precisions : CArray OraclePackResourcePrecisionInput

structure MetadataLayout where
  canonical_offset : ℕ
  canonical_size : ℕ
  records_offset : ℕ
  record_count : ℕ

/-- The loop of `parse_metadata`. It returns the offset behind the last record. -/
def parse_precisions (data : Bytes) : (n offset : ℕ) → (previous_key : Option Bytes) → Option ℕ
  | 0, offset, _ => some offset
  | n + 1, offset, previous_key =>
    if data.length - offset < ORACLE_PACK_PRECISION_HEADER_SIZE then none
    else
      let key_size := load_size data offset
      if key_size = 0 ∨ load_le32 data (offset + 12) ≠ 0 ∨
          ¬ precision_is_valid (load_le32 data (offset + 8)) then none
      else
        let offset := offset + ORACLE_PACK_PRECISION_HEADER_SIZE
        if data.length - offset < key_size then none
        else
          let key := slice data offset key_size
          if previous_key.any (fun previous => compare_bytes previous key ≠ .lt) then none
          else parse_precisions data n (offset + key_size) (some key)

def parse_metadata_bytes : Except OraclePackStatus MetadataLayout :=
  if data.length < ORACLE_PACK_METADATA_HEADER_SIZE then .error .invalidMetadata
  else if slice data 0 8 ≠ k_metadata_magic ∨
      load_le32 data 8 ≠ ORACLE_PACK_METADATA_FORMAT_VERSION ∨
      (load_le32 data 12).toNat ≠ ORACLE_PACK_METADATA_HEADER_SIZE ∨
      load_size data 16 ≠ data.length then .error .invalidMetadata
  else
    let canonical_size := load_size data 24
    let record_count := load_size data 32
    match add_size ORACLE_PACK_METADATA_HEADER_SIZE canonical_size with
    | none => .error .invalidMetadata
    | some records_offset =>
      if data.length < records_offset then .error .invalidMetadata
      else if (data.length - records_offset) / ORACLE_PACK_PRECISION_HEADER_SIZE <
          record_count then .error .invalidMetadata
      else
        match parse_precisions data record_count records_offset none with
        | none => .error .invalidMetadata
        | some offset =>
          if offset ≠ data.length then .error .invalidMetadata
          else .ok ⟨ORACLE_PACK_METADATA_HEADER_SIZE, canonical_size, records_offset,
            record_count⟩

variable (encoded : OraclePackBytes)

def parse_metadata : Except OraclePackStatus MetadataLayout :=
  if ¬ bytes_are_consistent encoded then .error .invalidArgument
  else parse_metadata_bytes encoded.list

def compare_precision_items (a b : OraclePackResourcePrecisionInput) : Ordering :=
  compare_bytes a.resource_key.list b.resource_key.list

/-- The precisions in the order in which they are written. The size of an item of the sorted
array is 8. -/
def sort_precisions (items : List OraclePackResourcePrecisionInput) :
    Except OraclePackStatus (List OraclePackResourcePrecisionInput) :=
  if multiply_size items.length 8 = none then .error .sizeOverflow
  else if ∃ item ∈ items, ¬ bytes_are_consistent item.resource_key ∨
      item.resource_key.count = 0 ∨ ¬ precision_is_valid item.precision then
    .error .invalidMetadata
  else
    let sorted := qsort compare_precision_items items
    if adjacent_any (fun a b => compare_precision_items a b = .eq) sorted then
      .error .duplicateKey
    else .ok sorted

/-- The loop that adds up the sizes of the records. -/
def precisions_size (total : ℕ) : List OraclePackResourcePrecisionInput → Option ℕ
  | [] => some total
  | item :: items => do
    let total ← add_size total ORACLE_PACK_PRECISION_HEADER_SIZE
    let total ← add_size total item.resource_key.count
    precisions_size total items

def store_precisions (data : Bytes) (offset : ℕ) : List OraclePackResourcePrecisionInput → Bytes
  | [] => data
  | item :: items =>
    let data := store_size data offset item.resource_key.count
    let data := store_le32 data (offset + 8) item.precision
    let data := store_le32 data (offset + 12) 0
    let offset := offset + ORACLE_PACK_PRECISION_HEADER_SIZE
    let data := overwrite data offset item.resource_key.list
    store_precisions data (offset + item.resource_key.count) items

/-- The stores of `encode_metadata`. The buffer is uninitialised in C. Every byte of it is
written, so the model starts it at zero. -/
def store_metadata (canonical_bytes : Bytes) (total : ℕ)
    (sorted : List OraclePackResourcePrecisionInput) : Bytes :=
  let data := List.replicate total 0
  let data := overwrite data 0 k_metadata_magic
  let data := store_le32 data 8 ORACLE_PACK_METADATA_FORMAT_VERSION
  let data := store_le32 data 12 (UInt32.ofNat ORACLE_PACK_METADATA_HEADER_SIZE)
  let data := store_size data 16 total
  let data := store_size data 24 canonical_bytes.length
  let data := store_size data 32 sorted.length
  let offset := ORACLE_PACK_METADATA_HEADER_SIZE
  if 0 < canonical_bytes.length then
    store_precisions (overwrite data offset canonical_bytes) (offset + canonical_bytes.length)
      sorted
  else store_precisions data offset sorted

def encode_metadata (input : OraclePackNormalizedMetadataInput) : Except OraclePackStatus Bytes :=
  if ¬ bytes_are_consistent input.canonical_bytes ∨
      ¬ bytes_are_consistent input.resource_precisions then .error .invalidArgument
  else do
    let sorted ← sort_precisions input.resource_precisions.list
    match (do
        let total ← add_size ORACLE_PACK_METADATA_HEADER_SIZE input.canonical_bytes.count
        precisions_size total sorted) with
    | none => .error .sizeOverflow
    | some total => .ok (store_metadata input.canonical_bytes.list total sorted)

structure OraclePackNormalizedMetadataView where
  canonical_bytes : OraclePackBytes
  resource_precision_count : ℕ

structure OraclePackResourcePrecisionView where
  resource_key : OraclePackBytes
  precision : UInt32

def oracle_pack_metadata_view :
    Except OraclePackStatus OraclePackNormalizedMetadataView := do
  let layout ← parse_metadata encoded
  pure
    { canonical_bytes :=
        if layout.canonical_size ≠ 0 then
          view_bytes (slice encoded.list layout.canonical_offset layout.canonical_size)
        else null_bytes
      resource_precision_count := layout.record_count }

/-- The loop of `oracle_pack_metadata_precision_at`: `index` more records are skipped. -/
def precision_at (data : Bytes) : (index offset : ℕ) → OraclePackResourcePrecisionView
  | 0, offset =>
    { resource_key :=
        view_bytes (slice data (offset + ORACLE_PACK_PRECISION_HEADER_SIZE)
          (load_size data offset))
      precision := load_le32 data (offset + 8) }
  | index + 1, offset =>
    precision_at data index (offset + ORACLE_PACK_PRECISION_HEADER_SIZE + load_size data offset)

def oracle_pack_metadata_precision_at (index : ℕ) :
    Except OraclePackStatus OraclePackResourcePrecisionView := do
  let layout ← parse_metadata encoded
  if layout.record_count ≤ index then .error .notFound
  else pure (precision_at encoded.list index layout.records_offset)

/-- The value behind `out_equal`. A failing call leaves `false` there, or does not touch it. -/
def oracle_pack_metadata_matches_input (input : OraclePackNormalizedMetadataInput) :
    Except OraclePackStatus Bool :=
  if ¬ bytes_are_consistent encoded then .error .invalidArgument
  else do
    let _ ← parse_metadata encoded
    let canonical ← encode_metadata input
    pure (canonical.length = encoded.count ∧ memcmp canonical encoded.list = .eq)

/-! ## Records -/

@[ext] structure OwnedEntry where
  variant_key : Bytes
  variant_key_digest : Digest
  stripped_dxbc : Bytes
  linked_glcore : Bytes
  transcript : Bytes
  transcript_digest : Digest
  metadata : Bytes

@[ext] structure OwnedPreprocess where
  transcript : Bytes
  request_digest : Digest
  result : Bytes
  result_digest : Digest
  deriving DecidableEq

structure OraclePackEntryView where
  variant_key_bytes : OraclePackBytes
  variant_key_digest : Bytes
  stripped_dxbc : OraclePackBytes
  linked_glcore : OraclePackBytes
  compile_request_transcript : OraclePackBytes
  compile_request_digest : Bytes
  normalized_metadata_bytes : OraclePackBytes

structure OraclePackPreprocessView where
  request_transcript : OraclePackBytes
  request_digest : Bytes
  serialized_result : OraclePackBytes
  result_digest : Bytes

/-- The loop of `parse_entry` over the lengths: where each part starts, and where the last
one ends. -/
def entry_starts (size : ℕ) : (offset : ℕ) → List ℕ → Option (List ℕ × ℕ)
  | offset, [] => some ([], offset)
  | offset, length :: lengths =>
    match add_size offset length with
    | none => none
    | some next =>
      if size < next then none
      else (entry_starts size next lengths).map fun r => (offset :: r.1, r.2)

section Pack

variable (rt : UnityCommon) (sha256 : Bytes → Digest)

def validate_variant_key_bytes (data expected_digest : Bytes) : Bool :=
  if data.length < 20 ∨ slice data 0 8 ≠ k_variant_key_magic ∨
      load_le32 data 8 ≠ VARIANT_KEY_FORMAT_VERSION ∨ load_size data 12 ≠ data.length then false
  else (sha256 data).toList == expected_digest

variable (data : Bytes)

def validate_dxbc : Bool :=
  if data.length = 0 then false
  else
    let (parsed, document, _) := dxbc_document_parse rt dxbc_document_init (some data)
    if !parsed then false else document.chunks.any fun chunk => chunk.kind == .executable

def parse_entry (data expected_digest : Bytes) (validate_payload : Bool) :
    Except OraclePackStatus OraclePackEntryView :=
  if data.length < ORACLE_PACK_ENTRY_HEADER_SIZE ∨ slice data 0 8 ≠ k_entry_magic ∨
      load_le32 data 8 ≠ ORACLE_PACK_FORMAT_VERSION ∨
      (load_le32 data 12).toNat ≠ ORACLE_PACK_ENTRY_HEADER_SIZE ∨
      load_size data 16 ≠ data.length ∨ load_le32 data 28 ≠ 0 then .error .corrupt
  else
    let flags := load_le32 data 24
    if flags &&& ~~~ORACLE_PACK_KNOWN_FLAGS ≠ 0 then .error .corrupt
    else
      let length (i : ℕ) := load_size data (32 + i * 8)
      let glcore_present := flags &&& ORACLE_PACK_FLAG_GLCORE_PRESENT ≠ 0
      if length 0 = 0 ∨ length 1 = 0 ∨ length 3 = 0 ∨ length 4 = 0 ∨
          ¬ (glcore_present ↔ length 2 ≠ 0) ∨ slice data 72 32 ≠ expected_digest then
        .error .corrupt
      else
        match entry_starts data.length ORACLE_PACK_ENTRY_HEADER_SIZE
            ((List.range 5).map length) with
        | none => .error .corrupt
        | some (starts, offset) =>
          if offset ≠ data.length then .error .corrupt
          else
            let part (i : ℕ) := slice data (starts.getD i 0) (length i)
            if validate_payload ∧
                (¬ validate_variant_key_bytes sha256 (part 0) expected_digest ∨
                  ¬ validate_dxbc rt (part 1)) then .error .corrupt
            else if validate_payload ∧
                ((sha256 (part 3)).toList ≠ slice data 104 32 ∨
                  (parse_metadata (view_bytes (part 4))).toOption = none) then .error .corrupt
            else .ok
              { variant_key_bytes := view_bytes (part 0)
                variant_key_digest := slice data 72 32
                stripped_dxbc := view_bytes (part 1)
                linked_glcore := if length 2 ≠ 0 then view_bytes (part 2) else null_bytes
                compile_request_transcript := view_bytes (part 3)
                compile_request_digest := slice data 104 32
                normalized_metadata_bytes := view_bytes (part 4) }

def parse_preprocess (data expected_digest : Bytes) (validate_payload : Bool) :
    Except OraclePackStatus OraclePackPreprocessView :=
  if data.length < ORACLE_PACK_PREPROCESS_HEADER_SIZE ∨ slice data 0 8 ≠ k_preprocess_magic ∨
      load_le32 data 8 ≠ ORACLE_PACK_FORMAT_VERSION ∨
      (load_le32 data 12).toNat ≠ ORACLE_PACK_PREPROCESS_HEADER_SIZE ∨
      load_size data 16 ≠ data.length ∨ load_le32 data 24 ≠ 0 ∨ load_le32 data 28 ≠ 0 then
    .error .corrupt
  else
    let transcript_size := load_size data 32
    let result_size := load_size data 40
    if transcript_size = 0 ∨ result_size = 0 ∨ slice data 48 32 ≠ expected_digest then
      .error .corrupt
    else
      match (do
          let result_offset ← add_size ORACLE_PACK_PREPROCESS_HEADER_SIZE transcript_size
          let end_offset ← add_size result_offset result_size
          pure (result_offset, end_offset)) with
      | none => .error .corrupt
      | some (result_offset, end_offset) =>
        if end_offset ≠ data.length then .error .corrupt
        else
          let transcript := slice data ORACLE_PACK_PREPROCESS_HEADER_SIZE transcript_size
          let result := slice data result_offset result_size
          if validate_payload ∧ (sha256 transcript).toList ≠ slice data 48 32 then
            .error .corrupt
          else if validate_payload ∧ (sha256 result).toList ≠ slice data 80 32 then
            .error .corrupt
          else .ok
            { request_transcript := view_bytes transcript
              request_digest := slice data 48 32
              serialized_result := view_bytes result
              result_digest := slice data 80 32 }

/-! ## The reader -/

/-- The digest of a pack, with zeros in place of the digest it holds. Feeding a hash piece by
piece is hashing the pieces in a row. -/
def pack_digest : Digest :=
  sha256 (slice data 0 152 ++ List.replicate ORACLE_PACK_DIGEST_SIZE 0 ++ data.drop 184)

/-- A loop of `validate_pack` over one of the directories, for the records that `parse`
accepts. It returns the cursor behind the last record. -/
def validate_directory {α : Type}
    (parse : (data expected_digest : Bytes) → Except OraclePackStatus α)
    (data : Bytes) (directory_offset : ℕ) :
    (n i payload_cursor : ℕ) → (previous_digest : Option Bytes) → Except OraclePackStatus ℕ
  | 0, _, payload_cursor, _ => .ok payload_cursor
  | n + 1, i, payload_cursor, previous_digest =>
    let directory := directory_offset + i * ORACLE_PACK_DIRECTORY_ENTRY_SIZE
    let digest := slice data directory ORACLE_PACK_DIGEST_SIZE
    if previous_digest.any (fun previous => memcmp previous digest ≠ .lt) then .error .corrupt
    else
      let offset := load_size data (directory + 32)
      let size := load_size data (directory + 40)
      if data.length < offset ∨ offset ≠ payload_cursor ∨ data.length - offset < size then
        .error .corrupt
      else
        match parse (slice data offset size) digest with
        | .error status => .error status
        | .ok _ =>
          match add_size payload_cursor size with
          | none => .error .corrupt
          | some payload_cursor =>
            if data.length < payload_cursor then .error .corrupt
            else validate_directory parse data directory_offset n (i + 1) payload_cursor
              (some digest)

structure PackLayout where
  entry_count : ℕ
  preprocess_count : ℕ
  compile_directory_offset : ℕ
  preprocess_directory_offset : ℕ

/-- The offsets of the preprocess directory and of the payload, and the sizes of the
directories, for so many entries and records. -/
def directory_layout (entry_count preprocess_count : ℕ) : Option (ℕ × ℕ × ℕ × ℕ) := do
  let compile_directory_size ← multiply_size entry_count ORACLE_PACK_DIRECTORY_ENTRY_SIZE
  let preprocess_directory_size ← multiply_size preprocess_count ORACLE_PACK_DIRECTORY_ENTRY_SIZE
  let preprocess_directory_offset ← add_size ORACLE_PACK_HEADER_SIZE compile_directory_size
  let payload_offset ← add_size preprocess_directory_offset preprocess_directory_size
  pure (compile_directory_size, preprocess_directory_size, preprocess_directory_offset,
    payload_offset)

def validate_pack : Except OraclePackStatus PackLayout :=
  if data.length < 16 then .error .truncated
  else if slice data 0 8 ≠ k_pack_magic then .error .badMagic
  else if load_le32 data 8 ≠ ORACLE_PACK_FORMAT_VERSION then .error .unsupportedVersion
  else if data.length < ORACLE_PACK_HEADER_SIZE then .error .truncated
  else if (load_le32 data 12).toNat ≠ ORACLE_PACK_HEADER_SIZE then .error .corrupt
  else if data.length < load_size data 16 then .error .truncated
  else if load_size data 16 ≠ data.length then .error .corrupt
  else if ¬ fingerprint_has_value (some (slice data 88 ORACLE_PACK_DIGEST_SIZE)) ∨
      ¬ fingerprint_has_value (some (slice data 120 ORACLE_PACK_DIGEST_SIZE)) ∨
      (pack_digest sha256 data).toList ≠ slice data 152 ORACLE_PACK_DIGEST_SIZE ∨
      load_le64 data 184 ≠ 0 then .error .corrupt
  else
    let entry_count := load_size data 24
    let preprocess_count := load_size data 48
    match directory_layout entry_count preprocess_count with
    | none => .error .corrupt
    | some (compile_directory_size, preprocess_directory_size, preprocess_directory_offset,
        payload_offset) =>
        if load_size data 32 ≠ ORACLE_PACK_HEADER_SIZE ∨
            load_size data 40 ≠ compile_directory_size ∨
            load_size data 56 ≠ preprocess_directory_offset ∨
            load_size data 64 ≠ preprocess_directory_size ∨
            load_size data 72 ≠ payload_offset ∨ data.length < payload_offset ∨
            load_size data 80 ≠ data.length - payload_offset then .error .corrupt
        else do
          let payload_cursor ← validate_directory
            (fun record digest => parse_entry rt sha256 record digest true) data
            ORACLE_PACK_HEADER_SIZE entry_count 0 payload_offset none
          let payload_cursor ← validate_directory
            (fun record digest => parse_preprocess sha256 record digest true) data
            preprocess_directory_offset preprocess_count 0 payload_cursor none
          if payload_cursor ≠ data.length then .error .corrupt
          else .ok ⟨entry_count, preprocess_count, ORACLE_PACK_HEADER_SIZE,
            preprocess_directory_offset⟩

structure OraclePack where
  data : Bytes
  layout : PackLayout

def oracle_pack_open_memory : Except OraclePackStatus OraclePack := do
  let layout ← validate_pack rt sha256 data
  pure ⟨data, layout⟩

structure OraclePackAuthorityView where
  compiler_fingerprint : Bytes
  environment_fingerprint : Bytes

variable (pack : OraclePack)

def oracle_pack_authority : OraclePackAuthorityView where
  compiler_fingerprint := slice pack.data 88 ORACLE_PACK_DIGEST_SIZE
  environment_fingerprint := slice pack.data 120 ORACLE_PACK_DIGEST_SIZE

/-- The part of a pack that an entry of a directory points to, and the digest beside it. -/
def directory_record (directory_offset index : ℕ) : Bytes × Bytes :=
  let directory := directory_offset + index * ORACLE_PACK_DIRECTORY_ENTRY_SIZE
  (slice data (load_size data (directory + 32)) (load_size data (directory + 40)),
    slice data directory ORACLE_PACK_DIGEST_SIZE)

def oracle_pack_entry_at (index : ℕ) : Except OraclePackStatus OraclePackEntryView :=
  if pack.layout.entry_count ≤ index then .error .notFound
  else
    let (record, digest) :=
      directory_record pack.data pack.layout.compile_directory_offset index
    parse_entry rt sha256 record digest false

def oracle_pack_preprocess_at (index : ℕ) : Except OraclePackStatus OraclePackPreprocessView :=
  if pack.layout.preprocess_count ≤ index then .error .notFound
  else
    let (record, digest) :=
      directory_record pack.data pack.layout.preprocess_directory_offset index
    parse_preprocess sha256 record digest false

/-- The loop of both lookups, from `low` to `high`. -/
def search_directory (data : Bytes) (directory_offset : ℕ) (digest : Digest)
    (low high : ℕ) : Option ℕ :=
  if low < high then
    let middle := low + (high - low) / 2
    let directory := directory_offset + middle * ORACLE_PACK_DIRECTORY_ENTRY_SIZE
    match memcmp digest.toList (slice data directory ORACLE_PACK_DIGEST_SIZE) with
    | .lt => search_directory data directory_offset digest low middle
    | .gt => search_directory data directory_offset digest (middle + 1) high
    | .eq => some middle
  else none
termination_by high - low

def oracle_pack_lookup_digest (variant_key_digest : Digest) :
    Except OraclePackStatus OraclePackEntryView :=
  match search_directory pack.data pack.layout.compile_directory_offset variant_key_digest 0
      pack.layout.entry_count with
  | some middle => oracle_pack_entry_at rt sha256 pack middle
  | none => .error .notFound

def oracle_pack_lookup_preprocess_digest (request_digest : Digest) :
    Except OraclePackStatus OraclePackPreprocessView :=
  match search_directory pack.data pack.layout.preprocess_directory_offset request_digest 0
      pack.layout.preprocess_count with
  | some middle => oracle_pack_preprocess_at sha256 pack middle
  | none => .error .notFound

/-! ## The writer -/

structure OraclePackAuthorityInput where
  compiler_fingerprint : Option Digest
  environment_fingerprint : Option Digest

structure OraclePackEntryInput where
  variant_key : VariantKey
  stripped_dxbc : OraclePackBytes
  linked_glcore : OraclePackBytes
  compile_request_transcript : OraclePackBytes
  normalized_metadata : OraclePackNormalizedMetadataInput
  authority : OraclePackAuthorityInput

structure OraclePackPreprocessInput where
  request_transcript : OraclePackBytes
  serialized_result : OraclePackBytes
  authority : OraclePackAuthorityInput

structure OraclePackWriter where
  compiler_fingerprint : Digest
  environment_fingerprint : Digest
  entries : List OwnedEntry
  capacity : ℕ
  preprocesses : List OwnedPreprocess
  preprocess_capacity : ℕ
  finalized : Bool

def authority_is_valid (authority : OraclePackAuthorityInput) : Bool :=
  fingerprint_has_value (authority.compiler_fingerprint.map Vector.toList) &&
    fingerprint_has_value (authority.environment_fingerprint.map Vector.toList)

variable (writer : OraclePackWriter)

def authority_matches_writer (authority : OraclePackAuthorityInput) : Bool :=
  authority_is_valid authority &&
    (some writer.compiler_fingerprint == authority.compiler_fingerprint &&
      some writer.environment_fingerprint == authority.environment_fingerprint)

def oracle_pack_writer_create (authority : OraclePackAuthorityInput) :
    Except OraclePackStatus OraclePackWriter :=
  match authority.compiler_fingerprint, authority.environment_fingerprint with
  | some compiler_fingerprint, some environment_fingerprint =>
    if ¬ authority_is_valid authority then .error .invalidValue
    else .ok ⟨compiler_fingerprint, environment_fingerprint, [], 0, [], 0, false⟩
  | _, _ => .error .invalidArgument

def variant_status : VariantKeyStatus → OraclePackStatus
  | .allocationFailed => .allocationFailed
  | .sizeOverflow => .sizeOverflow
  | _ => .invalidValue

/-- The capacity of an array of elements of the given size, once it has room for one more
element than `count`. -/
def grow_capacity (element_size count capacity : ℕ) : Option ℕ :=
  if count ≠ capacity then some capacity
  else
    let new_capacity := if capacity = 0 then 8 else capacity * 2 % 2 ^ 64
    if new_capacity < capacity ∨ SIZE_MAX / element_size < new_capacity then none
    else some new_capacity

def OWNED_ENTRY_SIZE : ℕ := 144

def OWNED_PREPROCESS_SIZE : ℕ := 96

def oracle_pack_writer_add (input : OraclePackEntryInput) :
    Except OraclePackStatus OraclePackWriter :=
  if ¬ bytes_are_consistent input.stripped_dxbc ∨ ¬ bytes_are_consistent input.linked_glcore ∨
      ¬ bytes_are_consistent input.compile_request_transcript ∨
      input.authority.compiler_fingerprint = none ∨
      input.authority.environment_fingerprint = none then .error .invalidArgument
  else if writer.finalized then .error .alreadyFinalized
  else if ¬ authority_matches_writer writer input.authority then .error .authorityMismatch
  else if input.stripped_dxbc.count = 0 ∨ input.compile_request_transcript.count = 0 then
    .error .invalidValue
  else if ¬ validate_dxbc rt input.stripped_dxbc.list then .error .invalidDxbc
  else
    match variant_key_serialize input.variant_key with
    | .error status => .error (variant_status status)
    | .ok variant_key =>
      let variant_key_digest := sha256 variant_key
      if writer.entries.any (·.variant_key_digest == variant_key_digest) then
        .error .duplicateKey
      else
        match encode_metadata input.normalized_metadata with
        | .error status => .error status
        | .ok metadata =>
          match grow_capacity OWNED_ENTRY_SIZE writer.entries.length writer.capacity with
          | none => .error .sizeOverflow
          | some capacity => .ok
              { writer with
                entries := writer.entries ++
                  [{ variant_key
                     variant_key_digest
                     stripped_dxbc := input.stripped_dxbc.list
                     linked_glcore := input.linked_glcore.list
                     transcript := input.compile_request_transcript.list
                     transcript_digest := sha256 input.compile_request_transcript.list
                     metadata }]
                capacity }

def oracle_pack_writer_add_preprocess (input : OraclePackPreprocessInput) :
    Except OraclePackStatus OraclePackWriter :=
  if ¬ bytes_are_consistent input.request_transcript ∨
      ¬ bytes_are_consistent input.serialized_result ∨
      input.authority.compiler_fingerprint = none ∨
      input.authority.environment_fingerprint = none then .error .invalidArgument
  else if writer.finalized then .error .alreadyFinalized
  else if ¬ authority_matches_writer writer input.authority then .error .authorityMismatch
  else if input.request_transcript.count = 0 ∨ input.serialized_result.count = 0 then
    .error .invalidValue
  else
    let request_digest := sha256 input.request_transcript.list
    let result_digest := sha256 input.serialized_result.list
    match writer.preprocesses.find? (·.request_digest == request_digest) with
    | some existing =>
      if existing.transcript = input.request_transcript.list ∧
          existing.result = input.serialized_result.list then .ok writer
      else .error .duplicateKey
    | none =>
      match grow_capacity OWNED_PREPROCESS_SIZE writer.preprocesses.length
          writer.preprocess_capacity with
      | none => .error .sizeOverflow
      | some preprocess_capacity => .ok
          { writer with
            preprocesses := writer.preprocesses ++
              [{ transcript := input.request_transcript.list
                 request_digest
                 result := input.serialized_result.list
                 result_digest }]
            preprocess_capacity }

def compare_owned_entries (a b : OwnedEntry) : Ordering :=
  memcmp a.variant_key_digest.toList b.variant_key_digest.toList

def compare_owned_preprocesses (a b : OwnedPreprocess) : Ordering :=
  memcmp a.request_digest.toList b.request_digest.toList

def OwnedEntry.parts (entry : OwnedEntry) : List Bytes :=
  [entry.variant_key, entry.stripped_dxbc, entry.linked_glcore, entry.transcript, entry.metadata]

def add_sizes (total : ℕ) : List ℕ → Option ℕ
  | [] => some total
  | size :: sizes => do
    let total ← add_size total size
    add_sizes total sizes

/-- The loop over the entries that adds up the total size. -/
def entries_size (total : ℕ) : List OwnedEntry → Option ℕ
  | [] => some total
  | entry :: entries => do
    let entry_size ← add_sizes ORACLE_PACK_ENTRY_HEADER_SIZE (entry.parts.map List.length)
    let total ← add_size total entry_size
    entries_size total entries

/-- The loop over the preprocess records that adds up the total size. -/
def preprocesses_size (total : ℕ) : List OwnedPreprocess → Option ℕ
  | [] => some total
  | preprocess :: preprocesses => do
    let record_size ← add_sizes ORACLE_PACK_PREPROCESS_HEADER_SIZE
      [preprocess.transcript.length, preprocess.result.length]
    let total ← add_size total record_size
    preprocesses_size total preprocesses

def store_directory (directory : ℕ) (digest : Digest) (offset size : ℕ) : Bytes :=
  let data := overwrite data directory digest.toList
  let data := store_size data (directory + 32) offset
  store_size data (directory + 40) size

def copy_entry_bytes (data : Bytes) (encoded offset : ℕ) : List Bytes → Bytes
  | [] => data
  | field :: fields =>
    if 0 < field.length then
      copy_entry_bytes (overwrite data (encoded + offset) field) encoded
        (offset + field.length) fields
    else copy_entry_bytes data encoded offset fields

def store_entry (encoded : ℕ) (entry : OwnedEntry) (entry_size : ℕ) : Bytes :=
  let data := overwrite data encoded k_entry_magic
  let data := store_le32 data (encoded + 8) ORACLE_PACK_FORMAT_VERSION
  let data := store_le32 data (encoded + 12) (UInt32.ofNat ORACLE_PACK_ENTRY_HEADER_SIZE)
  let data := store_size data (encoded + 16) entry_size
  let data := store_le32 data (encoded + 24)
    (if 0 < entry.linked_glcore.length then ORACLE_PACK_FLAG_GLCORE_PRESENT else 0)
  let data := store_le32 data (encoded + 28) 0
  let data := store_size data (encoded + 32) entry.variant_key.length
  let data := store_size data (encoded + 40) entry.stripped_dxbc.length
  let data := store_size data (encoded + 48) entry.linked_glcore.length
  let data := store_size data (encoded + 56) entry.transcript.length
  let data := store_size data (encoded + 64) entry.metadata.length
  let data := overwrite data (encoded + 72) entry.variant_key_digest.toList
  let data := overwrite data (encoded + 104) entry.transcript_digest.toList
  copy_entry_bytes data encoded ORACLE_PACK_ENTRY_HEADER_SIZE entry.parts

/-- The loop over the entries, and the offset of what comes after them. -/
def store_entries (data : Bytes) (i entry_offset : ℕ) : List OwnedEntry → Bytes × ℕ
  | [] => (data, entry_offset)
  | entry :: entries =>
    let entry_size := ORACLE_PACK_ENTRY_HEADER_SIZE + entry.variant_key.length +
      entry.stripped_dxbc.length + entry.linked_glcore.length + entry.transcript.length +
      entry.metadata.length
    let data := store_directory data
      (ORACLE_PACK_HEADER_SIZE + i * ORACLE_PACK_DIRECTORY_ENTRY_SIZE)
      entry.variant_key_digest entry_offset entry_size
    let data := store_entry data entry_offset entry entry_size
    store_entries data (i + 1) (entry_offset + entry_size) entries

def store_preprocess (encoded : ℕ) (preprocess : OwnedPreprocess) (record_size : ℕ) : Bytes :=
  let data := overwrite data encoded k_preprocess_magic
  let data := store_le32 data (encoded + 8) ORACLE_PACK_FORMAT_VERSION
  let data := store_le32 data (encoded + 12) (UInt32.ofNat ORACLE_PACK_PREPROCESS_HEADER_SIZE)
  let data := store_size data (encoded + 16) record_size
  let data := store_size data (encoded + 32) preprocess.transcript.length
  let data := store_size data (encoded + 40) preprocess.result.length
  let data := overwrite data (encoded + 48) preprocess.request_digest.toList
  let data := overwrite data (encoded + 80) preprocess.result_digest.toList
  let data := overwrite data (encoded + ORACLE_PACK_PREPROCESS_HEADER_SIZE) preprocess.transcript
  overwrite data (encoded + ORACLE_PACK_PREPROCESS_HEADER_SIZE + preprocess.transcript.length)
    preprocess.result

def store_preprocesses (data : Bytes) (preprocess_directory_offset i entry_offset : ℕ) :
    List OwnedPreprocess → Bytes
  | [] => data
  | preprocess :: preprocesses =>
    let record_size := ORACLE_PACK_PREPROCESS_HEADER_SIZE + preprocess.transcript.length +
      preprocess.result.length
    let data := store_directory data
      (preprocess_directory_offset + i * ORACLE_PACK_DIRECTORY_ENTRY_SIZE)
      preprocess.request_digest entry_offset record_size
    let data := store_preprocess data entry_offset preprocess record_size
    store_preprocesses data preprocess_directory_offset (i + 1) (entry_offset + record_size)
      preprocesses

def store_header (writer : OraclePackWriter) (total_size
      compile_directory_size preprocess_directory_size preprocess_directory_offset
      payload_offset : ℕ) : Bytes :=
  let data := overwrite data 0 k_pack_magic
  let data := store_le32 data 8 ORACLE_PACK_FORMAT_VERSION
  let data := store_le32 data 12 (UInt32.ofNat ORACLE_PACK_HEADER_SIZE)
  let data := store_size data 16 total_size
  let data := store_size data 24 writer.entries.length
  let data := store_size data 32 ORACLE_PACK_HEADER_SIZE
  let data := store_size data 40 compile_directory_size
  let data := store_size data 48 writer.preprocesses.length
  let data := store_size data 56 preprocess_directory_offset
  let data := store_size data 64 preprocess_directory_size
  let data := store_size data 72 payload_offset
  let data := store_size data 80 (total_size - payload_offset)
  let data := overwrite data 88 writer.compiler_fingerprint.toList
  overwrite data 120 writer.environment_fingerprint.toList

def finalize_bytes : Except OraclePackStatus Bytes :=
  let entries := qsort compare_owned_entries writer.entries
  if adjacent_any (fun a b => compare_owned_entries a b ≠ .lt) entries then .error .duplicateKey
  else
    let preprocesses := qsort compare_owned_preprocesses writer.preprocesses
    if adjacent_any (fun a b => compare_owned_preprocesses a b ≠ .lt) preprocesses then
      .error .duplicateKey
    else
      match directory_layout writer.entries.length writer.preprocesses.length with
      | none => .error .sizeOverflow
      | some (compile_directory_size, preprocess_directory_size, preprocess_directory_offset,
          payload_offset) =>
          match (do
              let total ← entries_size payload_offset entries
              preprocesses_size total preprocesses) with
          | none => .error .sizeOverflow
          | some total_size =>
            let data := store_header (List.replicate total_size 0) writer total_size
              compile_directory_size preprocess_directory_size preprocess_directory_offset
              payload_offset
            let (data, entry_offset) := store_entries data 0 payload_offset entries
            let data := store_preprocesses data preprocess_directory_offset 0 entry_offset
              preprocesses
            .ok (overwrite data 152 (pack_digest sha256 data).toList)

/-- The result, and the writer that is left. The order of its records, which changes too, is
never read again. -/
def oracle_pack_writer_finalize : Except OraclePackStatus Bytes × OraclePackWriter :=
  if writer.finalized then (.error .alreadyFinalized, writer)
  else (finalize_bytes sha256 writer, { writer with finalized := true })

end Pack

end DXBCSandbox
