/-
The semantic container parser (`dxbc_parse` of `src/dxbc/dxbc_parser.c`) and the
resolution of a container inside its wrapper (`src/dxbc/dxbc_container.c`).
-/
import DXBCSandbox.Dxbc.Hash
import DXBCSandbox.Dxbc.Instruction
import DXBCSandbox.Lib.LittleEndian

namespace DXBCSandbox

section

variable (rt : UnityCommon)

/-! ## Container views -/

def read_le_u32_at (data : Bytes) (offset : ℕ) : Option ℕ :=
  if data.length < offset ∨ data.length - offset < 4 then none
  else some (read_u32_le rt data offset).toNat

namespace ContainerView

/-- A pointer into the buffer, which is its offset there, and a size. -/
structure DXBCContainerView where
  data : Option ℕ
  size : ℕ
  deriving DecidableEq

def null_view : DXBCContainerView := ⟨none, 0⟩

def raw_dxbc_view (data : Bytes) (offset size : ℕ) (out_view : DXBCContainerView) :
    Bool × DXBCContainerView :=
  if size < 32 ∨ (slice data offset size).take 4 ≠ asciiBytes "DXBC" then (false, out_view)
  else
    match read_le_u32_at rt (slice data offset size) 24 with
    | none => (false, out_view)
    | some total_size =>
      if total_size < 32 ∨ size < total_size then (false, out_view)
      else (true, ⟨some offset, total_size⟩)

/-- One turn of the record loop: the record's view and the offset behind it. -/
def usbd_record (data : Bytes) (offset : ℕ) : Option (DXBCContainerView × ℕ) := do
  let name_length ← read_le_u32_at rt data offset
  let offset := offset + 4
  guard (name_length ≠ 0 ∧ name_length ≤ data.length - offset)
  let offset := offset + name_length
  let payload_length ← read_le_u32_at rt data offset
  let offset := offset + 4
  guard (payload_length ≤ data.length - offset)
  let record := raw_dxbc_view rt data offset payload_length null_view
  guard (record.1 = true ∧ record.2.size = payload_length)
  pure (record.2, offset + payload_length)

def usbd_records (data : Bytes) : (turns i offset : ℕ) → DXBCContainerView →
    Option (DXBCContainerView × ℕ)
  | 0, _, offset, first => some (first, offset)
  | turns + 1, i, offset, first => do
    let (record, offset) ← usbd_record rt data offset
    usbd_records data turns (i + 1) offset (if i = 0 then record else first)

def usbd_first (data : Bytes) : Option DXBCContainerView := do
  guard (8 ≤ data.length ∧ data.take 4 = asciiBytes "USBD")
  let record_count ← read_le_u32_at rt data 4
  guard (record_count ≠ 0 ∧ record_count ≤ (data.length - 8) / 9)
  let (first, offset) ← usbd_records rt data record_count 0 8 null_view
  guard (offset = data.length)
  pure first

/-- The table's first view is written only when the whole table has been read. -/
def usbd_view_first (data : Bytes) (out_view : DXBCContainerView) : Bool × DXBCContainerView :=
  match usbd_first rt data with
  | none => (false, out_view)
  | some first => (true, first)

def unity_program_view (data : Bytes) (out_view : DXBCContainerView) : Bool × DXBCContainerView :=
  if data.length ≤ 38 ∨ data.headD 0 ≠ 2 then (false, out_view)
  else
    match raw_dxbc_view rt data 38 (data.length - 38) out_view with
    | (false, out_view) => (false, out_view)
    | (true, out_view) => (decide (out_view.size = data.length - 38), out_view)

/-- The result and the caller's view afterwards. What the view held before is overwritten. -/
def dxbc_container_view_first (data : Bytes) (_out_view : DXBCContainerView) :
    Bool × DXBCContainerView :=
  match raw_dxbc_view rt data 0 data.length null_view with
  | (true, out_view) => (true, out_view)
  | (false, out_view) =>
    match unity_program_view rt data out_view with
    | (true, out_view) => (true, out_view)
    | (false, out_view) => usbd_view_first rt data out_view

variable {rt} in
/-- A container that fills its place is found there. -/
theorem raw_dxbc_view_slice {data dxbc : Bytes} {offset size : ℕ} {out_view : DXBCContainerView}
    (hslice : slice data offset size = dxbc) (hsize : dxbc.length = size)
    (hmagic : dxbc.take 4 = asciiBytes "DXBC") (hlen : 32 ≤ dxbc.length)
    (hdeclared : (wordAt dxbc 24).toNat = dxbc.length) :
    raw_dxbc_view rt data offset size out_view = (true, ⟨some offset, size⟩) := by
  unfold raw_dxbc_view
  rw [hslice, hmagic, if_neg (by simp; omega), read_le_u32_at, if_neg (by omega), read_u32_le_eq,
    hdeclared, hsize]
  exact if_neg (by omega)

end ContainerView

variable (data : Bytes)

/-- The first container, as the bytes that the view covers. -/
def dxbc_container_view_first : Option Bytes :=
  match ContainerView.dxbc_container_view_first rt data ContainerView.null_view with
  | (true, view) => view.data.map (slice data · view.size)
  | (false, _) => none

variable {rt data} in
lemma dxbc_container_view_first_self (hmagic : data.take 4 = asciiBytes "DXBC")
    (hlen : 32 ≤ data.length) (hdeclared : (wordAt data 24).toNat = data.length) :
    dxbc_container_view_first rt data = some data := by
  unfold dxbc_container_view_first ContainerView.dxbc_container_view_first
  rw [ContainerView.raw_dxbc_view_slice (slice_zero_length data) rfl hmagic hlen hdeclared]
  exact congrArg some (slice_zero_length data)

/-! ## The parser -/

/-- A chunk header: name, payload size and the payload's two ends. -/
structure ChunkHeader where
  name : Bytes
  chunk_size : ℕ
  chunk_start : ℕ
  chunk_end : ℕ

def range_within (offset length size : ℕ) : Bool := offset ≤ size && length ≤ size - offset

def read_chunk_header (offset total_size : ℕ) : Option ChunkHeader := do
  guard (offset % 4 = 0 ∧ range_within offset 8 total_size)
  let (name, stream) ← rt.stream_read_bytes ⟨data, offset⟩ 4
  let (chunk_size, stream) ← rt.stream_read_uint32 stream
  guard (range_within stream.position chunk_size.toNat total_size)
  pure ⟨name, chunk_size.toNat, stream.position, stream.position + chunk_size.toNat⟩

/-- The offset table, each entry behind the table. -/
def read_offsets (chunk_count : ℕ) : (n : ℕ) → StreamParser (List ℕ)
  | 0 => pure []
  | n + 1 => do
    let offset ← read_uint32 rt
    guard (32 + chunk_count * 4 ≤ offset.toNat)
    let rest ← read_offsets chunk_count n
    pure (offset.toNat :: rest)

/-- One turn of the first chunk loop: the chunk record, and its signature if it is
one. -/
def parse_signature_chunk (total_size offset : ℕ) (container : DXBCContainer) :
    Option DXBCContainer := do
  let h ← read_chunk_header rt data offset total_size
  let container := { container with
    chunks := container.chunks ++ [⟨h.name, h.chunk_size, offset⟩] }
  if h.name = asciiBytes "ISGN" ∨ h.name = asciiBytes "ISG1" then
    let (els, _) ← (parse_signature rt h.chunk_start h.chunk_end container.input_signature
      h.name).run ⟨data, h.chunk_start⟩
    pure { container with input_signature := els }
  else if h.name = asciiBytes "OSGN" ∨ h.name = asciiBytes "OSG1" ∨
      h.name = asciiBytes "OSG5" then
    let (els, _) ← (parse_signature rt h.chunk_start h.chunk_end container.output_signature
      h.name).run ⟨data, h.chunk_start⟩
    pure { container with output_signature := els }
  else if h.name = asciiBytes "PCSG" ∨ h.name = asciiBytes "PSG1" then
    let (els, _) ← (parse_signature rt h.chunk_start h.chunk_end
      container.patch_constant_signature h.name).run ⟨data, h.chunk_start⟩
    pure { container with patch_constant_signature := els }
  else pure container

def parse_signature_chunks (data : Bytes) (total_size : ℕ) :
    (offsets : List ℕ) → DXBCContainer → Option DXBCContainer
  | [], container => some container
  | offset :: offsets, container => do
    let container ← parse_signature_chunk rt data total_size offset container
    parse_signature_chunks data total_size offsets container

def parse_program_chunks (data : Bytes) (total_size : ℕ) :
    (offsets : List ℕ) → DXBCContainer → Option DXBCContainer
  | [], container => some container
  | offset :: offsets, container => do
    let h ← read_chunk_header rt data offset total_size
    if h.name = asciiBytes "SHEX" ∨ h.name = asciiBytes "SHDR" then
      let container ← parse_shader_logic rt data h.chunk_start h.chunk_end container
      parse_program_chunks data total_size offsets container
    else parse_program_chunks data total_size offsets container

/-- The container header: the offset table of a container of `size` bytes. -/
def read_container_header (size : ℕ) : StreamParser (List ℕ) := do
  let magic ← read_uint32 rt
  guard (magic = 0x43425844)
  let _ ← (fun stream => rt.stream_read_bytes stream 16 : StreamParser Bytes)
  let version ← read_uint32 rt
  guard (version = 1)
  let total_size ← read_uint32 rt
  guard (total_size.toNat = size ∧ 32 ≤ total_size.toNat)
  let chunk_count ← read_uint32 rt
  guard (chunk_count.toNat ≤ (total_size.toNat - 32) / 4 ∧ chunk_count.toNat ≤ INT_MAX)
  read_offsets rt chunk_count.toNat chunk_count.toNat

def dxbc_parse : Option DXBCContainer := do
  let view ← dxbc_container_view_first rt data
  guard (dxbc_verify_hash rt view)
  let (offsets, _) ← (read_container_header rt view.length).run ⟨view, 0⟩
  let container ← parse_signature_chunks rt view view.length offsets .zeroed
  let container ← parse_program_chunks rt view view.length offsets container
  guard container.has_executable_program
  pure { container with parsed_signature_authority := true }

end

end DXBCSandbox
