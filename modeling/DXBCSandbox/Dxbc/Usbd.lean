/-
The `USBD` table of containers (`src/dxbc/usbd.c`).

A record is a name and a raw DXBC container, both behind their size. A view into the table
is given by its bytes here, and null pointers are left out.
-/
import DXBCSandbox.Lib.LittleEndian
import DXBCSandbox.Dxbc.Document
import DXBCSandbox.Dxbc.Parser

namespace DXBCSandbox

open Checks

def DXBC_USBD_HEADER_SIZE : ℕ := 8

inductive DXBCUSBDStatus where
  | ok | invalidArgument | badMagic | badRecordCount | truncated | invalidName | invalidDxbc
  | trailingBytes | sizeOverflow | allocationFailed
  deriving DecidableEq

structure DXBCUSBDDiagnostic where
  status : DXBCUSBDStatus
  byte_offset : ℕ
  record_index : ℕ

structure DXBCUSBDRecordView where
  name : Bytes
  dxbc : Bytes

structure DXBCUSBDTableView where
  bytes : Bytes
  record_count : ℕ

def write_u32_le (value : UInt32) : Bytes :=
  [value.toUInt8, (value >>> 8).toUInt8, (value >>> 16).toUInt8, (value >>> 24).toUInt8]

/-! ## Names -/

/-- The branches on the first byte of a code point that is not ASCII: the number of
continuation bytes, the bits in the first byte and the smallest code point allowed. -/
def utf8_lead (first : UInt8) : Option (ℕ × UInt32 × UInt32) :=
  if first &&& 0xe0 = 0xc0 then some (1, (first &&& 0x1f).toUInt32, 0x80)
  else if first &&& 0xf0 = 0xe0 then some (2, (first &&& 0x0f).toUInt32, 0x800)
  else if first &&& 0xf8 = 0xf0 then some (3, (first &&& 0x07).toUInt32, 0x10000)
  else none

def utf8_continuation : (continuation : ℕ) → (codepoint : UInt32) → Bytes → Option (UInt32 × Bytes)
  | 0, codepoint, rest => some (codepoint, rest)
  | _ + 1, _, [] => none
  | continuation + 1, codepoint, next :: rest =>
    if next &&& 0xc0 ≠ 0x80 then none
    else utf8_continuation continuation
      ((codepoint <<< 6) ||| (next &&& 0x3f).toUInt32) rest

/-- The loop over the code points, on the bytes that are left. -/
def utf8_loop : (turns : ℕ) → Bytes → Bool
  | _, [] => true
  | 0, _ :: _ => false
  | turns + 1, first :: rest =>
    if first = 0 then false
    else if first < 0x80 then utf8_loop turns rest
    else
      match utf8_lead first with
      | none => false
      | some (continuation, codepoint, minimum) =>
        if rest.length < continuation then false
        else
          match utf8_continuation continuation codepoint rest with
          | none => false
          | some (codepoint, rest) =>
            if codepoint < minimum ∨ 0x10ffff < codepoint ∨
                (0xd800 ≤ codepoint ∧ codepoint ≤ 0xdfff) then false
            else utf8_loop turns rest

def valid_utf8_name (bytes : Bytes) : Bool :=
  if bytes.length = 0 then false else utf8_loop bytes.length bytes

section Table

variable (rt : UnityCommon) (sizes : SizeChecks)

/-! ## Reading -/

variable (bytes : Bytes)

/-- A raw container that fills its bytes and parses as a document. A view of the bytes
that has their size starts where they start. -/
def valid_raw_dxbc : Bool :=
  match dxbc_container_view_first rt bytes with
  | none => false
  | some container =>
    if container.length ≠ bytes.length then false
    else (dxbc_document_parse rt dxbc_document_init (some bytes)).1

def parse_record (start record_index : ℕ) :
    Except DXBCUSBDDiagnostic (DXBCUSBDRecordView × ℕ) := do
  let size := bytes.length
  failWhen (size < start ∨ size - start < 4) ⟨.truncated, start, record_index⟩
  let name_size := (wordAt bytes start).toNat
  let start := start + 4
  failWhen (name_size = 0 ∨ size - start < name_size ∨
      valid_utf8_name (slice bytes start name_size) = false) ⟨.invalidName, start, record_index⟩
  let name := slice bytes start name_size
  let start := start + name_size
  failWhen (size - start < 4) ⟨.truncated, start, record_index⟩
  let dxbc_size := (wordAt bytes start).toNat
  let start := start + 4
  failWhen (size - start < dxbc_size) ⟨.truncated, start, record_index⟩
  failWhen (valid_raw_dxbc rt (slice bytes start dxbc_size) = false)
    ⟨.invalidDxbc, start, record_index⟩
  pure (⟨name, slice bytes start dxbc_size⟩, start + dxbc_size)

/-- The loop over `n` records from record `record_index` on: the offset after them. -/
def parse_records (bytes : Bytes) : (n record_index start : ℕ) → Except DXBCUSBDDiagnostic ℕ
  | 0, _, start => pure start
  | n + 1, record_index, start => do
    let (_, next) ← parse_record rt bytes start record_index
    parse_records bytes n (record_index + 1) next

def dxbc_usbd_table_open : Except DXBCUSBDDiagnostic DXBCUSBDTableView := do
  let size := bytes.length
  failWhen (size < DXBC_USBD_HEADER_SIZE ∨ bytes.take 4 ≠ asciiBytes "USBD")
    ⟨.badMagic, 0, UINT32_MAX⟩
  let count := (wordAt bytes 4).toNat
  failWhen (count = 0 ∨ (size - 8) / 9 < count) ⟨.badRecordCount, 4, UINT32_MAX⟩
  let stop ← parse_records rt bytes count 0 DXBC_USBD_HEADER_SIZE
  failWhen (stop ≠ size) ⟨.trailingBytes, stop, count⟩
  pure ⟨bytes, count⟩

/-- The loop of `dxbc_usbd_table_record`: `n` records before the one asked for. -/
def table_record_loop (bytes : Bytes) : (n index start : ℕ) → Option DXBCUSBDRecordView
  | 0, index, start =>
    match parse_record rt bytes start index with
    | .error _ => none
    | .ok (current, _) => some current
  | n + 1, index, start =>
    match parse_record rt bytes start index with
    | .error _ => none
    | .ok (_, next) => table_record_loop bytes n (index + 1) next

def dxbc_usbd_table_record (table : DXBCUSBDTableView) (record_index : ℕ) :
    Option DXBCUSBDRecordView :=
  if table.record_count ≤ record_index then none
  else table_record_loop rt table.bytes record_index 0 DXBC_USBD_HEADER_SIZE

/-! ## Writing -/

/-- The first loop of the encoder, from record `index` on: the size of the table. -/
def encoded_size : (index size : ℕ) → List DXBCUSBDRecordView → Except DXBCUSBDDiagnostic ℕ
  | _, size, [] => pure size
  | index, size, record :: records => do
    failWhen (record.name.length = 0 ∨ UINT32_MAX < record.name.length ∨
        valid_utf8_name record.name = false) ⟨.invalidName, size, index⟩
    failWhen (UINT32_MAX < record.dxbc.length ∨ valid_raw_dxbc rt record.dxbc = false)
      ⟨.invalidDxbc, size, index⟩
    let overhead := 8
    failWhen (sizes.dxbc_size_add_overflows overhead record.name.length = true ∨
        sizes.dxbc_size_add_overflows (overhead + record.name.length) record.dxbc.length = true ∨
        sizes.dxbc_size_add_overflows size
          (overhead + record.name.length + record.dxbc.length) = true)
      ⟨.sizeOverflow, size, index⟩
    encoded_size (index + 1) (size + (overhead + record.name.length + record.dxbc.length)) records

def write_records : List DXBCUSBDRecordView → Bytes
  | [] => []
  | record :: records =>
    write_u32_le (UInt32.ofNat record.name.length) ++ record.name ++
      write_u32_le (UInt32.ofNat record.dxbc.length) ++ record.dxbc ++ write_records records

def dxbc_usbd_table_encode (records : List DXBCUSBDRecordView) :
    Except DXBCUSBDDiagnostic Bytes := do
  failWhen (records.length = 0 ∨ UINT32_MAX < records.length) ⟨.invalidArgument, 0, UINT32_MAX⟩
  let _size ← encoded_size rt sizes 0 DXBC_USBD_HEADER_SIZE records
  pure (asciiBytes "USBD" ++ write_u32_le (UInt32.ofNat records.length) ++ write_records records)

end Table

end DXBCSandbox
