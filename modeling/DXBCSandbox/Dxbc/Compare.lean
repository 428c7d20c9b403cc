/-
Exact comparison of two containers (`src/dxbc/dxbc_compare.c`).

Equality is equality of the bytes. For containers that differ, the comparison walks the
structure of both and reports the first difference it meets: the header, then chunk by chunk
the name, the program version and the instructions, then sizes and offsets, then payloads.
Only what none of these explains is left to a comparison of raw bytes.

A loop that returns from inside is a `findSome?` over its indices. `SIZE_MAX` as a position
that does not exist is `none`.
-/
import DXBCSandbox.Common.VariantKey
import DXBCSandbox.Dxbc.Document

namespace DXBCSandbox

inductive DXBCCompareStatus where
  | equal | invalidArgument | expectedInvalid | actualInvalid | containerVersion | chunkCount
  | chunkFourcc | programVersion | instructionCount | instructionOpcode | instructionLength
  | instructionToken | chunkPayloadSize | chunkOffset | containerSize | chunkPayload | rawByte
  deriving DecidableEq

structure DXBCDifference where
  status : DXBCCompareStatus
  first_differing_byte : ℕ
  chunk_index : ℕ
  instruction_index : ℕ
  token_index : ℕ
  expected_value : ℕ
  actual_value : ℕ

structure DXBCCompareResult extends DXBCDifference where
  expected_diagnostic : DXBCDocumentDiagnostic
  actual_diagnostic : DXBCDocumentDiagnostic
  expected_size : ℕ
  actual_size : ℕ

def dxbc_compare_result_init : DXBCCompareResult where
  status := .equal
  first_differing_byte := SIZE_MAX
  chunk_index := DXBC_DOCUMENT_NO_INDEX
  instruction_index := DXBC_DOCUMENT_NO_INDEX
  token_index := DXBC_DOCUMENT_NO_INDEX
  expected_value := 0
  actual_value := 0
  expected_diagnostic := clear_diagnostic
  actual_diagnostic := clear_diagnostic
  expected_size := 0
  actual_size := 0

def report (result : DXBCCompareResult) (difference : DXBCDifference) : DXBCCompareResult :=
  { result with toDXBCDifference := difference }

/-! ## Lookups -/

variable (document : DXBCDocument)

def instruction_count_for_chunk (chunk_index : ℕ) : ℕ :=
  document.instructions.countP fun instruction => instruction.chunk_index = chunk_index

/-- The loop of `instruction_for_chunk`, after `current` instructions of the chunk. -/
def instruction_for_chunk_from (chunk_index local_instruction_index : ℕ) :
    (current : ℕ) → List DXBCDocumentInstruction → Option DXBCDocumentInstruction
  | _, [] => none
  | current, instruction :: instructions =>
    if instruction.chunk_index ≠ chunk_index then
      instruction_for_chunk_from chunk_index local_instruction_index current instructions
    else if current = local_instruction_index then some instruction
    else instruction_for_chunk_from chunk_index local_instruction_index (current + 1) instructions

def instruction_for_chunk (chunk_index local_instruction_index : ℕ) :
    Option DXBCDocumentInstruction :=
  instruction_for_chunk_from chunk_index local_instruction_index 0 document.instructions

/-- The first offset from `start` on, and before `size`, with different bytes. -/
def first_byte_difference (expected actual : Bytes) (size start : ℕ) : Option ℕ :=
  (List.range' start (size - start)).find? fun offset =>
    byteAt expected offset ≠ byteAt actual offset

def fourcc_value (fourcc : Bytes) : UInt32 := wordAt fourcc 0

def DXBCDocument.payload_bytes (chunk : DXBCDocumentChunk) : Bytes :=
  document.owned_bytes.drop (chunk.offset + 8)

section Compare

variable (rt : UnityCommon) (expected_document actual_document : DXBCDocument)

/-! ## Programs -/

def compare_token (chunk_index instruction_index : ℕ)
    (expected_instruction actual_instruction : DXBCDocumentInstruction) (token_index : ℕ) :
    Option DXBCDifference :=
  match dxbc_document_instruction_token rt expected_document expected_instruction token_index,
      dxbc_document_instruction_token rt actual_document actual_instruction token_index with
  | some expected_token, some actual_token =>
    if expected_token ≠ actual_token then
      some ⟨.instructionToken, expected_instruction.byte_offset + token_index * 4, chunk_index,
        instruction_index, token_index, expected_token.toNat, actual_token.toNat⟩
    else none
  | _, _ => some ⟨.rawByte, expected_instruction.byte_offset, chunk_index, instruction_index,
      token_index, 0, 0⟩

def compare_instruction (expected_chunk : DXBCDocumentChunk) (chunk_index instruction_index : ℕ) :
    Option DXBCDifference :=
  match instruction_for_chunk expected_document chunk_index instruction_index,
      instruction_for_chunk actual_document chunk_index instruction_index with
  | some expected_instruction, some actual_instruction =>
    if expected_instruction.opcode ≠ actual_instruction.opcode then
      some ⟨.instructionOpcode, expected_instruction.byte_offset, chunk_index,
        instruction_index, 0, expected_instruction.opcode.toNat,
        actual_instruction.opcode.toNat⟩
    else if expected_instruction.token_count ≠ actual_instruction.token_count then
      some ⟨.instructionLength, expected_instruction.byte_offset, chunk_index,
        instruction_index, 0, expected_instruction.token_count, actual_instruction.token_count⟩
    else
      (List.range expected_instruction.token_count).findSome?
        (compare_token rt expected_document actual_document chunk_index instruction_index
          expected_instruction actual_instruction)
  | expected_instruction, actual_instruction =>
    some ⟨.rawByte, expected_chunk.offset + 8, chunk_index, instruction_index,
      DXBC_DOCUMENT_NO_INDEX, expected_instruction.isSome.toNat,
      actual_instruction.isSome.toNat⟩

variable (expected_chunk actual_chunk : DXBCDocumentChunk)

def compare_program (chunk_index : ℕ) : Option DXBCDifference :=
  let expected_version := wordAt (expected_document.payload_bytes expected_chunk) 0
  let actual_version := wordAt (actual_document.payload_bytes actual_chunk) 0
  if expected_version ≠ actual_version then
    some ⟨.programVersion, expected_chunk.offset + 8, chunk_index, DXBC_DOCUMENT_NO_INDEX, 0,
      expected_version.toNat, actual_version.toNat⟩
  else
    let expected_instruction_count := instruction_count_for_chunk expected_document chunk_index
    let actual_instruction_count := instruction_count_for_chunk actual_document chunk_index
    if expected_instruction_count ≠ actual_instruction_count then
      some ⟨.instructionCount, expected_chunk.offset + 12, chunk_index, DXBC_DOCUMENT_NO_INDEX,
        DXBC_DOCUMENT_NO_INDEX, expected_instruction_count, actual_instruction_count⟩
    else
      (List.range expected_instruction_count).findSome?
        (compare_instruction rt expected_document actual_document expected_chunk chunk_index)

/-! ## Chunks -/

/-- One turn of a loop over the chunks of both documents. There are as many in both. -/
def compare_chunks (compare : DXBCDocumentChunk → DXBCDocumentChunk → ℕ → Option DXBCDifference) :
    Option DXBCDifference :=
  (List.range expected_document.chunks.length).findSome? fun chunk_index =>
    match expected_document.chunks[chunk_index]?, actual_document.chunks[chunk_index]? with
    | some expected_chunk, some actual_chunk => compare expected_chunk actual_chunk chunk_index
    | _, _ => none

def compare_chunk_structure (chunk_index : ℕ) : Option DXBCDifference :=
  if expected_chunk.fourcc ≠ actual_chunk.fourcc then
    some ⟨.chunkFourcc, expected_chunk.offset, chunk_index, DXBC_DOCUMENT_NO_INDEX,
      DXBC_DOCUMENT_NO_INDEX, (fourcc_value expected_chunk.fourcc).toNat,
      (fourcc_value actual_chunk.fourcc).toNat⟩
  else if expected_chunk.kind = .executable ∧ actual_chunk.kind = .executable then
    compare_program rt expected_document actual_document expected_chunk actual_chunk chunk_index
  else none

def compare_chunk_layout (chunk_index : ℕ) : Option DXBCDifference :=
  if expected_chunk.payload_size ≠ actual_chunk.payload_size then
    some ⟨.chunkPayloadSize, expected_chunk.offset + 4, chunk_index, DXBC_DOCUMENT_NO_INDEX,
      DXBC_DOCUMENT_NO_INDEX, expected_chunk.payload_size, actual_chunk.payload_size⟩
  else if expected_chunk.offset ≠ actual_chunk.offset then
    some ⟨.chunkOffset, 32 + chunk_index * 4, chunk_index, DXBC_DOCUMENT_NO_INDEX,
      DXBC_DOCUMENT_NO_INDEX, expected_chunk.offset, actual_chunk.offset⟩
  else none

def compare_chunk_payload (chunk_index : ℕ) : Option DXBCDifference :=
  let expected_payload := expected_document.payload_bytes expected_chunk
  let actual_payload := actual_document.payload_bytes actual_chunk
  match first_byte_difference expected_payload actual_payload expected_chunk.payload_size 0 with
  | some difference =>
    some ⟨.chunkPayload, expected_chunk.offset + 8 + difference, chunk_index,
      DXBC_DOCUMENT_NO_INDEX, DXBC_DOCUMENT_NO_INDEX,
      (byteAt expected_payload difference).toNat, (byteAt actual_payload difference).toNat⟩
  | none => none

end Compare

/-! ## Containers -/

/-- The position of the last resort. The checksum is passed over while another byte
differs. -/
def raw_byte_position (expected actual : Bytes) : Option ℕ :=
  let difference := first_byte_difference expected actual expected.length 0
  if difference.any fun offset => 4 ≤ offset ∧ offset < 20 then
    match first_byte_difference expected actual expected.length 20 with
    | none => first_byte_difference expected actual 20 4
    | some offset => some offset
  else difference

def compare_raw_bytes (expected actual : Bytes) : DXBCDifference :=
  let difference := (raw_byte_position expected actual).getD 0
  ⟨.rawByte, difference, DXBC_DOCUMENT_NO_INDEX, DXBC_DOCUMENT_NO_INDEX, DXBC_DOCUMENT_NO_INDEX,
    (byteAt expected difference).toNat, (byteAt actual difference).toNat⟩

def compare_header (expected_document actual_document : DXBCDocument) : Option DXBCDifference :=
  if expected_document.container_version ≠ actual_document.container_version then
    some ⟨.containerVersion, 20, DXBC_DOCUMENT_NO_INDEX, DXBC_DOCUMENT_NO_INDEX,
      DXBC_DOCUMENT_NO_INDEX, expected_document.container_version.toNat,
      actual_document.container_version.toNat⟩
  else if expected_document.chunks.length ≠ actual_document.chunks.length then
    some ⟨.chunkCount, 28, DXBC_DOCUMENT_NO_INDEX, DXBC_DOCUMENT_NO_INDEX,
      DXBC_DOCUMENT_NO_INDEX, expected_document.chunks.length, actual_document.chunks.length⟩
  else none

def compare_size (expected_size actual_size : ℕ) : Option DXBCDifference :=
  if expected_size ≠ actual_size then
    some ⟨.containerSize, 24, DXBC_DOCUMENT_NO_INDEX, DXBC_DOCUMENT_NO_INDEX,
      DXBC_DOCUMENT_NO_INDEX, expected_size, actual_size⟩
  else none

/-- The difference between two containers that are not equal. -/
def compare_documents (rt : UnityCommon) (expected_document actual_document : DXBCDocument)
    (expected actual : Bytes) : DXBCDifference :=
  ((compare_header expected_document actual_document).or <|
    (compare_chunks expected_document actual_document
      (compare_chunk_structure rt expected_document actual_document)).or <|
    (compare_chunks expected_document actual_document compare_chunk_layout).or <|
    (compare_size expected.length actual.length).or <|
    compare_chunks expected_document actual_document
      (compare_chunk_payload expected_document actual_document)).getD
    (compare_raw_bytes expected actual)

def dxbc_compare_exact (rt : UnityCommon) (expected actual : CArray UInt8) : DXBCCompareResult :=
  let result := { dxbc_compare_result_init with
    expected_size := expected.count
    actual_size := actual.count }
  match expected.values, actual.values with
  | some expected_bytes, some actual_bytes =>
    match dxbc_document_parse rt dxbc_document_init (some expected_bytes) with
    | (false, _, expected_diagnostic) =>
      { result with status := .expectedInvalid, expected_diagnostic }
    | (true, expected_document, _) =>
      match dxbc_document_parse rt dxbc_document_init (some actual_bytes) with
      | (false, _, actual_diagnostic) =>
        { result with status := .actualInvalid, actual_diagnostic }
      | (true, actual_document, _) =>
        if expected_bytes = actual_bytes then result
        else report result (compare_documents rt expected_document actual_document
          expected_bytes actual_bytes)
  | _, _ => { result with status := .invalidArgument }

end DXBCSandbox
