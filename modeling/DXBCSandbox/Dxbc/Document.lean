/-
The lossless document reader (`src/dxbc/dxbc_document.c`).

A document keeps the whole buffer and describes it: the chunks of the offset
table, and for every executable chunk the instructions of its token stream. The
records of the C document are views into `owned_bytes`. Here a view is the offset
it starts at.

`size_t` has 64 bits on every target of the repository, so the two
`dxbc_size_*_overflows` tests never fail and are not modelled. All 32-bit sums of
the source are below `2^32` where they are formed, so offsets and counts are
natural numbers.
-/
import DXBCSandbox.Lib.Checks
import DXBCSandbox.Dxbc.Hash

namespace DXBCSandbox

open Checks

/-! ## Diagnostics -/

inductive DXBCDocumentDiagnosticKind where
  | validation | unsupported
  deriving DecidableEq

inductive DXBCDocumentDiagnosticCode where
  | ok | invalidArgument | outOfMemory | notDxbc | truncatedHeader
  | unsupportedContainerVersion | declaredSizeInvalid | declaredSizeMismatch
  | chunkTableOverflow | chunkOffsetUnaligned | chunkOffsetInHeader | duplicateChunkOffset
  | truncatedChunkHeader | chunkRangeOverflow | truncatedChunkPayload | overlappingChunks
  | hashMismatch | executableSizeUnaligned | truncatedExecutableHeader
  | executableLengthMismatch | truncatedInstruction | instructionLengthInvalid
  | truncatedOpcodeExtension | unsupportedShaderStage | corruptDocument
  deriving DecidableEq

def DXBC_DOCUMENT_NO_INDEX : ℕ := UINT32_MAX

structure DXBCDocumentDiagnostic where
  kind : DXBCDocumentDiagnosticKind
  code : DXBCDocumentDiagnosticCode
  byte_offset : ℕ
  chunk_index : ℕ
  instruction_index : ℕ
  expected : ℕ
  actual : ℕ

def clear_diagnostic : DXBCDocumentDiagnostic :=
  ⟨.validation, .ok, 0, DXBC_DOCUMENT_NO_INDEX, DXBC_DOCUMENT_NO_INDEX, 0, 0⟩

def diagnostic_kind : DXBCDocumentDiagnosticCode → DXBCDocumentDiagnosticKind
  | .unsupportedContainerVersion => .unsupported
  | .unsupportedShaderStage => .unsupported
  | _ => .validation

/-- The record `report_failure` and `append_diagnostic` fill in. -/
def diagnostic (code : DXBCDocumentDiagnosticCode)
    (byte_offset chunk_index instruction_index expected actual : ℕ) : DXBCDocumentDiagnostic :=
  ⟨diagnostic_kind code, code, byte_offset, chunk_index, instruction_index, expected, actual⟩

/-! ## The document -/

inductive DXBCDocumentChunkKind where
  | unknown | executable | signature | reflection | statistics | debug
  deriving DecidableEq

structure DXBCDocumentChunk where
  fourcc : Bytes
  kind : DXBCDocumentChunkKind
  table_index : ℕ
  offset : ℕ
  payload_size : ℕ
  raw_size : ℕ
  deriving DecidableEq

structure DXBCDocumentInstruction where
  chunk_index : ℕ
  instruction_index : ℕ
  byte_offset : ℕ
  byte_size : ℕ
  token_count : ℕ
  opcode : UInt32
  encoded_length : ℕ
  extended_opcode_token_count : ℕ
  uses_customdata_length : Bool

structure DXBCDocument where
  magic : Bytes
  hash : Bytes
  container_version : UInt32
  declared_size : ℕ
  hash_valid : Bool
  owned_bytes : Bytes
  chunks : List DXBCDocumentChunk
  instructions : List DXBCDocumentInstruction
  diagnostics : List DXBCDocumentDiagnostic

def dxbc_document_init : DXBCDocument where
  magic := [0, 0, 0, 0]
  hash := List.replicate 16 0
  container_version := 0
  declared_size := 0
  hash_valid := false
  owned_bytes := []
  chunks := []
  instructions := []
  diagnostics := []

def fourcc_equal (fourcc : Bytes) (name : String) : Bool := fourcc == asciiBytes name

def classify_chunk (fourcc : Bytes) : DXBCDocumentChunkKind :=
  if fourcc_equal fourcc "SHDR" ∨ fourcc_equal fourcc "SHEX" then .executable
  else if fourcc_equal fourcc "ISGN" ∨ fourcc_equal fourcc "ISG1" ∨ fourcc_equal fourcc "OSGN" ∨
      fourcc_equal fourcc "OSG1" ∨ fourcc_equal fourcc "OSG5" ∨ fourcc_equal fourcc "PCSG" ∨
      fourcc_equal fourcc "PSG1" then .signature
  else if fourcc_equal fourcc "RDEF" ∨ fourcc_equal fourcc "RD11" then .reflection
  else if fourcc_equal fourcc "STAT" then .statistics
  else if fourcc_equal fourcc "SDBG" ∨ fourcc_equal fourcc "SPDB" ∨ fourcc_equal fourcc "ILDB" ∨
      fourcc_equal fourcc "ILDN" then .debug
  else .unknown

section Reader

variable (rt : UnityCommon)

/-! ## Executable chunks -/

/-- The extension loop of one instruction, `words_left` words before its end. Returns
the number of extension tokens from `extension_word` on. -/
def count_extensions (bytes : Bytes) (chunk_index instruction_index instruction_offset
    token_count : ℕ) :
    (words_left extension_word : ℕ) → Except DXBCDocumentDiagnostic ℕ
  | 0, extension_word => .error (diagnostic .truncatedOpcodeExtension
      (instruction_offset + extension_word * 4) chunk_index instruction_index
      (extension_word + 1) token_count)
  | words_left + 1, extension_word => do
    let extension_token := read_u32_le rt bytes (instruction_offset + extension_word * 4)
    if extension_token &&& 0x80000000 ≠ 0 then
      let extension_count ← count_extensions bytes chunk_index instruction_index
        instruction_offset token_count words_left (extension_word + 1)
      pure (extension_count + 1)
    else pure 1

variable (bytes : Bytes)

/-- The extension tokens of one instruction, if its first token announces any. -/
def count_opcode_extensions
    (chunk_index instruction_index instruction_offset token_count minimum_tokens : ℕ)
    (first_token : UInt32) : Except DXBCDocumentDiagnostic ℕ :=
  if first_token &&& 0x80000000 ≠ 0 then
    count_extensions rt bytes chunk_index instruction_index instruction_offset token_count
      (token_count - minimum_tokens) minimum_tokens
  else pure 0

/-- One turn of the instruction loop: the instruction at `word_offset`. -/
def parse_document_instruction
    (chunk_index payload_offset declared_tokens instruction_index word_offset : ℕ) :
    Except DXBCDocumentDiagnostic DXBCDocumentInstruction := do
  let instruction_offset := payload_offset + word_offset * 4
  let first_token := read_u32_le rt bytes instruction_offset
  let opcode := first_token &&& 0x7ff
  let encoded_length := ((first_token >>> 24) &&& 0x7f).toNat
  let uses_customdata_length := opcode = 53
  failWhen (uses_customdata_length ∧ declared_tokens - word_offset < 2)
    (diagnostic .truncatedInstruction instruction_offset chunk_index instruction_index 2
      (declared_tokens - word_offset))
  failWhen (¬uses_customdata_length ∧ encoded_length = 0)
    (diagnostic .instructionLengthInvalid instruction_offset chunk_index instruction_index 1 0)
  let token_count := if uses_customdata_length then
    (read_u32_le rt bytes (instruction_offset + 4)).toNat else encoded_length
  let minimum_tokens := if uses_customdata_length then 2 else 1
  failWhen (token_count < minimum_tokens)
    (diagnostic .instructionLengthInvalid instruction_offset chunk_index instruction_index
      minimum_tokens token_count)
  failWhen (declared_tokens - word_offset < token_count)
    (diagnostic .truncatedInstruction instruction_offset chunk_index instruction_index
      token_count (declared_tokens - word_offset))
  let extension_count ← count_opcode_extensions rt bytes chunk_index instruction_index
    instruction_offset token_count minimum_tokens first_token
  pure
    { chunk_index
      instruction_index
      byte_offset := instruction_offset
      byte_size := token_count * 4
      token_count
      opcode
      encoded_length
      extended_opcode_token_count := extension_count
      uses_customdata_length := decide uses_customdata_length }

/-- The instruction loop. An instruction has at least one word, so the words left
bound the number of turns. -/
def parse_document_instructions (bytes : Bytes) (chunk_index payload_offset declared_tokens : ℕ) :
    (turns instruction_index word_offset : ℕ) →
      Except DXBCDocumentDiagnostic (List DXBCDocumentInstruction)
  | 0, _, _ => pure []
  | turns + 1, instruction_index, word_offset => do
    if word_offset < declared_tokens then
      let instruction ← parse_document_instruction rt bytes chunk_index payload_offset
        declared_tokens instruction_index word_offset
      let rest ← parse_document_instructions bytes chunk_index payload_offset declared_tokens
        turns (instruction_index + 1) (word_offset + instruction.token_count)
      pure (instruction :: rest)
    else pure []

variable (document : DXBCDocument)

def parse_executable_chunk (chunk : DXBCDocumentChunk) :
    Except DXBCDocumentDiagnostic DXBCDocument := do
  let chunk_index := chunk.table_index
  let payload_offset := chunk.offset + 8
  failWhen (chunk.payload_size % 4 ≠ 0)
    (diagnostic .executableSizeUnaligned payload_offset chunk_index DXBC_DOCUMENT_NO_INDEX 4
      (chunk.payload_size % 4))
  failWhen (chunk.payload_size < 8)
    (diagnostic .truncatedExecutableHeader payload_offset chunk_index DXBC_DOCUMENT_NO_INDEX 8
      chunk.payload_size)
  let version_token := read_u32_le rt document.owned_bytes payload_offset
  let declared_tokens := (read_u32_le rt document.owned_bytes (payload_offset + 4)).toNat
  let available_tokens := chunk.payload_size / 4
  failWhen (declared_tokens ≠ available_tokens ∨ declared_tokens < 2)
    (diagnostic .executableLengthMismatch (payload_offset + 4) chunk_index
      DXBC_DOCUMENT_NO_INDEX available_tokens declared_tokens)
  let shader_stage := ((version_token >>> 16) &&& 0xffff).toNat
  let reports := if 5 < shader_stage then
    [diagnostic .unsupportedShaderStage payload_offset chunk_index DXBC_DOCUMENT_NO_INDEX 5
      shader_stage] else []
  let instructions ← parse_document_instructions rt document.owned_bytes chunk_index
    payload_offset declared_tokens (declared_tokens - 2) 0 2
  pure { document with
    diagnostics := document.diagnostics ++ reports
    instructions := document.instructions ++ instructions }

/-- The second pass over the chunks: the executable ones, in table order. -/
def parse_executable_chunks : List DXBCDocumentChunk → DXBCDocument →
    Except DXBCDocumentDiagnostic DXBCDocument
  | [], document => pure document
  | chunk :: chunks, document =>
    if chunk.kind = .executable then do
      let document ← parse_executable_chunk rt document chunk
      parse_executable_chunks chunks document
    else parse_executable_chunks chunks document

/-! ## The chunk table -/

/-- One turn of the chunk loop, after `previous` has been read. -/
def parse_document_chunk (chunk_table_end : ℕ) (previous : List DXBCDocumentChunk) (i : ℕ) :
    Except DXBCDocumentDiagnostic DXBCDocumentChunk := do
  let size := bytes.length
  let table_offset := 32 + i * 4
  let offset := (read_u32_le rt bytes table_offset).toNat
  failWhen (offset % 4 ≠ 0)
    (diagnostic .chunkOffsetUnaligned table_offset i DXBC_DOCUMENT_NO_INDEX 4 (offset % 4))
  failWhen (offset < chunk_table_end)
    (diagnostic .chunkOffsetInHeader table_offset i DXBC_DOCUMENT_NO_INDEX chunk_table_end offset)
  failWhen (∃ p ∈ previous, p.offset = offset)
    (diagnostic .duplicateChunkOffset table_offset i DXBC_DOCUMENT_NO_INDEX
      (previous.findIdx fun p => p.offset = offset) offset)
  failWhen (size < offset ∨ size - offset < 8)
    (diagnostic .truncatedChunkHeader offset i DXBC_DOCUMENT_NO_INDEX 8
      (if offset ≤ size then size - offset else 0))
  let fourcc := (bytes.drop offset).take 4
  let payload_size := (read_u32_le rt bytes (offset + 4)).toNat
  failWhen (UINT32_MAX - offset - 8 < payload_size)
    (diagnostic .chunkRangeOverflow (offset + 4) i DXBC_DOCUMENT_NO_INDEX
      (UINT32_MAX - offset - 8) payload_size)
  let payload_offset := offset + 8
  failWhen (size - payload_offset < payload_size)
    (diagnostic .truncatedChunkPayload payload_offset i DXBC_DOCUMENT_NO_INDEX payload_size
      (size - payload_offset))
  let raw_size := 8 + payload_size
  let this_end := offset + raw_size
  failWhen (∃ p ∈ previous, offset < p.offset + p.raw_size ∧ p.offset < this_end)
    (diagnostic .overlappingChunks offset i DXBC_DOCUMENT_NO_INDEX
      (previous.findIdx fun p => offset < p.offset + p.raw_size ∧ p.offset < this_end) offset)
  pure { fourcc, kind := classify_chunk fourcc, table_index := i, offset, payload_size, raw_size }

/-- The chunk loop: `n` chunks after the ones in `previous`. -/
def parse_document_chunks (bytes : Bytes) (chunk_table_end : ℕ) :
    (n : ℕ) → (previous : List DXBCDocumentChunk) →
      Except DXBCDocumentDiagnostic (List DXBCDocumentChunk)
  | 0, previous => pure previous
  | n + 1, previous => do
    let chunk ← parse_document_chunk rt bytes chunk_table_end previous previous.length
    parse_document_chunks bytes chunk_table_end n (previous ++ [chunk])

/-! ## Parse and serialise -/

/-- `dxbc_document_parse` up to the last two statements: the document `parsed`. -/
def parse_document : Except DXBCDocumentDiagnostic DXBCDocument := do
  let size := bytes.length
  failWhen (size < 4) (diagnostic .truncatedHeader 0 DXBC_DOCUMENT_NO_INDEX
    DXBC_DOCUMENT_NO_INDEX 32 size)
  failWhen (bytes.take 4 ≠ asciiBytes "DXBC") (diagnostic .notDxbc 0 DXBC_DOCUMENT_NO_INDEX
    DXBC_DOCUMENT_NO_INDEX 0 0)
  failWhen (size < 32) (diagnostic .truncatedHeader size DXBC_DOCUMENT_NO_INDEX
    DXBC_DOCUMENT_NO_INDEX 32 size)
  let container_version := read_u32_le rt bytes 20
  let declared_size := (read_u32_le rt bytes 24).toNat
  let chunk_count := (read_u32_le rt bytes 28).toNat
  failWhen (container_version ≠ 1) (diagnostic .unsupportedContainerVersion 20
    DXBC_DOCUMENT_NO_INDEX DXBC_DOCUMENT_NO_INDEX 1 container_version.toNat)
  failWhen (declared_size < 32) (diagnostic .declaredSizeInvalid 24 DXBC_DOCUMENT_NO_INDEX
    DXBC_DOCUMENT_NO_INDEX 32 declared_size)
  failWhen (declared_size ≠ size) (diagnostic .declaredSizeMismatch 24 DXBC_DOCUMENT_NO_INDEX
    DXBC_DOCUMENT_NO_INDEX declared_size size)
  let chunk_table_end := 32 + chunk_count * 4
  failWhen ((UINT32_MAX - 32) / 4 < chunk_count ∨ declared_size < chunk_table_end)
    (diagnostic .chunkTableOverflow 28 DXBC_DOCUMENT_NO_INDEX DXBC_DOCUMENT_NO_INDEX
      ((declared_size - 32) / 4) chunk_count)
  let chunks ← parse_document_chunks rt bytes chunk_table_end chunk_count []
  let hash_valid := dxbc_verify_hash rt bytes
  failWhen (hash_valid = false) (diagnostic .hashMismatch 4 DXBC_DOCUMENT_NO_INDEX
    DXBC_DOCUMENT_NO_INDEX 0 0)
  parse_executable_chunks rt chunks
    { dxbc_document_init with
      magic := bytes.take 4
      hash := (bytes.drop 4).take 16
      container_version
      declared_size
      hash_valid
      owned_bytes := bytes
      chunks }

/-- `dxbc_document_parse(document, bytes, size, out_diagnostic)`: the result, and the
document and the diagnostic the call leaves behind. `bytes` may be a null pointer. -/
def dxbc_document_parse (bytes : Option Bytes) : Bool × DXBCDocument × DXBCDocumentDiagnostic :=
  match bytes with
  | none => (false, document, diagnostic .invalidArgument 0 DXBC_DOCUMENT_NO_INDEX
      DXBC_DOCUMENT_NO_INDEX 0 0)
  | some bytes =>
    match parse_document rt bytes with
    | .ok parsed => (true, parsed, clear_diagnostic)
    | .error d => (false, document, d)

def dxbc_document_serialize_exact :
    Except DXBCDocumentDiagnostic Bytes := do
  failWhen (document.owned_bytes = [] ∨ document.declared_size ≠ document.owned_bytes.length ∨
      document.magic ≠ asciiBytes "DXBC")
    (diagnostic .corruptDocument 0 DXBC_DOCUMENT_NO_INDEX DXBC_DOCUMENT_NO_INDEX 0
      document.owned_bytes.length)
  pure document.owned_bytes

def dxbc_document_instruction_token (instruction : DXBCDocumentInstruction) (token_index : ℕ) :
    Option UInt32 :=
  if instruction.token_count ≤ token_index then none
  else some (read_u32_le rt document.owned_bytes (instruction.byte_offset + token_index * 4))

end Reader

end DXBCSandbox
