/-
Signature chunks (`parse_signature` of `src/dxbc/dxbc_parser.c`).

An element names a semantic by a chunk-relative NUL-terminated string. The C record
keeps short names inline and long ones in owned storage. Here the name is the list
of its bytes before the NUL, and the record's two consistency checks on that storage
hold by construction.
-/
import DXBCSandbox.Runtime

namespace DXBCSandbox

structure DXBCSignatureElement where
  semantic_name : Bytes
  stream_index : UInt32
  semantic_index : UInt32
  system_value : UInt32
  component_type : UInt32
  register_id : UInt32
  min_precision : UInt32
  interpolation_mode : ℕ
  mask : UInt32
  rw_mask : UInt32

inductive DXBCSignatureRole where
  | input | output | patchConstant
  deriving DecidableEq

/-! ## Chunk names -/

variable (chunk_name : Bytes)

def signature_is_streamed : Bool :=
  chunk_name == asciiBytes "ISG1" || chunk_name == asciiBytes "OSG1" ||
    chunk_name == asciiBytes "OSG5" || chunk_name == asciiBytes "PSG1"

def signature_has_min_precision : Bool :=
  chunk_name == asciiBytes "ISG1" || chunk_name == asciiBytes "OSG1" ||
    chunk_name == asciiBytes "PSG1"

def signature_role_for_chunk : DXBCSignatureRole :=
  if chunk_name = asciiBytes "ISGN" ∨ chunk_name = asciiBytes "ISG1" then .input
  else if chunk_name = asciiBytes "PCSG" ∨ chunk_name = asciiBytes "PSG1" then .patchConstant
  else .output

/-! ## Validity of one element -/

variable (value : UInt32)

def signature_min_precision_is_valid : Bool :=
  [0, 1, 2, 4, 5, 0xf0, 0xf1].contains value

def signature_system_value_is_valid : Bool :=
  value ≤ 16 || (23 ≤ value && value ≤ 25) || (64 ≤ value && value ≤ 70)

def ascii_lower (value : UInt8) : UInt8 :=
  if 65 ≤ value ∧ value ≤ 90 then value + 32 else value

def semantic_equals_ascii_case_insensitive (semantic expected : Bytes) : Bool :=
  semantic.map ascii_lower == expected.map ascii_lower

def signature_system_semantic : Option Bytes :=
  (match value.toNat with
    | 1 => some "SV_Position"
    | 2 => some "SV_ClipDistance"
    | 3 => some "SV_CullDistance"
    | 4 => some "SV_RenderTargetArrayIndex"
    | 5 => some "SV_ViewportArrayIndex"
    | 6 => some "SV_VertexID"
    | 7 => some "SV_PrimitiveID"
    | 8 => some "SV_InstanceID"
    | 9 => some "SV_IsFrontFace"
    | 10 => some "SV_SampleIndex"
    | 11 | 13 | 15 | 16 => some "SV_TessFactor"
    | 12 | 14 => some "SV_InsideTessFactor"
    | 23 => some "SV_Barycentrics"
    | 24 => some "SV_ShadingRate"
    | 25 => some "SV_CullPrimitive"
    | 64 => some "SV_Target"
    | 65 => some "SV_Depth"
    | 66 => some "SV_Coverage"
    | 67 => some "SV_DepthGreaterEqual"
    | 68 => some "SV_DepthLessEqual"
    | 69 => some "SV_StencilRef"
    | 70 => some "SV_InnerCoverage"
    | _ => none).map asciiBytes

variable (semantic : Bytes)

/-- The values an early stage generates and later stages carry as ordinary data. -/
def signature_semantic_is_passthrough_system_value : Bool :=
  ["SV_VertexID", "SV_PrimitiveID", "SV_InstanceID", "SV_IsFrontFace"].any fun name =>
    semantic_equals_ascii_case_insensitive semantic (asciiBytes name)

def identifierStart (value : UInt8) : Bool :=
  (65 ≤ value && value ≤ 90) || (97 ≤ value && value ≤ 122) || value == 95

def semantic_is_hlsl_identifier : Bool :=
  match semantic with
  | [] => false
  | first :: rest =>
    identifierStart first && rest.all fun v => identifierStart v || (48 ≤ v && v ≤ 57)

/-- The pixel outputs FXC writes with `D3D_NAME_UNDEFINED`. -/
def implicit_output_system_semantics : List String :=
  ["SV_Target", "SV_Depth", "SV_Coverage", "SV_DepthGreaterEqual", "SV_DepthLessEqual",
   "SV_StencilRef", "SV_InnerCoverage"]

/-- The name of an element, against its system value. -/
def signature_name_is_valid (system_value : UInt32) (role : DXBCSignatureRole) : Bool :=
  match signature_system_semantic system_value with
  | some expected => semantic_equals_ascii_case_insensitive semantic expected
  | none =>
    if signature_semantic_is_passthrough_system_value semantic then true
    else if implicit_output_system_semantics.any fun name =>
        semantic_equals_ascii_case_insensitive semantic (asciiBytes name) then
      role != .input
    else
      !(ascii_lower (semantic.getD 0 0) == 115 && ascii_lower (semantic.getD 1 0) == 118 &&
        semantic.getD 2 0 == 95)

def dxbc_signature_element_is_valid (el : DXBCSignatureElement) (role : DXBCSignatureRole) : Bool :=
  (1 ≤ el.component_type && el.component_type ≤ 3) &&
  (el.mask != 0 && el.mask &&& 0xf0 == 0) && el.rw_mask &&& 0xf0 == 0 &&
  el.stream_index ≤ 3 && el.interpolation_mode ≤ 7 &&
  signature_min_precision_is_valid el.min_precision &&
  signature_system_value_is_valid el.system_value &&
  !(role == .input && (el.rw_mask &&& ~~~el.mask &&& 0xff != 0 || el.stream_index != 0)) &&
  !(role != .input && el.interpolation_mode != 0) &&
  semantic_is_hlsl_identifier el.semantic_name &&
  signature_name_is_valid el.semantic_name el.system_value role

/-! ## The chunk -/

section

variable (rt : UnityCommon)

abbrev StreamParser := StateT ByteStream Option

/-- `stream_read_uint32(stream, &value)` with a failure ending the caller. -/
def read_uint32 : StreamParser UInt32 := rt.stream_read_uint32

/-- `stream_read_uint32` where the chunk format has the field, zero where it has not. -/
def read_uint32_if (present : Bool) : StreamParser UInt32 :=
  if present then read_uint32 rt else pure 0

def parse_signature_element (chunk_start chunk_end : ℕ) (chunk_name : Bytes) :
    StreamParser DXBCSignatureElement := do
  let stream_index ← read_uint32_if rt (signature_is_streamed chunk_name)
  let name_offset ← read_uint32 rt
  let semantic_index ← read_uint32 rt
  let system_value ← read_uint32 rt
  let component_type ← read_uint32 rt
  let register_id ← read_uint32 rt
  let mask_token ← read_uint32 rt
  let min_precision ← read_uint32_if rt (signature_has_min_precision chunk_name)
  guard (signature_min_precision_is_valid min_precision)
  guard (mask_token &&& 0xffff0000 = 0 ∧ name_offset.toNat < chunk_end - chunk_start)
  let stream ← get
  let available := (stream.data.take chunk_end).drop (chunk_start + name_offset.toNat)
  guard (0 ∈ available)
  let el : DXBCSignatureElement :=
    { semantic_name := available.takeWhile (· != 0)
      stream_index
      semantic_index
      system_value
      component_type
      register_id
      min_precision
      interpolation_mode := 0
      mask := mask_token &&& 0xff
      rw_mask := (mask_token >>> 8) &&& 0xff }
  guard (dxbc_signature_element_is_valid el (signature_role_for_chunk chunk_name))
  pure el

def parse_signature_elements (chunk_start chunk_end : ℕ) (chunk_name : Bytes) :
    (element_count : ℕ) → StreamParser (List DXBCSignatureElement)
  | 0 => pure []
  | n + 1 => do
    let el ← parse_signature_element rt chunk_start chunk_end chunk_name
    let els ← parse_signature_elements chunk_start chunk_end chunk_name n
    pure (el :: els)

/-- `parse_signature`: the elements behind those already in `list`. -/
def parse_signature (chunk_start chunk_end : ℕ) (list : List DXBCSignatureElement)
    (chunk_name : Bytes) : StreamParser (List DXBCSignatureElement) := do
  let element_size := (if signature_is_streamed chunk_name then 4 else 0) + 24 +
    (if signature_has_min_precision chunk_name then 4 else 0)
  let element_count ← read_uint32 rt
  let parameter_offset ← read_uint32 rt
  let stream ← get
  guard (stream.position ≤ chunk_end ∧ parameter_offset.toNat ≤ chunk_end - chunk_start ∧
    stream.position ≤ chunk_start + parameter_offset.toNat ∧
    element_count.toNat ≤ (chunk_end - (chunk_start + parameter_offset.toNat)) / element_size ∧
    element_count.toNat ≤ INT_MAX - list.length)
  set { stream with position := chunk_start + parameter_offset.toNat }
  let els ← parse_signature_elements rt chunk_start chunk_end chunk_name element_count.toNat
  pure (list ++ els)

end

end DXBCSandbox
