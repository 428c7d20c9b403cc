/-
The semantic instruction decoder (`parse_shader_logic` of
`src/dxbc/dxbc_instruction.c`).

The decoder walks the token stream of an executable chunk a second time, now
interpreting every instruction: opcode controls, extension tokens, operands, and the
payloads of the declarations that are not operands. It rejects whatever it cannot
represent.

All text of the C records (`opcode_str`, `formatted_asm`, operand and declaration
texts) is presentation and is not modelled, and neither is `instruction_id`, which
only numbers printed lines. An instruction is split into where it came from, which is
set once, and what was decoded.
-/
import DXBCSandbox.Dxbc.Operand
import DXBCSandbox.Dxbc.Signature

namespace DXBCSandbox

/-! ## Instructions and declarations -/

inductive DXBCInstructionTest where
  | none | zero | nonzero
  deriving DecidableEq

/-- The identity of an instruction in the token stream. -/
structure DXBCInstructionOrigin where
  opcode : UInt32
  token : UInt32
  file_offset : ℕ
  byte_length : ℕ
  raw_instruction_index : ℕ
  has_raw_instruction_index : Bool
  is_customdata_continuation : Bool

/-- What the decoder read off an instruction. -/
structure DXBCInstructionDetail where
  is_decl : Bool
  structured_stride : ℕ
  has_texel_offset : Bool
  texel_offsets : Dims ℤ
  has_resource_dimension : Bool
  resource_dimension : ℕ
  has_resource_return_types : Bool
  resource_return_types : Lanes ℕ
  resource_info_return_type : ℕ
  sample_info_return_type : ℕ
  saturate : Bool
  precise_mask : ℕ
  condition_test : DXBCInstructionTest
  has_declaration_system_value : Bool
  declaration_system_value : ℕ
  has_declaration_interpolation : Bool
  declaration_interpolation : ℕ
  operands : List DXBCOperand

structure DXBCInstruction extends DXBCInstructionOrigin, DXBCInstructionDetail

/-- The detail of `memset(inst, 0, sizeof(DXBCInstruction))`. -/
def DXBCInstructionDetail.zeroed : DXBCInstructionDetail where
  is_decl := false
  structured_stride := 0
  has_texel_offset := false
  texel_offsets := .const 0
  has_resource_dimension := false
  resource_dimension := 0
  has_resource_return_types := false
  resource_return_types := ⟨0, 0, 0, 0⟩
  resource_info_return_type := 0
  sample_info_return_type := 0
  saturate := false
  precise_mask := 0
  condition_test := .none
  has_declaration_system_value := false
  declaration_system_value := 0
  has_declaration_interpolation := false
  declaration_interpolation := 0
  operands := []

structure DXBCResourceDecl where
  register_index : ℤ
  dimension : ℕ
  return_types : Lanes ℕ
  sample_count : ℕ
  stride : ℕ
  is_structured : Bool
  globally_coherent : Bool
  rasterizer_ordered : Bool
  has_order_preserving_counter : Bool
  declared : Bool
  deriving DecidableEq

def DXBCResourceDecl.zeroed (register_index : ℤ) : DXBCResourceDecl where
  register_index
  dimension := 0
  return_types := ⟨0, 0, 0, 0⟩
  sample_count := 0
  stride := 0
  is_structured := false
  globally_coherent := false
  rasterizer_ordered := false
  has_order_preserving_counter := false
  declared := false

def DXBC_MAX_OPERANDS : ℕ := 8

/-- Updates the declaration that `dxbc_get_or_add_resource_declaration` returns: the
first one whose register is not smaller, or a zeroed one inserted in front of it. -/
def update_resource_declaration (register_index : ℤ) (f : DXBCResourceDecl → DXBCResourceDecl) :
    List DXBCResourceDecl → List DXBCResourceDecl
  | [] => [f (.zeroed register_index)]
  | d :: ds =>
    if d.register_index < register_index then d :: update_resource_declaration register_index f ds
    else if d.register_index = register_index then f d :: ds
    else f (.zeroed register_index) :: d :: ds

/-! ## The readers of one instruction -/

/-- The stream position and the two declaration tables. The bytes of the stream never
change and are a parameter of the readers. -/
structure InstructionCursor where
  position : ℕ
  resources : List DXBCResourceDecl
  uavs : List DXBCResourceDecl

/-- A `none` is every path that ends in `reject_instruction`. -/
abbrev InstructionParser := StateT InstructionCursor Option

def dxbc_tokenized_instruction_length (token : UInt32) : UInt32 := (token >>> 24) &&& 0x7f

def dxbc_opcode_is_declaration (op : UInt32) : Bool :=
  op == 53 || (88 ≤ op && op ≤ 106) || op == 113 || (143 ≤ op && op ≤ 162) || op == 206

def decode_resource_return_types (token : UInt32) : Option (Lanes ℕ) :=
  let types : Lanes ℕ :=
    .ofFn fun component => ((token >>> (component * 4).toUInt32) &&& 0xf).toNat
  if token &&& 0xffff0000 = 0 ∧ [types.x, types.y, types.z, types.w].all (fun type =>
      type ≠ 0 ∧ type ≤ 9) then
    some types
  else none

section Readers

variable (rt : UnityCommon) (data : Bytes) (instruction_end : ℕ)

def instruction_read_u32 : InstructionParser UInt32 := fun c =>
  if c.position ≤ instruction_end ∧ instruction_end ≤ data.length ∧
      4 ≤ instruction_end - c.position then
    (rt.stream_read_uint32 ⟨data, c.position⟩).map fun (w, stream) =>
      (w, { c with position := stream.position })
  else none

def append_required_operand (d : DXBCInstructionDetail) :
    InstructionParser DXBCInstructionDetail := fun c =>
  if DXBC_MAX_OPERANDS ≤ d.operands.length then none
  else
    match parse_operand_recursive rt instruction_end ⟨data, c.position⟩ with
    | (some operand, stream) =>
      some ({ d with operands := d.operands ++ [operand] }, { c with position := stream.position })
    | (none, _) => none

def literalOperand (value : UInt32) : DXBCOperand :=
  { DXBCOperand.zeroed with
    type := .immediate32
    imm_value_count := 1
    imm_values := ⟨value, 0, 0, 0⟩
    immediate_words := [value] }

def append_declaration_literal (d : DXBCInstructionDetail) :
    InstructionParser DXBCInstructionDetail := do
  guard (d.operands.length < DXBC_MAX_OPERANDS)
  let value ← instruction_read_u32 rt data instruction_end
  pure { d with operands := d.operands ++ [literalOperand value] }

def declaration_binding_register (d : DXBCInstructionDetail) (expected_type : DXBCOperandType) :
    Option ℤ :=
  match d.operands with
  | [operand] =>
    if operand.type = expected_type ∧ operand.register_index_dim = 1 ∧
        0 ≤ operand.register_index ∧ operand.rel_op0 = .null ∧
        operand.index_has_immediate.get 0 = true ∧
        operand.index_value_exceeds_int.get 0 = false ∧
        ((operand.index_values.get 0).toNat : ℤ) = operand.register_index then
      some operand.register_index
    else none
  | _ => none

def orReject {α : Type} (x : Option α) : InstructionParser α := fun c => x.map fun a => (a, c)

def updateResources (register_index : ℤ) (f : DXBCResourceDecl → DXBCResourceDecl) :
    InstructionParser Unit := fun c =>
  some ((), { c with resources := update_resource_declaration register_index f c.resources })

def updateUavs (register_index : ℤ) (f : DXBCResourceDecl → DXBCResourceDecl) :
    InstructionParser Unit := fun c =>
  some ((), { c with uavs := update_resource_declaration register_index f c.uavs })

/-! ## Opcode controls and extension tokens -/

def decode_controls (token opcode : UInt32) : Option DXBCInstructionDetail := do
  let is_decl := dxbc_opcode_is_declaration opcode
  let executable : Bool := !is_decl && opcode != 190
  let field := ((token >>> 11) &&& 0x3).toNat
  guard ¬(opcode = 53 ∧ (token >>> 11) &&& 0x001fffff ≠ 3)
  guard ¬(opcode = 61 ∧ field = 3)
  guard ¬(opcode = 111 ∧ 1 < field)
  let conditional : Bool := opcode == 31 || opcode == 3 || opcode == 8 || opcode == 13
  pure { DXBCInstructionDetail.zeroed with
    is_decl
    precise_mask := if executable then ((token >>> 19) &&& 0x0f).toNat else 0
    resource_info_return_type := if opcode = 61 then field else 0
    sample_info_return_type := if opcode = 111 then field else 0
    saturate := executable && token &&& 0x2000 != 0
    condition_test := if conditional then
      (if token &&& 0x40000 ≠ 0 then .nonzero else .zero) else .none }

def signedNibble (data : UInt32) (shift : UInt32) : ℤ :=
  let v : ℤ := ((data >>> shift) &&& 0xf).toNat
  if 8 ≤ v then v - 16 else v

/-- One extension token. Each kind may occur once. -/
def decode_extension (d : DXBCInstructionDetail) (ext : UInt32) : Option DXBCInstructionDetail :=
  let data := ext &&& 0x7fffffff
  let extType := data &&& 0x3f
  if extType = 1 then
    if d.has_texel_offset then none
    else some { d with
      has_texel_offset := true
      texel_offsets := ⟨signedNibble data 9, signedNibble data 13, signedNibble data 17⟩ }
  else if extType = 2 then
    let dim := ((data >>> 6) &&& 0x1f).toNat
    if d.has_resource_dimension ∨ dim < 1 ∨ 12 < dim then none
    else some { d with
      has_resource_dimension := true
      resource_dimension := dim
      structured_stride := ((data >>> 11) &&& 0xfff).toNat }
  else if extType = 3 then
    if d.has_resource_return_types then none
    else (decode_resource_return_types (data >>> 6)).map fun types =>
      { d with has_resource_return_types := true, resource_return_types := types }
  else none

/-- The extension loop. Every turn takes a word of the instruction. -/
def decode_extensions (next_inst_pos : ℕ) :
    (turns : ℕ) → DXBCInstructionDetail → InstructionParser DXBCInstructionDetail
  | 0, _ => failure
  | turns + 1, d => do
    let ext ← instruction_read_u32 rt data next_inst_pos
    let d ← orReject (decode_extension d ext)
    if ext &&& 0x80000000 ≠ 0 then decode_extensions next_inst_pos turns d else pure d

/-! ## Payloads, one declaration family at a time -/

variable (next_inst_pos : ℕ)

def payload_thread_group (token : UInt32) (d : DXBCInstructionDetail) :
    InstructionParser DXBCInstructionDetail := do
  guard (token &&& 0x80fff800 = 0)
  let d ← append_declaration_literal rt data next_inst_pos d
  let d ← append_declaration_literal rt data next_inst_pos d
  append_declaration_literal rt data next_inst_pos d

/-- The two thread-group shared memory declarations: a register, then its sizes. -/
def payload_tgsm (token opcode : UInt32) (d : DXBCInstructionDetail) :
    InstructionParser DXBCInstructionDetail := do
  guard (token &&& 0x80fff800 = 0)
  let d ← append_required_operand rt data next_inst_pos d
  let _ ← orReject (declaration_binding_register d .threadGroupSharedMemory)
  let d ← append_declaration_literal rt data next_inst_pos d
  if opcode = 160 then append_declaration_literal rt data next_inst_pos d else pure d

/-- A declaration whose payload is one operand, behind token bits that must be clear. -/
def payload_operand (reserved : UInt32) (next_inst_pos : ℕ) (token : UInt32)
    (d : DXBCInstructionDetail) : InstructionParser DXBCInstructionDetail := do
  guard (token &&& reserved = 0)
  append_required_operand rt data next_inst_pos d

def payload_constant_buffer := payload_operand rt data 0x80fff000

def payload_sampler (token : UInt32) (d : DXBCInstructionDetail) :
    InstructionParser DXBCInstructionDetail := do
  let d ← payload_operand rt data 0x80ff8000 next_inst_pos token d
  guard ((token >>> 11) &&& 0xf ≤ 2)
  pure d

def payload_input_output := payload_operand rt data 0x80fff800

/-- `DCL_RESOURCE`. Multisampled dimensions carry a sample count. -/
def payload_resource (token : UInt32) (d : DXBCInstructionDetail) :
    InstructionParser DXBCInstructionDetail := do
  let d ← append_required_operand rt data next_inst_pos d
  let reg_idx ← orReject (declaration_binding_register d .resource)
  let ret_type_token ← instruction_read_u32 rt data next_inst_pos
  let dim := ((token >>> 11) &&& 0x1f).toNat
  let sample_count := ((token >>> 16) &&& 0x7f).toNat
  guard (1 ≤ dim ∧ dim ≤ 10 ∧
    (if dim = 4 ∨ dim = 9 then token &&& 0x00800000 = 0 else token &&& 0x00ff0000 = 0))
  let return_types ← orReject (decode_resource_return_types ret_type_token)
  updateResources reg_idx fun res => { res with
    dimension := dim
    return_types
    sample_count := if dim = 4 ∨ dim = 9 then sample_count else 0
    is_structured := false
    declared := true }
  pure d

def payload_uav_typed (token : UInt32) (d : DXBCInstructionDetail) :
    InstructionParser DXBCInstructionDetail := do
  let d ← payload_operand rt data 0x00fc0000 next_inst_pos token d
  let reg_idx ← orReject (declaration_binding_register d .uav)
  let ret_type_token ← instruction_read_u32 rt data next_inst_pos
  let dim := ((token >>> 11) &&& 0x1f).toNat
  guard (dim ∈ [1, 2, 3, 5, 7, 8])
  let return_types ← orReject (decode_resource_return_types ret_type_token)
  updateUavs reg_idx fun res => { res with
    dimension := dim
    return_types
    is_structured := false
    globally_coherent := token &&& 0x00010000 != 0
    rasterizer_ordered := token &&& 0x00020000 != 0
    declared := true }
  pure d

def payload_uav_raw (token : UInt32) (d : DXBCInstructionDetail) :
    InstructionParser DXBCInstructionDetail := do
  let d ← payload_operand rt data 0x00fcf800 next_inst_pos token d
  let reg_idx ← orReject (declaration_binding_register d .uav)
  updateUavs reg_idx fun res => { res with
    dimension := 11
    globally_coherent := token &&& 0x00010000 != 0
    rasterizer_ordered := token &&& 0x00020000 != 0
    declared := true }
  pure d

def payload_resource_raw (token : UInt32) (d : DXBCInstructionDetail) :
    InstructionParser DXBCInstructionDetail := do
  let d ← payload_operand rt data 0x00fff800 next_inst_pos token d
  let reg_idx ← orReject (declaration_binding_register d .resource)
  updateResources reg_idx fun res => { res with dimension := 11, declared := true }
  pure d

/-- The stride word of a structured declaration, with the empty second operand that
prints it. -/
def read_structured_stride (d : DXBCInstructionDetail) :
    InstructionParser DXBCInstructionDetail := do
  let stride_val ← instruction_read_u32 rt data next_inst_pos
  guard (stride_val ≠ 0 ∧ stride_val &&& 3 = 0 ∧ stride_val.toNat ≤ INT_MAX)
  pure { d with
    structured_stride := stride_val.toNat
    operands := d.operands ++ [DXBCOperand.zeroed] }

def payload_resource_structured (token : UInt32) (d : DXBCInstructionDetail) :
    InstructionParser DXBCInstructionDetail := do
  let d ← payload_operand rt data 0x00fff800 next_inst_pos token d
  let reg_idx ← orReject (declaration_binding_register d .resource)
  let d ← read_structured_stride rt data next_inst_pos d
  updateResources reg_idx fun res => { res with
    dimension := 12
    stride := d.structured_stride
    is_structured := true
    declared := true }
  pure d

def payload_uav_structured (token : UInt32) (d : DXBCInstructionDetail) :
    InstructionParser DXBCInstructionDetail := do
  let d ← payload_operand rt data 0x007cf800 next_inst_pos token d
  let reg_idx ← orReject (declaration_binding_register d .uav)
  let d ← read_structured_stride rt data next_inst_pos d
  updateUavs reg_idx fun res => { res with
    dimension := 12
    stride := d.structured_stride
    is_structured := true
    globally_coherent := token &&& 0x00010000 != 0
    rasterizer_ordered := token &&& 0x00020000 != 0
    has_order_preserving_counter := token &&& 0x00800000 != 0
    declared := true }
  pure d

/-- `DCL_INDEX_RANGE`: a register operand and a register count. -/
def payload_index_range (d : DXBCInstructionDetail) :
    InstructionParser DXBCInstructionDetail := do
  let d ← append_required_operand rt data next_inst_pos d
  let register_count ← instruction_read_u32 rt data next_inst_pos
  guard (register_count ≠ 0 ∧ register_count.toNat ≤ INT_MAX)
  pure { d with operands := d.operands ++ [literalOperand register_count] }

/-- The scalar declarations of hull and geometry shaders. -/
def payload_scalar (opcode : UInt32) (d : DXBCInstructionDetail) :
    InstructionParser DXBCInstructionDetail := do
  let scalar ← instruction_read_u32 rt data next_inst_pos
  guard ¬((opcode = 153 ∨ opcode = 154) ∧ scalar = 0)
  guard ¬(opcode = 206 ∧ (scalar = 0 ∨ 32 < scalar))
  pure { d with operands := [literalOperand scalar] }

def payload_temps (d : DXBCInstructionDetail) :
    InstructionParser DXBCInstructionDetail := do
  let num_temps ← instruction_read_u32 rt data next_inst_pos
  guard (num_temps.toNat ≤ INT_MAX)
  pure { d with operands :=
    [{ DXBCOperand.zeroed with register_index := (num_temps.toNat : ℤ) }] }

def payload_indexable_temp (d : DXBCInstructionDetail) :
    InstructionParser DXBCInstructionDetail := do
  let reg_idx ← instruction_read_u32 rt data next_inst_pos
  let reg_count ← instruction_read_u32 rt data next_inst_pos
  let comp_count ← instruction_read_u32 rt data next_inst_pos
  guard (reg_idx.toNat ≤ INT_MAX ∧ reg_count.toNat ≤ INT_MAX ∧ comp_count.toNat ≤ INT_MAX)
  pure { d with operands :=
    [{ DXBCOperand.zeroed with
        type := .indexableTemp
        register_index := (reg_idx.toNat : ℤ)
        rel_offset1 := (reg_count.toNat : ℤ) },
     { DXBCOperand.zeroed with register_index := (comp_count.toNat : ℤ) }] }

/-- A declaration that only prints a name for a field of its token: an empty operand
carries the name if there is one. -/
def payload_named (named : Bool) (d : DXBCInstructionDetail) :
    InstructionParser DXBCInstructionDetail :=
  pure (if named then { d with operands := [DXBCOperand.zeroed] } else d)

def payload_input_primitive (token : UInt32) :=
  let prim := ((token >>> 11) &&& 0x3f).toNat
  payload_named ([1, 2, 3, 6, 7].contains prim || (8 ≤ prim && prim ≤ 39))

def payload_output_topology (token : UInt32) :=
  let topo := ((token >>> 11) &&& 0x3f).toNat
  payload_named ([1, 2, 3, 4, 5, 10, 11, 12, 13].contains topo)

def payload_maxout (d : DXBCInstructionDetail) :
    InstructionParser DXBCInstructionDetail := do
  let _ ← instruction_read_u32 rt data next_inst_pos
  payload_named true d

def payload_global_flags (token : UInt32) (d : DXBCInstructionDetail) :
    InstructionParser DXBCInstructionDetail := do
  let flags := (token >>> 11) &&& 0x1fff
  guard (flags &&& ~~~0x1ff = 0)
  payload_named (flags != 0) d

def decode_interpolation (token : UInt32) (d : DXBCInstructionDetail) :
    Option DXBCInstructionDetail :=
  let interp := ((token >>> 11) &&& 0x1f).toNat
  if 7 < interp then none
  else some { d with has_declaration_interpolation := true, declaration_interpolation := interp }

def payload_system_value (token opcode : UInt32) (d : DXBCInstructionDetail) :
    InstructionParser DXBCInstructionDetail := do
  let has_interpolation : Bool := opcode == 99 || opcode == 100
  let d ← payload_operand rt data (if has_interpolation then 0x80ff8000 else 0x80fff800)
    next_inst_pos token d
  let sv_id ← instruction_read_u32 rt data next_inst_pos
  guard (sv_id &&& 0xffff0000 = 0 ∧ sv_id ≠ 0 ∧ sv_id ≤ 25)
  let d := { d with
    has_declaration_system_value := true
    declaration_system_value := sv_id.toNat
    operands := d.operands ++ [DXBCOperand.zeroed] }
  if has_interpolation then orReject (decode_interpolation token d) else pure d

def payload_input_ps (token : UInt32) (d : DXBCInstructionDetail) :
    InstructionParser DXBCInstructionDetail := do
  let d ← payload_operand rt data 0x80ff8000 next_inst_pos token d
  orReject (decode_interpolation token d)

/-- Everything else is a sequence of operands. An operand has at least one word. -/
def payload_operands (next_inst_pos : ℕ) :
    (turns : ℕ) → DXBCInstructionDetail → InstructionParser DXBCInstructionDetail
  | 0, d => pure d
  | turns + 1, d => do
    let c ← get
    if c.position < next_inst_pos then
      let d ← append_required_operand rt data next_inst_pos d
      payload_operands next_inst_pos turns d
    else pure d

/-- The payload of an instruction that is not a custom-data block. -/
def decode_payload (token opcode : UInt32) (d : DXBCInstructionDetail) :
    InstructionParser DXBCInstructionDetail :=
  match opcode.toNat with
  | 155 => payload_thread_group rt data next_inst_pos token d
  | 159 | 160 => payload_tgsm rt data next_inst_pos token opcode d
  | 190 => do
    guard (token &&& 0x80ff8000 = 0)
    pure d
  | 89 => payload_constant_buffer rt data next_inst_pos token d
  | 90 => payload_sampler rt data next_inst_pos token d
  | 88 => payload_resource rt data next_inst_pos token d
  | 156 => payload_uav_typed rt data next_inst_pos token d
  | 157 => payload_uav_raw rt data next_inst_pos token d
  | 161 => payload_resource_raw rt data next_inst_pos token d
  | 162 => payload_resource_structured rt data next_inst_pos token d
  | 158 => payload_uav_structured rt data next_inst_pos token d
  | 91 => payload_index_range rt data next_inst_pos d
  | 113 | 114 | 115 | 116 | 147 | 148 | 149 | 150 | 151 => pure d
  | 152 | 153 | 154 | 206 => payload_scalar rt data next_inst_pos opcode d
  | 104 => payload_temps rt data next_inst_pos d
  | 105 => payload_indexable_temp rt data next_inst_pos d
  | 93 => payload_input_primitive token d
  | 92 => payload_output_topology token d
  | 94 => payload_maxout rt data next_inst_pos d
  | 106 => payload_global_flags token d
  | 95 | 101 => payload_input_output rt data next_inst_pos token d
  | 96 | 97 | 99 | 100 | 102 | 103 => payload_system_value rt data next_inst_pos token opcode d
  | 98 => payload_input_ps rt data next_inst_pos token d
  | _ => payload_operands rt data next_inst_pos (next_inst_pos / 4) d

/-! ## The container -/

structure DXBCChunkInfo where
  name : Bytes
  size : ℕ
  offset : ℕ

/-- `DXBCContainer`. The program type is `none` for `DXBC_PROGRAM_TYPE_INVALID`. -/
structure DXBCContainer where
  program_type : Option ℕ
  major_version : ℕ
  minor_version : ℕ
  has_executable_program : Bool
  resources : List DXBCResourceDecl
  uavs : List DXBCResourceDecl
  input_signature : List DXBCSignatureElement
  output_signature : List DXBCSignatureElement
  patch_constant_signature : List DXBCSignatureElement
  chunks : List DXBCChunkInfo
  instructions : List DXBCInstruction
  icb_values : List UInt32
  parsed_signature_authority : Bool

def DXBCContainer.zeroed : DXBCContainer where
  program_type := none
  major_version := 0
  minor_version := 0
  has_executable_program := false
  resources := []
  uavs := []
  input_signature := []
  output_signature := []
  patch_constant_signature := []
  chunks := []
  instructions := []
  icb_values := []
  parsed_signature_authority := false

/-! ## The instruction loop -/

def read_instruction_words (next_inst_pos : ℕ) : (n : ℕ) → InstructionParser (List UInt32)
  | 0 => pure []
  | n + 1 => do
    let w ← instruction_read_u32 rt data next_inst_pos
    let ws ← read_instruction_words next_inst_pos n
    pure (w :: ws)

/-- The length of the instruction whose token has just been read: a custom-data block
stores it in its second word. -/
def read_instruction_length (end_pos : ℕ) (token opcode : UInt32) : InstructionParser UInt32 :=
  if opcode = 53 then instruction_read_u32 rt data end_pos
  else pure (dxbc_tokenized_instruction_length token)

/-- The values of an immediate constant buffer. There is at most one in a program, and
it is made of whole rows. -/
def parse_immediate_constants (container : DXBCContainer) :
    InstructionParser (List UInt32) := do
  let c ← get
  let data_bytes := next_inst_pos - c.position
  let dword_count := data_bytes / 4
  guard (data_bytes ≠ 0 ∧ data_bytes % 16 = 0 ∧ dword_count ≤ INT_MAX)
  guard (container.icb_values = [])
  guard (dword_count / 4 ≤ INT_MAX - container.instructions.length)
  read_instruction_words rt data next_inst_pos dword_count

/-- The rows one instruction adds to the container, and the constants it declares. An
immediate constant buffer adds one row for every four words, all but the first marked
as continuations. -/
def parse_instruction_rows (container : DXBCContainer) (origin : DXBCInstructionOrigin)
    (d : DXBCInstructionDetail) : InstructionParser (List DXBCInstruction × List UInt32) :=
  if origin.opcode = 53 then do
    let values ← parse_immediate_constants rt data next_inst_pos container
    let inst : DXBCInstruction := ⟨origin, { d with is_decl := true }⟩
    let continuation : DXBCInstruction :=
      ⟨{ origin with is_customdata_continuation := true },
        { DXBCInstructionDetail.zeroed with is_decl := true }⟩
    pure (inst :: List.replicate (values.length / 4 - 1) continuation, values)
  else do
    let d ← decode_payload rt data next_inst_pos origin.token origin.opcode d
    pure ([⟨origin, d⟩], container.icb_values)

/-- The extension tokens of an instruction, if its first token announces any. -/
def decode_opcode_extensions (token : UInt32) (d : DXBCInstructionDetail) :
    InstructionParser DXBCInstructionDetail :=
  if token &&& 0x80000000 ≠ 0 then decode_extensions rt data next_inst_pos (next_inst_pos / 4) d
  else pure d

/-- What a turn of the instruction loop passes to the next one. -/
structure ShaderState where
  position : ℕ
  raw_instruction_index : ℕ
  container : DXBCContainer

def parse_shader_instruction (end_pos : ℕ) (st : ShaderState) : Option ShaderState := do
  let start_pos := st.position
  let container := st.container
  let (token, c) ← (instruction_read_u32 rt data end_pos).run
    ⟨start_pos, container.resources, container.uavs⟩
  let opcode := token &&& 0x7ff
  let (inst_len, c) ← (read_instruction_length rt data end_pos token opcode).run c
  guard (inst_len ≠ 0 ∧ inst_len.toNat ≤ (end_pos - start_pos) / 4)
  let next_inst_pos := start_pos + (inst_len * 4).toNat
  guard (c.position ≤ next_inst_pos ∧ container.instructions.length ≠ INT_MAX)
  let origin : DXBCInstructionOrigin :=
    { opcode
      token
      file_offset := start_pos % 2 ^ 32
      byte_length := (next_inst_pos - start_pos) % 2 ^ 32
      raw_instruction_index := st.raw_instruction_index
      has_raw_instruction_index := true
      is_customdata_continuation := false }
  let d ← decode_controls token opcode
  let (d, c) ← (decode_opcode_extensions rt data next_inst_pos token d).run c
  let ((rows, icb_values), c) ←
    (parse_instruction_rows rt data next_inst_pos container origin d).run c
  guard (c.position = next_inst_pos)
  pure
    { position := next_inst_pos
      raw_instruction_index := st.raw_instruction_index + 1
      container := { container with
        resources := c.resources
        uavs := c.uavs
        instructions := container.instructions ++ rows
        icb_values } }

/-- The instruction loop. Every turn takes a word. -/
def parse_shader_instructions (end_pos : ℕ) : (turns : ℕ) → ShaderState → Option ShaderState
  | 0, st => some st
  | turns + 1, st => do
    if st.position < end_pos then
      let st ← parse_shader_instruction rt data end_pos st
      parse_shader_instructions end_pos turns st
    else pure st

/-- `parse_shader_logic`: the program between `position` and `next_pos`. -/
def parse_shader_logic (position next_pos : ℕ) (container : DXBCContainer) :
    Option DXBCContainer := do
  guard (next_pos ≤ data.length)
  let (version_token, c) ← (instruction_read_u32 rt data next_pos).run
    ⟨position, container.resources, container.uavs⟩
  let (len, c) ← (instruction_read_u32 rt data next_pos).run c
  guard (2 ≤ len)
  let type := (version_token >>> 16).toNat
  let major := ((version_token >>> 4) &&& 0xf).toNat
  let minor := (version_token &&& 0xf).toNat
  guard ¬(version_token &&& 0x0000ff00 ≠ 0 ∨ 5 < type ∨ (major ≠ 4 ∧ major ≠ 5) ∨
    (major = 4 ∧ 1 < minor) ∨ (major = 5 ∧ minor ≠ 0) ∨
    ((type = 3 ∨ type = 4) ∧ major ≠ 5))
  let instruction_bytes := (len.toNat - 2) * 4
  guard (c.position ≤ next_pos ∧ instruction_bytes = next_pos - c.position)
  let end_pos := c.position + instruction_bytes
  let st ← parse_shader_instructions rt data end_pos (len.toNat - 2) ⟨c.position, 0, container⟩
  guard (st.position = end_pos)
  pure { st.container with
    program_type := some type
    major_version := major
    minor_version := minor
    has_executable_program := true }

end Readers

end DXBCSandbox
