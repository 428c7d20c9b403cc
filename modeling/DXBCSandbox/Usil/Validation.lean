/-
Operand roles of USIL instructions (`src/translation/usil_validation.c`).

Every opcode has an arity and a role for each operand, and for a source operand the lanes that
the instruction consumes. Lanes come from the destination mask, from the dimension of a texture,
or, for the memory operations of compute shaders, from the declaration of what is accessed.
Whatever has no role is refused.

A declaration array is a list, so the tests of its count against its capacity are gone. Texts in
fixed buffers are strings, and always terminated.
-/
import DXBCSandbox.Dxbc.StageContract
import DXBCSandbox.Usil.Syntax

namespace DXBCSandbox

/-! ## Declarations -/

structure USILConstantBuffer where
  reg_idx : ℤ
  size : ℤ

structure USILTexture where
  reg_idx : ℤ
  dimension : String
  return_types : Lanes ℕ
  stride : ℤ

structure USILUav where
  reg_idx : ℤ
  dimension : String
  return_types : Lanes ℕ
  stride : ℤ
  globally_coherent : Bool
  rasterizer_ordered : Bool
  has_order_preserving_counter : Bool

structure USILSignatureDeclaration where
  operand_type : DXBCOperandType
  mask : ℕ

/-- A program with the declarations that give its operands their roles. -/
structure USILDeclaredProgram extends USILProgram where
  has_stage_contract : Bool
  program_type : DXBCProgramType
  shader_model_major : ℕ
  shader_model_minor : ℕ
  cbuffers : List USILConstantBuffer
  textures : List USILTexture
  uavs : List USILUav
  signature_declarations : List USILSignatureDeclaration
  compute_valid : Bool
  shared_memory : List DXBCThreadGroupSharedMemoryContract

namespace Usil

variable (instruction : USILInstruction)

/-- `instruction->operands[index]`. The callers keep the index in range. -/
def operand (index : ℕ) : DXBCOperand :=
  instruction.operands.getD index .zeroed

/-! ## Lanes -/

def usil_operand_destination_lane_mask (destination : DXBCOperand) : ℕ :=
  if destination.type = .null then 0
  else
    let mask := destination.destination_mask / 16
    let mask := if mask = 0 ∧ (destination.type = .outputDepth ∨
        destination.type = .outputDepthGreaterEqual ∨ destination.type = .outputDepthLessEqual)
      then 1 else mask
    mask % 16

variable (op : DXBCOperand)

def usil_operand_source_component (lane : ℕ) : Option ℕ :=
  if 4 ≤ lane ∨ 2 < op.swizzle_mode then none
  else
    let component := if op.swizzle_mode = 2 then op.swizzle.get 0
      else if op.swizzle_mode = 1 then op.swizzle.get lane else lane
    if component < 4 then some component else none

/-- The lanes of a texture coordinate, and whether a mip level follows it. -/
def dimension_lanes (dimension : String) : Option (ℕ × Bool) :=
  if dimension = "buffer" then some (1, false)
  else if dimension = "1d" then some (1, true)
  else if dimension = "1darray" then some (2, true)
  else if dimension = "2d" ∨ dimension = "2dms" then some (2, true)
  else if dimension = "2darray" ∨ dimension = "2dmsarray" ∨ dimension = "3d" ∨
      dimension = "cube" then some (3, true)
  else if dimension = "cubearray" then some (4, true)
  else none

variable (program : USILDeclaredProgram)

def texture_dimension_lanes (instruction : USILInstruction) (resource_operand : ℕ)
    (include_lod : Bool) : Option ℕ :=
  if instruction.operands.length ≤ resource_operand then none
  else
    let resource := operand instruction resource_operand
    if resource.type ≠ .resource then none
    else
      let dimension := if instruction.resource_dimension = "" then
          match program.textures.find? fun texture => texture.reg_idx = resource.register_index with
          | some texture => texture.dimension
          | none => ""
        else instruction.resource_dimension
      match dimension_lanes dimension with
      | none => none
      | some (lanes, has_mip_coordinate) =>
        let lanes := if include_lod ∧ has_mip_coordinate ∧ lanes < 4 then lanes + 1 else lanes
        some (2 ^ lanes - 1)

/-! ## Arities -/

variable (opcode : USILOpcode)

def regular_componentwise_operand_count : Option ℕ :=
  match opcode with
  | .MOV | .RCP | .RSQ | .SQRT | .NOT | .FTOI | .FTOU | .ITOF | .UTOF | .LOG | .EXP | .SIN | .COS
  | .FRC | .ROUND_NE | .ROUND_NI | .ROUND_PI | .ROUND_Z | .DERIV_RTX | .DERIV_RTY
  | .DERIV_RTX_COARSE | .DERIV_RTY_COARSE | .DERIV_RTX_FINE | .DERIV_RTY_FINE | .INEG => some 2
  | .ADD | .SUB | .MUL | .DIV | .MIN | .MAX | .LT | .GE | .EQ | .NE | .ILT | .IGE | .IEQ | .INE
  | .ULT | .UGE | .AND | .OR | .XOR | .ISHL | .ISHR | .USHR | .IADD | .IMAX | .IMIN | .UMAX
  | .UMIN => some 3
  | .MAD | .MOVC | .IMAD | .UBFE => some 4
  | _ => none

def geometry_shape_valid : Option ℕ :=
  let expected : USILGeometryEffectKind :=
    if instruction.opcode = .GEOMETRY_APPEND then .append else .restartStrip
  if instruction.geometry_effect ≠ expected ∨ 3 < instruction.geometry_stream_id then none
  else if ¬ instruction.geometry_stream_explicit then
    if instruction.geometry_stream_id ≠ 0 then none else some 0
  else if instruction.operands.length ≠ 1 then some 1
  else
    let stream := operand instruction 0
    if stream.type = .stream ∧ stream.register_index_dim = 1 ∧ stream.index_has_immediate.get 0 ∧
        stream.rel_op0 = .null ∧ stream.rel_op1 = .null ∧ stream.rel_op2 = .null ∧
        ¬ stream.index_value_exceeds_int.get 0 ∧ 0 ≤ stream.register_index ∧
        stream.register_index = (stream.index_values.get 0).toNat ∧
        (stream.index_values.get 0).toNat = instruction.geometry_stream_id then some 1
    else none

inductive USILMemoryKind where
  | raw | structured | typed | counter
  deriving DecidableEq

inductive USILMemorySpace where
  | shaderResource | unorderedAccess | threadGroup
  deriving DecidableEq

inductive USILCounterMode where
  | none | appendInvocation | orderPreserving
  deriving DecidableEq

/-- The operands of a memory operation; a place it does not have is `none`. -/
structure MemoryOpcodeShape where
  operand_count : ℕ
  destination : Option ℕ
  binding : ℕ
  address : Option ℕ
  byte_offset : Option ℕ
  value : Option ℕ
  compare : Option ℕ
  kind : USILMemoryKind
  flexible_kind : Bool
  reads : Bool
  writes : Bool
  atomic : Bool

def memory_opcode_shape : Option MemoryOpcodeShape :=
  match opcode with
  | .LD_UAV_TYPED => some ⟨3, some 0, 2, some 1, none, none, none, .typed, false, true, false, false⟩
  | .STORE_UAV_TYPED =>
    some ⟨3, none, 0, some 1, none, some 2, none, .typed, false, false, true, false⟩
  | .LD_RAW => some ⟨3, some 0, 2, some 1, none, none, none, .raw, false, true, false, false⟩
  | .STORE_RAW => some ⟨3, none, 0, some 1, none, some 2, none, .raw, false, false, true, false⟩
  | .LD_STRUCTURED =>
    some ⟨4, some 0, 3, some 1, some 2, none, none, .structured, false, true, false, false⟩
  | .STORE_STRUCTURED =>
    some ⟨4, none, 0, some 1, some 2, some 3, none, .structured, false, false, true, false⟩
  | .ATOMIC_XOR | .ATOMIC_IADD =>
    some ⟨3, none, 0, some 1, none, some 2, none, .raw, true, true, true, true⟩
  | .IMM_ATOMIC_IADD => some ⟨4, some 0, 1, some 2, none, some 3, none, .raw, true, true, true, true⟩
  | .IMM_ATOMIC_CMP_EXCH =>
    some ⟨5, some 0, 1, some 2, none, some 4, some 3, .raw, true, true, true, true⟩
  | .IMM_ATOMIC_ALLOC | .IMM_ATOMIC_CONSUME =>
    some ⟨2, some 0, 1, none, none, none, none, .counter, false, true, true, true⟩
  | _ => none

def usil_opcode_has_memory_access : Bool := (memory_opcode_shape opcode).isSome

def expected_operand_count : Option ℕ :=
  match memory_opcode_shape instruction.opcode with
  | some memory => some memory.operand_count
  | none =>
    match regular_componentwise_operand_count instruction.opcode with
    | some componentwise => some componentwise
    | none =>
      match instruction.opcode with
      | .NOP | .ELSE | .ENDIF | .LOOP | .ENDLOOP | .DEFAULT | .ENDSWITCH | .BREAK | .CONTINUE
      | .RET | .SYNC => some 0
      | .IF | .SWITCH | .CASE | .BREAKC | .CONTINUEC | .DISCARD => some 1
      | .SAMPLEINFO => some 2
      | .DP2 | .DP3 | .DP4 | .LD | .RESINFO | .SINCOS => some 3
      | .IMUL | .UDIV | .LD_STRUCTURED | .LD_MS | .IMM_ATOMIC_IADD | .LDMS | .SAMPLE => some 4
      | .SAMPLE_C | .SAMPLE_C_LZ | .SAMPLE_L | .SAMPLE_B => some 5
      | .SAMPLE_D => some 6
      | .GEOMETRY_APPEND | .GEOMETRY_RESTART_STRIP => geometry_shape_valid instruction
      | _ => none

/-! ## Memory operations -/

def memory_operand_base_valid : Bool :=
  ¬ op.has_abs ∧ ¬ op.has_neg ∧ op.min_precision = 0 ∧ op.extended_tokens = [] ∧
    op.rel_op0 = .null ∧ op.rel_op1 = .null ∧ op.rel_op2 = .null

def memory_static_indices_valid (dimensions : ℕ) : Bool :=
  memory_operand_base_valid op ∧ op.register_index_dim = dimensions ∧
    (∀ index ∈ List.range dimensions, op.index_has_immediate.get index ∧
      ¬ op.index_value_exceeds_int.get index ∧ op.index_representations.get index = 0 ∧
        (op.index_values.get index).toNat ≤ INT_MAX) ∧
    (dimensions = 0 ∨ (0 ≤ op.register_index ∧
      ((op.index_values.get 0).toNat : ℤ) = op.register_index))

def memory_destination_valid (op : DXBCOperand) (scalar : Bool) : Bool × ℕ :=
  let lanes := usil_operand_destination_lane_mask op
  if op.type = .null then (scalar ∧ memory_static_indices_valid op 0 ∧ lanes = 0, lanes)
  else
    (op.type = .temp ∧ memory_static_indices_valid op 1 ∧ op.register_index < program.temp_count ∧
      op.swizzle_mode = 0 ∧ op.destination_mask % 16 = 0 ∧ lanes ≠ 0 ∧
        (scalar = false ∨ lanes &&& (lanes - 1) = 0), lanes)

/-- The components that the lanes of a mask select, or nothing where one is invalid. -/
def source_components (op : DXBCOperand) (lanes : ℕ) : List ℕ → Option ℕ
  | [] => some 0
  | lane :: rest =>
    if ¬ lanes.testBit lane then source_components op lanes rest
    else do
      let component ← usil_operand_source_component op lane
      let components ← source_components op lanes rest
      some (2 ^ component ||| components)

def memory_source_valid (op : DXBCOperand) (lanes : ℕ) : Bool :=
  if ¬ memory_operand_base_valid op ∨ lanes = 0 ∨ 2 < op.swizzle_mode then false
  else
    match source_components op lanes [0, 1, 2, 3] with
    | none => false
    | some components =>
      if op.type = .immediate32 then
        memory_static_indices_valid op 0 ∧ op.swizzle_mode = 0 ∧ op.destination_mask = 0 ∧
          (op.imm_value_count = 1 ∨ op.imm_value_count = 4) ∧
            op.immediate_words.length = op.imm_value_count ∧
              ∀ index ∈ List.range op.imm_value_count,
                op.immediate_words.getD index 0 = op.imm_values.get index
      else if op.destination_mask ≠ 0 ∨ op.swizzle_mode = 0 then false
      else if op.type = .temp then
        memory_static_indices_valid op 1 ∧ op.register_index < program.temp_count
      else if op.type = .constantBuffer then
        if ¬ memory_static_indices_valid op 2 ∨ 15 < program.cbuffers.length then false
        else
          match program.cbuffers.find? fun cbuffer => cbuffer.reg_idx = op.register_index with
          | none => false
          | some cbuffer =>
            0 < cbuffer.size ∧ ((op.index_values.get 1).toNat : ℤ) < cbuffer.size
      else if op.type = .inputThreadId ∨ op.type = .inputThreadGroupId ∨
          op.type = .inputThreadIdInGroup ∨ op.type = .inputThreadIdInGroupFlattened then
        if ¬ memory_static_indices_valid op 0 ∨ 4 < program.signature_declarations.length then
          false
        else
          match program.signature_declarations.find? fun declaration =>
              declaration.operand_type = op.type with
          | none => false
          | some declaration =>
            let declared := if op.type = .inputThreadIdInGroupFlattened then 1
              else declaration.mask
            components &&& declared = components
      else false

structure USILMemoryAccess where
  kind : USILMemoryKind
  space : USILMemorySpace
  register_id : ℕ
  byte_stride : ℕ
  shared_memory_byte_count : ℕ
  dimension : String
  return_types : Lanes ℕ
  globally_coherent : Bool
  rasterizer_ordered : Bool
  has_order_preserving_counter : Bool
  counter_mode : USILCounterMode
  reads : Bool
  writes : Bool
  atomic : Bool
  destination_operand : Option ℕ
  binding_operand : ℕ
  address_operand : Option ℕ
  byte_offset_operand : Option ℕ
  value_operand : Option ℕ
  compare_operand : Option ℕ
  destination_lanes : ℕ
  address_lanes : ℕ
  value_lanes : ℕ
  memory_component_lanes : ℕ

/-- The only element that passes, where there is exactly one. -/
def the_only {α : Type} (p : α → Bool) (l : List α) : Option α :=
  match l.filter p with
  | [a] => some a
  | _ => none

def shared_memory_valid (memory : DXBCThreadGroupSharedMemoryContract) : Bool :=
  memory.byte_count ≠ 0 ∧ memory.byte_count ≤ 32768 ∧ memory.byte_count % 4 = 0 ∧
    (memory.structured = true → memory.element_count ≠ 0 ∧ memory.byte_stride ≠ 0 ∧
      memory.byte_stride * memory.element_count = memory.byte_count) ∧
    (memory.structured = false → memory.byte_stride = 0 ∧ memory.element_count = 0)

def declared_memory (binding : DXBCOperand) (access : USILMemoryAccess) : Option USILMemoryAccess :=
  let access := { access with register_id := binding.register_index.toNat }
  if binding.type = .resource then
    if 128 ≤ access.register_id ∨ 128 < program.textures.length then none
    else do
      let texture ← the_only (fun texture => texture.reg_idx = binding.register_index)
        program.textures
      if texture.stride < 0 then none
      else some { access with
        space := .shaderResource
        dimension := texture.dimension
        return_types := texture.return_types
        byte_stride := texture.stride.toNat }
  else if binding.type = .uav then
    if 8 ≤ access.register_id ∨ 8 < program.uavs.length then none
    else do
      let uav ← the_only (fun uav => uav.reg_idx = binding.register_index) program.uavs
      if uav.stride < 0 then none
      else some { access with
        space := .unorderedAccess
        dimension := uav.dimension
        return_types := uav.return_types
        globally_coherent := uav.globally_coherent
        rasterizer_ordered := uav.rasterizer_ordered
        has_order_preserving_counter := uav.has_order_preserving_counter
        byte_stride := uav.stride.toNat }
  else if binding.type = .threadGroupSharedMemory then
    if 8192 ≤ access.register_id ∨ 8192 < program.shared_memory.length then none
    else do
      let memory ← the_only (fun memory => memory.register_id = access.register_id)
        program.shared_memory
      if ¬ shared_memory_valid memory then none
      else some { access with
        space := .threadGroup
        dimension := if memory.structured then "structured" else "raw"
        byte_stride := memory.byte_stride
        shared_memory_byte_count := memory.byte_count }
  else none

def memory_declaration (binding : DXBCOperand) (access : USILMemoryAccess) :
    Option USILMemoryAccess :=
  if ¬ memory_static_indices_valid binding 1 then none
  else do
    let access ← declared_memory program binding access
    if access.dimension = "raw" then
      if access.byte_stride = 0 then some { access with kind := .raw } else none
    else if access.dimension = "structured" then
      if access.byte_stride ≠ 0 ∧ access.byte_stride % 4 = 0 ∧
          (access.space = .threadGroup ∨ access.byte_stride ≤ 2048) then
        some { access with kind := .structured }
      else none
    else if access.space = .unorderedAccess ∧ access.byte_stride = 0 ∧
        ¬ access.has_order_preserving_counter then
      some { access with kind := .typed }
    else none

def typed_memory_address_lanes (dimension : String) : ℕ :=
  if dimension = "buffer" ∨ dimension = "1d" then 1
  else if dimension = "2d" ∨ dimension = "1darray" then 3
  else if dimension = "3d" ∨ dimension = "2darray" then 7
  else 0

def destination_lanes_of (instruction : USILInstruction) (shape : MemoryOpcodeShape) : Option ℕ :=
  match shape.destination with
  | none => some 0
  | some index =>
    match memory_destination_valid program (operand instruction index) shape.atomic with
    | (true, lanes) => some lanes
    | (false, _) => none

variable (shape : MemoryOpcodeShape)

/-- The lanes of the value, and the memory components the operation touches. -/
def value_and_component_lanes (binding : DXBCOperand) (destination_lanes : ℕ) : Option (ℕ × ℕ) :=
  if shape.atomic then
    if binding.swizzle_mode ≠ 0 ∨ binding.destination_mask ≠ 0 then none
    else some (if shape.value.isSome then 1 else 0, 1)
  else if shape.writes then
    let value_lanes := usil_operand_destination_lane_mask binding
    if binding.swizzle_mode ≠ 0 ∨ binding.destination_mask % 16 ≠ 0 ∨ value_lanes = 0 then none
    else some (value_lanes, value_lanes)
  else if binding.swizzle_mode = 0 ∨ binding.destination_mask ≠ 0 then none
  else (source_components binding destination_lanes [0, 1, 2, 3]).map fun lanes => (0, lanes)

def address_lanes_of (access : USILMemoryAccess) : Option ℕ :=
  if access.kind = .typed then
    let lanes := typed_memory_address_lanes access.dimension
    if lanes = 0 then none
    else if [0, 1, 2, 3].all fun component =>
        let return_type := access.return_types.get component
        return_type ≠ 0 ∧ return_type ≤ 9 ∧
          (¬ shape.atomic ∨ return_type = 3 ∨ return_type = 4) then
      some lanes
    else none
  else if shape.address.isSome then
    some (if shape.atomic ∧ access.kind = .structured then 3 else 1)
  else some 0

def counter_access (binding : DXBCOperand) (access : USILMemoryAccess) : Option USILMemoryAccess :=
  if shape.kind ≠ .counter then some access
  else if access.kind ≠ .structured ∨ access.space ≠ .unorderedAccess ∨
      binding.swizzle_mode ≠ 0 ∨ binding.destination_mask ≠ 0 then none
  else some { access with
    counter_mode := if access.has_order_preserving_counter then .orderPreserving
      else .appendInvocation
    kind := .counter }

/-- A place the shape has must hold a valid source. -/
def place_valid (instruction : USILInstruction) (place : Option ℕ) (lanes : ℕ) : Bool :=
  match place with
  | none => true
  | some index => memory_source_valid program (operand instruction index) lanes

def resource_annotations_valid (access : USILMemoryAccess) : Bool :=
  (instruction.resource_dimension = "" ∨ instruction.resource_dimension = access.dimension) ∧
    instruction.resource_stride =
      (if instruction.has_resource_dimension then access.byte_stride else 0) ∧
    (¬ instruction.has_resource_return_types ∨ [0, 1, 2, 3].all fun component =>
      instruction.resource_return_types.get component =
        if access.kind = .typed then access.return_types.get component else 6)

def usil_instruction_memory_access (instruction : USILInstruction) : Option USILMemoryAccess := do
  let shape ← memory_opcode_shape instruction.opcode
  if ¬ program.has_stage_contract ∨ ¬ program.compute_valid ∨ program.program_type ≠ .compute ∨
      program.shader_model_major ≠ 5 ∨ program.temp_count < 0 ∨ 4096 < program.temp_count ∨
      program.shader_model_minor ≠ 0 ∨ instruction.operands.length ≠ shape.operand_count ∨
      instruction.saturate ∨ instruction.precise_mask ≠ 0 ∨ instruction.sync_flags ≠ 0 ∨
      instruction.condition_test ≠ .none ∨ instruction.has_texel_offset ∨
      instruction.geometry_effect ≠ .none then none
  else
    let binding := operand instruction shape.binding
    let access ← memory_declaration program binding
      { kind := .raw, space := .shaderResource, register_id := 0, byte_stride := 0
        shared_memory_byte_count := 0, dimension := "", return_types := ⟨0, 0, 0, 0⟩
        globally_coherent := false, rasterizer_ordered := false
        has_order_preserving_counter := false, counter_mode := .none
        reads := shape.reads, writes := shape.writes, atomic := shape.atomic
        destination_operand := shape.destination, binding_operand := shape.binding
        address_operand := shape.address, byte_offset_operand := shape.byte_offset
        value_operand := shape.value, compare_operand := shape.compare
        destination_lanes := 0, address_lanes := 0, value_lanes := 0
        memory_component_lanes := 0 }
    if (shape.writes ∧ access.space = .shaderResource) ∨
        (¬ shape.flexible_kind ∧ shape.kind ≠ .counter ∧ shape.kind ≠ access.kind) then none
    else
      let access ← counter_access shape binding access
      let address_lanes ← address_lanes_of shape access
      let destination_lanes ← destination_lanes_of program instruction shape
      let (value_lanes, memory_component_lanes) ←
        value_and_component_lanes shape binding destination_lanes
      if place_valid program instruction shape.address address_lanes ∧
          place_valid program instruction shape.byte_offset 1 ∧
          place_valid program instruction shape.value value_lanes ∧
          place_valid program instruction shape.compare 1 ∧
          resource_annotations_valid instruction access then
        some { access with
          address_lanes := address_lanes
          destination_lanes := destination_lanes
          value_lanes := value_lanes
          memory_component_lanes := memory_component_lanes }
      else none

/-! ## Roles -/

inductive USILOperandUse where
  | destination | source | resourceBinding | samplerBinding | streamSelector
  deriving DecidableEq

structure USILOperandUseInfo where
  use : USILOperandUse
  source_lane_mask : ℕ
  deriving DecidableEq

/-- A source that consumes the lanes, where there are any. -/
def source_use (mask : ℕ) : Option USILOperandUseInfo :=
  if mask = 0 then none else some ⟨.source, mask⟩

/-- The role of an operand of a memory operation of a compute shader. -/
def memory_operand_use (access : USILMemoryAccess) (operand_index : ℕ) :
    Option USILOperandUseInfo :=
  if access.destination_operand = some operand_index then some ⟨.destination, 0⟩
  else if access.binding_operand = operand_index then some ⟨.resourceBinding, 0⟩
  else if access.address_operand = some operand_index then some ⟨.source, access.address_lanes⟩
  else if access.value_operand = some operand_index then some ⟨.source, access.value_lanes⟩
  else if access.byte_offset_operand = some operand_index ∨
      access.compare_operand = some operand_index then some ⟨.source, 1⟩
  else none

/-- The roles by opcode, where no rule for a group of opcodes applies. -/
def opcode_operand_use (instruction : USILInstruction) (operand_index : ℕ) :
    Option USILOperandUseInfo :=
  match instruction.opcode with
  | .DP2 => some (if operand_index = 0 then ⟨.destination, 0⟩ else ⟨.source, 3⟩)
  | .DP3 => some (if operand_index = 0 then ⟨.destination, 0⟩ else ⟨.source, 7⟩)
  | .DP4 => some (if operand_index = 0 then ⟨.destination, 0⟩ else ⟨.source, 15⟩)
  | .IF | .SWITCH | .CASE | .BREAKC | .CONTINUEC | .DISCARD => some ⟨.source, 1⟩
  | .IMUL | .UDIV | .SINCOS =>
    if operand_index < 2 then some ⟨.destination, 0⟩
    else source_use (usil_operand_destination_lane_mask (operand instruction 0) |||
      usil_operand_destination_lane_mask (operand instruction 1))
  | .SAMPLE | .SAMPLE_C | .SAMPLE_C_LZ | .SAMPLE_L | .SAMPLE_D | .SAMPLE_B =>
    if operand_index = 0 then some ⟨.destination, 0⟩
    else if operand_index = 1 ∨ (instruction.opcode = .SAMPLE_D ∧
        (operand_index = 4 ∨ operand_index = 5)) then
      (texture_dimension_lanes program instruction 2 false).map fun mask =>
        -- A gradient of a cube array has no array lane.
        ⟨.source, if 4 ≤ operand_index ∧ mask = 15 then 7 else mask⟩
    else if operand_index = 2 then some ⟨.resourceBinding, 0⟩
    else if operand_index = 3 then some ⟨.samplerBinding, 0⟩
    else some ⟨.source, 1⟩
  | .LD =>
    if operand_index = 0 then some ⟨.destination, 0⟩
    else if operand_index = 2 then some ⟨.resourceBinding, 0⟩
    else (texture_dimension_lanes program instruction 2 true).map fun mask => ⟨.source, mask⟩
  | .LD_MS | .LDMS =>
    if operand_index = 0 then some ⟨.destination, 0⟩
    else if operand_index = 2 then some ⟨.resourceBinding, 0⟩
    else if operand_index = 3 then some ⟨.source, 1⟩
    else (texture_dimension_lanes program instruction 2 false).map fun mask => ⟨.source, mask⟩
  | .LD_STRUCTURED =>
    some (if operand_index = 0 then ⟨.destination, 0⟩
      else if operand_index = 3 then ⟨.resourceBinding, 0⟩ else ⟨.source, 1⟩)
  | .RESINFO =>
    some (if operand_index = 0 then ⟨.destination, 0⟩
      else if operand_index = 1 then ⟨.source, 1⟩ else ⟨.resourceBinding, 0⟩)
  | .SAMPLEINFO =>
    some (if operand_index = 0 then ⟨.destination, 0⟩ else ⟨.resourceBinding, 0⟩)
  | .IMM_ATOMIC_IADD =>
    some (if operand_index = 0 then ⟨.destination, 0⟩
      else if operand_index = 1 then ⟨.resourceBinding, 0⟩ else ⟨.source, 1⟩)
  | .GEOMETRY_APPEND | .GEOMETRY_RESTART_STRIP => some ⟨.streamSelector, 0⟩
  | _ => none

def operand_use_unchecked (instruction : USILInstruction) (operand_index : ℕ) :
    Option USILOperandUseInfo :=
  if usil_opcode_has_memory_access instruction.opcode ∧ program.program_type = .compute then do
    let access ← usil_instruction_memory_access program instruction
    memory_operand_use access operand_index
  else
    match regular_componentwise_operand_count instruction.opcode with
    | some _ =>
      if operand_index = 0 then some ⟨.destination, 0⟩
      else source_use (usil_operand_destination_lane_mask (operand instruction 0))
    | none => opcode_operand_use program instruction operand_index

/-- The fields of a barrier, and that nothing else carries its flags. -/
def sync_valid (instruction : USILInstruction) : Bool :=
  if instruction.opcode = .SYNC then
    program.has_stage_contract ∧ program.program_type = .compute ∧ program.compute_valid ∧
      ¬ instruction.saturate ∧ instruction.precise_mask = 0 ∧ instruction.condition_test = .none ∧
      instruction.geometry_effect = .none ∧ ¬ instruction.has_resource_dimension ∧
      instruction.resource_dimension = "" ∧ instruction.resource_stride = 0 ∧
      ¬ instruction.has_texel_offset ∧ ¬ instruction.has_resource_return_types ∧
      instruction.sync_flags < 16 ∧ instruction.sync_flags &&& 14 ≠ 0 ∧
      instruction.sync_flags &&& 12 ≠ 12
  else instruction.sync_flags = 0

/-- Modifiers that an integer instruction with two results cannot have. -/
def modifiers_valid : Bool :=
  match instruction.opcode with
  | .NOP => ¬ instruction.saturate
  | .IMUL => ¬ instruction.saturate ∧ ¬ (operand instruction 2).has_abs ∧
      ¬ (operand instruction 3).has_abs
  | .UDIV => ¬ instruction.saturate ∧ ¬ (operand instruction 2).has_abs ∧
      ¬ (operand instruction 2).has_neg ∧ ¬ (operand instruction 3).has_abs ∧
      ¬ (operand instruction 3).has_neg
  | _ => true

def usil_instruction_shape_valid (instruction : USILInstruction) : Bool :=
  if DXBC_MAX_OPERANDS < instruction.operands.length then false
  else if usil_opcode_has_memory_access instruction.opcode ∧ (program.program_type = .compute ∨
      (instruction.opcode ≠ .LD_STRUCTURED ∧ instruction.opcode ≠ .IMM_ATOMIC_IADD)) then
    (usil_instruction_memory_access program instruction).isSome
  else
    match expected_operand_count instruction with
    | none => false
    | some expected =>
      instruction.operands.length = expected ∧ sync_valid program instruction ∧
        modifiers_valid instruction ∧ (List.range expected).all fun operand =>
            match operand_use_unchecked program instruction operand with
            | none => false
            | some info => decide (info.use = .source) == decide (info.source_lane_mask ≠ 0)

def usil_instruction_operand_use (instruction : USILInstruction) (operand_index : ℕ) :
    Option USILOperandUseInfo :=
  if ¬ usil_instruction_shape_valid program instruction ∨
      instruction.operands.length ≤ operand_index then none
  else operand_use_unchecked program instruction operand_index

end Usil

end DXBCSandbox
