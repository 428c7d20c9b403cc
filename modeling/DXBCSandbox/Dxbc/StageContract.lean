/-
The stage contract of a program (`src/dxbc/dxbc_stage_contract.c`).

One pass over the instructions of the executable chunk collects what the stage declares:
topologies and counts, streams and their effects, tessellation parameters, hull phases, thread
groups, shared memory and barriers. The state of the pass is a contract under construction and
seven flags. A failure is a diagnostic, and the contract under construction is dropped.

The arrays of the contract are lists. The limits on their growth lie beyond the number of
instructions that a document can hold, so growing never fails. Enumerations that the code casts
from a checked value are decoded into an inductive type by the check. The factor of
`dcl_hs_max_tessfactor` is kept as its bits: for a finite `float`, lying between 1 and 64 is a
condition on the bits.
-/
import DXBCSandbox.Dxbc.Document
import DXBCSandbox.Dxbc.Instruction

namespace DXBCSandbox

open Checks

def OP_CUT : UInt32 := 9
def OP_EMIT : UInt32 := 19
def OP_DCL_IMMEDIATE_CONSTANT_BUFFER : UInt32 := 53
def OP_DCL_RESOURCE : UInt32 := 88
def OP_DCL_OUTPUT_TOPOLOGY : UInt32 := 92
def OP_DCL_INPUT_PRIMITIVE : UInt32 := 93
def OP_DCL_MAX_OUTPUT_VERTEX_COUNT : UInt32 := 94
def OP_DCL_GLOBAL_FLAGS : UInt32 := 106
def OP_HS_DECLS : UInt32 := 113
def OP_HS_CONTROL_POINT_PHASE : UInt32 := 114
def OP_HS_FORK_PHASE : UInt32 := 115
def OP_HS_JOIN_PHASE : UInt32 := 116
def OP_EMIT_STREAM : UInt32 := 117
def OP_CUT_STREAM : UInt32 := 118
def OP_DCL_STREAM : UInt32 := 143
def OP_DCL_INPUT_CONTROL_POINT_COUNT : UInt32 := 147
def OP_DCL_OUTPUT_CONTROL_POINT_COUNT : UInt32 := 148
def OP_DCL_TESSELLATOR_DOMAIN : UInt32 := 149
def OP_DCL_TESSELLATOR_PARTITIONING : UInt32 := 150
def OP_DCL_TESSELLATOR_OUTPUT_PRIMITIVE : UInt32 := 151
def OP_DCL_HS_MAX_TESS_FACTOR : UInt32 := 152
def OP_DCL_HS_FORK_PHASE_INSTANCE_COUNT : UInt32 := 153
def OP_DCL_HS_JOIN_PHASE_INSTANCE_COUNT : UInt32 := 154
def OP_DCL_THREAD_GROUP : UInt32 := 155
def OP_DCL_TGSM_RAW : UInt32 := 159
def OP_DCL_TGSM_STRUCTURED : UInt32 := 160
def OP_DCL_RESOURCE_STRUCTURED : UInt32 := 162
def OP_SYNC : UInt32 := 190
def OP_DCL_GS_INSTANCE_COUNT : UInt32 := 206

def NO_INSTRUCTION : ℕ := UINT32_MAX

/-! ## Diagnostics -/

inductive DXBCStageContractStatus where
  | ok | invalidArgument | outOfMemory | missingExecutable | multipleExecutables
  | invalidVersionToken | unsupportedProgram | invalidDeclarationLength | invalidDeclarationBits
  | invalidDeclarationValue | duplicateDeclaration | declarationOrder | declarationStageMismatch
  | missingDeclaration | phaseOrder | containerMismatch
  deriving DecidableEq

structure DXBCStageContractDiagnostic where
  status : DXBCStageContractStatus
  chunk_index : ℕ
  instruction_index : ℕ
  opcode : UInt32
  expected : ℕ
  actual : ℕ

namespace StageContract

abbrev Decode (α : Type) := Except DXBCStageContractDiagnostic α

def clear_diagnostic : DXBCStageContractDiagnostic := ⟨.ok, UINT32_MAX, UINT32_MAX, 0, 0, 0⟩

def fail {α : Type} (status : DXBCStageContractStatus) (chunk_index instruction_index : ℕ)
    (opcode : UInt32) (expected actual : ℕ) : Decode α :=
  .error ⟨status, chunk_index, instruction_index, opcode, expected, actual⟩

def failAt {α : Type} (instruction : DXBCDocumentInstruction) (status : DXBCStageContractStatus)
    (expected actual : ℕ) : Decode α :=
  fail status instruction.chunk_index instruction.instruction_index instruction.opcode expected
    actual

end StageContract

/-! ## The contract -/

inductive DXBCProgramType where
  | pixel | vertex | geometry | hull | domain | compute
  deriving DecidableEq

def DXBCProgramType.code : DXBCProgramType → ℕ
  | .pixel => 0
  | .vertex => 1
  | .geometry => 2
  | .hull => 3
  | .domain => 4
  | .compute => 5

def DXBCProgramType.ofCode : ℕ → Option DXBCProgramType
  | 0 => some .pixel
  | 1 => some .vertex
  | 2 => some .geometry
  | 3 => some .hull
  | 4 => some .domain
  | 5 => some .compute
  | _ => none

inductive DXBCInputPrimitive where
  | undefined | point | line | triangle | lineAdjacency | triangleAdjacency
  deriving DecidableEq

inductive DXBCOutputTopology where
  | undefined | pointList | lineStrip | triangleStrip
  deriving DecidableEq

def DXBCOutputTopology.code : DXBCOutputTopology → ℕ
  | .undefined => 0
  | .pointList => 1
  | .lineStrip => 3
  | .triangleStrip => 5

inductive DXBCTessellatorDomain where
  | undefined | isoline | triangle | quad
  deriving DecidableEq

inductive DXBCTessellatorPartitioning where
  | undefined | integer | pow2 | fractionalOdd | fractionalEven
  deriving DecidableEq

inductive DXBCTessellatorOutputPrimitive where
  | undefined | point | line | triangleCw | triangleCcw
  deriving DecidableEq

inductive DXBCHullPhaseKind where
  | controlPoint | fork | join
  deriving DecidableEq

/-- The value of the enumeration, which is also the place of the kind in the phase order. -/
def DXBCHullPhaseKind.order : DXBCHullPhaseKind → ℕ
  | .controlPoint => 0
  | .fork => 1
  | .join => 2

inductive DXBCGeometryEffectKind where
  | append | restartStrip
  deriving DecidableEq

structure DXBCGeometryEffectContract where
  kind : DXBCGeometryEffectKind
  instruction_index : ℕ
  stream_id : ℕ
  explicit_stream : Bool
  deriving DecidableEq

structure DXBCHullPhaseContract where
  kind : DXBCHullPhaseKind
  marker_instruction_index : ℕ
  first_instruction_index : ℕ
  end_instruction_index : ℕ
  instance_count_declared : Bool
  instance_count : ℕ

structure DXBCThreadGroupSharedMemoryContract where
  instruction_index : ℕ
  register_id : ℕ
  structured : Bool
  byte_stride : ℕ
  element_count : ℕ
  byte_count : ℕ

structure DXBCMemoryBarrierContract where
  instruction_index : ℕ
  flags : UInt32

/-- `DXBCStageContract`. The program type is `none` for `DXBC_PROGRAM_TYPE_INVALID`, and a
value is `none` while its `has_` flag is clear. Stream masks are sets of streams as bits. -/
structure DXBCStageContract where
  version_token : UInt32
  program_type : Option DXBCProgramType
  shader_model_major : ℕ
  shader_model_minor : ℕ
  executable_chunk_index : ℕ
  first_instruction_index : ℕ
  end_instruction_index : ℕ
  input_primitive : Option DXBCInputPrimitive
  output_topology : Option DXBCOutputTopology
  output_topology_stream_mask : ℕ
  max_output_vertex_count : Option ℕ
  geometry_instance_count : Option ℕ
  declared_stream_mask : ℕ
  referenced_stream_mask : ℕ
  geometry_effects : List DXBCGeometryEffectContract
  input_control_point_count : Option ℕ
  output_control_point_count : Option ℕ
  tessellator_domain : Option DXBCTessellatorDomain
  tessellator_partitioning : Option DXBCTessellatorPartitioning
  tessellator_output_primitive : Option DXBCTessellatorOutputPrimitive
  max_tessellation_factor_bits : Option UInt32
  hull_phases : List DXBCHullPhaseContract
  thread_group_size : Option (List ℕ)
  thread_group_declaration_instruction_index : ℕ
  thread_group_shared_memory_bytes : ℕ
  thread_group_shared_memory : List DXBCThreadGroupSharedMemoryContract
  memory_barriers : List DXBCMemoryBarrierContract

def dxbc_stage_contract_init : DXBCStageContract where
  version_token := 0
  program_type := none
  shader_model_major := 0
  shader_model_minor := 0
  executable_chunk_index := UINT32_MAX
  first_instruction_index := 0
  end_instruction_index := 0
  input_primitive := none
  output_topology := none
  output_topology_stream_mask := 0
  max_output_vertex_count := none
  geometry_instance_count := none
  declared_stream_mask := 0
  referenced_stream_mask := 0
  geometry_effects := []
  input_control_point_count := none
  output_control_point_count := none
  tessellator_domain := none
  tessellator_partitioning := none
  tessellator_output_primitive := none
  max_tessellation_factor_bits := none
  hull_phases := []
  thread_group_size := none
  thread_group_declaration_instruction_index := 0
  thread_group_shared_memory_bytes := 0
  thread_group_shared_memory := []
  memory_barriers := []

/-! ## Values -/

variable (value : UInt32)

def valid_input_primitive : Option DXBCInputPrimitive :=
  if value = 1 then some .point
  else if value = 2 then some .line
  else if value = 3 then some .triangle
  else if value = 6 then some .lineAdjacency
  else if value = 7 then some .triangleAdjacency
  else none

def valid_output_topology : Option DXBCOutputTopology :=
  if value = 1 then some .pointList
  else if value = 3 then some .lineStrip
  else if value = 5 then some .triangleStrip
  else none

def valid_domain : Option DXBCTessellatorDomain :=
  if value = 1 then some .isoline
  else if value = 2 then some .triangle
  else if value = 3 then some .quad
  else none

def valid_partitioning : Option DXBCTessellatorPartitioning :=
  if value = 1 then some .integer
  else if value = 2 then some .pow2
  else if value = 3 then some .fractionalOdd
  else if value = 4 then some .fractionalEven
  else none

def valid_output_primitive : Option DXBCTessellatorOutputPrimitive :=
  if value = 1 then some .point
  else if value = 2 then some .line
  else if value = 3 then some .triangleCw
  else if value = 4 then some .triangleCcw
  else none

variable (opcode : UInt32)

def is_declaration_opcode : Bool :=
  opcode = OP_DCL_IMMEDIATE_CONSTANT_BUFFER ∨
    (OP_DCL_RESOURCE ≤ opcode ∧ opcode ≤ OP_DCL_GLOBAL_FLAGS) ∨
    (OP_DCL_STREAM ≤ opcode ∧ opcode ≤ OP_DCL_RESOURCE_STRUCTURED) ∨
    opcode = OP_DCL_GS_INSTANCE_COUNT

def is_hull_phase_marker : Bool :=
  OP_HS_CONTROL_POINT_PHASE ≤ opcode ∧ opcode ≤ OP_HS_JOIN_PHASE

/-- `stage_level_tess_declaration`, and the other declarations that only the start of a
program may hold. -/
def stage_level_declaration : Bool :=
  (OP_DCL_INPUT_CONTROL_POINT_COUNT ≤ opcode ∧ opcode ≤ OP_DCL_HS_MAX_TESS_FACTOR) ∨
    opcode = OP_DCL_MAX_OUTPUT_VERTEX_COUNT ∨ opcode = OP_DCL_GS_INSTANCE_COUNT ∨
    opcode = OP_DCL_STREAM ∨ opcode = OP_DCL_INPUT_PRIMITIVE ∨ opcode = OP_DCL_OUTPUT_TOPOLOGY

/-- `!(factor < 1.0f || factor > 64.0f)` for the bits of a finite `float`. -/
def tess_factor_in_range (bits : UInt32) : Bool := 0x3f800000 ≤ bits ∧ bits ≤ 0x42800000

namespace StageContract

section Walk

variable (rt : UnityCommon) (document : DXBCDocument)

/-! ## Declarations -/

variable (instruction : DXBCDocumentInstruction)

def instruction_token (index : ℕ) : Decode UInt32 :=
  match dxbc_document_instruction_token rt document instruction index with
  | some token => pure token
  | none => failAt instruction .invalidDeclarationLength (index + 1) instruction.token_count

/-- `declaration_header` and `declaration_control`: the control bits of an instruction of the
given length. -/
def declaration_header (expected_length : ℕ) :
    Decode UInt32 := do
  let token ← instruction_token rt document instruction 0
  if instruction.uses_customdata_length ∨ instruction.extended_opcode_token_count ≠ 0 ∨
      instruction.token_count ≠ expected_length ∨
      instruction.encoded_length ≠ expected_length then
    failAt instruction .invalidDeclarationLength expected_length instruction.token_count
  else if token &&& 0x80000000 ≠ 0 then
    failAt instruction .invalidDeclarationBits 0 (token &&& 0x80000000).toNat
  else pure ((token >>> 11) &&& 0x1fff)

/-- A header whose control bits are all clear. -/
def plain_header (expected_length : ℕ) : Decode Unit := do
  let control ← declaration_header rt document instruction expected_length
  if control ≠ 0 then failAt instruction .invalidDeclarationBits 0 control.toNat
  else pure ()

def scalar_declaration : Decode UInt32 := do
  plain_header rt document instruction 2
  instruction_token rt document instruction 1

/-- Zero-component `STREAM`, one immediate index. -/
def STREAM_OPERAND : UInt32 := 0x00110000

def effect_stream (explicit_stream : Bool) : Decode ℕ :=
  if explicit_stream then do
    let operand ← instruction_token rt document instruction 1
    let stream ← instruction_token rt document instruction 2
    if operand ≠ STREAM_OPERAND then
      failAt instruction .invalidDeclarationBits STREAM_OPERAND.toNat operand.toNat
    else if 3 < stream then failAt instruction .invalidDeclarationValue 3 stream.toNat
    else pure stream.toNat
  else pure 0

def decode_geometry_effect (contract : DXBCStageContract) (kind : DXBCGeometryEffectKind)
    (explicit_stream : Bool) : Decode DXBCStageContract := do
  plain_header rt document instruction (if explicit_stream then 3 else 1)
  let stream ← effect_stream rt document instruction explicit_stream
  pure { contract with
    geometry_effects := contract.geometry_effects ++
      [⟨kind, instruction.instruction_index, stream, explicit_stream⟩]
    referenced_stream_mask := contract.referenced_stream_mask ||| 2 ^ stream }

/-- The contract, and the stream that the next topology belongs to. -/
def decode_stream (contract : DXBCStageContract) :
    Decode (DXBCStageContract × ℕ) := do
  let control ← declaration_header rt document instruction 3
  let operand ← instruction_token rt document instruction 1
  let stream ← instruction_token rt document instruction 2
  if control ≠ 0 then failAt instruction .invalidDeclarationBits 0 control.toNat
  else if operand ≠ STREAM_OPERAND then
    failAt instruction .invalidDeclarationBits STREAM_OPERAND.toNat operand.toNat
  else if 3 < stream then failAt instruction .invalidDeclarationValue 3 stream.toNat
  else if contract.declared_stream_mask.testBit stream.toNat then
    failAt instruction .duplicateDeclaration 0 stream.toNat
  else pure ({ contract with
    declared_stream_mask := contract.declared_stream_mask ||| 2 ^ stream.toNat }, stream.toNat)

def decode_enum_declaration {α : Type} (present : Bool) (validator : UInt32 → Option α) :
    Decode α := do
  let control ← declaration_header rt document instruction 1
  if present then failAt instruction .duplicateDeclaration 1 2
  else
    match validator control with
    | none => failAt instruction .invalidDeclarationValue 0 control.toNat
    | some value => pure value

def count_value (scalar_payload : Bool) : Decode UInt32 :=
  if scalar_payload then scalar_declaration rt document instruction
  else declaration_header rt document instruction 1

def decode_count_declaration (scalar_payload : Bool) (maximum : ℕ) (present : Bool) : Decode ℕ := do
  let value ← count_value rt document instruction scalar_payload
  if present then failAt instruction .duplicateDeclaration 1 2
  else if value.toNat = 0 ∨ maximum < value.toNat then
    failAt instruction .invalidDeclarationValue maximum value.toNat
  else pure value.toNat

def thread_group_axes (instruction : DXBCDocumentInstruction) (maximum_threads maximum_z : ℕ) :
    (n axis : ℕ) → Decode (List ℕ)
  | 0, _ => pure []
  | n + 1, axis => do
    let dimension ← instruction_token rt document instruction (axis + 1)
    let maximum := if axis = 2 then maximum_z else maximum_threads
    if dimension.toNat = 0 ∨ maximum < dimension.toNat then
      failAt instruction .invalidDeclarationValue maximum dimension.toNat
    else do
      let dimensions ← thread_group_axes instruction maximum_threads maximum_z n (axis + 1)
      pure (dimension.toNat :: dimensions)

def decode_thread_group (contract : DXBCStageContract) :
    Decode DXBCStageContract := do
  plain_header rt document instruction 4
  if contract.thread_group_size.isSome then failAt instruction .duplicateDeclaration 1 2
  else do
    let maximum_threads := if contract.shader_model_major = 4 then 768 else 1024
    let maximum_z := if contract.shader_model_major = 4 then 1 else 64
    let dimensions ← thread_group_axes rt document instruction maximum_threads maximum_z 3 0
    if maximum_threads < dimensions.prod then
      failAt instruction .invalidDeclarationValue maximum_threads dimensions.prod
    else pure { contract with
      thread_group_size := some dimensions
      thread_group_declaration_instruction_index := instruction.instruction_index }

/-- `gN` has zero components and one immediate index, without extensions. -/
def TGSM_OPERAND : UInt32 := 0x0011f000

def element_count (structured : Bool) : Decode UInt32 :=
  if structured then instruction_token rt document instruction 4 else pure 1

def decode_shared_memory (contract : DXBCStageContract) :
    Decode DXBCStageContract := do
  if contract.shader_model_major ≠ 5 then
    failAt instruction .unsupportedProgram 5 contract.shader_model_major
  else do
    let structured := instruction.opcode = OP_DCL_TGSM_STRUCTURED
    let control ← declaration_header rt document instruction (if structured then 5 else 4)
    let operand ← instruction_token rt document instruction 1
    let register_id ← instruction_token rt document instruction 2
    let stride ← instruction_token rt document instruction 3
    let count ← element_count rt document instruction structured
    let byte_count := stride.toNat * count.toNat
    if control ≠ 0 then failAt instruction .invalidDeclarationBits 0 control.toNat
    else if operand ≠ TGSM_OPERAND then
      failAt instruction .invalidDeclarationBits TGSM_OPERAND.toNat operand.toNat
    else if 8192 ≤ register_id.toNat ∨ stride = 0 ∨ stride &&& 3 ≠ 0 ∨ count = 0 ∨
        32768 < byte_count ∨
        32768 < byte_count + contract.thread_group_shared_memory_bytes then
      failAt instruction .invalidDeclarationValue 32768 byte_count
    else if contract.thread_group_shared_memory.any
        fun memory => memory.register_id = register_id.toNat then
      failAt instruction .duplicateDeclaration 0 register_id.toNat
    else pure { contract with
      thread_group_shared_memory := contract.thread_group_shared_memory ++
        [{ instruction_index := instruction.instruction_index
           register_id := register_id.toNat
           structured := decide structured
           byte_stride := if structured then stride.toNat else 0
           element_count := if structured then count.toNat else 0
           byte_count }]
      thread_group_shared_memory_bytes :=
        contract.thread_group_shared_memory_bytes + byte_count }

def barrier_flags_invalid (compute : Bool) (flags : UInt32) : Bool :=
  flags &&& ~~~0xf ≠ 0 ∨
    if compute then flags &&& 0xe = 0 ∨ flags &&& 0xc = 0xc else flags ≠ 8

def decode_memory_barrier (contract : DXBCStageContract) :
    Decode DXBCStageContract := do
  let flags ← declaration_header rt document instruction 1
  if barrier_flags_invalid (contract.program_type = some .compute) flags then
    failAt instruction .invalidDeclarationBits 0xe flags.toNat
  else pure { contract with
    memory_barriers := contract.memory_barriers ++ [⟨instruction.instruction_index, flags⟩] }

def decode_version (chunk : DXBCDocumentChunk) (contract : DXBCStageContract) :
    Decode DXBCStageContract :=
  let token := read_u32_le rt document.owned_bytes (chunk.offset + 8)
  let major := ((token >>> 4) &&& 0xf).toNat
  let minor := (token &&& 0xf).toNat
  match DXBCProgramType.ofCode (token >>> 16).toNat with
  | none => fail .invalidVersionToken chunk.table_index NO_INSTRUCTION 0 0 token.toNat
  | some program =>
    if token &&& 0x0000ff00 ≠ 0 then
      fail .invalidVersionToken chunk.table_index NO_INSTRUCTION 0 0 token.toNat
    else if (major ≠ 4 ∧ major ≠ 5) ∨ (major = 4 ∧ 1 < minor) ∨ (major = 5 ∧ minor ≠ 0) ∨
        ((program = .hull ∨ program = .domain) ∧ major ≠ 5) then
      fail .unsupportedProgram chunk.table_index NO_INSTRUCTION 0 0 token.toNat
    else pure { contract with
      version_token := token
      program_type := some program
      shader_model_major := major
      shader_model_minor := minor
      executable_chunk_index := chunk.table_index }

/-! ## The walk -/

structure ContractWalk where
  contract : DXBCStageContract
  seen_hs_decls : Bool
  seen_phase : Bool
  phase_has_executable : Bool
  seen_any_executable : Bool
  hull_phase_order : ℕ
  seen_control_point_phase : Bool
  current_geometry_stream : ℕ

def stage_mismatch {α : Type} : Decode α :=
  failAt instruction .declarationStageMismatch 0 instruction.opcode.toNat

def new_phase (kind : DXBCHullPhaseKind) (marker_instruction_index : ℕ) : DXBCHullPhaseContract where
  kind
  marker_instruction_index
  first_instruction_index := marker_instruction_index + 1
  end_instruction_index := marker_instruction_index + 1
  instance_count_declared := false
  instance_count := 1

variable (contract : DXBCStageContract)

def modify_last_phase (f : DXBCHullPhaseContract → DXBCHullPhaseContract) : DXBCStageContract :=
  { contract with
    hull_phases := contract.hull_phases.modify (contract.hull_phases.length - 1) f }

def compute_declaration (walk : ContractWalk) : Decode ContractWalk :=
  if walk.contract.program_type ≠ some .compute then stage_mismatch instruction
  else if walk.seen_any_executable then
    failAt instruction .declarationOrder 0 instruction.instruction_index
  else if instruction.opcode = OP_DCL_THREAD_GROUP then do
    let contract ← decode_thread_group rt document instruction walk.contract
    pure { walk with contract }
  else do
    let contract ← decode_shared_memory rt document instruction walk.contract
    pure { walk with contract }

def sync_instruction (walk : ContractWalk) : Decode ContractWalk :=
  if walk.contract.program_type ≠ some .compute ∧ walk.contract.program_type ≠ some .pixel then
    stage_mismatch instruction
  else do
    let contract ← decode_memory_barrier rt document instruction walk.contract
    pure { walk with contract, seen_any_executable := true }

def hs_decls (walk : ContractWalk) : Decode ContractWalk :=
  if walk.contract.program_type ≠ some .hull then stage_mismatch instruction
  else if walk.seen_hs_decls then failAt instruction .duplicateDeclaration 1 2
  else if instruction.instruction_index ≠ walk.contract.first_instruction_index then
    failAt instruction .declarationOrder walk.contract.first_instruction_index
      instruction.instruction_index
  else do
    plain_header rt document instruction 1
    pure { walk with seen_hs_decls := true }

def marker_kind (opcode : UInt32) : DXBCHullPhaseKind :=
  if opcode = OP_HS_FORK_PHASE then .fork
  else if opcode = OP_HS_JOIN_PHASE then .join
  else .controlPoint

def hull_phase_marker (walk : ContractWalk) : Decode ContractWalk :=
  if walk.contract.program_type ≠ some .hull then stage_mismatch instruction
  else if !walk.seen_hs_decls then
    failAt instruction .phaseOrder OP_HS_DECLS.toNat instruction.opcode.toNat
  else do
    plain_header rt document instruction 1
    let kind := marker_kind instruction.opcode
    if kind.order < walk.hull_phase_order ∨
        (kind = .controlPoint ∧ walk.seen_control_point_phase) then
      failAt instruction .phaseOrder walk.hull_phase_order kind.order
    else
      let contract := modify_last_phase walk.contract fun phase =>
        { phase with end_instruction_index := instruction.instruction_index }
      pure { walk with
        contract := { contract with
          hull_phases := contract.hull_phases ++ [new_phase kind instruction.instruction_index] }
        seen_control_point_phase :=
          if kind = .controlPoint then true else walk.seen_control_point_phase
        hull_phase_order := kind.order
        seen_phase := true
        phase_has_executable := false }

def geometry_effect (walk : ContractWalk) : Decode ContractWalk :=
  let opcode := instruction.opcode
  if walk.contract.program_type ≠ some .geometry then stage_mismatch instruction
  else do
    let contract ← decode_geometry_effect rt document instruction walk.contract
      (if opcode = OP_EMIT ∨ opcode = OP_EMIT_STREAM then .append else .restartStrip)
      (opcode = OP_EMIT_STREAM ∨ opcode = OP_CUT_STREAM)
    pure { walk with contract, seen_any_executable := true }

def geometry_declaration (walk : ContractWalk) : Decode ContractWalk :=
  let opcode := instruction.opcode
  let contract := walk.contract
  if contract.program_type ≠ some .geometry then stage_mismatch instruction
  else if opcode = OP_DCL_INPUT_PRIMITIVE then do
    let value ← decode_enum_declaration rt document instruction contract.input_primitive.isSome
      valid_input_primitive
    pure { walk with contract := { contract with input_primitive := some value } }
  else if opcode = OP_DCL_OUTPUT_TOPOLOGY then do
    let value ← decode_enum_declaration rt document instruction
      (contract.output_topology_stream_mask.testBit walk.current_geometry_stream)
      valid_output_topology
    if contract.output_topology.any (· ≠ value) then
      failAt instruction .invalidDeclarationValue
        (contract.output_topology.getD .undefined).code value.code
    else pure { walk with contract := { contract with
      output_topology := some value
      output_topology_stream_mask :=
        contract.output_topology_stream_mask ||| 2 ^ walk.current_geometry_stream } }
  else if opcode = OP_DCL_MAX_OUTPUT_VERTEX_COUNT then do
    let value ← decode_count_declaration rt document instruction true 1024
      contract.max_output_vertex_count.isSome
    pure { walk with contract := { contract with max_output_vertex_count := some value } }
  else if opcode = OP_DCL_STREAM then do
    let (contract, current_geometry_stream) ← decode_stream rt document instruction contract
    pure { walk with contract, current_geometry_stream }
  else do
    let value ← decode_count_declaration rt document instruction true 32
      contract.geometry_instance_count.isSome
    pure { walk with contract := { contract with geometry_instance_count := some value } }

def max_tess_factor (contract : DXBCStageContract) : Decode DXBCStageContract :=
  if contract.max_tessellation_factor_bits.isSome then
    failAt instruction .duplicateDeclaration 1 2
  else do
    let value ← scalar_declaration rt document instruction
    if value &&& 0x7f800000 = 0x7f800000 ∨ ¬ tess_factor_in_range value then
      failAt instruction .invalidDeclarationValue 0 value.toNat
    else pure { contract with max_tessellation_factor_bits := some value }

def tessellation_declaration (walk : ContractWalk) : Decode ContractWalk :=
  let opcode := instruction.opcode
  let contract := walk.contract
  let is_hull := contract.program_type = some .hull
  let is_domain := contract.program_type = some .domain
  if opcode = OP_DCL_INPUT_CONTROL_POINT_COUNT then
    if ¬ is_hull ∧ ¬ is_domain then stage_mismatch instruction
    else do
      let value ← decode_count_declaration rt document instruction false 32
        contract.input_control_point_count.isSome
      pure { walk with contract := { contract with input_control_point_count := some value } }
  else if opcode = OP_DCL_TESSELLATOR_DOMAIN then
    if ¬ is_hull ∧ ¬ is_domain then stage_mismatch instruction
    else do
      let value ← decode_enum_declaration rt document instruction
        contract.tessellator_domain.isSome valid_domain
      pure { walk with contract := { contract with tessellator_domain := some value } }
  else if ¬ is_hull then stage_mismatch instruction
  else if opcode = OP_DCL_OUTPUT_CONTROL_POINT_COUNT then do
    let value ← decode_count_declaration rt document instruction false 32
      contract.output_control_point_count.isSome
    pure { walk with contract := { contract with output_control_point_count := some value } }
  else if opcode = OP_DCL_TESSELLATOR_PARTITIONING then do
    let value ← decode_enum_declaration rt document instruction
      contract.tessellator_partitioning.isSome valid_partitioning
    pure { walk with contract := { contract with tessellator_partitioning := some value } }
  else if opcode = OP_DCL_TESSELLATOR_OUTPUT_PRIMITIVE then do
    let value ← decode_enum_declaration rt document instruction
      contract.tessellator_output_primitive.isSome valid_output_primitive
    pure { walk with contract := { contract with tessellator_output_primitive := some value } }
  else do
    let contract ← max_tess_factor rt document instruction contract
    pure { walk with contract }

def phase_instance_count (walk : ContractWalk) : Decode ContractWalk :=
  if walk.contract.program_type ≠ some .hull then stage_mismatch instruction
  else
    match walk.contract.hull_phases.getLast? with
    | none => stage_mismatch instruction
    | some phase =>
      let expected := if instruction.opcode = OP_DCL_HS_FORK_PHASE_INSTANCE_COUNT then
        DXBCHullPhaseKind.fork else .join
      if phase.kind ≠ expected ∨ walk.phase_has_executable then
        failAt instruction .phaseOrder expected.order phase.kind.order
      else if phase.instance_count_declared then failAt instruction .duplicateDeclaration 1 2
      else do
        let value ← scalar_declaration rt document instruction
        if value.toNat = 0 then
          failAt instruction .invalidDeclarationValue UINT32_MAX value.toNat
        else pure { walk with
          contract := modify_last_phase walk.contract fun phase =>
            { phase with instance_count_declared := true, instance_count := value.toNat } }

/-- What is left after the switch: other declarations and executable instructions. -/
def other_instruction (walk : ContractWalk) : Decode ContractWalk :=
  let is_hull := walk.contract.program_type = some .hull
  if is_declaration_opcode instruction.opcode then
    if (is_hull ∧ walk.seen_phase ∧ walk.phase_has_executable) ∨
        (¬ is_hull ∧ walk.seen_any_executable) then
      failAt instruction .declarationOrder 0 instruction.instruction_index
    else pure walk
  else if is_hull ∧ ¬ walk.seen_phase then failAt instruction .phaseOrder 1 0
  else if is_hull then
    pure { walk with
      seen_any_executable := true
      phase_has_executable := true
      contract := modify_last_phase walk.contract fun phase =>
        { phase with end_instruction_index := instruction.instruction_index + 1 } }
  else pure { walk with seen_any_executable := true }

def decode_instruction_contract (walk : ContractWalk) : Decode ContractWalk :=
  let opcode := instruction.opcode
  let is_hull := walk.contract.program_type = some .hull
  if opcode = OP_DCL_THREAD_GROUP ∨ opcode = OP_DCL_TGSM_RAW ∨
      opcode = OP_DCL_TGSM_STRUCTURED then compute_declaration rt document instruction walk
  else if opcode = OP_SYNC then sync_instruction rt document instruction walk
  else if opcode = OP_HS_DECLS then hs_decls rt document instruction walk
  else if is_hull_phase_marker opcode then hull_phase_marker rt document instruction walk
  else if stage_level_declaration opcode ∧
      (walk.seen_any_executable ∨ (is_hull ∧ walk.seen_phase)) then
    failAt instruction .declarationOrder 0 instruction.instruction_index
  else if opcode = OP_EMIT ∨ opcode = OP_CUT ∨ opcode = OP_EMIT_STREAM ∨
      opcode = OP_CUT_STREAM then geometry_effect rt document instruction walk
  else if opcode = OP_DCL_INPUT_PRIMITIVE ∨ opcode = OP_DCL_OUTPUT_TOPOLOGY ∨
      opcode = OP_DCL_MAX_OUTPUT_VERTEX_COUNT ∨ opcode = OP_DCL_STREAM ∨
      opcode = OP_DCL_GS_INSTANCE_COUNT then geometry_declaration rt document instruction walk
  else if OP_DCL_INPUT_CONTROL_POINT_COUNT ≤ opcode ∧ opcode ≤ OP_DCL_HS_MAX_TESS_FACTOR then
    tessellation_declaration rt document instruction walk
  else if opcode = OP_DCL_HS_FORK_PHASE_INSTANCE_COUNT ∨
      opcode = OP_DCL_HS_JOIN_PHASE_INSTANCE_COUNT then
    phase_instance_count rt document instruction walk
  else other_instruction instruction walk

/-! ## The whole program -/

def require_declaration (present : Bool) (opcode : UInt32) (contract : DXBCStageContract) :
    Decode Unit :=
  if present then pure ()
  else fail .missingDeclaration contract.executable_chunk_index NO_INSTRUCTION opcode 1 0

def require_streams (contract : DXBCStageContract) : List DXBCGeometryEffectContract → Decode Unit
  | [] => pure ()
  | effect :: effects =>
    if effect.explicit_stream then
      if ¬ contract.declared_stream_mask.testBit effect.stream_id then
        fail .missingDeclaration contract.executable_chunk_index effect.instruction_index
          OP_DCL_STREAM (2 ^ effect.stream_id) contract.declared_stream_mask
      else require_streams contract effects
    else if contract.declared_stream_mask ≠ 0 then
      fail .invalidDeclarationValue contract.executable_chunk_index effect.instruction_index
        (if effect.kind = .append then OP_EMIT else OP_CUT) 0 contract.declared_stream_mask
    else require_streams contract effects

def finish_contract (seen_hs_decls seen_phase : Bool) : Decode Unit :=
  match contract.program_type with
  | some .compute =>
    require_declaration contract.thread_group_size.isSome OP_DCL_THREAD_GROUP contract
  | some .geometry => do
    require_declaration contract.input_primitive.isSome OP_DCL_INPUT_PRIMITIVE contract
    require_declaration contract.output_topology.isSome OP_DCL_OUTPUT_TOPOLOGY contract
    require_declaration contract.max_output_vertex_count.isSome OP_DCL_MAX_OUTPUT_VERTEX_COUNT
      contract
    if contract.output_topology_stream_mask &&& contract.declared_stream_mask ≠
        contract.declared_stream_mask then
      fail .missingDeclaration contract.executable_chunk_index NO_INSTRUCTION
        OP_DCL_OUTPUT_TOPOLOGY contract.declared_stream_mask
        contract.output_topology_stream_mask
    else require_streams contract contract.geometry_effects
  | some .hull => do
    require_declaration seen_hs_decls OP_HS_DECLS contract
    require_declaration contract.input_control_point_count.isSome
      OP_DCL_INPUT_CONTROL_POINT_COUNT contract
    require_declaration contract.output_control_point_count.isSome
      OP_DCL_OUTPUT_CONTROL_POINT_COUNT contract
    require_declaration contract.tessellator_domain.isSome OP_DCL_TESSELLATOR_DOMAIN contract
    require_declaration contract.tessellator_partitioning.isSome
      OP_DCL_TESSELLATOR_PARTITIONING contract
    require_declaration contract.tessellator_output_primitive.isSome
      OP_DCL_TESSELLATOR_OUTPUT_PRIMITIVE contract
    require_declaration seen_phase OP_HS_FORK_PHASE contract
  | some .domain => do
    require_declaration contract.input_control_point_count.isSome
      OP_DCL_INPUT_CONTROL_POINT_COUNT contract
    require_declaration contract.tessellator_domain.isSome OP_DCL_TESSELLATOR_DOMAIN contract
  | _ => pure ()

def find_executable : List DXBCDocumentChunk → Option DXBCDocumentChunk →
    Decode (Option DXBCDocumentChunk)
  | [], executable => pure executable
  | chunk :: chunks, executable =>
    if chunk.kind ≠ .executable then find_executable chunks executable
    else if executable.isSome then
      fail .multipleExecutables chunk.table_index UINT32_MAX 0 1 2
    else find_executable chunks (some chunk)

/-- The loop that finds the first instruction of a chunk and the end of the last one. -/
def instruction_range (table_index : ℕ) : (i : ℕ) → List DXBCDocumentInstruction →
    Option ℕ × ℕ → Option ℕ × ℕ
  | _, [], range => range
  | i, instruction :: instructions, (first, stop) =>
    if instruction.chunk_index ≠ table_index then
      instruction_range table_index (i + 1) instructions (first, stop)
    else instruction_range table_index (i + 1) instructions (some (first.getD i), i + 1)

def decode_instructions : List DXBCDocumentInstruction → ContractWalk → Decode ContractWalk
  | [], walk => pure walk
  | instruction :: instructions, walk => do
    let walk ← decode_instruction_contract rt document instruction walk
    decode_instructions instructions walk

def start_walk : ContractWalk :=
  ⟨contract, false, false, false, false, 0, false, 0⟩

def decode_document_internal : Decode DXBCStageContract :=
  if document.owned_bytes = [] ∨ document.chunks = [] then
    fail .invalidArgument UINT32_MAX UINT32_MAX 0 0 0
  else do
    match ← find_executable document.chunks none with
    | none => fail .missingExecutable UINT32_MAX UINT32_MAX 0 1 0
    | some executable =>
      let contract ← decode_version rt document executable dxbc_stage_contract_init
      let (first, stop) := instruction_range executable.table_index 0 document.instructions
        (none, 0)
      let index (i : ℕ) := (document.instructions[i]?.map (·.instruction_index)).getD 0
      let contract := { contract with
        first_instruction_index := first.elim 0 index
        end_instruction_index := if stop = 0 then 0 else index (stop - 1) + 1 }
      let walk ← decode_instructions rt document
        ((document.instructions.take stop).drop (first.getD 0)) (start_walk contract)
      let contract := modify_last_phase walk.contract fun phase =>
        { phase with end_instruction_index := walk.contract.end_instruction_index }
      finish_contract contract walk.seen_hs_decls walk.seen_phase
      pure contract

end Walk

end StageContract

open StageContract

def dxbc_stage_contract_validate_container (contract : DXBCStageContract)
    (container : DXBCContainer) : Except DXBCStageContractDiagnostic Unit :=
  match contract.program_type with
  | none => fail .invalidArgument UINT32_MAX UINT32_MAX 0 0 0
  | some program_type =>
    if ¬ container.has_executable_program ∨ container.program_type ≠ some program_type.code ∨
        container.major_version ≠ contract.shader_model_major ∨
        container.minor_version ≠ contract.shader_model_minor then
      fail .containerMismatch contract.executable_chunk_index UINT32_MAX 0
        (program_type.code <<< 16 ||| contract.shader_model_major <<< 8 |||
          contract.shader_model_minor)
        ((container.program_type.getD 0xffff) <<< 16 ||| container.major_version <<< 8 |||
          container.minor_version)
    else pure ()

/-- `dxbc_stage_contract_decode(document, semantic_container, out_contract, out_diagnostic)`:
the result, and the contract and the diagnostic the call leaves behind. -/
def dxbc_stage_contract_decode (rt : UnityCommon) (document : DXBCDocument)
    (semantic_container : Option DXBCContainer) (out_contract : DXBCStageContract) :
    Bool × DXBCStageContract × DXBCStageContractDiagnostic :=
  match (do
      let parsed ← decode_document_internal rt document
      match semantic_container with
      | none => pure parsed
      | some container => do
        dxbc_stage_contract_validate_container parsed container
        pure parsed) with
  | .ok parsed => (true, parsed, StageContract.clear_diagnostic)
  | .error diagnostic => (false, out_contract, diagnostic)

end DXBCSandbox
