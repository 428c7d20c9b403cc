/-
The detectors of semantic lifts (`src/translation/hlsl_semantic.c`, `hlsl_analysis_patterns.c`,
`hlsl_emitter_analysis.c`).

A detector finds instructions by their opcodes and operands and makes a candidate from their
indices. The analysis registers the candidates in a fixed order. All of them but the truthiness
conditions are found without a look at the registry.

A search that stops at its first match is a `find?` over the indices in the order of the loop. The
names of constant buffer variables, the provenance of components and the definitions of operands
come from earlier passes. Floats are compared by their bits: 0.5 has one encoding, and zero two.
-/
import DXBCSandbox.Hlsl.SemanticRegistry
import DXBCSandbox.Usil.Validation

namespace DXBCSandbox.HlslSemantic

open Usil
open List (range range')

/-- What the detectors read of `HLSLEmitterContext`, with the results of the passes before. -/
structure HLSLEmitterContext where
  program : USILProgram
  shader_type_model : String
  icb_values : List UInt32
  use_uint_temps : Bool
  resolve_cb_variable_ctx : ℤ → ℤ → ℕ → Option (String × ℤ)
  component_value_unchanged : ℤ → ℕ → ℕ → ℕ → Bool
  hlsl_operand_definition : ℕ → ℕ → ℕ → Option ℕ

/-! ## Operands -/

def same_cb_register (left right : DXBCOperand) : Bool :=
  left.type = .constantBuffer ∧ right.type = .constantBuffer ∧
    left.register_index = right.register_index ∧ left.rel_offset0 = right.rel_offset0 ∧
    left.rel_offset1 = right.rel_offset1

variable (inst : USILInstruction)

def find_operand_type (type : DXBCOperandType) : Option DXBCOperand :=
  (inst.operands.drop 1).find? fun operand => operand.type = type

variable (ctx : HLSLEmitterContext)

def operand_is_cb_variable (operand : DXBCOperand) (expected : String) : Bool :=
  operand.type = .constantBuffer ∧
    ctx.resolve_cb_variable_ctx operand.register_index operand.rel_offset0
      (if operand.swizzle_mode = 2 then operand.swizzle.x else 0) = some (expected, 0)

/-- `operand_is_cb_variable` of a pointer that may be null. -/
def found_cb_variable (operand : Option DXBCOperand) (expected : String) : Bool :=
  operand.any fun operand => operand_is_cb_variable ctx operand expected

def operand_resolves_to (operand : DXBCOperand) (expected_name : String) : Bool :=
  operand.type = .constantBuffer ∧
    (ctx.resolve_cb_variable_ctx operand.register_index operand.rel_offset0 0).any fun name =>
      name.1 = expected_name

def get_mask_component_count (mask : ℕ) : ℕ :=
  if mask = 0 then 4 else [4, 5, 6, 7].countP mask.testBit

def inst_writes_to_dest : Bool :=
  inst.opcode ∉ [USILOpcode.IF, .ELSE, .ENDIF, .LOOP, .ENDLOOP, .SWITCH, .CASE, .DEFAULT,
    .ENDSWITCH, .BREAK, .BREAKC, .CONTINUE, .CONTINUEC, .RET, .DISCARD, .GEOMETRY_APPEND,
    .GEOMETRY_RESTART_STRIP] ∧
  1 ≤ inst.operands.length ∧ (operand inst 0).type ≠ .null

variable (program : USILProgram)

def instruction_has_opcode (index : ℕ) (opcode : USILOpcode) : Bool :=
  index < program.instruction_count ∧ program.opcode index = opcode

def opcodes_match (start : ℕ) (opcodes : List USILOpcode) : Bool :=
  opcodes.zipIdx.all fun entry => instruction_has_opcode program (start + entry.2) entry.1

def last_operand (test : ℕ → Bool) : Option ℕ :=
  if test 2 then some 2 else if test 1 then some 1 else none

/-- The indices from `start` on, `count` of them. -/
def consecutive (start : ℤ) (count : ℕ) : List ℤ := (range count).map fun i : ℕ => start + i

/-! ## SpeedTree wind -/

def speedtree_tail : List USILOpcode :=
  [.MOV, .DP3, .RSQ, .MUL, .DP3, .SQRT, .MUL, .MUL, .LT, .MOVC]

def speedtree_shape_matches (index : ℕ) : Bool :=
  let program := ctx.program
  let inst := program.instruction index
  let move_y := program.instruction (index + 1)
  let select := program.instruction (index + 10)
  index + 10 < program.instruction_count ∧
    (inst.opcode = .MAD ∧ 4 ≤ inst.operands.length ∧ (operand inst 0).type = .temp ∧
      (operand inst 0).destination_mask = 16 + 64 ∧ (operand inst 1).type = .constantBuffer ∧
      (operand inst 2).type = .temp ∧ (operand inst 3).type = .temp) ∧
    opcodes_match program (index + 1) speedtree_tail ∧
    (2 ≤ move_y.operands.length ∧ 4 ≤ select.operands.length ∧ (operand move_y 0).type = .temp ∧
      (operand move_y 0).register_index = (operand inst 0).register_index ∧
      (operand move_y 0).destination_mask = 32 ∧ (operand move_y 1).type = .temp ∧
      (operand move_y 1).register_index = (operand inst 3).register_index ∧
      (operand move_y 1).swizzle.x = 3 ∧ (operand select 0).type = .temp ∧
      (operand select 0).register_index = (operand inst 0).register_index ∧
      (operand select 0).destination_mask = 16 + 32 + 64) ∧
    operand_is_cb_variable ctx (operand inst 1) "_ST_WindVector"

def speedtree_wind_lift (index : ℕ) : Option HLSLSemanticLift :=
  if speedtree_shape_matches ctx index then
    some {
      contract := k_speedtree_wind_contract
      trigger_instruction := index
      after_instruction := -1
      claimed := consecutive index 11
      data := .speedtree_wind index }
  else none

def speedtree_wind_lifts : List HLSLSemanticLift :=
  (range ctx.program.instruction_count).filterMap (speedtree_wind_lift ctx)

/-! ## Deferred alpha clips -/

/-- A comparison of what a multiply-add wrote, in the order of the loop. Behind a last move the
source reads past the end of the program; what it finds there is refused by `alpha_clip_at`. -/
def alpha_compare (mad_index move_index : ℕ) : Option ℕ :=
  (range' (mad_index + 1) (move_index + 1 - mad_index)).find? fun index =>
    let candidate := ctx.program.instruction index
    candidate.opcode = .LT ∧ 3 ≤ candidate.operands.length ∧ (operand candidate 1).type = .temp ∧
      (operand candidate 1).register_index =
        (operand (ctx.program.instruction mad_index) 0).register_index

/-- The tests of the loop over the multiply-adds. The result is the comparison. -/
def alpha_clip_at (move_index multiply_index color_cb_operand : ℕ) (color_register : ℤ)
    (mad_index : ℕ) : Option ℕ := do
  let program := ctx.program
  let mad := program.instruction mad_index
  let multiply := program.instruction multiply_index
  guard (mad.opcode = .MAD ∧ 4 ≤ mad.operands.length ∧ (operand mad 0).type = .temp ∧
    get_mask_component_count (operand mad 0).destination_mask = 1)
  let is_temp (i : ℕ) : Bool :=
    (operand mad i).type = .temp ∧ (operand mad i).register_index = color_register
  let alpha_temp_operand ← last_operand is_temp
  let _ ← last_operand fun i =>
    !is_temp i && same_cb_register (operand mad i) (operand multiply color_cb_operand)
  let compare_index ← alpha_compare ctx mad_index move_index
  guard (compare_index + 1 < program.instruction_count)
  let compare := program.instruction compare_index
  let discard := program.instruction (compare_index + 1)
  guard (discard.opcode = .DISCARD ∧ 1 ≤ discard.operands.length ∧
    (operand discard 0).type = .temp ∧
    (operand discard 0).register_index = (operand compare 0).register_index)
  guard (ctx.component_value_unchanged color_register
    ((operand mad alpha_temp_operand).swizzle.x) (mad_index + 1) multiply_index)
  some compare_index

def alpha_clip_lift (mad_index compare_index move_index : ℕ) (color_temp_operand : ℕ) :
    HLSLSemanticLift where
  contract := k_alpha_clip_contract
  trigger_instruction := -1
  after_instruction := move_index
  claimed := mad_index :: if compare_index < move_index - 1
    then [(compare_index : ℤ), compare_index + 1] else []
  data := .alpha_clip mad_index compare_index (compare_index + 1) (move_index - 1) move_index
    color_temp_operand ((operand (ctx.program.instruction mad_index) 1).type = .constantBuffer)

def find_alpha_clip_for_move (move_index : ℕ) :
    Option HLSLSemanticLift := do
  let program := ctx.program
  let move := program.instruction move_index
  guard (move.opcode = .MOV ∧ 2 ≤ move.operands.length ∧ (operand move 0).type = .output ∧
    (operand move 1).type = .temp ∧ 3 ≤ move_index)
  let color_register := (operand move 1).register_index
  let multiply_index := move_index - 1
  let multiply := program.instruction multiply_index
  guard (multiply.opcode = .MUL ∧ 3 ≤ multiply.operands.length ∧ (operand multiply 0).type = .temp ∧
    (operand multiply 0).register_index = color_register ∧
    (operand multiply 0).destination_mask = 16 + 32 + 64 + 128)
  let is_temp (i : ℕ) : Bool :=
    (operand multiply i).type = .temp ∧ (operand multiply i).register_index = color_register
  let color_temp_operand ← last_operand is_temp
  let color_cb_operand ← last_operand fun i =>
    !is_temp i && decide ((operand multiply i).type = .constantBuffer)
  let first := multiply_index - 24
  (range' first (multiply_index - first)).reverse.findSome? fun mad_index => do
    let compare_index ← alpha_clip_at ctx move_index multiply_index color_cb_operand
      color_register mad_index
    some (alpha_clip_lift ctx mad_index compare_index move_index color_temp_operand)

def alpha_clip_lifts : List HLSLSemanticLift :=
  (range ctx.program.instruction_count).filterMap (find_alpha_clip_for_move ctx)

/-! ## The face basis and the surface frame -/

structure IndexedFaceBasisInfo where
  start : ℕ
  output_reg : ℤ
  uv_input_reg : ℤ

def face_opcodes : List USILOpcode :=
  [.MOV, .MOV, .FTOI, .MUL, .MOV, .MOV, .MOV, .MAD, .MOV, .MAD, .MAD, .MOV, .MOV, .MAD, .MOV, .MAD]

def expected_icb : List UInt32 :=
  [0, 0, 0xbf800000, 0, 0, 0, 0x3f800000, 0, 0x3f800000, 0, 0, 0, 0x3f800000, 0, 0, 0,
    0x3f800000, 0, 0, 0xbf800000, 0xbf800000, 0, 0, 0xbf800000, 0, 0, 0x3f800000, 0, 0, 0,
    0xbf800000, 0, 0, 0, 0, 0xbf800000, 0, 0, 0, 0xbf800000]

def face_basis_at (start : ℕ) : Bool :=
  let program := ctx.program
  let index := program.instruction (start + 2)
  let uv := program.instruction (start + 9)
  let output := program.instruction (start + 15)
  opcodes_match program start face_opcodes ∧
    2 ≤ index.operands.length ∧ 4 ≤ uv.operands.length ∧ 4 ≤ output.operands.length ∧
    operand_resolves_to ctx (operand index 1) "_faceIndex" ∧ (operand uv 1).type = .input ∧
    operand_resolves_to ctx (operand uv 2) "_MainTex_ST" ∧ (operand output 0).type = .output

/-- The last instruction of the basis is `start + 15`. -/
def detect_indexed_face_basis : Option IndexedFaceBasisInfo :=
  let program := ctx.program
  if ctx.icb_values = expected_icb then
    ((range (program.instruction_count + 1 - 16)).find? (face_basis_at ctx)).map fun start =>
      { start
        output_reg := (operand (program.instruction (start + 15)) 0).register_index
        uv_input_reg := (operand (program.instruction (start + 9)) 1).register_index }
  else none

/-- The part of `SurfaceTangentFrameInfo` that the registration reads. The last instruction of the
frame is `tangent_start + 26`. -/
structure SurfaceTangentFrameInfo where
  transform_start : ℕ
  tangent_start : ℕ
  clip_temp_reg : ℤ

def tangent_opcodes : List USILOpcode :=
  [.DP3, .DP3, .DP3, .DP3, .RSQ, .MUL, .MUL, .MAD, .MAD, .DP3, .RSQ, .MUL, .MUL, .MAD, .MUL, .MUL,
    .MOV, .MOV, .MOV, .MOV, .MOV, .MOV, .MOV, .MOV, .MOV, .MOV, .MOV]

def transform_opcodes : List USILOpcode :=
  [.MUL, .MAD, .MAD, .ADD, .MAD, .MUL, .MAD, .MAD, .MAD]

def tangent_at (tangent_start : ℕ) : Bool :=
  let program := ctx.program
  let normal0 := program.instruction tangent_start
  let tangent_mul := program.instruction (tangent_start + 6)
  let sign_mul := program.instruction (tangent_start + 14)
  opcodes_match program tangent_start tangent_opcodes ∧
    3 ≤ normal0.operands.length ∧ 3 ≤ tangent_mul.operands.length ∧
    3 ≤ sign_mul.operands.length ∧ (operand normal0 1).type = .input ∧
    (operand tangent_mul 1).type = .input ∧ (operand sign_mul 1).type = .input ∧
    operand_resolves_to ctx (operand normal0 2) "unity_WorldToObject" ∧
    operand_resolves_to ctx (operand tangent_mul 2) "unity_ObjectToWorld" ∧
    operand_resolves_to ctx (operand sign_mul 2) "unity_WorldTransformParams"

def transform_at (candidate : ℕ) : Bool :=
  let program := ctx.program
  let object_mul := program.instruction candidate
  let clip_mul := program.instruction (candidate + 5)
  opcodes_match program candidate transform_opcodes ∧
    3 ≤ object_mul.operands.length ∧ 3 ≤ clip_mul.operands.length ∧
    (operand object_mul 1).type = .input ∧
    operand_resolves_to ctx (operand object_mul 2) "unity_ObjectToWorld" ∧
    operand_resolves_to ctx (operand clip_mul 2) "unity_MatrixVP"

/-- The instruction that copies the clip position from a temporary to an output. -/
def clip_move_at (transform_start tangent_start : ℕ) : Bool :=
  let clip_transform_dest := operand (program.instruction (transform_start + 8)) 0
  let clip_move := program.instruction (transform_start + 9)
  clip_transform_dest.type = .temp ∧ transform_start + 9 < tangent_start ∧
    clip_move.opcode = .MOV ∧ 2 ≤ clip_move.operands.length ∧
    (operand clip_move 0).type = .output ∧ (operand clip_move 1).type = .temp ∧
    (operand clip_move 1).register_index = clip_transform_dest.register_index

def surface_frame_at (tangent_start : ℕ) :
    Option SurfaceTangentFrameInfo := do
  let program := ctx.program
  guard (tangent_at ctx tangent_start)
  let search_begin := tangent_start - 32
  let transform_start ←
    (range' search_begin (tangent_start - 8 - search_begin)).find? (transform_at ctx)
  let world_x := program.instruction (tangent_start - 1)
  guard (world_x.opcode = .MOV ∧ 2 ≤ world_x.operands.length ∧ (operand world_x 0).type = .output)
  let clip_transform_dest := operand (program.instruction (transform_start + 8)) 0
  if clip_transform_dest.type = .output then some ⟨transform_start, tangent_start, -1⟩
  else if clip_move_at program transform_start tangent_start then
    some ⟨transform_start, tangent_start, clip_transform_dest.register_index⟩
  else none

def detect_surface_tangent_frame : Option SurfaceTangentFrameInfo :=
  (range' 1 (ctx.program.instruction_count - 27)).findSome? (surface_frame_at ctx)

def face_basis_lift (face : IndexedFaceBasisInfo) : HLSLSemanticLift where
  contract := k_face_basis_contract
  trigger_instruction := face.start
  after_instruction := -1
  claimed := consecutive face.start 16
  data := .face_basis face.output_reg face.uv_input_reg

def surface_clip_lift (surface : SurfaceTangentFrameInfo) : HLSLSemanticLift where
  contract := k_surface_clip_contract
  trigger_instruction := surface.transform_start
  after_instruction := -1
  claimed := consecutive surface.transform_start 9 ++
    if 0 ≤ surface.clip_temp_reg then [(surface.transform_start : ℤ) + 9] else []
  data := .surface 0

def surface_tangent_lift (surface : SurfaceTangentFrameInfo) : HLSLSemanticLift where
  contract := k_surface_tangent_contract
  trigger_instruction := surface.tangent_start
  after_instruction := -1
  claimed := consecutive ((surface.tangent_start : ℤ) - 1) 28
  data := .surface 1

def high_priority_structural_lifts : List HLSLSemanticLift :=
  ((detect_indexed_face_basis ctx).map face_basis_lift).toList ++
    match detect_surface_tangent_frame ctx with
    | some surface => [surface_clip_lift surface, surface_tangent_lift surface]
    | none => []

/-! ## Shadow positions and static texture coordinates -/

def shadow_position_at (index : ℕ) : Bool :=
  let program := ctx.program
  let mul := program.instruction index
  let mad_x := program.instruction (index + 1)
  let mad_z := program.instruction (index + 2)
  let mad_w := program.instruction (index + 3)
  let temporary := (operand mul 0).register_index
  let cb := (operand mul 2).register_index
  let before := range' (index - 12) (index - (index - 12))
  let writes_output (opcode : USILOpcode) : Bool := before.any fun previous =>
    let bias := program.instruction previous
    0 < bias.operands.length ∧ (operand bias 0).type = .output ∧ bias.opcode = opcode
  (mul.opcode = .MUL ∧ mad_x.opcode = .MAD ∧ mad_z.opcode = .MAD ∧ mad_w.opcode = .MAD ∧
    3 ≤ mul.operands.length ∧ 4 ≤ mad_x.operands.length ∧ 4 ≤ mad_z.operands.length ∧
    4 ≤ mad_w.operands.length ∧ (operand mul 0).type = .temp ∧
    (operand mul 0).destination_mask = 16 + 32 + 64 ∧ (operand mad_w 0).type = .output ∧
    (operand mad_w 0).destination_mask = 16 + 32 + 64 ∧ (operand mul 1).type = .input ∧
    (operand mul 2).type = .constantBuffer) ∧
  ((operand mad_x 0).type = .temp ∧ (operand mad_z 0).type = .temp ∧
    (operand mad_x 0).register_index = temporary ∧
    (operand mad_z 0).register_index = temporary ∧
    (operand mad_x 1).type = .constantBuffer ∧ (operand mad_z 1).type = .constantBuffer ∧
    (operand mad_w 1).type = .constantBuffer ∧ (operand mad_x 1).register_index = cb ∧
    (operand mad_z 1).register_index = cb ∧ (operand mad_w 1).register_index = cb ∧
    (operand mul 2).rel_offset0 = 1 ∧ (operand mad_x 1).rel_offset0 = 0 ∧
    (operand mad_z 1).rel_offset0 = 2 ∧ (operand mad_w 1).rel_offset0 = 3) ∧
  ctx.resolve_cb_variable_ctx cb 0 0 = some ("unity_ObjectToWorld", 0) ∧
  before.any (fun previous => (program.instruction previous).opcode = .MIN) ∧
    writes_output .MAD ∧ writes_output .MOV

def shadow_lift_at (index : ℕ) : HLSLSemanticLift where
  contract := k_shadow_position_contract
  trigger_instruction := -1
  after_instruction := -1
  claimed := consecutive index 4
  data := .shadow_position (operand (ctx.program.instruction (index + 3)) 0).register_index
    (operand (ctx.program.instruction index) 1).register_index "unity_ObjectToWorld"

/-- The first shadow position. The search stops there, registered or not. -/
def find_shadow_position : Option ℕ :=
  (range' 4 (ctx.program.instruction_count - 7)).find? (shadow_position_at ctx)

def shadow_position_lifts : List HLSLSemanticLift :=
  ((find_shadow_position ctx).map (shadow_lift_at ctx)).toList

/-- The tests of the loop. The results are the two inputs. -/
def static_uv_at (index : ℕ) : Option (DXBCOperand × DXBCOperand) := do
  let program := ctx.program
  let condition_inst := program.instruction index
  let lightmap := program.instruction (index + 1)
  let dynamic := program.instruction (index + 2)
  let select := program.instruction (index + 3)
  guard (condition_inst.opcode = .NE ∧ 3 ≤ condition_inst.operands.length)
  let condition ← find_operand_type condition_inst .constantBuffer
  let zero ← find_operand_type condition_inst .immediate32
  guard (1 ≤ zero.imm_value_count ∧ zero.imm_values.x = 0 ∧
    operand_is_cb_variable ctx condition "_StaticUV1" ∧ lightmap.opcode = .MAD ∧
    dynamic.opcode = .MAD ∧ select.opcode = .MOVC ∧ 4 ≤ select.operands.length)
  let lightmap_input ← find_operand_type lightmap .input
  let dynamic_input ← find_operand_type dynamic .input
  guard (found_cb_variable ctx (find_operand_type lightmap .constantBuffer) "unity_LightmapST" ∧
    found_cb_variable ctx (find_operand_type dynamic .constantBuffer) "unity_DynamicLightmapST" ∧
    (operand select 1).type = .temp ∧
    (operand select 1).register_index = (operand condition_inst 0).register_index)
  some (lightmap_input, dynamic_input)

def static_uv_lift (index : ℕ) : Option HLSLSemanticLift :=
  (static_uv_at ctx index).map fun inputs =>
    { contract := k_static_uv_contract
      trigger_instruction := index
      after_instruction := -1
      claimed := consecutive index 4
      data := .static_uv (index + 3) inputs.1.register_index inputs.2.register_index }

def static_uv_lifts : List HLSLSemanticLift :=
  (range (ctx.program.instruction_count - 3)).filterMap (static_uv_lift ctx)

/-! ## Readable screen positions -/

structure ReadableScreenPos where
  mul_y : ℤ
  mul_xzw : ℤ
  add : ℤ
  mov : ℤ

/-- The three split multiplies, the copy and the addition. -/
def split_screen_pos_at (i : ℕ) : Bool :=
  let scale_y := program.instruction i
  let scale_w := program.instruction (i + 1)
  let scale_xz := program.instruction (i + 2)
  let copy_zw := program.instruction (i + 3)
  let add_xy := program.instruction (i + 4)
  let work := operand scale_y 0
  let clip := operand scale_y 1
  (scale_y.opcode = .MUL ∧ scale_w.opcode = .MUL ∧ scale_xz.opcode = .MUL ∧
    copy_zw.opcode = .MOV ∧ add_xy.opcode = .ADD ∧ 3 ≤ scale_y.operands.length ∧
    3 ≤ scale_w.operands.length ∧ 3 ≤ scale_xz.operands.length ∧
    2 ≤ copy_zw.operands.length ∧ 3 ≤ add_xy.operands.length) ∧
  (work.type = .temp ∧ work.destination_mask = 16 ∧ clip.type = .temp ∧
    (operand scale_y 2).type = .constantBuffer ∧ (operand scale_w 0).type = .temp ∧
    (operand scale_w 0).register_index = work.register_index ∧
    (operand scale_w 0).destination_mask = 128 ∧ (operand scale_w 1).type = .temp ∧
    (operand scale_w 1).register_index = work.register_index ∧
    (operand scale_w 2).type = .immediate32 ∧ (operand scale_w 2).imm_values.x = 0x3f000000) ∧
  ((operand scale_xz 0).type = .temp ∧ (operand scale_xz 0).register_index = work.register_index ∧
    (operand scale_xz 0).destination_mask = 80 ∧ (operand scale_xz 1).type = .temp ∧
    (operand scale_xz 1).register_index = clip.register_index ∧
    (operand scale_xz 2).type = .immediate32 ∧ (operand scale_xz 2).imm_values.x = 0x3f000000) ∧
  ((operand copy_zw 0).type = .output ∧
    ((operand copy_zw 0).destination_mask = 192 ∨ (operand copy_zw 0).destination_mask = 128) ∧
    (operand copy_zw 1).type = .temp ∧
    (operand copy_zw 1).register_index = clip.register_index ∧
    (operand add_xy 0).type = .output ∧
    (operand add_xy 0).register_index = (operand copy_zw 0).register_index ∧
    (operand add_xy 0).destination_mask = 48)

def is_half (bits : UInt32) : Bool := bits = 0x3f000000
def is_float_zero (bits : UInt32) : Bool := bits = 0 ∨ bits = 0x80000000

/-- The vector scale `mul regY.xzw, regX.xxwy, l(0.5, 0, 0.5, 0.5)`. -/
def scale_xzw_at (i : ℕ) : Bool :=
  let inst := program.instruction i
  let dest := operand inst 0
  let src0 := operand inst 1
  let src1 := operand inst 2
  inst.opcode = .MUL ∧ inst.operands.length = 3 ∧ dest.type = .temp ∧
    dest.destination_mask = 208 ∧ src0.type = .temp ∧ src0.swizzle_mode = 1 ∧
    src0.swizzle = ⟨0, 0, 3, 1⟩ ∧ src1.type = .immediate32 ∧ src1.imm_value_count = 4 ∧
    is_half src1.imm_values.x ∧ is_float_zero src1.imm_values.y ∧ is_half src1.imm_values.z ∧
    is_half src1.imm_values.w

/-- The projection scale `mul regX.y, regX.y, cb[B].x`. -/
def scale_y_at (regX : ℤ) (i : ℕ) : Bool :=
  let inst := program.instruction i
  let dest := operand inst 0
  let src0 := operand inst 1
  let src0_comp := if src0.swizzle_mode = 1 then src0.swizzle.y
    else if src0.swizzle_mode = 2 then src0.swizzle.x else 1
  inst.opcode = .MUL ∧ inst.operands.length = 3 ∧ dest.type = .temp ∧
    dest.register_index = regX ∧ dest.destination_mask = 32 ∧ src0.type = .temp ∧
    src0.register_index = regX ∧ src0_comp = 1 ∧ (operand inst 2).type = .constantBuffer

/-- The offset addition `add oOut.xy, regY.zzzz, regY.xwxx`, or into `.zw`. -/
def offset_add_at (regY : ℤ) (i : ℕ) : Bool :=
  let inst := program.instruction i
  let dest := operand inst 0
  let src0 := operand inst 1
  let src1 := operand inst 2
  let src0_comp := if src0.swizzle_mode = 1 ∨ src0.swizzle_mode = 2 then src0.swizzle.x else 2
  inst.opcode = .ADD ∧ inst.operands.length = 3 ∧ dest.type = .output ∧
    src0.type = .temp ∧ src0.register_index = regY ∧ src0_comp = 2 ∧ src1.type = .temp ∧
    src1.register_index = regY ∧ src1.swizzle_mode = 1 ∧
    ((dest.destination_mask = 48 ∧ src1.swizzle.x = 0 ∧ src1.swizzle.y = 3) ∨
      (dest.destination_mask = 192 ∧ src1.swizzle.z = 0 ∧ src1.swizzle.w = 3))

def copy_zw_at (regX regOut : ℤ) (i : ℕ) : Bool :=
  let inst := program.instruction i
  let dest := operand inst 0
  let src0 := operand inst 1
  inst.opcode = .MOV ∧ inst.operands.length = 2 ∧ dest.type = .output ∧
    dest.register_index = regOut ∧ dest.destination_mask = 192 ∧ src0.type = .temp ∧
    src0.register_index = regX ∧ src0.swizzle_mode = 1 ∧ src0.swizzle.z = 2 ∧ src0.swizzle.w = 3

/-- An index of an array, −1 for none. -/
def indexOr : Option ℕ → ℤ
  | some i => i
  | none => -1

def find_split_screen_pos : Option ℕ :=
  (range (program.instruction_count - 4)).find? (split_screen_pos_at program)

/-- The scans around the vector scale at `mul_xzw`, backwards and forwards. -/
def scan_screen_pos (mul_xzw : ℕ) : Option ReadableScreenPos := do
  let n := program.instruction_count
  let scale := program.instruction mul_xzw
  let regX := (operand scale 1).register_index
  let regY := (operand scale 0).register_index
  let mul_y := (range mul_xzw).reverse.find? (scale_y_at program regX)
  let add ← (range' (mul_xzw + 1) (n - (mul_xzw + 1))).find? (offset_add_at program regY)
  let out := operand (program.instruction add) 0
  let mov := if out.destination_mask = 48
    then (range n).find? (copy_zw_at program regX out.register_index) else none
  some ⟨indexOr mul_y, mul_xzw, add, indexOr mov⟩

def detect_readable_screen_pos_pattern : Option ReadableScreenPos :=
  let program := ctx.program
  if ctx.use_uint_temps then none
  else match find_split_screen_pos program with
    | some i => some ⟨i, i + 2, i + 4, i + 3⟩
    | none =>
      ((range program.instruction_count).find? (scale_xzw_at program)).bind
        (scan_screen_pos program)

/-- The claims of `register_readable_screen_position_lift`, and the one of a gap between the two
multiplies. -/
def readable_screen_position_claims (pos : ReadableScreenPos) : List ℤ :=
  let claimed := [pos.mul_y, pos.mul_xzw, pos.mov, pos.add].foldl
    (fun claimed instruction =>
      if 0 ≤ instruction ∧ instruction ∉ claimed then claimed ++ [instruction] else claimed) []
  if 0 ≤ pos.mul_y ∧ pos.mul_xzw = pos.mul_y + 2 then claimed ++ [pos.mul_y + 1] else claimed

def readable_screen_position_lift (pos : ReadableScreenPos) : HLSLSemanticLift where
  contract := k_readable_screen_position_contract
  trigger_instruction := if 0 ≤ pos.mul_y then pos.mul_y else pos.mul_xzw
  after_instruction := -1
  claimed := readable_screen_position_claims pos
  data := .zeroed

/-- The candidate, unless its trigger is negative. -/
def readable_screen_position_lifts : List HLSLSemanticLift :=
  ((detect_readable_screen_pos_pattern ctx).map readable_screen_position_lift).toList.filter
    fun lift => 0 ≤ lift.trigger_instruction

/-! ## Truthiness conditions -/

/-- The reads of a lane of a comparison: an instruction after it, and the operand that reads. -/
def lane_uses (definition lane : ℕ) : List (ℕ × ℕ) :=
  let program := ctx.program
  let register_index := (operand (program.instruction definition) 0).register_index
  let n := program.instruction_count
  (range' (definition + 1) (n - (definition + 1))).flatMap fun index =>
    let use := program.instruction index
    let first_source := if inst_writes_to_dest use then 1 else 0
    (range' first_source (use.operands.length - first_source)).flatMap fun operand_index =>
      let source := operand use operand_index
      if source.type = .temp ∧ source.register_index = register_index then
        ((range 4).filter fun component =>
          usil_operand_source_component source component = some lane ∧
            ctx.hlsl_operand_definition index operand_index component = some definition).map
          fun _ => (index, operand_index)
      else []

def comparison_lane_has_only_movc_predicate_uses (ctx : HLSLEmitterContext)
    (claim_owner : ℤ → Option ℕ) (definition lane : ℕ) : Bool :=
  let uses := lane_uses ctx definition lane
  uses ≠ [] ∧ uses.all fun use =>
    (ctx.program.instruction use.1).opcode = .MOVC ∧ use.2 = 1 ∧ claim_owner use.1 = none

def truthiness_value_operand : Option ℕ := do
  let immediate_operand ← if (operand inst 1).type = .immediate32 then some 1
    else if (operand inst 2).type = .immediate32 then some 2 else none
  let immediate := operand inst immediate_operand
  guard (0 < immediate.imm_value_count ∧
    ∀ component ∈ range immediate.imm_value_count, immediate.imm_values.get component = 0)
  some (if immediate_operand = 1 then 2 else 1)

/-- The lanes that a comparison writes, or none of them when one has another use. -/
def truthiness_mask (ctx : HLSLEmitterContext) (claim_owner : ℤ → Option ℕ) (index : ℕ) : ℕ :=
  let mask := (operand (ctx.program.instruction index) 0).destination_mask
  let lanes := (range 4).filter fun lane => mask.testBit (4 + lane)
  if lanes.all (comparison_lane_has_only_movc_predicate_uses ctx claim_owner index)
  then lanes.foldl (fun mask lane => mask ||| 2 ^ lane) 0 else 0

def truthiness_condition_lift (claim_owner : ℤ → Option ℕ) (index : ℕ) :
    Option HLSLSemanticLift := do
  let inst := ctx.program.instruction index
  guard (claim_owner index = none ∧ inst.opcode = .NE ∧ 3 ≤ inst.operands.length ∧
    (operand inst 0).type = .temp)
  let value_operand ← truthiness_value_operand inst
  let mask := truthiness_mask ctx claim_owner index
  guard (mask ≠ 0)
  some {
    contract := k_truthiness_contract
    trigger_instruction := index
    after_instruction := -1
    claimed := [(index : ℤ)]
    data := .truthiness value_operand mask }

/-- The body of the loop, which reads the owners at its turn. -/
def detect_truthiness_condition (semantic : HLSLSemanticProgram) (index : ℕ) :
    HLSLSemanticProgram :=
  registerAll ctx.program.instruction_count semantic
    (truthiness_condition_lift ctx semantic.claim_owner index).toList

def detect_truthiness_condition_lifts (semantic : HLSLSemanticProgram) : HLSLSemanticProgram :=
  if ['p', 's'].isPrefixOf ctx.shader_type_model.toList then
    (range ctx.program.instruction_count).foldl (detect_truthiness_condition ctx) semantic
  else semantic

/-! ## The analysis -/

def structural_candidates : List HLSLSemanticLift :=
  speedtree_wind_lifts ctx ++ alpha_clip_lifts ctx ++ high_priority_structural_lifts ctx ++
    shadow_position_lifts ctx ++ static_uv_lifts ctx

def before_screen_position (skip_instruction : ℤ → Bool) : HLSLSemanticProgram :=
  registerAll ctx.program.instruction_count
    (.initial ctx.program.instruction_count skip_instruction) (structural_candidates ctx)

def analyze_semantic_lifts (skip_instruction : ℤ → Bool) : HLSLSemanticProgram :=
  let semantic := before_screen_position ctx skip_instruction
  let semantic := registerAll ctx.program.instruction_count semantic
    (readable_screen_position_lifts ctx)
  detect_truthiness_condition_lifts ctx semantic

end DXBCSandbox.HlslSemantic
