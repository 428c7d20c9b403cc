/-
Validation of a program against the union of global declarations
(`src/translation/hlsl_global_declarations.c`).

The union declares the fields of all siblings. What the program itself may read are the fields that
its own parameters declare, so these are collected once more, compared with the union, and its
constant-buffer reads are projected onto them.
-/
import DXBCSandbox.Hlsl.GlobalDeclarations
import DXBCSandbox.Usil.CBufferProjection

namespace DXBCSandbox

open Usil GlobalDeclarations

namespace GlobalDeclarations

/-- The operands that may still be visited, when neither the operand nor one nested in it is of a
constant buffer. -/
def operand_has_no_cbuffer : OperandRef → (remaining : ℕ) → Option ℕ
  | .null, _ => none
  | .node fields rel_op0 rel_op1 rel_op2, remaining =>
    if remaining = 0 ∨ fields.type = .constantBuffer then none
    else do
      let remaining ← if rel_op0 = .null then some (remaining - 1)
        else operand_has_no_cbuffer rel_op0 (remaining - 1)
      let remaining ← if rel_op1 = .null then some remaining
        else operand_has_no_cbuffer rel_op1 remaining
      if rel_op2 = .null then some remaining else operand_has_no_cbuffer rel_op2 remaining

/-- No operand of a valid instruction is of a constant buffer. -/
def instructionHasNoCBuffer (program : USILDeclaredProgram) (instruction : USILInstruction) :
    Bool :=
  usil_instruction_shape_valid program instruction && instruction.operands.all fun op =>
      (operand_has_no_cbuffer op.ref DXBC_MAX_NESTED_OPERAND_TOKENS).isSome

/-- The shells are not those of the union, or there is one without a union. -/
def emptyScopeConflict (value : Option HLSLGlobalDeclarationUnion) (program : USILDeclaredProgram)
    (has_empty_shell residual_shell common_shell : Bool) : Bool :=
  match value with
  | none => has_empty_shell
  | some value =>
    value.shell_size ≠ 0 ∨ value.fields ≠ [] ∨ program.program_type ≠ value.dxbc_stage ∨
      ¬ has_empty_shell ∨ residual_shell ≠ value.empty_residual_shell ∨
      common_shell ≠ value.empty_common_shell ∨
      ¬ empty_stage_scope value program.shader_model_major program.shader_model_minor

end GlobalDeclarations

def hlsl_global_declarations_validate_empty_target (value : Option HLSLGlobalDeclarationUnion)
    (program : USILDeclaredProgram) (residual common : Option SerializedProgramParameters) :
    HLSLGlobalDeclarationStatus :=
  match empty_authority residual common, empty_parameters residual, empty_parameters common with
  | some has_empty_shell, some residual_shell, some common_shell =>
    if emptyScopeConflict value program has_empty_shell residual_shell common_shell then
      .scopeConflict
    else if program.cbuffers ≠ [] ∨ 4096 < program.instructions.length then
      .currentReadUnauthorized
    else if ¬ program.instructions.all (instructionHasNoCBuffer program) then
      .currentReadUnauthorized
    else .ok
  | _, _, _ => .shellConflict

namespace GlobalDeclarations

/-- The fields that the program's own parameters declare. -/
def targetFields (value : HLSLGlobalDeclarationUnion) (size : UInt32)
    (residual common : Option SerializedProgramParameters) :
    Except HLSLGlobalDeclarationStatus (List HLSLGlobalDeclarationField) := do
  let own ← append_parameters size [] residual value.current.toNat true
  append_parameters size own common value.current.toNat true

/-- As many as the union has of the current subprogram, and each of them is one of these. -/
def targetMatches (value : HLSLGlobalDeclarationUnion)
    (own : List HLSLGlobalDeclarationField) : Bool :=
  own.length = value.fields.countP (fun field => field.current_authority) ∧
    own.all fun field => value.fields.any fun other =>
      other.current_authority && same_layout field other

def fieldRange (field : HLSLGlobalDeclarationField) : DXBCCBufferVariableRange :=
  ⟨field.layout.byte_offset, field.byte_size.toUInt32⟩

/-- The program reads this buffer behind its end, or something other than the ranges. -/
def bufferUnauthorized (program : USILDeclaredProgram) (size : UInt32)
    (ranges : List DXBCCBufferVariableRange) (buffer : USILConstantBuffer) : Bool :=
  if buffer.size ≤ 0 ∨ (size.toNat : ℤ) < buffer.size * 16 then true
  else
    let (status, state) := dxbc_cbuffer_project_program program 0
      (buffer.size.toNat.toUInt32 * 16) ranges (dxbc_cbuffer_projection_reset ranges.length)
    status ≠ .exact ∨ state.projection.saw_static_padding_access ∨
      state.projection.saw_dynamic_access

/-- The loop over the buffers of the program. One of them is in register 0. -/
def targetBuffers (program : USILDeclaredProgram) (size : UInt32)
    (ranges : List DXBCCBufferVariableRange) :
    List USILConstantBuffer → (found_buffer : Bool) → HLSLGlobalDeclarationStatus
  | [], found_buffer => if found_buffer then .ok else .scopeConflict
  | buffer :: rest, found_buffer =>
    if buffer.reg_idx ≠ 0 then targetBuffers program size ranges rest found_buffer
    else if found_buffer then .scopeConflict
    else if bufferUnauthorized program size ranges buffer then .currentReadUnauthorized
    else targetBuffers program size ranges rest true

end GlobalDeclarations

def hlsl_global_declarations_validate_target (value : HLSLGlobalDeclarationUnion)
    (program : USILDeclaredProgram) (residual common : Option SerializedProgramParameters) :
    HLSLGlobalDeclarationStatus :=
  if program.program_type ≠ value.dxbc_stage ∨ 4096 < program.cbuffers.length then .scopeConflict
  else
    match shell residual common with
    | .error _ => .shellConflict
    | .ok size =>
      if size ≠ value.shell_size then .shellConflict
      else if size = 0 then
        hlsl_global_declarations_validate_empty_target (some value) program residual common
      else
        match targetFields value size residual common with
        | .error status => status
        | .ok own =>
          if ¬ targetMatches value own then .fieldConflict
          else targetBuffers program size (own.map fieldRange) program.cbuffers false

end DXBCSandbox
