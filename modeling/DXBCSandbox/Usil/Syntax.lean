/-
USIL, the intermediate language between DXBC and HLSL (`include/translation/usil.h`).

A program is a flat instruction array: structured control flow is spelled with
opening and closing instructions, and operands are the decoded DXBC operands.

The diagnostic string `original_asm` is presentation and is not modelled. Of the
declarations of a program only those that a modelled function reads are here.
-/
import DXBCSandbox.Dxbc.Instruction

namespace DXBCSandbox

/-- `USILOpcode`. The enumerators drop their `USIL_OP_` prefix. -/
inductive USILOpcode where
  | NOP | ADD | SUB | MUL | DIV | MAD | MOV | MOVC | DP2 | DP3 | DP4 | RCP | RSQ | SQRT | MIN | MAX
  | LT | GE | EQ | NE | ILT | IGE | IEQ | INE | ULT | UGE | AND | OR | XOR | NOT
  | ISHL | ISHR | USHR | FTOI | FTOU | ITOF | UTOF
  | SAMPLE | SAMPLE_C | SAMPLE_C_LZ | SAMPLE_L | SAMPLE_D | SAMPLE_B
  | LD | LD_STRUCTURED | LD_MS | RESINFO | SAMPLEINFO
  | LOG | EXP | SIN | COS | FRC | ROUND_NE | ROUND_NI | ROUND_PI | ROUND_Z
  | IF | ELSE | ENDIF | LOOP | ENDLOOP | SWITCH | CASE | DEFAULT | ENDSWITCH
  | BREAK | BREAKC | CONTINUE | CONTINUEC | RET | DISCARD
  | DERIV_RTX | DERIV_RTY | DERIV_RTX_COARSE | DERIV_RTY_COARSE | DERIV_RTX_FINE | DERIV_RTY_FINE
  | IADD | IMUL | IMAD | IMAX | IMIN | UMAX | UMIN | UDIV | INEG
  | IMM_ATOMIC_IADD | LDMS | SINCOS | UBFE | GEOMETRY_APPEND | GEOMETRY_RESTART_STRIP | SYNC
  | LD_UAV_TYPED | STORE_UAV_TYPED | LD_RAW | STORE_RAW | STORE_STRUCTURED
  | ATOMIC_XOR | ATOMIC_IADD | IMM_ATOMIC_ALLOC | IMM_ATOMIC_CONSUME | IMM_ATOMIC_CMP_EXCH
  deriving DecidableEq

inductive USILGeometryEffectKind where
  | none | append | restartStrip
  deriving DecidableEq

structure USILInstruction where
  opcode : USILOpcode
  saturate : Bool
  precise_mask : ℕ
  condition_test : DXBCInstructionTest
  resource_dimension : String
  has_resource_dimension : Bool
  resource_stride : ℕ
  has_texel_offset : Bool
  texel_offsets : Dims ℤ
  has_resource_return_types : Bool
  resource_return_types : Lanes ℕ
  resource_info_return_type : ℕ
  sample_info_return_type : ℕ
  source_instruction_index : ℕ
  geometry_effect : USILGeometryEffectKind
  geometry_stream_id : ℕ
  geometry_stream_explicit : Bool
  sync_flags : ℕ
  operands : List DXBCOperand

/-- An instruction of cleared memory. Its opcode is enumerator zero. -/
def USILInstruction.zeroed : USILInstruction where
  opcode := .NOP
  saturate := false
  precise_mask := 0
  condition_test := .none
  resource_dimension := ""
  has_resource_dimension := false
  resource_stride := 0
  has_texel_offset := false
  texel_offsets := .const 0
  has_resource_return_types := false
  resource_return_types := ⟨0, 0, 0, 0⟩
  resource_info_return_type := 0
  sample_info_return_type := 0
  source_instruction_index := 0
  geometry_effect := .none
  geometry_stream_id := 0
  geometry_stream_explicit := false
  sync_flags := 0
  operands := []

/-- A program. `instruction_count` is an `int`, so the array has at most `INT_MAX`
entries. -/
structure USILProgram where
  instructions : List USILInstruction
  temp_count : ℤ
  count_le : instructions.length ≤ INT_MAX

namespace USILProgram

variable (program : USILProgram)

def instruction_count : ℕ := program.instructions.length

/-- `program->instructions[index]`. The callers keep the index in range. -/
def instruction (index : ℕ) : USILInstruction :=
  program.instructions.getD index .zeroed

def opcode (index : ℕ) : USILOpcode :=
  (program.instruction index).opcode

lemma instruction_count_le : program.instruction_count ≤ INT_MAX :=
  program.count_le

end USILProgram

end DXBCSandbox
