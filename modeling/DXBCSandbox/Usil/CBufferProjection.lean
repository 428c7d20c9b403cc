/-
Constant-buffer projection (`src/translation/dxbc_cbuffer_projection.c`).

The bytes that a program reads from one constant buffer are projected onto caller-supplied
variable ranges. A static index names one row of sixteen bytes; a relative one may name any, and
marks all of them. Operands nest: what computes a relative index is a read as well.

The variable-use array and the aggregate flags are one state that is passed along. A call that
returns `INVALID` leaves what it has marked so far.
-/
import DXBCSandbox.Usil.Validation

namespace DXBCSandbox

open Usil

inductive DXBCCBufferProjectionStatus where
  | exact | requiresIndexAuthority | invalid
  deriving DecidableEq

def DXBCCBufferProjectionStatus.code : DXBCCBufferProjectionStatus → ℕ
  | .exact => 0
  | .requiresIndexAuthority => 1
  | .invalid => 2

structure DXBCCBufferVariableRange where
  byte_offset : UInt32
  byte_size : UInt32

structure DXBCCBufferVariableUse where
  referenced : Bool
  dynamically_addressed : Bool
  component_mask : ℕ

structure DXBCCBufferProjection where
  saw_access : Bool
  saw_dynamic_access : Bool
  saw_padding_access : Bool
  saw_static_padding_access : Bool
  saw_dynamic_padding_access : Bool

namespace CBuffer

structure State where
  uses : List DXBCCBufferVariableUse
  projection : DXBCCBufferProjection

def combine_status (left right : DXBCCBufferProjectionStatus) : DXBCCBufferProjectionStatus :=
  if right.code < left.code then left else right

def ranges_overlap (left right : DXBCCBufferVariableRange) : Bool :=
  left.byte_offset.toNat < right.byte_offset.toNat + right.byte_size.toNat ∧
    right.byte_offset.toNat < left.byte_offset.toNat + left.byte_size.toNat

def validate_ranges_from : (previous rest : List DXBCCBufferVariableRange) → Bool
  | _, [] => true
  | previous, range :: rest =>
    if range.byte_size = 0 ∨ range.byte_offset.toNat % 4 ≠ 0 ∨ range.byte_size.toNat % 4 ≠ 0 ∨
        UINT32_MAX < range.byte_offset.toNat + range.byte_size.toNat then false
    else if previous.any (ranges_overlap range) then false
    else validate_ranges_from (previous ++ [range]) rest

def validate_ranges (cbuffer_size_bytes : UInt32) (ranges : List DXBCCBufferVariableRange) : Bool :=
  if cbuffer_size_bytes = 0 ∨ cbuffer_size_bytes.toNat % 16 ≠ 0 then false
  else validate_ranges_from [] ranges

end CBuffer

open CBuffer

def dxbc_cbuffer_projection_reset (variable_count : ℕ) : CBuffer.State :=
  ⟨List.replicate variable_count ⟨false, false, 0⟩, ⟨false, false, false, false, false⟩⟩

namespace CBuffer

def swizzle_lanes (op : DXBCOperand) (logical_lane_mask : ℕ) : List ℕ → Option ℕ
  | [] => some 0
  | lane :: rest =>
    if ¬ logical_lane_mask.testBit lane then swizzle_lanes op logical_lane_mask rest
    else if 3 < op.swizzle.get lane then none
    else do
      let result ← swizzle_lanes op logical_lane_mask rest
      some (2 ^ op.swizzle.get lane ||| result)

def operand_physical_lane_mask (op : DXBCOperand) (logical_lane_mask : ℕ) : Option ℕ :=
  if logical_lane_mask = 0 ∨ 16 ≤ logical_lane_mask then none
  else
    match op.swizzle_mode with
    | 1 => swizzle_lanes op logical_lane_mask [0, 1, 2, 3]
    | 2 => if 3 < op.swizzle.get 0 then none else some (2 ^ op.swizzle.get 0)
    | _ => none

section Project

variable (cbuffer_register cbuffer_size_bytes : UInt32) (ranges : List DXBCCBufferVariableRange)

/-- The loop that looks for the variable of a byte. Two of them are an error. -/
def match_variable (byte_offset : ℕ) :
    ℕ → List DXBCCBufferVariableRange → Option ℕ → Except Unit (Option ℕ)
  | _, [], found => pure found
  | variable_index, range :: rest, found =>
    if range.byte_offset.toNat ≤ byte_offset ∧
        byte_offset < range.byte_offset.toNat + range.byte_size.toNat then
      if found.isSome then .error ()
      else match_variable byte_offset (variable_index + 1) rest (some variable_index)
    else match_variable byte_offset (variable_index + 1) rest found

def mark_use (physical_lane : ℕ) (dynamic : Bool) (use : DXBCCBufferVariableUse) :
    DXBCCBufferVariableUse :=
  { referenced := true
    dynamically_addressed := use.dynamically_addressed || dynamic
    component_mask := use.component_mask ||| 2 ^ physical_lane }

def project_byte (byte_offset physical_lane : ℕ) (dynamic : Bool) (state : State) :
    DXBCCBufferProjectionStatus × State :=
  match match_variable byte_offset 0 ranges none with
  | .error _ => (.invalid, state)
  | .ok none =>
    (.exact, { state with projection := { state.projection with
      saw_padding_access := true
      saw_static_padding_access := state.projection.saw_static_padding_access || !dynamic
      saw_dynamic_padding_access := state.projection.saw_dynamic_padding_access || dynamic } })
  | .ok (some found) =>
    (.exact, { state with uses := state.uses.modify found (mark_use physical_lane dynamic) })

/-- The result of one more projection, behind the status so far. -/
def after (status : DXBCCBufferProjectionStatus) (result : DXBCCBufferProjectionStatus × State) :
    DXBCCBufferProjectionStatus × State :=
  (combine_status status result.1, result.2)

def project_lanes (row_offset physical_lane_mask : ℕ) (dynamic : Bool) :
    List ℕ → DXBCCBufferProjectionStatus → State → DXBCCBufferProjectionStatus × State
  | [], status, state => (status, state)
  | lane :: lanes, status, state =>
    if ¬ physical_lane_mask.testBit lane then
      project_lanes row_offset physical_lane_mask dynamic lanes status state
    else
      let (status, state) := after status
        (project_byte ranges (row_offset + lane * 4) lane dynamic state)
      project_lanes row_offset physical_lane_mask dynamic lanes status state

def project_row (row physical_lane_mask : ℕ) (dynamic : Bool) (state : State) :
    DXBCCBufferProjectionStatus × State :=
  let row_offset := row * 16
  if cbuffer_size_bytes.toNat ≤ row_offset then (.invalid, state)
  else project_lanes ranges row_offset physical_lane_mask dynamic [0, 1, 2, 3] .exact state

def project_rows (physical_lane_mask : ℕ) :
    (count row : ℕ) → DXBCCBufferProjectionStatus → State → DXBCCBufferProjectionStatus × State
  | 0, _, status, state => (status, state)
  | count + 1, row, status, state =>
    let (status, state) := after status
      (project_row cbuffer_size_bytes ranges row physical_lane_mask true state)
    project_rows physical_lane_mask count (row + 1) status state

end Project

/-- The relative index of a dynamic operand has the encoding of one. -/
def dynamic_index_valid (op : DXBCOperand) : Bool :=
  let representation := op.index_representations.get 1
  ¬ (representation < 2 ∨ 4 < representation ∨ (representation = 2 ∧ op.index_has_immediate.get 1) ∨
    (3 ≤ representation ∧ ¬ op.index_has_immediate.get 1) ∨
    op.index_value_exceeds_int.get 1 ∨ INT_MAX < (op.index_values.get 1).toNat ∨
    op.rel_offset0 < 0 ∨ op.rel_offset0 ≠ (op.index_values.get 1).toNat)

def static_index_valid (op : DXBCOperand) : Bool :=
  op.index_has_immediate.get 1 ∧ op.index_representations.get 1 ≤ 1 ∧
    ¬ op.index_value_exceeds_int.get 1 ∧ (op.index_values.get 1).toNat ≤ UINT32_MAX ∧
      0 ≤ op.rel_offset0 ∧ op.rel_offset0 = (op.index_values.get 1).toNat

def slot_valid (op : DXBCOperand) : Bool :=
  op.index_has_immediate.get 0 ∧ op.rel_op0 = .null ∧ op.index_representations.get 0 ≤ 1 ∧
    ¬ op.index_value_exceeds_int.get 0 ∧ (op.index_values.get 0).toNat ≤ UINT32_MAX ∧
      0 ≤ op.register_index ∧ op.register_index = (op.index_values.get 0).toNat

end CBuffer

def dxbc_cbuffer_project_operand (op : DXBCOperand) (logical_lane_mask : ℕ)
    (cbuffer_register cbuffer_size_bytes : UInt32) (ranges : List DXBCCBufferVariableRange)
    (state : CBuffer.State) : DXBCCBufferProjectionStatus × CBuffer.State :=
  if ¬ validate_ranges cbuffer_size_bytes ranges ∨ op.type ≠ .constantBuffer ∨
      op.register_index_dim ≠ 2 ∨ op.rel_op2 ≠ .null then (.invalid, state)
  else if ¬ slot_valid op then (.invalid, state)
  else if (op.index_values.get 0).toNat ≠ cbuffer_register.toNat then (.exact, state)
  else
    match operand_physical_lane_mask op logical_lane_mask with
    | none => (.invalid, state)
    | some physical_lane_mask =>
      let state := { state with projection := { state.projection with saw_access := true } }
      if op.rel_op1 = .null then
        if ¬ static_index_valid op then (.invalid, state)
        else project_row cbuffer_size_bytes ranges (op.index_values.get 1).toNat
          physical_lane_mask false state
      else if ¬ dynamic_index_valid op then (.invalid, state)
      else
        project_rows cbuffer_size_bytes ranges physical_lane_mask
          (cbuffer_size_bytes.toNat / 16) 0 .requiresIndexAuthority
          { state with projection := { state.projection with saw_dynamic_access := true } }

namespace CBuffer

section Tree

variable (cbuffer_register cbuffer_size_bytes : UInt32) (ranges : List DXBCCBufferVariableRange)

def project_operand_tree : OperandRef → (project_root : Bool) → (root_lane_mask depth : ℕ) → State →
      DXBCCBufferProjectionStatus × State
  | .null, _, _, _, state => (.invalid, state)
  | .node fields rel_op0 rel_op1 rel_op2, project_root, root_lane_mask, depth, state =>
    if DXBC_MAX_NESTED_OPERAND_TOKENS ≤ depth then (.invalid, state)
    else
      let result := if project_root ∧ fields.type = .constantBuffer then
          dxbc_cbuffer_project_operand ⟨fields, rel_op0, rel_op1, rel_op2⟩ root_lane_mask
            cbuffer_register cbuffer_size_bytes ranges state
        else (.exact, state)
      let result := if rel_op0 = .null then result
        else after result.1 (project_operand_tree rel_op0 true 1 (depth + 1) result.2)
      let result := if rel_op1 = .null then result
        else after result.1 (project_operand_tree rel_op1 true 1 (depth + 1) result.2)
      if rel_op2 = .null then result
      else after result.1 (project_operand_tree rel_op2 true 1 (depth + 1) result.2)

def project_operands (program : USILDeclaredProgram) (instruction : USILInstruction) :
    (operand_index : ℕ) → List DXBCOperand → DXBCCBufferProjectionStatus → State →
      DXBCCBufferProjectionStatus × State
  | _, [], status, state => (status, state)
  | operand_index, op :: rest, status, state =>
    match usil_instruction_operand_use program instruction operand_index with
    | none => (.invalid, state)
    | some use =>
      let is_source := decide (use.use = .source)
      if ¬ is_source ∧ op.type = .constantBuffer then (.invalid, state)
      else
        let result := after status (project_operand_tree cbuffer_register cbuffer_size_bytes
          ranges op.ref is_source use.source_lane_mask 0 state)
        if result.1 = .invalid then result
        else project_operands program instruction (operand_index + 1) rest result.1 result.2

def project_instructions (program : USILDeclaredProgram) :
    List USILInstruction → DXBCCBufferProjectionStatus → State → DXBCCBufferProjectionStatus × State
  | [], status, state => (status, state)
  | instruction :: rest, status, state =>
    if ¬ usil_instruction_shape_valid program instruction then (.invalid, state)
    else
      let result := project_operands cbuffer_register cbuffer_size_bytes ranges program
        instruction 0 instruction.operands status state
      if result.1 = .invalid then result
      else project_instructions program rest result.1 result.2

end Tree

end CBuffer

def dxbc_cbuffer_project_program (program : USILDeclaredProgram)
    (cbuffer_register cbuffer_size_bytes : UInt32) (ranges : List DXBCCBufferVariableRange)
    (state : CBuffer.State) : DXBCCBufferProjectionStatus × CBuffer.State :=
  if ¬ validate_ranges cbuffer_size_bytes ranges then (.invalid, state)
  else project_instructions cbuffer_register cbuffer_size_bytes ranges program
    program.instructions .exact state

end DXBCSandbox
