/-
Layouts of variables (`src/io/parameter_layout.c`).

The packed record of the player data and the record of the type tree hold the same layout in two
orders. Which of them a variable has is said by its parameter block, never by the words themselves.
-/
import DXBCSandbox.Io.SubprogramMetadata

namespace DXBCSandbox

structure DecodedVariableLayout where
  byte_offset : UInt32
  array_size : UInt32
  scalar_type : UInt32
  rows : UInt32
  columns : UInt32
  is_matrix : Bool
  deriving DecidableEq

def parameter_layout_decode (parameters : SerializedProgramParameters)
    (field : SerializedVariable) : Option DecodedVariableLayout :=
  let word (i : Fin 6) := field.layout.get i
  let decoded : DecodedVariableLayout :=
    if parameters.is_binary then
      let is_matrix := word 3 != 0
      { scalar_type := word 0
        is_matrix
        array_size := word 4
        byte_offset := word 5
        rows := if is_matrix then word 1 else 1
        columns := if is_matrix then 4 else word 2 }
    else
      let is_matrix := word 4 != 0
      { byte_offset := word 0
        array_size := word 1
        scalar_type := word 2
        is_matrix
        rows := if is_matrix then word 3 else 1
        columns := if is_matrix then 4 else word 3 }
  if decoded.rows ≥ 1 ∧ decoded.rows ≤ 4 ∧ decoded.columns ≥ 1 ∧ decoded.columns ≤ 4 then
    some decoded
  else none

/-- Zero for a size that does not fit into 32 bits. -/
def parameter_layout_byte_size (layout : DecodedVariableLayout) : ℕ :=
  let byte_size :=
    if layout.is_matrix then
      (if layout.array_size ≠ 0 then layout.array_size.toNat else 1) * layout.rows.toNat * 16
    else if layout.array_size ≠ 0 then
      (layout.array_size.toNat - 1) * 16 + layout.columns.toNat * 4
    else layout.columns.toNat * 4
  if byte_size ≤ UINT32_MAX then byte_size else 0

end DXBCSandbox
