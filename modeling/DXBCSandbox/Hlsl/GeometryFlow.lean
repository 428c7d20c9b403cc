/-
Outputs that are written before every append (`src/translation/hlsl_geometry_flow.c`).

For each block the analysis keeps the output lanes that are written on every path to its start and
to its end. It starts from all lanes, meets the ends of the predecessors, and repeats until nothing
changes. The entry starts without any lane, and an append takes none away: the output registers
keep their values.
-/
import DXBCSandbox.Cfg.Exact
import DXBCSandbox.Usil.Validation

namespace DXBCSandbox

open Usil

structure USILGeometryProgram extends USILDeclaredProgram where
  outputs : List DXBCSignatureElement

def FLOW_LIMIT : ℕ := 64

/-- How the analysis ends other than with `true`. -/
inductive FlowFailure where
  | refused | outOfBounds
  deriving DecidableEq

abbrev FlowAnalysis (α : Type) := Except FlowFailure α

/-- The lanes of the 32 output registers, four bits each. -/
abbrev OutputRow := List ℕ

/-- The rows `in` and `out`, and whether the current pass changed one. -/
structure FlowRows where
  in_rows : List OutputRow
  out_rows : List OutputRow
  changed : Bool

/-- `current[register] |= lanes` for an instruction whose first operand is an output. -/
def write_output (owner : USILInstruction) (current : OutputRow) : FlowAnalysis OutputRow :=
  let destination := operand owner 0
  if owner.operands.length ≠ 0 ∧ destination.type = .output then
    if 0 ≤ destination.register_index ∧ destination.register_index < current.length then
      .ok (current.modify destination.register_index.toNat
        (· ||| usil_operand_destination_lane_mask destination))
    else .error .outOfBounds
  else .ok current

def meet_predecessors (out_rows : List OutputRow) : List ℕ → OutputRow → FlowAnalysis OutputRow
  | [], current => .ok current
  | p :: predecessors, current =>
    match out_rows[p]? with
    | none => .error .outOfBounds
    | some row => meet_predecessors out_rows predecessors (List.zipWith (· &&& ·) current row)

/-- The loop over the instructions of a block, `n` of them from `i` on. -/
def write_outputs (program : USILGeometryProgram) : (n i : ℕ) → OutputRow → FlowAnalysis OutputRow
  | 0, _, current => .ok current
  | n + 1, i, current => do
    let current ← write_output (program.instruction i) current
    write_outputs program n (i + 1) current

def update_row (rows : List OutputRow) (changed : Bool) (b : ℕ) (current : OutputRow) :
    List OutputRow × Bool :=
  if rows[b]? = some current then (rows, changed) else (rows.set b current, true)

def HLSLBasicBlock.instruction_total (block : HLSLBasicBlock) : ℕ :=
  block.last_instruction + 1 - block.first_instruction

variable (program : USILGeometryProgram)

def visit_block (cfg : HLSLControlFlowGraph) (b : ℕ) (rows : FlowRows) : FlowAnalysis FlowRows :=
  let block := cfg.blocks b
  if b ≠ 0 ∧ block.predecessors = [] then .error .refused
  else do
    let current ← meet_predecessors rows.out_rows block.predecessors
      (List.replicate 32 (if b = 0 then 0 else 15))
    let before := update_row rows.in_rows rows.changed b current
    let current ← write_outputs program block.instruction_total block.first_instruction current
    let after := update_row rows.out_rows before.2 b current
    pure ⟨before.1, after.1, after.2⟩

def visit_blocks (program : USILGeometryProgram) (cfg : HLSLControlFlowGraph) :
    List ℕ → FlowRows → FlowAnalysis FlowRows
  | [], rows => .ok rows
  | b :: blocks, rows => do
    let rows ← visit_block program cfg b rows
    visit_blocks program cfg blocks rows

def run_passes (program : USILGeometryProgram) (cfg : HLSLControlFlowGraph) :
    (n : ℕ) → FlowRows → FlowAnalysis FlowRows
  | 0, rows => .ok rows
  | n + 1, rows =>
    if ¬ rows.changed then .ok rows
    else do
      let rows ← visit_blocks program cfg (List.range cfg.block_count)
        { rows with changed := false }
      run_passes program cfg n rows

/-- The loop over the declared outputs at an append. -/
def fields_written (current : OutputRow) : List DXBCSignatureElement → FlowAnalysis Unit
  | [] => .ok ()
  | field :: fields =>
    match current[field.register_id.toNat]? with
    | none => .error .outOfBounds
    | some lanes =>
      if lanes &&& field.mask.toNat ≠ field.mask.toNat then .error .refused
      else fields_written current fields

def check_append (owner : USILInstruction) (current : OutputRow) : FlowAnalysis Unit :=
  if owner.opcode = .GEOMETRY_APPEND then fields_written current program.outputs else .ok ()

def check_instructions (program : USILGeometryProgram) : (n i : ℕ) → OutputRow → FlowAnalysis Unit
  | 0, _, _ => .ok ()
  | n + 1, i, current => do
    let current ← write_output (program.instruction i) current
    check_append program (program.instruction i) current
    check_instructions program n (i + 1) current

def check_blocks (program : USILGeometryProgram) (cfg : HLSLControlFlowGraph)
    (in_rows : List OutputRow) : List ℕ → FlowAnalysis Unit
  | [] => .ok ()
  | b :: blocks => do
    let block := cfg.blocks b
    check_instructions program block.instruction_total block.first_instruction (in_rows.getD b [])
    check_blocks program cfg in_rows blocks

def output_initialized_at_appends (cfg : HLSLControlFlowGraph) : FlowAnalysis Unit :=
  if cfg.block_count = 0 ∨ FLOW_LIMIT < cfg.block_count then .error .refused
  else do
    let all_lanes := List.replicate FLOW_LIMIT (List.replicate 32 15)
    let rows ← run_passes program cfg (cfg.block_count * 33)
      ⟨all_lanes.set 0 (List.replicate 32 0), all_lanes, true⟩
    if rows.changed then .error .refused
    else check_blocks program cfg rows.in_rows (List.range cfg.block_count)

end DXBCSandbox
