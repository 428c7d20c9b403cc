/-
The use counts of `hlsl_use_def.c`, the SSA renaming of `hlsl_ssa.c` they rest on, and the
matrix chains of `hlsl_matrix_lift.c` that rest on them.

A negative SSA variable or definition is `none`. The placement of the phi nodes and the
children in the dominator tree are given: the counts hold for any. Two fields are ghosts. For
what the renaming reached, `source_version` is the active version when the sources of an
instruction were renamed, and `exit_version` the one at the end of a block. No modelled function
reads `relative_operand_ssa_vars`.
-/
import DXBCSandbox.Cfg.Build
import DXBCSandbox.Usil.Validation

namespace DXBCSandbox.UseDef

open Usil
open List (range range')
open Function (update)

structure HLSLPhiNode where
  register_index : ℤ
  component : ℕ
  /-- One entry for each predecessor of the block. -/
  incoming_vars : List (Option ℕ)

/-- The phi nodes of each block, as the register and the component they merge. -/
abbrev PhiPlacement := ℕ → List (ℤ × ℕ)

/-- The variable each component of a temp register has. -/
abbrev Version := ℤ → ℕ → Option ℕ

structure HLSLSSAGraph where
  operand_ssa_vars : ℕ → ℕ → ℕ → Option ℕ
  /-- `none` is `HLSL_DEFINITION_AMBIGUOUS`. -/
  ssa_var_defs : ℕ → Option ℕ
  ssa_var_count : ℕ
  block_phis : ℕ → List HLSLPhiNode

/-! ## Operands -/

variable (program : USILDeclaredProgram) (cfg : HLSLControlFlowGraph) (inst : USILInstruction)

/-- The register and the component that a lane of a directly read temp operand reads. -/
def source_lane (op lane : ℕ) : Option (ℤ × ℕ) :=
  match usil_instruction_operand_use program inst op with
  | some ⟨.source, mask⟩ =>
    if (operand inst op).type = .temp ∧ mask.testBit lane then
      (usil_operand_source_component (operand inst op) lane).map
        ((operand inst op).register_index, ·)
    else none
  | _ => none

/-- Every operand has a role, and every lane of a temp source selects a component. -/
def sources_valid : Bool :=
  (range inst.operands.length).all fun op =>
    match usil_instruction_operand_use program inst op with
    | none => false
    | some ⟨.source, mask⟩ => (operand inst op).type ≠ .temp ∨ (range 4).all fun lane =>
        !mask.testBit lane || (source_lane program inst op lane).isSome
    | some _ => true

def destination_lanes : List (ℕ × ℕ) :=
  (range inst.operands.length).flatMap fun op =>
    match usil_instruction_operand_use program inst op with
    | some ⟨.destination, _⟩ =>
      if (operand inst op).type = .temp then
        ((range 4).filter (usil_operand_destination_lane_mask (operand inst op)).testBit).map
          (op, ·)
      else []
    | _ => []

/-- The temp registers an instruction reads and writes directly exist. -/
def registers_valid : Bool :=
  (range inst.operands.length).all fun op =>
    match usil_instruction_operand_use program inst op with
    | some ⟨.source, _⟩ | some ⟨.destination, _⟩ => (operand inst op).type ≠ .temp ∨
        (0 ≤ (operand inst op).register_index ∧
          (operand inst op).register_index < program.temp_count)
    | _ => true

/-! ## Renaming -/

structure RenamingUndoEntry where
  reg : ℤ
  comp : ℕ
  old_version : Option ℕ

structure SSARenameFrame where
  block : ℕ
  next_child : ℕ
  undo_start : ℕ
  entered : Bool

/-- `undo_log` has its last entry first, and `stack` its top. -/
structure RenameState where
  active_version : Version
  next_ssa_var : ℕ
  operand_ssa_vars : ℕ → ℕ → ℕ → Option ℕ
  ssa_var_defs : ℕ → Option ℕ
  block_phis : ℕ → List HLSLPhiNode
  undo_log : List RenamingUndoEntry
  stack : List SSARenameFrame
  source_version : ℕ → Option Version
  exit_version : ℕ → Option Version

def setVersion (active : Version) (reg : ℤ) (comp : ℕ) (var : Option ℕ) : Version :=
  update active reg (update (active reg) comp var)

variable (s : RenameState)

/-- `(*next_ssa_var)++` with its definition and its entry in the log. -/
def new_variable (reg : ℤ) (comp : ℕ) (definition : Option ℕ) : RenameState :=
  { s with
    active_version := setVersion s.active_version reg comp (some s.next_ssa_var)
    next_ssa_var := s.next_ssa_var + 1
    ssa_var_defs := update s.ssa_var_defs s.next_ssa_var definition
    undo_log := ⟨reg, comp, s.active_version reg comp⟩ :: s.undo_log }

def rename_sources (index : ℕ) (s : RenameState) : RenameState :=
  { s with
    source_version := update s.source_version index (some s.active_version)
    operand_ssa_vars := update s.operand_ssa_vars index fun op lane =>
      match source_lane program (program.instruction index) op lane with
      | some read => s.active_version read.1 read.2
      | none => s.operand_ssa_vars index op lane }

def rename_destination (index : ℕ) (s : RenameState) (slot : ℕ × ℕ) : RenameState :=
  { new_variable s (operand (program.instruction index) slot.1).register_index slot.2 (some index)
    with
    operand_ssa_vars := update s.operand_ssa_vars index
      (update (s.operand_ssa_vars index) slot.1
        (update (s.operand_ssa_vars index slot.1) slot.2 (some s.next_ssa_var))) }

def rename_instruction (index : ℕ) : Option RenameState :=
  let inst := program.instruction index
  if sources_valid program inst && registers_valid program inst then
    some ((destination_lanes program inst).foldl (rename_destination program index)
      (rename_sources program index s))
  else none

/-- Fills the slot of `block` in the phi nodes of one successor. -/
def fill_successor (block : ℕ) (s : RenameState) (succ : ℕ) : RenameState :=
  match (cfg.blocks succ).predecessors.idxOf? block with
  | none => s
  | some slot =>
    { s with
      block_phis := update s.block_phis succ ((s.block_phis succ).map fun phi =>
        { phi with
          incoming_vars :=
            phi.incoming_vars.set slot (s.active_version phi.register_index phi.component) }) }

def rename_ssa_block (block : ℕ) : Option RenameState := do
  let merged := (s.block_phis block).foldl
    (fun s phi => new_variable s phi.register_index phi.component none) s
  let start := (cfg.blocks block).first_instruction
  let renamed ← (range' start ((cfg.blocks block).last_instruction + 1 - start)).foldlM
    (rename_instruction program) merged
  pure ((cfg.blocks block).successors.foldl (fill_successor cfg block)
    { renamed with
      exit_version := update renamed.exit_version block (some renamed.active_version) })

/-- Takes back the entries above `undo_start`. -/
def undo_to (undo_start : ℕ) (s : RenameState) : RenameState :=
  let undone := s.undo_log.take (s.undo_log.length - undo_start)
  { s with
    active_version := undone.foldl
      (fun active entry => setVersion active entry.reg entry.comp entry.old_version)
      s.active_version
    undo_log := s.undo_log.drop undone.length }

def rename_round (dom_children : ℕ → List ℕ) (s : RenameState) : Option RenameState :=
  match s.stack with
  | [] => some s
  | top :: below =>
    let frame : SSARenameFrame := if top.entered then top
      else { top with undo_start := s.undo_log.length, entered := true }
    let entered := if top.entered then some s else rename_ssa_block program cfg s top.block
    entered.map fun s =>
      match (dom_children frame.block)[frame.next_child]? with
      | some child =>
        { s with
          stack := ⟨child, 0, 0, false⟩ :: { frame with next_child := frame.next_child + 1 } ::
            below }
      | none => { undo_to frame.undo_start s with stack := below }

def rename_rounds (dom_children : ℕ → List ℕ) : ℕ → RenameState → Option RenameState
  | 0, s => some s
  | n + 1, s => (rename_round program cfg dom_children s).bind (rename_rounds dom_children n)

def add_phi_node (predecessor_count : ℕ) (phi : ℤ × ℕ) : HLSLPhiNode :=
  ⟨phi.1, phi.2, List.replicate predecessor_count none⟩

variable (placement : PhiPlacement)

/-- The state before the traversal, which starts with the entry block. -/
def rename_start : RenameState where
  active_version := fun _ _ => none
  next_ssa_var := 0
  operand_ssa_vars := fun _ _ _ => none
  ssa_var_defs := fun _ => none
  block_phis := fun block =>
    (placement block).map (add_phi_node (cfg.blocks block).predecessors.length)
  undo_log := []
  stack := [⟨0, 0, 0, false⟩]
  source_version := fun _ => none
  exit_version := fun _ => none

def RenameState.graph : HLSLSSAGraph :=
  ⟨s.operand_ssa_vars, s.ssa_var_defs, s.next_ssa_var, s.block_phis⟩

/-- The renaming of the program with its phi nodes ends in `s`. -/
def SSABuilt : Prop :=
  ∃ dom_children rounds, s.stack = [] ∧
    rename_rounds program cfg dom_children rounds (rename_start cfg placement) = some s

/-! ## Use counts -/

variable (ssa : HLSLSSAGraph)

def HLSLSSAGraph.definition (var : Option ℕ) : Option ℕ :=
  var.bind fun var => if var < ssa.ssa_var_count then ssa.ssa_var_defs var else none

def hlsl_operand_definition (instruction operand component : ℕ) : Option ℕ :=
  ssa.definition (ssa.operand_ssa_vars instruction operand component)

/-- The definitions, with their component, that the operands from `first` on read. -/
def operand_uses (index first : ℕ) : List (ℕ × ℕ) :=
  let inst := program.instruction index
  (range' first (inst.operands.length - first)).flatMap fun op =>
    (range 4).filterMap fun lane => (source_lane program inst op lane).bind fun read =>
      (hlsl_operand_definition ssa index op lane).map (·, read.2)

def phi_uses : List (ℕ × ℕ) :=
  (range cfg.block_count).flatMap fun block => (ssa.block_phis block).flatMap fun phi =>
    phi.incoming_vars.filterMap fun var => (ssa.definition var).map (·, phi.component)

/-- The increments of the counts, in order. A graph that is not built is `none`. -/
def build_hlsl_use_def_graph : Option (List (ℕ × ℕ)) :=
  let count := program.instruction_count
  if (range count).all fun index => sources_valid program (program.instruction index) then
    some ((range count).flatMap (operand_uses program ssa · 0) ++
      (phi_uses cfg ssa).filter (·.1 < count))
  else none

def hlsl_definition_use_count (uses : List (ℕ × ℕ)) (instruction component : ℕ) : ℕ :=
  if program.instruction_count ≤ instruction ∨ 4 ≤ component then 0
  else uses.count (instruction, component)

/-! ## Matrix chains -/

/-- The link of the nested chain whose value a temp operand must read. -/
def expected_offset (offset op : ℕ) : Option ℕ :=
  if offset = 0 then none
  else if offset ≤ 3 then some (offset - 1)
  else if offset = 4 ∨ op = 2 then some 3
  else some (offset - 1)

/-- One temp operand of the nested chain reads only the value it must. -/
def operand_is_owned (start offset op : ℕ) : Bool :=
  let inst := program.instruction (start + offset)
  if (operand inst op).type ≠ .temp then true
  else
    match usil_instruction_operand_use program inst op with
    | some ⟨.source, mask⟩ => (range 4).all fun lane => !mask.testBit lane ||
        ((expected_offset offset op).any fun expected =>
          hlsl_operand_definition ssa (start + offset) op lane = some (start + expected) ∧
            (source_lane program inst op lane).isSome)
    | _ => false

def chain_uses (start offset : ℕ) : List (ℕ × ℕ) :=
  let inst := program.instruction (start + offset)
  (range' 1 (inst.operands.length - 1)).flatMap fun op =>
    (range 4).filterMap fun lane => (source_lane program inst op lane).bind fun read =>
      (expected_offset offset op).map (·, read.2)

/-- `claimed` are the instructions with a claim owner, and `effect_free` those that
`usil_instruction_effects` finds without effects. -/
def chain_dataflow_is_owned (claimed : ℕ → Bool) (effect_free : USILInstruction → Bool)
    (uses : List (ℕ × ℕ)) (start : ℕ) : Bool :=
  ((range 8).all fun offset =>
    let inst := program.instruction (start + offset)
    !claimed (start + offset) && effect_free inst &&
      (range' 1 (inst.operands.length - 1)).all (operand_is_owned program ssa start offset)) &&
  (range 7).all fun offset => (range 4).all fun lane =>
    hlsl_definition_use_count program uses (start + offset) lane =
      ((range 8).flatMap (chain_uses program start)).count (offset, lane)

/-- The tests of `prepare_single_matrix` on the accumulator of a chain of `width` links. Its
other tests reject more chains. -/
def single_chain_is_owned (uses : List (ℕ × ℕ)) (start width : ℕ) : Bool :=
  let chain (offset : ℕ) := program.instruction (start + offset)
  decide (usil_operand_destination_lane_mask (operand (chain 0) 0) = 2 ^ width - 1 ∧
    (width = 3 ∨ width = 4) ∧ start + width ≤ program.instruction_count) &&
  ((range' 1 (width - 1)).all fun offset =>
    let inst := chain offset
    decide (inst.opcode = .MAD ∧ inst.operands.length = 4 ∧
      usil_instruction_shape_valid program inst ∧
      usil_operand_destination_lane_mask (operand inst 0) = 2 ^ width - 1 ∧
      (operand inst 3).type = .temp ∧
      (operand inst 3).register_index = (operand (chain 0) 0).register_index) &&
    ((range 4).all fun lane => usil_operand_source_component (operand inst 3) lane =
      some (if width = 3 ∧ lane = 3 then 0 else lane)) &&
    (range width).all fun lane =>
      hlsl_operand_definition ssa (start + offset) 3 lane = some (start + offset - 1)) &&
  (range (width - 1)).all fun offset => (range width).all fun lane =>
    hlsl_definition_use_count program uses (start + offset) lane = 1

end DXBCSandbox.UseDef
