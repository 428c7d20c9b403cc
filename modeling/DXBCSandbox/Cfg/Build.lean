/-
The control-flow graph builder (`build_control_flow_graph_range` of
`src/translation/hlsl_cfg.c`).

The builder matches the flow structure, marks the first instruction of every block,
cuts the range into blocks, and then emits the edges of each block from its last
instruction. Predecessor lists are filled last, from the successor lists.

The slices of the shared edge storage are lists here, one for each block, and the
`predecessor_count` that the edge loop keeps before any predecessor is stored is a
counter of that loop. Storage is always available.
-/
import DXBCSandbox.Cfg.Flow

namespace DXBCSandbox

open USILOpcode
open Function (update)

structure HLSLBasicBlock where
  first_instruction : ℕ
  last_instruction : ℕ
  successors : List ℕ
  predecessors : List ℕ
  has_ambiguous_flow : Bool
  may_exit : Bool

def HLSLBasicBlock.zeroed : HLSLBasicBlock := ⟨0, 0, [], [], false, false⟩

structure HLSLBlockNesting where
  parent_block : Option ℕ
  is_loop : Bool
  is_if : Bool

/-- The graph. `allocated` says that it owns storage: the builder refuses such a graph.
Dominance is kept apart. -/
structure HLSLControlFlowGraph where
  allocated : Bool
  block_count : ℕ
  instruction_count : ℕ
  blocks : ℕ → HLSLBasicBlock
  instruction_block : ℕ → Option ℕ
  instruction_flow : ℕ → HLSLInstructionFlow
  nesting : ℕ → HLSLBlockNesting

def HLSLControlFlowGraph.zeroed : HLSLControlFlowGraph where
  allocated := false
  block_count := 0
  instruction_count := 0
  blocks := fun _ => .zeroed
  instruction_block := fun _ => none
  instruction_flow := fun _ => .unlinked
  nesting := fun _ => ⟨none, false, false⟩

variable (blocks : ℕ → HLSLBasicBlock)

def modifyBlock (block : ℕ) (f : HLSLBasicBlock → HLSLBasicBlock) : ℕ → HLSLBasicBlock :=
  update blocks block (f (blocks block))

lemma modifyBlock_apply (block k : ℕ) (f : HLSLBasicBlock → HLSLBasicBlock) :
    modifyBlock blocks block f k = if k = block then f (blocks block) else blocks k := by
  rw [modifyBlock, Function.update_apply]

/-! ## Blocks -/

variable (program : USILProgram)

def mark_leader (end_instruction : ℕ) (leader : ℕ → Bool) (index : ℕ) : ℕ → Bool :=
  if is_boundary (program.opcode index) then
    let leader := update leader index true
    if index + 1 < end_instruction then update leader (index + 1) true else leader
  else leader

/-- The loop that marks the leaders. The first instruction of the range is one. -/
def mark_leaders (first_instruction end_instruction : ℕ) : ℕ → Bool :=
  (List.range' first_instruction (end_instruction - first_instruction)).foldl
    (mark_leader program end_instruction)
    (update (fun _ => false) first_instruction true)

structure BlockSplit where
  block_count : ℕ
  blocks : ℕ → HLSLBasicBlock

variable (s : BlockSplit)

def open_block (index : ℕ) : BlockSplit :=
  let block := s.block_count
  let blocks := modifyBlock s.blocks block fun b => { b with first_instruction := index }
  { block_count := block + 1
    blocks := if 0 < block then
        modifyBlock blocks (block - 1) fun b => { b with last_instruction := index - 1 }
      else blocks }

def split_block (leader : ℕ → Bool) (s : BlockSplit) (index : ℕ) : BlockSplit :=
  if leader index then open_block s index else s

def split_blocks (leader : ℕ → Bool) (first_instruction end_instruction : ℕ) : BlockSplit :=
  let s := (List.range' first_instruction (end_instruction - first_instruction)).foldl
    (split_block leader) ⟨0, fun _ => .zeroed⟩
  { s with
    blocks := modifyBlock s.blocks (s.block_count - 1) fun b =>
      { b with last_instruction := end_instruction - 1 } }

/-- `instruction_block[index] = block` for every instruction of a block. -/
def assign_block (instruction_block : ℕ → Option ℕ) (block : ℕ) : ℕ → Option ℕ :=
  let b := s.blocks block
  (List.range' b.first_instruction (b.last_instruction + 1 - b.first_instruction)).foldl
    (fun instruction_block index => update instruction_block index (some block))
    instruction_block

def assign_blocks : ℕ → Option ℕ :=
  (List.range' 0 s.block_count).foldl (assign_block s) (fun _ => none)

/-! ## Edges -/

def link_index : Option ℕ → ℤ
  | none => -1
  | some k => k

/-- The labels of a switch, following `next_case`. The chain of a matched switch has at
most `fuel` labels. -/
def case_labels (flow : ℕ → HLSLInstructionFlow) : ℕ → Option ℕ → List ℕ
  | 0, _ => []
  | _ + 1, none => []
  | fuel + 1, some label => label :: case_labels flow fuel (flow label).next_case

/-- The instructions that `EDGE` is applied to for a block that ends at `last`, in
order. -/
def edge_targets (flow : ℕ → HLSLInstructionFlow) (last : ℕ) : List ℤ :=
  let opcode := program.opcode last
  if opcode = RET then []
  else if opcode = SWITCH then
    (case_labels flow program.instruction_count (flow last).first_case).map Int.ofNat ++
      if (flow last).has_default then [] else [link_index (flow last).end_ + 1]
  else if opcode = IF then
    [(last : ℤ) + 1,
      (if (flow last).alternate.isSome then link_index (flow last).alternate
        else link_index (flow last).end_) + 1]
  else if opcode = ELSE then [link_index (flow last).end_ + 1]
  else if opcode = BREAK ∨ opcode = BREAKC ∨ opcode = CONTINUE ∨ opcode = CONTINUEC then
    let target := link_index (flow ((flow last).jump_scope.getD 0)).end_
    (if opcode = BREAKC ∨ opcode = CONTINUEC then [(last : ℤ) + 1] else []) ++
      [if opcode = CONTINUE ∨ opcode = CONTINUEC then target else target + 1]
  else if opcode = ENDLOOP then [link_index (flow last).jump_scope + 1]
  else [(last : ℤ) + 1]

structure BlockMap where
  first_instruction : ℕ
  end_instruction : ℕ
  instruction_count : ℕ
  block_count : ℕ
  instruction_block : ℕ → Option ℕ

structure EdgeBuilder where
  blocks : ℕ → HLSLBasicBlock
  predecessor_count : ℕ → ℕ
  edge_count : ℕ

/-- Adds the edge from a block to an instruction, or the exit for the end of the range.
An edge that exists is not added again. -/
def add_successor (map : BlockMap) (source : ℕ) (s : EdgeBuilder) (instruction : ℤ) :
    Option EdgeBuilder :=
  if map.block_count ≤ source then none
  else if instruction = map.end_instruction then
    some { s with blocks := modifyBlock s.blocks source fun b => { b with may_exit := true } }
  else if instruction < map.first_instruction ∨ instruction ≥ map.end_instruction then none
  else
    match map.instruction_block instruction.toNat with
    | none => none
    | some target =>
      if map.block_count ≤ target then none
      else if target ∈ (s.blocks source).successors then some s
      else if map.instruction_count * 3 ≤ s.edge_count ∨
          (s.blocks source).successors.length = INT_MAX ∨
          s.predecessor_count target = INT_MAX then none
      else some {
        blocks := modifyBlock s.blocks source fun b =>
          { b with successors := b.successors ++ [target] }
        predecessor_count :=
          update s.predecessor_count target (s.predecessor_count target + 1)
        edge_count := s.edge_count + 1 }

def emit_block_edges (program : USILProgram) (flow : ℕ → HLSLInstructionFlow) (map : BlockMap)
    (s : EdgeBuilder) (block : ℕ) : Option EdgeBuilder :=
  let last := (s.blocks block).last_instruction
  let opcode := program.opcode last
  let blocks := modifyBlock s.blocks block fun b =>
    { b with
      may_exit := opcode = RET || opcode = DISCARD
      has_ambiguous_flow :=
        opcode = SWITCH || opcode = CASE || opcode = DEFAULT || opcode = ENDSWITCH }
  (edge_targets program flow last).foldlM (add_successor map block) { s with blocks := blocks }

/-- The construct around the first instruction of a block. -/
def block_nesting (flow : ℕ → HLSLInstructionFlow) (instruction_block : ℕ → Option ℕ) (first : ℕ) :
    HLSLBlockNesting :=
  match (flow first).parent with
  | none => ⟨none, false, false⟩
  | some parent =>
    { parent_block := instruction_block parent
      is_loop := program.opcode parent = LOOP
      is_if := program.opcode parent = IF || program.opcode parent = ELSE }

def fill_block_predecessors (block : ℕ) : ℕ → HLSLBasicBlock :=
  (blocks block).successors.foldl (fun blocks target =>
      modifyBlock blocks target fun b => { b with predecessors := b.predecessors ++ [block] })
    blocks

def fill_predecessors (block_count : ℕ) (blocks : ℕ → HLSLBasicBlock) : ℕ → HLSLBasicBlock :=
  (List.range' 0 block_count).foldl fill_block_predecessors blocks

/-! ## The builder -/

/-- The part of the builder after its argument checks, for a range that is not empty. -/
def build_graph (program : USILProgram) (first_instruction end_instruction : ℕ) :
    Option HLSLControlFlowGraph :=
  match match_flow_structure program first_instruction end_instruction with
  | none => none
  | some flow =>
    let leader := mark_leaders program first_instruction end_instruction
    let split := split_blocks leader first_instruction end_instruction
    let map : BlockMap := {
      first_instruction
      end_instruction
      instruction_count := program.instruction_count
      block_count := split.block_count
      instruction_block := assign_blocks split }
    match (List.range' 0 split.block_count).foldlM (emit_block_edges program flow map)
        ⟨split.blocks, fun _ => 0, 0⟩ with
    | none => none
    | some s => some {
        allocated := true
        block_count := split.block_count
        instruction_count := program.instruction_count
        blocks := fill_predecessors split.block_count s.blocks
        instruction_block := map.instruction_block
        instruction_flow := flow
        nesting := fun block => block_nesting program flow map.instruction_block
          (split.blocks block).first_instruction }

def valid_range (first_instruction end_instruction : ℤ) : Bool :=
  0 ≤ first_instruction ∧ first_instruction ≤ end_instruction ∧
    end_instruction ≤ program.instruction_count ∧
    ¬ (first_instruction = end_instruction ∧ program.instruction_count ≠ 0)

/-- `cfg` is the graph of the emitter context before the call. -/
def build_control_flow_graph_range (cfg : HLSLControlFlowGraph)
    (first_instruction end_instruction : ℤ) : Option HLSLControlFlowGraph :=
  if !valid_range program first_instruction end_instruction then none
  else if program.instruction_count = 0 then some cfg
  else if cfg.allocated then none
  else build_graph program first_instruction.toNat end_instruction.toNat

def build_control_flow_graph (cfg : HLSLControlFlowGraph) : Option HLSLControlFlowGraph :=
  build_control_flow_graph_range program cfg 0 program.instruction_count

end DXBCSandbox
