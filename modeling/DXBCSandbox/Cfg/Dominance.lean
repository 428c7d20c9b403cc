/-
Dominance (`build_postorder`, `intersect`, `compute_dominance` and `hlsl_cfg_dominates` of
`src/translation/hlsl_cfg.c`).

Immediate dominators are found by iteration over the blocks in reverse postorder. A
dominance frontier is then collected by climbing from the predecessors of every join.

A loop without a counter gets a bound on its iterations here. `none` means that the bound
was not enough or that the code fails; the bounds are always enough.
-/
import DXBCSandbox.Cfg.Build

namespace DXBCSandbox

open Function (update)

/-! ## Postorder -/

structure DFSFrame where
  block : ℕ
  next_successor : ℕ

/-- The state of the search, with the innermost frame first on the stack. -/
structure PostorderState where
  stack : List DFSFrame
  visited : ℕ → Bool
  postorder : List ℕ

variable (cfg : HLSLControlFlowGraph)

def postorder_step (s : PostorderState) : PostorderState :=
  match s.stack with
  | [] => s
  | frame :: rest =>
    match (cfg.blocks frame.block).successors[frame.next_successor]? with
    | none => { s with stack := rest, postorder := s.postorder ++ [frame.block] }
    | some successor =>
      let stack := { frame with next_successor := frame.next_successor + 1 } :: rest
      if s.visited successor then { s with stack }
      else { s with
        stack := ⟨successor, 0⟩ :: stack
        visited := update s.visited successor true }

def postorder_loop (cfg : HLSLControlFlowGraph) : ℕ → PostorderState → Option PostorderState
  | 0, s => if s.stack = [] then some s else none
  | fuel + 1, s => if s.stack = [] then some s else postorder_loop cfg fuel (postorder_step cfg s)

def PostorderState.initial : PostorderState where
  stack := [⟨0, 0⟩]
  visited := update (fun _ => false) 0 true
  postorder := []

def build_postorder (cfg : HLSLControlFlowGraph) : Option (List ℕ) :=
  (postorder_loop cfg (cfg.block_count * (cfg.block_count + 2)) .initial).map
    PostorderState.postorder

def postorder_numbers (postorder : List ℕ) : ℕ → ℤ :=
  (List.range' 0 postorder.length).foldl
    (fun numbers index => update numbers (postorder.getD index 0) index) (fun _ => -1)

/-! ## Immediate dominators -/

/-- An inner loop of `intersect`: climbs while the number is below the limit. The result
is the finger, `none` when the finger has become negative. -/
def climb_finger (numbers : ℕ → ℤ) (idom : ℕ → Option ℕ) (limit : ℤ) : ℕ → ℕ → Option (Option ℕ)
  | 0, _ => none
  | fuel + 1, finger =>
    if numbers finger < limit then
      match idom finger with
      | none => some none
      | some parent => climb_finger numbers idom limit fuel parent
    else some (some finger)

/-- `bound` limits the inner loops, the argument after it the outer loop. -/
def intersect (numbers : ℕ → ℤ) (idom : ℕ → Option ℕ) (bound : ℕ) : ℕ → ℕ → ℕ → Option ℕ
  | 0, _, _ => none
  | fuel + 1, finger1, finger2 =>
    if finger1 = finger2 then some finger1
    else
      match climb_finger numbers idom (numbers finger2) bound finger1 with
      | none => none
      | some none => some finger2
      | some (some finger1) =>
        match climb_finger numbers idom (numbers finger1) bound finger2 with
        | none => none
        | some none => some finger1
        | some (some finger2) => intersect numbers idom bound fuel finger1 finger2

/-- The parent so far and one more predecessor. Predecessors without a dominator are
skipped. -/
def merge_predecessor (numbers : ℕ → ℤ) (idom : ℕ → Option ℕ) (bound : ℕ) (parent : Option ℕ)
    (predecessor : ℕ) : Option (Option ℕ) :=
  match idom predecessor with
  | none => some parent
  | some _ =>
    match parent with
    | none => some (some predecessor)
    | some p => (intersect numbers idom bound bound p predecessor).map some

structure DominancePass where
  idom : ℕ → Option ℕ
  changed : Bool

def dominance_step (postorder : List ℕ) (s : DominancePass) (index : ℕ) : Option DominancePass :=
  let block_index := postorder.getD index 0
  match (cfg.blocks block_index).predecessors.foldlM
      (merge_predecessor (postorder_numbers postorder) s.idom (cfg.block_count + 1)) none with
  | none => none
  | some parent =>
    if parent ≠ s.idom block_index then
      some ⟨update s.idom block_index parent, true⟩
    else some s

/-- A pass over all blocks but the entry, in reverse postorder. -/
def dominance_pass (postorder : List ℕ) (idom : ℕ → Option ℕ) : Option DominancePass :=
  (List.range' 0 (postorder.length - 1)).reverse.foldlM (dominance_step cfg postorder) ⟨idom, false⟩

def dominance_loop (cfg : HLSLControlFlowGraph) (postorder : List ℕ) :
    ℕ → (ℕ → Option ℕ) → Option (ℕ → Option ℕ)
  | 0, _ => none
  | fuel + 1, idom =>
    match dominance_pass cfg postorder idom with
    | none => none
    | some s => if s.changed then dominance_loop cfg postorder fuel s.idom else some s.idom

/-! ## Frontiers -/

def add_frontier (values : List ℕ) (block : ℕ) : Option (List ℕ) :=
  if block ∈ values then some values
  else if values.length = INT_MAX then none
  else some (values ++ [block])

/-- Climbs from a predecessor to the immediate dominator `stop` of a block. -/
def climb_frontier (idom : ℕ → Option ℕ) (block stop : ℕ) :
    ℕ → ℕ → (ℕ → List ℕ) → Option (ℕ → List ℕ)
  | 0, _, _ => none
  | fuel + 1, runner, frontiers =>
    if runner = stop then some frontiers
    else
      match add_frontier (frontiers runner) block, idom runner with
      | some values, some next =>
        climb_frontier idom block stop fuel next (update frontiers runner values)
      | _, _ => none

def block_frontiers (idom : ℕ → Option ℕ) (frontiers : ℕ → List ℕ) (block_index : ℕ) :
    Option (ℕ → List ℕ) :=
  let predecessors := (cfg.blocks block_index).predecessors
  match idom block_index with
  | none => some frontiers
  | some stop =>
    if predecessors.length < 2 then some frontiers
    else
      predecessors.foldlM (fun frontiers runner =>
          match idom runner with
          | none => some frontiers
          | some _ => climb_frontier idom block_index stop (cfg.block_count + 1) runner frontiers)
        frontiers

/-! ## The analysis -/

/-- `idom`, `df` and `df_count` of the graph. -/
structure HLSLDominance where
  idom : ℕ → Option ℕ
  df : ℕ → List ℕ

def compute_dominance (cfg : HLSLControlFlowGraph) : Option HLSLDominance :=
  if cfg.block_count = 0 then some ⟨fun _ => none, fun _ => []⟩
  else if !cfg.allocated then none
  else
    match build_postorder cfg with
    | none => none
    | some postorder =>
      match dominance_loop cfg postorder (cfg.block_count * cfg.block_count + 2)
          (update (fun _ => none) 0 (some 0)) with
      | none => none
      | some idom =>
        match (List.range' 0 cfg.block_count).foldlM (block_frontiers cfg idom)
            (fun _ => []) with
        | none => none
        | some df => some ⟨idom, df⟩

/-- The loop of `hlsl_cfg_dominates`, for `steps` more blocks. -/
def dominates_loop (dominance : HLSLDominance) (block_count dominator : ℕ) : ℕ → ℕ → Bool
  | 0, _ => false
  | steps + 1, block =>
    if block = dominator then true
    else
      match dominance.idom block with
      | none => false
      | some parent =>
        if block_count ≤ parent ∨ parent = block then false
        else dominates_loop dominance block_count dominator steps parent

def hlsl_cfg_dominates (dominance : HLSLDominance) (dominator block : ℤ) : Bool :=
  if dominator < 0 ∨ dominator ≥ cfg.block_count ∨ block < 0 ∨ block ≥ cfg.block_count ∨
      dominance.idom dominator.toNat = none ∨ dominance.idom block.toNat = none then false
  else dominates_loop dominance cfg.block_count dominator.toNat cfg.block_count block.toNat

end DXBCSandbox
