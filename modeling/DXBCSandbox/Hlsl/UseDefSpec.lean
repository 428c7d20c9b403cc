/-
The use counts against the reads of the program.

A read resolves to the definition of the variable that is active where it happens: at the
instruction, or for a phi node at the end of each predecessor of its block. The counts have the
direct reads and the phi edges. They leave out the temp operands nested as relative indices, so
they are complete, and the chains they accept are owned, exactly when no nested operand reads the
value of an instruction.
-/
import DXBCSandbox.Cfg.Exact
import DXBCSandbox.Hlsl.UseDef
import DXBCSandbox.Usil.CBufferProjectionSpec
import Mathlib.Data.List.Count
import Mathlib.Data.List.Flatten
import Mathlib.Data.List.Perm.Basic

namespace DXBCSandbox.UseDef

open List Usil CBuffer Function

variable (program : USILDeclaredProgram) (cfg : HLSLControlFlowGraph) (placement : PhiPlacement)

/-! ## Reads -/

/-- The definition, with its component, that a read of a register component resolves to where the
version is active. Nothing is read where the renaming did not come. -/
def resolve (s : RenameState) (version : Option Version) (read : ℤ × ℕ) : Option (ℕ × ℕ) :=
  version.bind fun version => (s.graph.definition (version read.1 read.2)).map (·, read.2)

def directReads (s : RenameState) (index : ℕ) : List (ℕ × ℕ) :=
  let inst := program.instruction index
  (List.range inst.operands.length).flatMap fun op => (List.range 4).filterMap fun lane =>
    (source_lane program inst op lane).bind (resolve s (s.source_version index))

def nestedReads (s : RenameState) (index : ℕ) : List (ℕ × ℕ) :=
  (program.instruction index).operands.flatMap fun op => (relatives op).filterMap fun root =>
    if root.type = .temp then
      (usil_operand_source_component root 0).bind fun component =>
        resolve s (s.source_version index) (root.register_index, component)
    else none

def instructionReads (s : RenameState) (index : ℕ) : List (ℕ × ℕ) :=
  directReads program s index ++ nestedReads program s index

/-- A phi node reads its register component at the end of each predecessor of its block. -/
def phiReads (s : RenameState) : List (ℕ × ℕ) :=
  (List.range cfg.block_count).flatMap fun block => (placement block).flatMap fun phi =>
    (cfg.blocks block).predecessors.filterMap fun pred => resolve s (s.exit_version pred) phi

def valueReads (s : RenameState) (indices : List ℕ) : List (ℕ × ℕ) :=
  indices.flatMap (instructionReads program s) ++ phiReads cfg placement s

/-- Every component is counted as often as it is read. -/
def CountsComplete (s : RenameState) (uses : List (ℕ × ℕ)) : Prop :=
  ∀ d < program.instruction_count, ∀ c < 4, hlsl_definition_use_count program uses d c =
    (valueReads program cfg placement s (List.range program.instruction_count)).count (d, c)

def outside (start width : ℕ) : List ℕ :=
  List.range start ++ List.range' (start + width) (program.instruction_count - (start + width))

/-- No intermediate value of an accepted chain is read outside the chain. -/
def ChainsOwned (s : RenameState) (uses : List (ℕ × ℕ)) : Prop :=
  (∀ claimed effect_free start, start + 8 ≤ program.instruction_count →
    chain_dataflow_is_owned program s.graph claimed effect_free uses start = true →
    ∀ offset < 7, ∀ lane < 4,
      (start + offset, lane) ∉ valueReads program cfg placement s (outside program start 8)) ∧
  ∀ start width, single_chain_is_owned program s.graph uses start width = true →
    ∀ offset < width - 1, ∀ lane < width,
      (start + offset, lane) ∉ valueReads program cfg placement s (outside program start width)

/-! ## Filling the phi nodes -/

/-- What the counts need of the graph: an edge has one slot, and it is filled from its source. -/
structure EdgesInverse : Prop where
  nodup : ∀ block < cfg.block_count, (cfg.blocks block).predecessors.Nodup
  successor : ∀ block < cfg.block_count, ∀ pred ∈ (cfg.blocks block).predecessors,
    block ∈ (cfg.blocks pred).successors

/-- The phi nodes of a block when each slot has the variable active at the end of its
predecessor. -/
def filledPhis (exit_version : ℕ → Option Version) (block : ℕ) : List HLSLPhiNode :=
  (placement block).map fun phi => ⟨phi.1, phi.2, (cfg.blocks block).predecessors.map fun pred =>
    (exit_version pred).bind fun version => version phi.1 phi.2⟩

variable {program cfg placement} {s s' : RenameState} {uses : List (ℕ × ℕ)}

lemma edgesInverse_of_build {first last : ℤ}
    (h : build_control_flow_graph_range program.toUSILProgram .zeroed first last = some cfg) :
    EdgesInverse cfg := by
  obtain ⟨t, htree⟩ := exists_tree_of_build h
  have hexact := exactGraph_of_build h htree
  exact ⟨fun block hlt => (hexact.nodup block hlt).2,
    fun block hlt pred hpred => ((hexact.mem_predecessors pred block hlt).mp hpred).2⟩

section Fill

variable {block succ : ℕ} {exit_version : ℕ → Option Version}

lemma filledPhis_update_of_notMem (hnew : block ∉ (cfg.blocks succ).predecessors)
    (version : Option Version) :
    filledPhis cfg placement (Function.update exit_version block version) succ =
      filledPhis cfg placement exit_version succ := by
  refine map_congr_left fun phi _ => ?_
  congr 1
  refine map_congr_left fun pred hpred => ?_
  rw [update_of_ne (ne_of_mem_of_not_mem hpred hnew)]

lemma fill_successor_same (hnodup : (cfg.blocks succ).predecessors.Nodup)
    (hphis : s.block_phis succ = filledPhis cfg placement exit_version succ) :
    (fill_successor cfg block s succ).block_phis succ = filledPhis cfg placement
      (Function.update exit_version block (some s.active_version)) succ := by
  unfold fill_successor
  cases hslot : (cfg.blocks succ).predecessors.idxOf? block with
  | none => rw [hphis, filledPhis_update_of_notMem (idxOf?_eq_none_iff.mp hslot)]
  | some slot =>
    have hmem : block ∈ (cfg.blocks succ).predecessors := by
      by_contra hnot
      rw [idxOf?_eq_none_iff.mpr hnot] at hslot
      cases hslot
    have hidx : slot = (cfg.blocks succ).predecessors.idxOf block := by
      rw [idxOf_eq_getD_idxOf?, hslot]
      rfl
    dsimp only
    rw [update_self, hphis, filledPhis, filledPhis, map_map]
    refine map_congr_left fun phi _ => ?_
    have hset := hnodup.map_update
      (fun pred => (exit_version pred).bind fun version => version phi.1 phi.2) block
      (s.active_version phi.1 phi.2)
    rw [if_pos hmem, ← hidx] at hset
    have hcomp := comp_update (fun version : Option Version =>
      version.bind fun version => version phi.1 phi.2) exit_version block (some s.active_version)
    exact congrArg (HLSLPhiNode.mk phi.1 phi.2) (hset.symm.trans (congrArg (map · _) hcomp.symm))

lemma fill_successor_other {other : ℕ} (hne : other ≠ succ) :
    (fill_successor cfg block s succ).block_phis other = s.block_phis other := by
  unfold fill_successor
  split
  · rfl
  · exact update_of_ne hne _ _

@[simp] lemma fill_successor_active_version :
    (fill_successor cfg block s succ).active_version = s.active_version := by
  unfold fill_successor
  split <;> rfl

lemma fill_successors_frame (succs : List ℕ) :
    (succs.foldl (fill_successor cfg block) s).operand_ssa_vars = s.operand_ssa_vars ∧
      (succs.foldl (fill_successor cfg block) s).source_version = s.source_version ∧
      (succs.foldl (fill_successor cfg block) s).exit_version = s.exit_version := by
  induction succs generalizing s with
  | nil => exact ⟨rfl, rfl, rfl⟩
  | cons succ succs ih =>
    obtain ⟨hvars, hsource, hexit⟩ := ih (s := fill_successor cfg block s succ)
    rw [foldl_cons, hvars, hsource, hexit]
    unfold fill_successor
    split <;> exact ⟨rfl, rfl, rfl⟩

/-- A block is filled when it comes up among the successors, and stays filled. -/
theorem fill_successors_phis (hedges : EdgesInverse cfg) (succs : List ℕ)
    (hphis : ∀ b < cfg.block_count, s.block_phis b = filledPhis cfg placement
        (Function.update exit_version block (some s.active_version)) b ∨
      b ∈ succs ∧ s.block_phis b = filledPhis cfg placement exit_version b) :
    ∀ b < cfg.block_count, (succs.foldl (fill_successor cfg block) s).block_phis b =
      filledPhis cfg placement (Function.update exit_version block (some s.active_version)) b := by
  induction succs generalizing s with
  | nil => exact fun b hb => (hphis b hb).resolve_right fun hmem => absurd hmem.1 not_mem_nil
  | cons succ succs ih =>
    have hactive : (fill_successor cfg block s succ).active_version = s.active_version :=
      fill_successor_active_version
    rw [foldl_cons, ← hactive]
    refine ih fun b hb => ?_
    rw [hactive]
    rcases eq_or_ne b succ with rfl | hne
    · left
      rcases hphis b hb with hfilled | ⟨-, hold⟩
      · rw [fill_successor_same (hedges.nodup b hb) hfilled, update_idem]
      · exact fill_successor_same (hedges.nodup b hb) hold
    · rw [fill_successor_other hne]
      exact (hphis b hb).imp_right fun hmem => ⟨(mem_cons.mp hmem.1).resolve_left hne, hmem.2⟩

end Fill

/-! ## The renaming -/

/-- The slot of each source lane has the variable active where the lane is read, and the slot of
each phi edge the one active at the end of the predecessor. -/
structure SlotsHold (program : USILDeclaredProgram) (cfg : HLSLControlFlowGraph)
    (placement : PhiPlacement) (s : RenameState) : Prop where
  sources : ∀ i op lane read, source_lane program (program.instruction i) op lane = some read →
    s.operand_ssa_vars i op lane = (s.source_version i).bind fun v => v read.1 read.2
  phis : ∀ block < cfg.block_count,
    s.block_phis block = filledPhis cfg placement s.exit_version block

lemma slotsHold_rename_start : SlotsHold program cfg placement (rename_start cfg placement) where
  sources _ _ _ _ _ := rfl
  phis block _ := by
    refine map_congr_left fun phi _ => ?_
    rw [add_phi_node, ← map_const']
    rfl

lemma slotsHold_rename_sources (index : ℕ) (h : SlotsHold program cfg placement s) :
    SlotsHold program cfg placement (rename_sources program index s) := by
  refine ⟨fun i op lane read hread => ?_, h.phis⟩
  rcases eq_or_ne i index with rfl | hne
  · simp [rename_sources, hread]
  · simp [rename_sources, hne, h.sources i op lane read hread]

variable {inst : USILInstruction} {slot : ℕ × ℕ}

lemma source_lane_of_destination (h : slot ∈ destination_lanes program inst) (lane : ℕ) :
    source_lane program inst slot.1 lane = none := by
  unfold destination_lanes at h
  obtain ⟨op, -, h⟩ := mem_flatMap.mp h
  split at h
  · next huse =>
    split_ifs at h
    · obtain ⟨_, -, rfl⟩ := mem_map.mp h
      simp [source_lane, huse]
    · cases h
  · cases h

variable {index : ℕ}

lemma slotsHold_rename_destination
    (hslot : slot ∈ destination_lanes program (program.instruction index))
    (h : SlotsHold program cfg placement s) :
    SlotsHold program cfg placement (rename_destination program index s slot) := by
  refine ⟨fun i op lane read hread => ?_, h.phis⟩
  have hne : ¬ (i = index ∧ op = slot.1) := by
    rintro ⟨rfl, rfl⟩
    simp [source_lane_of_destination hslot] at hread
  rw [show (rename_destination program index s slot).source_version = s.source_version from rfl,
    ← h.sources i op lane read hread]
  rcases eq_or_ne i index with rfl | hi
  · simp [rename_destination, update_of_ne (fun hop => hne ⟨rfl, hop⟩)]
  · simp [rename_destination, hi]

lemma slotsHold_rename_instruction (h : SlotsHold program cfg placement s)
    (hrun : rename_instruction program s index = some s') :
    SlotsHold program cfg placement s' := by
  unfold rename_instruction at hrun
  simp only [Option.ite_none_right_eq_some, Option.some.injEq] at hrun
  rw [← hrun.2]
  exact foldlRecOn _ _ (slotsHold_rename_sources index h)
    fun _ h _ hslot => slotsHold_rename_destination hslot h

lemma slotsHold_rename_instructions (indices : List ℕ) (h : SlotsHold program cfg placement s)
    (hrun : indices.foldlM (rename_instruction program) s = some s') :
    SlotsHold program cfg placement s' := by
  induction indices generalizing s with
  | nil => rwa [← Option.some.inj hrun]
  | cons index indices ih =>
    obtain ⟨t, hfst, hrest⟩ := Option.bind_eq_some_iff.mp hrun
    exact ih (slotsHold_rename_instruction h hfst) hrest

section Run

variable (hedges : EdgesInverse cfg)

include hedges

lemma slotsHold_fill {block : ℕ} (h : SlotsHold program cfg placement s) :
    SlotsHold program cfg placement ((cfg.blocks block).successors.foldl
      (fill_successor cfg block) { s with
        exit_version := update s.exit_version block (some s.active_version) }) := by
  set ended : RenameState :=
    { s with exit_version := update s.exit_version block (some s.active_version) }
  have hstart : ∀ b < cfg.block_count, ended.block_phis b = filledPhis cfg placement
        (update s.exit_version block (some ended.active_version)) b ∨
      b ∈ (cfg.blocks block).successors ∧
        ended.block_phis b = filledPhis cfg placement s.exit_version b := by
    intro b hb
    by_cases hpred : block ∈ (cfg.blocks b).predecessors
    · exact .inr ⟨hedges.successor b hb block hpred, h.phis b hb⟩
    · rw [filledPhis_update_of_notMem hpred]
      exact .inl (h.phis b hb)
  have hphis := fill_successors_phis hedges (cfg.blocks block).successors hstart
  obtain ⟨hvars, hsource, hexit⟩ :=
    fill_successors_frame (cfg.blocks block).successors
  refine ⟨?_, ?_⟩
  · rw [hvars, hsource]
    exact h.sources
  · rw [hexit]
    exact hphis

lemma slotsHold_rename_ssa_block {block : ℕ} (h : SlotsHold program cfg placement s)
    (hrun : rename_ssa_block program cfg s block = some s') :
    SlotsHold program cfg placement s' := by
  unfold rename_ssa_block at hrun
  obtain ⟨renamed, hrenamed, hrun⟩ := Option.bind_eq_some_iff.mp hrun
  have hmerged : SlotsHold program cfg placement ((s.block_phis block).foldl
      (fun s phi => new_variable s phi.register_index phi.component none) s) := by
    refine foldlRecOn _ _ h fun t ht _ _ => ?_
    exact ⟨ht.sources, ht.phis⟩
  rw [← Option.some.inj hrun]
  exact slotsHold_fill hedges (slotsHold_rename_instructions _ hmerged hrenamed)

lemma slotsHold_rename_round {dom_children : ℕ → List ℕ} (h : SlotsHold program cfg placement s)
    (hrun : rename_round program cfg dom_children s = some s') :
    SlotsHold program cfg placement s' := by
  unfold rename_round at hrun
  split at hrun
  · rwa [← Option.some.inj hrun]
  · next top below _ =>
    obtain ⟨t, ht, rfl⟩ := Option.map_eq_some_iff.mp hrun
    have hslots : SlotsHold program cfg placement t := by
      split_ifs at ht
      · rwa [← Option.some.inj ht]
      · exact slotsHold_rename_ssa_block hedges h ht
    dsimp only
    split <;> exact ⟨hslots.sources, hslots.phis⟩

lemma slotsHold_of_built (h : SSABuilt program cfg s placement) :
    SlotsHold program cfg placement s := by
  obtain ⟨dom_children, rounds, -, hrun⟩ := h
  have hstart : SlotsHold program cfg placement (rename_start cfg placement) :=
    slotsHold_rename_start
  generalize rename_start cfg placement = start at hstart hrun
  induction rounds generalizing start with
  | zero => rwa [← Option.some.inj hrun]
  | succ n ih =>
    obtain ⟨t, hround, hrun⟩ := Option.bind_eq_some_iff.mp hrun
    exact ih t (slotsHold_rename_round hedges hstart hround) hrun

end Run

/-- What the counts take for the definition of a source lane is what the read resolves to. -/
theorem operand_uses_eq (h : SlotsHold program cfg placement s) :
    (operand_uses program s.graph · 0) = directReads program s := by
  funext index
  simp only [operand_uses, directReads, Nat.sub_zero, ← range_eq_range']
  congr 1
  funext op
  congr 1
  funext lane
  cases hlane : source_lane program (program.instruction index) op lane with
  | none => rfl
  | some read =>
    have hslot : s.graph.operand_ssa_vars index op lane = _ := h.sources index op lane read hlane
    simp only [Option.bind_some, hlsl_operand_definition, hslot, resolve]
    cases s.source_version index with
    | none => rfl
    | some version => rfl

/-- What the counts take for a phi edge is what the phi node reads there. -/
theorem phi_uses_eq (h : SlotsHold program cfg placement s) :
    phi_uses cfg s.graph = phiReads cfg placement s := by
  refine flatMap_congr fun block hblock => ?_
  have hphis : s.graph.block_phis block = _ := h.phis block (mem_range.mp hblock)
  rw [hphis, filledPhis, flatMap_map]
  refine flatMap_congr fun phi _ => ?_
  rw [filterMap_map]
  refine filterMap_congr fun pred _ => ?_
  dsimp only [comp_apply, resolve]
  cases s.exit_version pred with
  | none => rfl
  | some version => rfl

/-! ## Counts -/

lemma component_lt {read : ℕ × ℕ} (h : read ∈ nestedReads program s index) : read.2 < 4 := by
  obtain ⟨op, -, h⟩ := mem_flatMap.mp h
  obtain ⟨root, -, h⟩ := mem_filterMap.mp h
  split_ifs at h
  obtain ⟨component, hcomponent, h⟩ := Option.bind_eq_some_iff.mp h
  obtain ⟨version, -, h⟩ := Option.bind_eq_some_iff.mp h
  obtain ⟨d, -, rfl⟩ := Option.map_eq_some_iff.mp h
  unfold usil_operand_source_component at hcomponent
  grind

lemma count_valueReads (indices : List ℕ) (value : ℕ × ℕ) :
    (valueReads program cfg placement s indices).count value =
      (indices.flatMap (directReads program s)).count value +
        (indices.flatMap (nestedReads program s)).count value +
        (phiReads cfg placement s).count value := by
  have hperm := (flatMap_append_perm indices (directReads program s)
    (nestedReads program s)).count_eq value
  rw [count_append] at hperm
  rw [hperm]
  exact count_append ..

lemma use_count_eq (h : SlotsHold program cfg placement s)
    (huse : build_hlsl_use_def_graph program cfg s.graph = some uses) {d c : ℕ}
    (hd : d < program.instruction_count) (hc : c < 4) :
    hlsl_definition_use_count program uses d c =
      ((List.range program.instruction_count).flatMap (directReads program s)).count (d, c) +
        (phiReads cfg placement s).count (d, c) := by
  unfold build_hlsl_use_def_graph at huse
  simp only [Option.ite_none_right_eq_some, Option.some.injEq] at huse
  rw [hlsl_definition_use_count, if_neg (by omega), ← huse.2, count_append,
    count_filter (by simpa using hd)]
  rw [operand_uses_eq h, phi_uses_eq h]

lemma countsComplete_iff (h : SlotsHold program cfg placement s)
    (huse : build_hlsl_use_def_graph program cfg s.graph = some uses) :
    CountsComplete program cfg placement s uses ↔ ∀ i < program.instruction_count,
      ∀ read ∈ nestedReads program s i, program.instruction_count ≤ read.1 := by
  have hcount : CountsComplete program cfg placement s uses ↔ ∀ d < program.instruction_count, ∀ c < 4,
      ((range program.instruction_count).flatMap (nestedReads program s)).count (d, c) = 0 := by
    refine forall₄_congr fun d hd c hc => ?_
    rw [use_count_eq h huse hd hc, count_valueReads]
    omega
  rw [hcount]
  constructor
  · intro hzero i hi read hread
    by_contra hlt
    have hmem : read ∈ (range program.instruction_count).flatMap (nestedReads program s) :=
      mem_flatMap.mpr ⟨i, mem_range.mpr hi, hread⟩
    exact count_eq_zero.mp (hzero _ (by omega) _ (component_lt hread)) hmem
  · intro hnone d hd c _
    refine count_eq_zero.mpr fun hmem => ?_
    obtain ⟨i, hi, hread⟩ := mem_flatMap.mp hmem
    exact absurd (hnone i (mem_range.mp hi) _ hread) (by simpa using hd)

/-! ## Ownership -/

section Ownership

variable (h : SlotsHold program cfg placement s)
  (huse : build_hlsl_use_def_graph program cfg s.graph = some uses)
  (hnone : ∀ i < program.instruction_count, ∀ read ∈ nestedReads program s i,
    program.instruction_count ≤ read.1) {lane offset start width : ℕ}

include h huse hnone in
/-- A value whose uses are all reads of the chain is read nowhere else. -/
theorem unread_outside (hle : start + width ≤ program.instruction_count) (hoffset : offset < width)
    (hlane : lane < 4)
    (hmid : hlsl_definition_use_count program uses (start + offset) lane ≤ ((range' start
      width).flatMap (operand_uses program s.graph · 0)).count (start + offset, lane)) :
    (start + offset, lane) ∉ valueReads program cfg placement s (outside program start width) := by
  rw [operand_uses_eq h] at hmid
  have hsplit : range program.instruction_count = range start ++ (range' start width ++
      range' (start + width) (program.instruction_count - (start + width))) := by
    rw [range'_append_1, range_eq_range', range_eq_range', range'_eq_append_iff]
    exact ⟨start, by omega, rfl, by simp; omega⟩
  have huses := use_count_eq h huse (show start + offset < _ by omega) hlane
  rw [hsplit] at huses
  simp only [flatMap_append, count_append] at huses
  refine count_eq_zero.mp ?_
  have hnested : ((outside program start width).flatMap (nestedReads program s)).count
      (start + offset, lane) = 0 := by
    refine count_eq_zero.mpr fun hmem => ?_
    obtain ⟨i, hi, hread⟩ := mem_flatMap.mp hmem
    have hi : i < program.instruction_count := by
      simp only [outside, mem_append, mem_range, mem_range'_1] at hi
      omega
    have := hnone i hi _ hread
    omega
  rw [count_valueReads, hnested, outside, flatMap_append, count_append]
  omega

lemma chain_uses_eq
    (howned : ∀ op ∈ range' 1 ((program.instruction (start + offset)).operands.length - 1),
      operand_is_owned program s.graph start offset op = true) :
    (chain_uses program start offset).map (fun use => (start + use.1, use.2)) =
      operand_uses program s.graph (start + offset) 1 := by
  simp only [chain_uses, operand_uses, map_flatMap]
  refine flatMap_congr fun op hop => ?_
  rw [map_filterMap]
  refine filterMap_congr fun lane hlane => ?_
  have hown := howned op hop
  cases hread : source_lane program (program.instruction (start + offset)) op lane with
  | none => rfl
  | some read =>
    obtain ⟨mask, huse, htype, hbit⟩ : ∃ mask, usil_instruction_operand_use program
        (program.instruction (start + offset)) op = some ⟨.source, mask⟩ ∧
        (operand (program.instruction (start + offset)) op).type = .temp ∧
        mask.testBit lane = true := by
      unfold source_lane at hread
      split at hread
      · next mask huse =>
        split_ifs at hread with hcond
        exact ⟨mask, huse, hcond⟩
      · cases hread
    simp only [operand_is_owned, htype, ne_eq, not_true_eq_false, if_false, huse, all_eq_true]
      at hown
    have hlane := hown lane hlane
    simp only [hbit, Bool.not_true, Bool.false_or, Option.any_eq_true, decide_eq_true_eq] at hlane
    obtain ⟨expected, hexpected, hdefinition, -⟩ := hlane
    simp [hexpected, hdefinition]

include h huse hnone in
lemma chain_owned {claimed : ℕ → Bool} {effect_free : USILInstruction → Bool}
    (hle : start + 8 ≤ program.instruction_count)
    (howned : chain_dataflow_is_owned program s.graph claimed effect_free uses start = true)
    (hoffset : offset < 7) (hlane : lane < 4) :
    (start + offset, lane) ∉ valueReads program cfg placement s (outside program start 8) := by
  simp only [chain_dataflow_is_owned, Bool.and_eq_true, all_eq_true, mem_range,
    decide_eq_true_eq] at howned
  obtain ⟨hlinks, hcounts⟩ := howned
  refine unread_outside h huse hnone hle (by omega) hlane ?_
  have hinj : Injective fun use : ℕ × ℕ => (start + use.1, use.2) := by
    intro use use' heq
    simp only [Prod.mk.injEq, Nat.add_left_cancel_iff] at heq
    exact Prod.ext heq.1 heq.2
  rw [hcounts offset hoffset lane hlane, ← count_map_of_injective _ _ hinj, map_flatMap]
  have hrange : range' start 8 = (range 8).map (start + ·) := by
    rw [range'_eq_map_range]
  rw [hrange, flatMap_map]
  refine (Sublist.flatMap_right _ fun offset hmem => ?_).count_le _
  rw [chain_uses_eq (hlinks offset (mem_range.mp hmem)).2]
  refine Sublist.flatMap ?_ _
  generalize (program.instruction (start + offset)).operands.length = n
  cases n with
  | zero => exact Sublist.refl _
  | succ n => exact sublist_cons_self 0 _

lemma accumulator_read (hlane : lane < width) (hwidth : width = 3 ∨ width = 4)
    (hop : inst.opcode = .MAD) (hlen : inst.operands.length = 4)
    (hshape : usil_instruction_shape_valid program inst)
    (hmask : usil_operand_destination_lane_mask (operand inst 0) = 2 ^ width - 1)
    (htype : (operand inst 3).type = .temp)
    (hcomponent : usil_operand_source_component (operand inst 3) lane = some lane) :
    source_lane program inst 3 lane = some ((operand inst 3).register_index, lane) := by
  have huse : usil_instruction_operand_use program inst 3 = some ⟨.source, 2 ^ width - 1⟩ := by
    rw [usil_instruction_operand_use, if_neg (by simp [hshape, hlen]), operand_use_unchecked,
      hop, if_neg (by simp [usil_opcode_has_memory_access, memory_opcode_shape])]
    rcases hwidth with rfl | rfl <;> simp [regular_componentwise_operand_count, source_use, hmask]
  have hbit : (2 ^ width - 1).testBit lane = true := by
    simp [Nat.testBit_two_pow_sub_one, hlane]
  simp [source_lane, huse, htype, hbit, hcomponent]

include h huse hnone in
lemma single_chain_owned (howned : single_chain_is_owned program s.graph uses start width = true)
    (hoffset : offset < width - 1) (hlane : lane < width) :
    (start + offset, lane) ∉ valueReads program cfg placement s (outside program start width) := by
  simp only [single_chain_is_owned, Bool.and_eq_true, all_eq_true, mem_range, mem_range'_1,
    decide_eq_true_eq] at howned
  obtain ⟨⟨⟨-, hwidth, hle⟩, hlinks⟩, hcounts⟩ := howned
  have hlane4 : lane < 4 := by omega
  refine unread_outside h huse hnone hle (by omega) hlane4 ?_
  rw [hcounts offset hoffset lane hlane]
  refine count_pos_iff.mpr ?_
  -- The one counted read is that of the next link's accumulator.
  obtain ⟨⟨⟨hop, hlen, hshape, hmask, htype, -⟩, hcomponents⟩, hdefinitions⟩ :=
    hlinks (offset + 1) (by omega)
  have hcomponent : usil_operand_source_component
      (operand (program.instruction (start + (offset + 1))) 3) lane = some lane := by
    rw [hcomponents lane hlane4, if_neg (by omega)]
  have hread := accumulator_read hlane hwidth hop hlen hshape hmask htype hcomponent
  refine mem_flatMap.mpr ⟨start + (offset + 1), mem_range'_1.mpr (by omega), ?_⟩
  refine mem_flatMap.mpr ⟨3, by simp [hlen], mem_filterMap.mpr ⟨lane, mem_range.mpr hlane4, ?_⟩⟩
  rw [hread, Option.bind_some, hdefinitions lane hlane]
  rfl

end Ownership

/-- **Completeness of the use counts.** For a program with its graph, its renaming and its counts,
the counts are the reads, and the accepted matrix chains are owned, exactly when no operand nested
as a relative index reads the value of an instruction. -/
theorem use_counts_complete_iff {first last : ℤ}
    (hcfg : build_control_flow_graph_range program.toUSILProgram .zeroed first last = some cfg)
    (hssa : SSABuilt program cfg s placement)
    (huse : build_hlsl_use_def_graph program cfg s.graph = some uses) :
    (CountsComplete program cfg placement s uses ∧ ChainsOwned program cfg placement s uses) ↔
      ∀ i < program.instruction_count, ∀ read ∈ nestedReads program s i,
        program.instruction_count ≤ read.1 := by
  have h := slotsHold_of_built (edgesInverse_of_build hcfg) hssa
  constructor
  · exact fun hcomplete => (countsComplete_iff h huse).mp hcomplete.1
  · intro hnone
    refine ⟨(countsComplete_iff h huse).mpr hnone, ?_, ?_⟩
    · intro claimed effect_free start hle howned offset hoffset lane hlane
      exact chain_owned h huse hnone hle howned hoffset hlane
    · intro start width howned offset hoffset lane hlane
      exact single_chain_owned h huse hnone howned hoffset hlane

/-! ## Samples -/

def sampleProgram (instructions : List USILInstruction) (hlen : instructions.length ≤ 5) :
    USILDeclaredProgram :=
  { sampleMoveProgram .null with
    instructions
    count_le := hlen.trans (Nat.le_of_ble_eq_true rfl) }

def sampleGraph (program : USILDeclaredProgram) : HLSLControlFlowGraph :=
  (build_control_flow_graph program.toUSILProgram .zeroed).getD .zeroed

def sampleRenamed (program : USILDeclaredProgram) (placement : PhiPlacement)
    (dom_children : ℕ → List ℕ) (rounds : ℕ) : RenameState :=
  let start := rename_start (sampleGraph program) placement
  (rename_rounds program (sampleGraph program) dom_children rounds start).getD start

variable (program placement) in
lemma sample_built (dom_children : ℕ → List ℕ) (rounds : ℕ)
    (hgraph : (build_control_flow_graph program.toUSILProgram .zeroed).isSome)
    (hrenamed : (rename_rounds program (sampleGraph program) dom_children rounds
      (rename_start (sampleGraph program) placement)).isSome)
    (hstack : (sampleRenamed program placement dom_children rounds).stack.isEmpty) :
    build_control_flow_graph program.toUSILProgram .zeroed = some (sampleGraph program) ∧
      SSABuilt program (sampleGraph program) (sampleRenamed program placement dom_children rounds)
        placement := by
  refine ⟨(Option.getD_of_ne_none (Option.isSome_iff_ne_none.mp hgraph) _).symm,
    dom_children, rounds, isEmpty_iff.mp hstack, ?_⟩
  exact (Option.getD_of_ne_none (Option.isSome_iff_ne_none.mp hrenamed) _).symm

def tempX : DXBCOperand :=
  { DXBCOperand.zeroed with
    swizzle_mode := 2
    register_index_dim := 1
    index_has_immediate := ⟨true, false, false⟩ }

/-- `mov r0.xy, cb0[1].xzzz`, and where `r0.x` is not zero the same move again. -/
def branchProgram : USILDeclaredProgram :=
  sampleProgram [sampleMove .null, { USILInstruction.zeroed with opcode := .IF, operands := [tempX] },
    sampleMove .null, { USILInstruction.zeroed with opcode := .ENDIF },
    { USILInstruction.zeroed with opcode := .RET }] (Nat.le_refl 5)

/-- The moves meet in the last block. -/
def branchPhis : PhiPlacement := fun block => if block = 4 then [(0, 0), (0, 1)] else []

def branchChildren : ℕ → List ℕ
  | 0 => [1]
  | 1 => [2, 4]
  | 2 => [3]
  | _ => []

/-- The condition reads the first move, and the last block has both moves of each component. -/
theorem use_counts_complete_branch : ∃ cfg s uses,
    build_control_flow_graph_range branchProgram.toUSILProgram .zeroed 0 5 = some cfg ∧
      SSABuilt branchProgram cfg s branchPhis ∧
      build_hlsl_use_def_graph branchProgram cfg s.graph = some uses ∧
      directReads branchProgram s 1 = [(0, 0)] ∧
      phiReads cfg branchPhis s = [(0, 0), (2, 0), (0, 1), (2, 1)] ∧
      CountsComplete branchProgram cfg branchPhis s uses ∧
      ChainsOwned branchProgram cfg branchPhis s uses := by
  obtain ⟨hcfg, hssa⟩ := sample_built branchProgram branchPhis branchChildren 9
    (by decide +kernel) (by decide +kernel) (by decide +kernel)
  have huse : (build_hlsl_use_def_graph branchProgram (sampleGraph branchProgram)
      (sampleRenamed branchProgram branchPhis branchChildren 9).graph).isSome := by
    decide +kernel
  obtain ⟨uses, huse⟩ := Option.isSome_iff_exists.mp huse
  refine ⟨_, _, uses, hcfg, hssa, huse, by decide +kernel, by decide +kernel, ?_⟩
  exact (use_counts_complete_iff hcfg hssa huse).mpr (by decide +kernel)

/-- `mov r0.xy, cb0[1].xzzz` and the same move with its row relative to `r0.x`. -/
def indexedProgram : USILDeclaredProgram :=
  sampleProgram [sampleMove .null, sampleMove tempX.ref] (Nat.le_of_ble_eq_true rfl)

/-- The index of the second move reads `r0.x`, which the count of the first leaves out. -/
theorem indexed_read_is_not_counted : ∃ cfg s uses,
    build_control_flow_graph_range indexedProgram.toUSILProgram .zeroed 0 2 = some cfg ∧
      SSABuilt indexedProgram cfg s (fun _ => []) ∧
      build_hlsl_use_def_graph indexedProgram cfg s.graph = some uses ∧
      ¬ CountsComplete indexedProgram cfg (fun _ => []) s uses := by
  obtain ⟨hcfg, hssa⟩ := sample_built indexedProgram (fun _ => []) (fun _ => []) 1
    (by decide +kernel) (by decide +kernel) (by decide +kernel)
  have huse : build_hlsl_use_def_graph indexedProgram (sampleGraph indexedProgram)
      (sampleRenamed indexedProgram (fun _ => []) (fun _ => []) 1).graph = some [] := by
    decide +kernel
  refine ⟨_, _, [], hcfg, hssa, huse, fun hcomplete => ?_⟩
  exact absurd (hcomplete 0 (by decide) 0 (by decide)) (by decide +kernel)

end DXBCSandbox.UseDef
