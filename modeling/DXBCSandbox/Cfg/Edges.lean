/-
The edge loop.

When every target of a block is the end of the range or lies in a block, and the targets
are not more than three for each instruction, no edge is refused. The successors of a
block are then the blocks of its targets, each once, and the predecessor lists are the
inverse of the successor lists.
-/
import Mathlib.Algebra.Order.BigOperators.Group.Finset
import DXBCSandbox.Lib.Loops
import DXBCSandbox.Cfg.Build

namespace DXBCSandbox

open List Option Function

/-! ## One edge -/

/-- An edge to this instruction is not refused: it is the end of the range or has a
block. -/
def BlockMap.Lands (map : BlockMap) (target : ℤ) : Prop :=
  target = map.end_instruction ∨ (map.first_instruction ≤ target ∧ target < map.end_instruction ∧
      ∃ b, b < map.block_count ∧ map.instruction_block target.toNat = some b)

def BlockMap.Reaches (map : BlockMap) (targets : List ℤ) (b : ℕ) : Prop :=
  ∃ target ∈ targets, target ≠ map.end_instruction ∧ map.instruction_block target.toNat = some b

/-- The state after some edges of a block: its successors are the blocks of these
targets. -/
structure Emitting (map : BlockMap) (block : ℕ) (s₀ : EdgeBuilder) (done : List ℤ)
    (s : EdgeBuilder) : Prop where
  others : ∀ b, b ≠ block → s.blocks b = s₀.blocks b
  same : s.blocks block = { s₀.blocks block with
    successors := (s.blocks block).successors, may_exit := (s.blocks block).may_exit }
  nodup : (s.blocks block).successors.Nodup
  valid : ∀ b ∈ (s.blocks block).successors, b < map.block_count
  mem : ∀ b, b ∈ (s.blocks block).successors ↔ map.Reaches done b
  may_exit : (s.blocks block).may_exit =
    ((s₀.blocks block).may_exit || decide ((map.end_instruction : ℤ) ∈ done))
  edge_count : s.edge_count ≤ s₀.edge_count + done.length
  predecessor_count : ∀ b, s.predecessor_count b ≤
    s₀.predecessor_count b + if b ∈ (s.blocks block).successors then 1 else 0

/-- A list without duplicates is no longer than the range its elements are from. -/
theorem length_le_of_nodup_of_lt {l : List ℕ} {n : ℕ} (hl : l.Nodup) (h : ∀ b ∈ l, b < n) :
    l.length ≤ n := by
  have hsub : l.toFinset ⊆ Finset.range n := by
    intro b hb
    rw [List.mem_toFinset] at hb
    exact Finset.mem_range.mpr (h b hb)
  have hcard := Finset.card_le_card hsub
  rwa [toFinset_card_of_nodup hl, Finset.card_range] at hcard

section Edge

variable {map : BlockMap} {block : ℕ} {s₀ s : EdgeBuilder} {done : List ℤ} {target : ℤ}

lemma reaches_append {b : ℕ} : map.Reaches (done ++ [target]) b ↔ map.Reaches done b ∨
      (target ≠ map.end_instruction ∧ map.instruction_block target.toNat = some b) := by
  simp only [BlockMap.Reaches, mem_append, mem_singleton]
  constructor
  · rintro ⟨t, ht | rfl, h⟩
    · exact .inl ⟨t, ht, h⟩
    · exact .inr h
  · rintro (⟨t, ht, h⟩ | h)
    · exact ⟨t, .inl ht, h⟩
    · exact ⟨target, .inr rfl, h⟩

lemma add_successor_spec (h : Emitting map block s₀ done s) (hblock : block < map.block_count)
    (hmax : map.block_count ≤ INT_MAX) (hpred : ∀ b, s₀.predecessor_count b ≤ block)
    (hcnt : s₀.edge_count + done.length < map.instruction_count * 3)
    (hlands : map.Lands target) :
    ∃ s', add_successor map block s target = some s' ∧
      Emitting map block s₀ (done ++ [target]) s' := by
  have hedges := h.edge_count
  rw [add_successor, if_neg (by omega)]
  rcases hlands with rfl | ⟨hlo, hhi, b, hb, hmap⟩
  · rw [if_pos rfl]
    refine ⟨_, rfl, ?_⟩
    have hent : modifyBlock s.blocks block (fun b => { b with may_exit := true }) block =
        { s.blocks block with may_exit := true } := by
      rw [modifyBlock_apply, if_pos rfl]
    refine ⟨?_, ?_, ?_, ?_, ?_, ?_, ?_, ?_⟩
    · intro b hb
      simp only [modifyBlock_apply, if_neg hb]
      exact h.others b hb
    · simp only [hent]
      rw [h.same]
    · simp only [hent]
      exact h.nodup
    · simp only [hent]
      exact h.valid
    · intro b
      simp only [hent]
      rw [h.mem, reaches_append]
      simp
    · simp only [hent]
      simp
    · rw [length_append, length_singleton]
      exact Nat.le_trans hedges (by omega)
    · simp only [hent]
      exact h.predecessor_count
  have hne : target ≠ map.end_instruction := by omega
  rw [if_neg hne, if_neg (by omega)]
  simp only [hmap]
  rw [if_neg (by omega)]
  have hexit : decide ((map.end_instruction : ℤ) ∈ done ++ [target]) =
      decide ((map.end_instruction : ℤ) ∈ done) := by
    rw [decide_eq_decide, mem_append, mem_singleton]
    exact or_iff_left (Ne.symm hne)
  by_cases hold : b ∈ (s.blocks block).successors
  · -- The edge exists already.
    rw [if_pos hold]
    refine ⟨s, rfl, h.others, h.same, h.nodup, h.valid, ?_, ?_, ?_, h.predecessor_count⟩
    · intro c
      rw [reaches_append, hmap, ← h.mem]
      constructor
      · exact .inl
      · rintro (hc | ⟨-, hc⟩)
        · exact hc
        · rwa [← some.inj hc]
    · rw [hexit]
      exact h.may_exit
    · rw [length_append, length_singleton]
      omega
  · rw [if_neg hold]
    -- Neither of the limits is reached: the successors are different blocks, and only
    -- earlier blocks have been counted as predecessors of this one.
    have hlen : (s.blocks block).successors.length + 1 ≤ map.block_count := by
      refine length_le_of_nodup_of_lt (l := b :: (s.blocks block).successors)
        (nodup_cons.mpr ⟨hold, h.nodup⟩) ?_
      intro c hc
      rcases mem_cons.mp hc with rfl | hc
      · exact hb
      · exact h.valid c hc
    have hpc : s.predecessor_count b ≤ block := by
      have := h.predecessor_count b
      rw [if_neg hold] at this
      have := hpred b
      omega
    rw [if_neg (by omega)]
    refine ⟨_, rfl, ?_⟩
    have hent : modifyBlock s.blocks block
        (fun e => { e with successors := e.successors ++ [b] }) block =
        { s.blocks block with successors := (s.blocks block).successors ++ [b] } := by
      rw [modifyBlock_apply, if_pos rfl]
    refine ⟨?_, ?_, ?_, ?_, ?_, ?_, ?_, ?_⟩
    · intro c hc
      simp only [modifyBlock_apply, if_neg hc]
      exact h.others c hc
    · simp only [hent]
      rw [h.same]
    · simp only [hent]
      rw [nodup_append_comm]
      exact nodup_cons.mpr ⟨hold, h.nodup⟩
    · simp only [hent]
      intro c hc
      rcases mem_append.mp hc with hc | hc
      · exact h.valid c hc
      · rw [mem_singleton.mp hc]
        exact hb
    · intro c
      simp only [hent]
      rw [mem_append, mem_singleton, reaches_append, hmap, ← h.mem, some.injEq]
      constructor
      · rintro (hc | rfl)
        · exact .inl hc
        · exact .inr ⟨hne, rfl⟩
      · rintro (hc | ⟨-, rfl⟩)
        · exact .inl hc
        · exact .inr rfl
    · simp only [hent]
      rw [hexit]
      exact h.may_exit
    · rw [length_append, length_singleton]
      simp only
      omega
    · intro c
      simp only [hent, update_apply]
      have hc := h.predecessor_count c
      by_cases hcb : c = b
      · subst hcb
        rw [if_neg hold] at hc
        simp
        omega
      · simp only [hcb, if_false, mem_append, mem_singleton, or_false]
        exact hc

end Edge

/-! ## The edges of all blocks -/

open USILOpcode

def blockTargets (program : USILProgram) (flow : ℕ → HLSLInstructionFlow)
    (blocks : ℕ → HLSLBasicBlock) (b : ℕ) : List ℤ :=
  edge_targets program flow (blocks b).last_instruction

/-- Whether a block leaves the program by `RET` or `DISCARD`. -/
def blockReturns (program : USILProgram) (blocks : ℕ → HLSLBasicBlock) (b : ℕ) : Bool :=
  program.opcode (blocks b).last_instruction = RET ||
    program.opcode (blocks b).last_instruction = DISCARD

structure EdgesBelow (program : USILProgram) (flow : ℕ → HLSLInstructionFlow) (map : BlockMap)
    (blocks : ℕ → HLSLBasicBlock) (m : ℕ) (s : EdgeBuilder) : Prop where
  first_instruction : ∀ b, (s.blocks b).first_instruction = (blocks b).first_instruction
  last_instruction : ∀ b, (s.blocks b).last_instruction = (blocks b).last_instruction
  predecessors : ∀ b, (s.blocks b).predecessors = []
  nodup : ∀ b, (s.blocks b).successors.Nodup
  valid : ∀ b, ∀ c ∈ (s.blocks b).successors, c < map.block_count
  mem : ∀ b, b < m → ∀ c,
    c ∈ (s.blocks b).successors ↔ map.Reaches (blockTargets program flow blocks b) c
  may_exit : ∀ b, b < m → (s.blocks b).may_exit = (blockReturns program blocks b ||
    decide ((map.end_instruction : ℤ) ∈ blockTargets program flow blocks b))
  rest : ∀ b, m ≤ b → (s.blocks b).successors = []
  edge_count : s.edge_count ≤
    ∑ b ∈ Finset.range m, (blockTargets program flow blocks b).length
  predecessor_count : ∀ c, s.predecessor_count c ≤ m

section Blocks

variable {program : USILProgram} {flow : ℕ → HLSLInstructionFlow} {map : BlockMap}
  {blocks : ℕ → HLSLBasicBlock} {m : ℕ} {s : EdgeBuilder}

lemma emit_block_edges_spec (h : EdgesBelow program flow map blocks m s)
    (hm : m < map.block_count) (hmax : map.block_count ≤ INT_MAX)
    (hlands : ∀ target ∈ blockTargets program flow blocks m, map.Lands target)
    (hcnt : ∑ b ∈ Finset.range (m + 1), (blockTargets program flow blocks b).length ≤
      map.instruction_count * 3) :
    ∃ s', emit_block_edges program flow map s m = some s' ∧
      EdgesBelow program flow map blocks (m + 1) s' := by
  rw [Finset.sum_range_succ] at hcnt
  have hedges := h.edge_count
  simp only [emit_block_edges, h.last_instruction]
  generalize hs₀ : ({ s with blocks := modifyBlock s.blocks m fun b => { b with
      may_exit := program.opcode (blocks m).last_instruction = RET ||
        program.opcode (blocks m).last_instruction = DISCARD
      has_ambiguous_flow := program.opcode (blocks m).last_instruction = SWITCH ||
        program.opcode (blocks m).last_instruction = CASE ||
        program.opcode (blocks m).last_instruction = DEFAULT ||
        program.opcode (blocks m).last_instruction = ENDSWITCH } } : EdgeBuilder) = s₀
  have hother : ∀ b, b ≠ m → s₀.blocks b = s.blocks b := by
    intro b hb
    rw [← hs₀]
    simp only [modifyBlock_apply, if_neg hb]
  have hcnts : s₀.edge_count = s.edge_count ∧ s₀.predecessor_count = s.predecessor_count := by
    rw [← hs₀]
    exact ⟨rfl, rfl⟩
  have hent : (s₀.blocks m).successors = [] ∧ (s₀.blocks m).predecessors = [] ∧
      (s₀.blocks m).first_instruction = (blocks m).first_instruction ∧
      (s₀.blocks m).last_instruction = (blocks m).last_instruction ∧
      (s₀.blocks m).may_exit = blockReturns program blocks m := by
    rw [← hs₀]
    simp only [modifyBlock_apply, if_true]
    exact ⟨h.rest m (Nat.le_refl m), h.predecessors m, h.first_instruction m,
      h.last_instruction m, rfl⟩
  obtain ⟨hsucc, hpreds, hfst, hlast, hexit⟩ := hent
  -- The loop over the targets of this block.
  obtain ⟨s', hrun, he⟩ := foldlM_list_inv (f := add_successor map m) (s := s₀)
    (blockTargets program flow blocks m) (Emitting map m s₀)
    ⟨fun _ _ => rfl, rfl, by rw [hsucc]; exact nodup_nil, by rw [hsucc]; simp,
      fun b => by rw [hsucc]; simp [BlockMap.Reaches], by simp, by simp, fun b => by simp⟩
    (fun done target rest s hspl he => by
      refine add_successor_spec he hm hmax (fun b => ?_) ?_ (hlands target ?_)
      · rw [hcnts.2]
        exact h.predecessor_count b
      · have hlen := congrArg length hspl
        rw [length_append, length_cons] at hlen
        rw [hcnts.1]
        omega
      · rw [hspl]
        simp)
  refine ⟨s', hrun, ?_⟩
  -- Blocks other than this one are as they were.
  have hkeep : ∀ b, b ≠ m → s'.blocks b = s.blocks b := fun b hb =>
    (he.others b hb).trans (hother b hb)
  refine ⟨?_, ?_, ?_, ?_, ?_, ?_, ?_, ?_, ?_, ?_⟩
  · intro b
    by_cases hb : b = m
    · rw [hb, he.same, hfst]
    · rw [hkeep b hb, h.first_instruction]
  · intro b
    by_cases hb : b = m
    · rw [hb, he.same, hlast]
    · rw [hkeep b hb, h.last_instruction]
  · intro b
    by_cases hb : b = m
    · rw [hb, he.same, hpreds]
    · rw [hkeep b hb, h.predecessors]
  · intro b
    by_cases hb : b = m
    · rw [hb]
      exact he.nodup
    · rw [hkeep b hb]
      exact h.nodup b
  · intro b
    by_cases hb : b = m
    · rw [hb]
      exact he.valid
    · rw [hkeep b hb]
      exact h.valid b
  · intro b hlt c
    by_cases hb : b = m
    · rw [hb]
      exact he.mem c
    · rw [hkeep b hb]
      exact h.mem b (by omega) c
  · intro b hlt
    by_cases hb : b = m
    · rw [hb, he.may_exit, hexit]
    · rw [hkeep b hb]
      exact h.may_exit b (by omega)
  · intro b hge
    rw [hkeep b (by omega)]
    exact h.rest b (by omega)
  · rw [Finset.sum_range_succ]
    have := he.edge_count
    rw [hcnts.1] at this
    omega
  · intro c
    have hc := he.predecessor_count c
    have hold := h.predecessor_count c
    rw [hcnts.2] at hc
    split_ifs at hc <;> omega

/-- **No edge is refused.** -/
theorem emit_edges_spec (program : USILProgram) (flow : ℕ → HLSLInstructionFlow) (map : BlockMap)
    (hmax : map.block_count ≤ INT_MAX)
    (hfresh : ∀ b, (blocks b).successors = [] ∧ (blocks b).predecessors = [])
    (hlands : ∀ b, b < map.block_count →
      ∀ target ∈ blockTargets program flow blocks b, map.Lands target)
    (hcnt : ∑ b ∈ Finset.range map.block_count, (blockTargets program flow blocks b).length ≤
      map.instruction_count * 3) :
    ∃ s, (List.range' 0 map.block_count).foldlM (emit_block_edges program flow map)
        ⟨blocks, fun _ => 0, 0⟩ = some s ∧
      EdgesBelow program flow map blocks map.block_count s := by
  have hstart : EdgesBelow program flow map blocks 0 ⟨blocks, fun _ => 0, 0⟩ :=
    ⟨fun _ => rfl, fun _ => rfl, fun b => (hfresh b).2,
      fun b => by rw [(hfresh b).1]; exact nodup_nil, fun b => by rw [(hfresh b).1]; simp,
      fun b hb => absurd hb (by simp), fun b hb => absurd hb (by simp), fun b _ => (hfresh b).1,
      Nat.zero_le _, fun _ => Nat.zero_le _⟩
  obtain ⟨s, hrun, he⟩ := foldlM_range'_inv 0 map.block_count
    (f := emit_block_edges program flow map) (EdgesBelow program flow map blocks) hstart
    (fun b s _ hb h => by
      rw [Nat.zero_add] at hb
      refine emit_block_edges_spec h hb hmax (hlands b hb) (Nat.le_trans ?_ hcnt)
      exact Finset.sum_le_sum_of_subset (Finset.range_subset_range.mpr hb))
  rw [Nat.zero_add] at he
  exact ⟨s, hrun, he⟩

end Blocks

/-! ## Predecessors -/

section Predecessors

variable {blocks : ℕ → HLSLBasicBlock}

/-- Only predecessor lists change, and the block joins the lists of its successors. -/
theorem fill_block_predecessors_spec {block : ℕ} (hnodup : (blocks block).successors.Nodup)
    (b : ℕ) : fill_block_predecessors blocks block b = { blocks b with
      predecessors := (blocks b).predecessors ++
        if b ∈ (blocks block).successors then [block] else [] } := by
  rw [fill_block_predecessors]
  generalize (blocks block).successors = successors at hnodup ⊢
  induction successors generalizing blocks with
  | nil => simp
  | cons target rest ih =>
    rw [nodup_cons] at hnodup
    rw [foldl_cons, ih hnodup.2, modifyBlock_apply]
    by_cases hb : b = target
    · subst hb
      simp [hnodup.1]
    · simp [hb]

/-- **The predecessors are the inverse of the successors**, in block order. -/
theorem fill_predecessors_spec {count : ℕ} (hnodup : ∀ b, (blocks b).successors.Nodup)
    (hempty : ∀ b, (blocks b).predecessors = []) (b : ℕ) :
    fill_predecessors count blocks b = { blocks b with
      predecessors := (range' 0 count).filter fun a => b ∈ (blocks a).successors } := by
  have hinv := foldl_range'_inv 0 count (f := fill_block_predecessors) (s := blocks)
    (fun m bs => ∀ b, bs b = { blocks b with
      predecessors := (range' 0 m).filter fun a => b ∈ (blocks a).successors })
    (fun b => by
      have h := hempty b
      cases hb : blocks b
      simp_all) ?_
  · rw [fill_predecessors, hinv b, Nat.zero_add]
  · intro m bs _ _ ih b
    have hsucc : ∀ a, (bs a).successors = (blocks a).successors := fun a => by rw [ih a]
    rw [fill_block_predecessors_spec (by rw [hsucc]; exact hnodup m), hsucc, ih b,
      range'_1_concat, filter_append, Nat.zero_add]
    simp only [filter_cons, filter_nil]
    by_cases hmem : b ∈ (blocks m).successors <;> simp [hmem]

end Predecessors

end DXBCSandbox
