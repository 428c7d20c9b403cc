/-
The outputs of a geometry program are written before every append.

A pass that changes nothing leaves a solution of the flow equations: a lane before a block is
there after each of its predecessors, and a lane after an instruction was there before it or is
one that it writes. No lane is there at the entry. So a lane that holds before an instruction is
written on every path to it, which is all that the last loop asks at an append.
-/
import DXBCSandbox.Hlsl.GeometryFlow
import DXBCSandbox.Lib.FlowGraph

namespace DXBCSandbox

open List Option Checks Usil

/-! ## Lanes of a row -/

section Rows

variable {register lane : ℕ}

def HasLane (row : OutputRow) (register lane : ℕ) : Prop := (row.getD register 0).testBit lane

/-- The first operand of the instruction is the output register, with the lane in its mask. -/
structure WritesOutput (owner : USILInstruction) (register lane : ℕ) : Prop where
  operand_count : owner.operands.length ≠ 0
  type_eq : (operand owner 0).type = .output
  register_eq : (operand owner 0).register_index = register
  lane_mem : (usil_operand_destination_lane_mask (operand owner 0)).testBit lane

lemma hasLane_of_write {owner : USILInstruction} {current current' : OutputRow}
    (h : write_output owner current = .ok current') (hlane : HasLane current' register lane) :
    HasLane current register lane ∨ WritesOutput owner register lane := by
  unfold write_output at h
  dsimp only at h
  by_cases houtput : owner.operands.length ≠ 0 ∧ (operand owner 0).type = .output
  · rw [if_pos houtput] at h
    split_ifs at h with hrange
    rw [← Except.ok.inj h, HasLane, getD_eq_getElem?_getD, getElem?_modify] at hlane
    by_cases hreg : (operand owner 0).register_index.toNat = register
    · simp only [if_pos hreg] at hlane
      by_cases hold : HasLane current register lane
      · exact .inl hold
      · refine .inr ⟨houtput.1, houtput.2, by omega, ?_⟩
        have hlt : register < current.length := by omega
        rw [getElem?_eq_getElem hlt] at hlane
        rw [HasLane, getD_eq_getElem _ _ hlt] at hold
        have hor : (current[register] |||
            usil_operand_destination_lane_mask (operand owner 0)).testBit lane := hlane
        rw [Nat.testBit_or, Bool.or_eq_true] at hor
        exact hor.resolve_left hold
    · simp only [if_neg hreg] at hlane
      refine .inl ?_
      rw [HasLane, getD_eq_getElem?_getD]
      simpa using hlane
  · rw [if_neg houtput] at h
    rw [← Except.ok.inj h] at hlane
    exact .inl hlane

lemma hasLane_zipWith {row row' : OutputRow}
    (h : HasLane (List.zipWith (· &&& ·) row row') register lane) :
    HasLane row register lane ∧ HasLane row' register lane := by
  unfold HasLane at h ⊢
  rw [getD_eq_getElem?_getD, getElem?_zipWith] at h
  rw [getD_eq_getElem?_getD, getD_eq_getElem?_getD]
  cases hx : row[register]? with
  | none =>
    rw [hx] at h
    simp at h
  | some x =>
    cases hy : row'[register]? with
    | none =>
      rw [hx, hy] at h
      simp at h
    | some y =>
      rw [hx, hy] at h
      have hand : (x &&& y).testBit lane := h
      rw [Nat.testBit_and, Bool.and_eq_true] at hand
      exact hand

lemma hasLane_of_meet {out_rows : List OutputRow} {predecessors : List ℕ}
    {current current' : OutputRow}
    (h : meet_predecessors out_rows predecessors current = .ok current')
    (hlane : HasLane current' register lane) :
    HasLane current register lane ∧
      ∀ p ∈ predecessors, ∃ row, out_rows[p]? = some row ∧ HasLane row register lane := by
  induction predecessors generalizing current with
  | nil =>
    rw [← Except.ok.inj h] at hlane
    exact ⟨hlane, nofun⟩
  | cons p predecessors ih =>
    rw [meet_predecessors] at h
    cases hrow : out_rows[p]? with
    | none =>
      rw [hrow] at h
      nomatch h
    | some row =>
      rw [hrow] at h
      obtain ⟨hmeet, hrest⟩ := ih h
      obtain ⟨hcur, hlane'⟩ := hasLane_zipWith hmeet
      refine ⟨hcur, fun q hq => ?_⟩
      rcases mem_cons.mp hq with rfl | hq
      · exact ⟨row, hrow, hlane'⟩
      · exact hrest q hq

end Rows

/-! ## The instructions of a block -/

section Block

variable {program : USILGeometryProgram} {n i : ℕ} {current : OutputRow}

lemma write_outputs_eq_ok {row : OutputRow} : write_outputs program (n + 1) i current = .ok row ↔
      ∃ first, write_output (program.instruction i) current = .ok first ∧
        write_outputs program n (i + 1) first = .ok row := by
  rw [write_outputs, bind_eq_ok]

lemma write_outputs_succ_eq_ok {row : OutputRow} :
    write_outputs program (n + 1) i current = .ok row ↔
      ∃ row', write_outputs program n i current = .ok row' ∧
        write_output (program.instruction (i + n)) row' = .ok row := by
  induction n generalizing i current with
  | zero =>
    rw [write_outputs_eq_ok]
    constructor
    · rintro ⟨row', h, h'⟩
      rw [← Except.ok.inj h']
      exact ⟨current, rfl, h⟩
    · rintro ⟨row', h, h'⟩
      rw [← Except.ok.inj h] at h'
      exact ⟨row, h', rfl⟩
  | succ n ih =>
    rw [write_outputs_eq_ok]
    constructor
    · rintro ⟨first, hfst, h⟩
      obtain ⟨row', hrow', hlast⟩ := ih.mp h
      refine ⟨row', write_outputs_eq_ok.mpr ⟨first, hfst, hrow'⟩, ?_⟩
      rwa [show i + (n + 1) = i + 1 + n by omega]
    · rintro ⟨row', h, hlast⟩
      obtain ⟨first, hfst, hrow'⟩ := write_outputs_eq_ok.mp h
      refine ⟨first, hfst, ih.mpr ⟨row', hrow', ?_⟩⟩
      rwa [show i + 1 + n = i + (n + 1) by omega]

lemma hasLane_of_fields_written {fields : List DXBCSignatureElement}
    (h : fields_written current fields = .ok ()) {field : DXBCSignatureElement}
    (hfld : field ∈ fields) {lane : ℕ} (hlane : field.mask.toNat.testBit lane) :
    HasLane current field.register_id.toNat lane := by
  induction fields with
  | nil => cases hfld
  | cons first fields ih =>
    rw [fields_written] at h
    cases hlanes : current[first.register_id.toNat]? with
    | none =>
      rw [hlanes] at h
      nomatch h
    | some lanes =>
      rw [hlanes] at h
      obtain ⟨hmask, h⟩ := ite_error_eq_ok.mp h
      rcases mem_cons.mp hfld with rfl | hfld
      · rw [HasLane, getD_eq_getElem?_getD, hlanes]
        show lanes.testBit lane = true
        rw [← not_not.mp hmask, Nat.testBit_and, Bool.and_eq_true] at hlane
        exact hlane.1
      · exact ih h hfld

lemma fields_written_of_check {k : ℕ} (h : check_instructions program n i current = .ok ())
    (hk : k < n) (happend : (program.instruction (i + k)).opcode = .GEOMETRY_APPEND) :
    ∃ row, write_outputs program (k + 1) i current = .ok row ∧
      fields_written row program.outputs = .ok () := by
  induction n generalizing i k current with
  | zero => exact absurd hk (Nat.not_lt_zero k)
  | succ n ih =>
    rw [check_instructions] at h
    obtain ⟨first, hfst, h⟩ := bind_eq_ok.mp h
    obtain ⟨_, hcheck, h⟩ := bind_eq_ok.mp h
    cases k with
    | zero =>
      refine ⟨first, ?_, ?_⟩
      · exact write_outputs_eq_ok.mpr ⟨first, hfst, rfl⟩
      · rw [Nat.add_zero] at happend
        rwa [check_append, if_pos happend] at hcheck
    | succ k =>
      have happend' : (program.instruction (i + 1 + k)).opcode = .GEOMETRY_APPEND := by
        rwa [show i + 1 + k = i + (k + 1) by omega]
      obtain ⟨row, hrow, hwritten⟩ := ih h (Nat.lt_of_succ_lt_succ hk) happend'
      exact ⟨row, write_outputs_eq_ok.mpr ⟨first, hfst, hrow⟩, hwritten⟩

end Block

/-! ## The flow equations -/

section Flow

variable {program : USILGeometryProgram} {cfg : HLSLControlFlowGraph}

/-- The rows of one block solve its equations. -/
structure Settled (program : USILGeometryProgram) (cfg : HLSLControlFlowGraph)
    (in_rows out_rows : List OutputRow) (b : ℕ) : Prop where
  solved : ∃ before after, in_rows[b]? = some before ∧ out_rows[b]? = some after ∧
    meet_predecessors out_rows (cfg.blocks b).predecessors
      (List.replicate 32 (if b = 0 then 0 else 15)) = .ok before ∧
    write_outputs program (cfg.blocks b).instruction_total (cfg.blocks b).first_instruction
      before = .ok after

variable {b : ℕ}

lemma update_row_unchanged {rows : List OutputRow} {changed : Bool} {current : OutputRow}
    (h : (update_row rows changed b current).2 = false) :
    changed = false ∧ (update_row rows changed b current).1 = rows ∧ rows[b]? = some current := by
  unfold update_row at h ⊢
  split_ifs at h ⊢ with hsame
  · exact ⟨h, rfl, hsame⟩

variable {rows rows' : FlowRows}

lemma visit_block_unchanged (h : visit_block program cfg b rows = .ok rows')
    (hchanged_after : rows'.changed = false) :
    rows.changed = false ∧ rows' = rows ∧ Settled program cfg rows.in_rows rows.out_rows b := by
  unfold visit_block at h
  obtain ⟨-, h⟩ := ite_error_eq_ok.mp h
  obtain ⟨before, hbefore, h⟩ := bind_eq_ok.mp h
  obtain ⟨after, hafter, h⟩ := bind_eq_ok.mp h
  obtain rfl := pure_eq_ok.mp h
  obtain ⟨hin_changed, hout, hout_row⟩ := update_row_unchanged hchanged_after
  obtain ⟨hchg, hin, hin_row⟩ := update_row_unchanged hin_changed
  refine ⟨hchg, ?_, before, after, hin_row, hout_row, hbefore, hafter⟩
  rw [hout, hin]
  exact congrArg (FlowRows.mk rows.in_rows rows.out_rows) (hchanged_after.trans hchg.symm)

lemma visit_blocks_unchanged {blocks : List ℕ}
    (h : visit_blocks program cfg blocks rows = .ok rows') (hchg : rows'.changed = false) :
    rows' = rows ∧ ∀ b ∈ blocks, Settled program cfg rows.in_rows rows.out_rows b := by
  induction blocks generalizing rows with
  | nil =>
    rw [← Except.ok.inj h]
    exact ⟨rfl, nofun⟩
  | cons b blocks ih =>
    rw [visit_blocks] at h
    obtain ⟨next, hnext, h⟩ := bind_eq_ok.mp h
    obtain ⟨hsame, hsett⟩ := ih h
    rw [hsame] at hchg
    obtain ⟨-, hnext_same, hb⟩ := visit_block_unchanged hnext hchg
    rw [hnext_same] at hsame hsett
    refine ⟨hsame, fun c hc => ?_⟩
    rcases mem_cons.mp hc with rfl | hc
    · exact hb
    · exact hsett c hc

/-- **The passes end in a solution of the flow equations**, unless they run out. -/
theorem run_passes_settled {n : ℕ} (h : run_passes program cfg n rows = .ok rows')
    (hchg : rows'.changed = false) :
    rows' = rows ∨ ∀ b < cfg.block_count, Settled program cfg rows'.in_rows rows'.out_rows b := by
  induction n generalizing rows with
  | zero => exact .inl (Except.ok.inj h).symm
  | succ n ih =>
    rw [run_passes] at h
    split_ifs at h with hrows
    · obtain ⟨next, hnext, h⟩ := bind_eq_ok.mp h
      rcases ih h with hsame | hsett
      · right
        rw [hsame] at hchg ⊢
        obtain ⟨hunchanged, hsett⟩ := visit_blocks_unchanged hnext hchg
        intro b hb
        rw [hunchanged]
        exact hsett b (mem_range.mpr hb)
      · exact .inr hsett
    · exact .inl (Except.ok.inj h).symm

lemma check_blocks_eq_ok {in_rows : List OutputRow} {blocks : List ℕ}
    (h : check_blocks program cfg in_rows blocks = .ok ()) (hb : b ∈ blocks) :
    check_instructions program (cfg.blocks b).instruction_total (cfg.blocks b).first_instruction
      (in_rows.getD b []) = .ok () := by
  induction blocks with
  | nil => cases hb
  | cons c blocks ih =>
    rw [check_blocks] at h
    obtain ⟨_, hc, h⟩ := bind_eq_ok.mp h
    rcases mem_cons.mp hb with rfl | hb
    · exact hc
    · exact ih h hb

/-- An accepted program has a solution of the flow equations that passes the last loop. -/
theorem exists_settled (h : output_initialized_at_appends program cfg = .ok ()) :
    0 < cfg.block_count ∧ ∃ in_rows out_rows,
      (∀ b < cfg.block_count, Settled program cfg in_rows out_rows b) ∧
      ∀ b < cfg.block_count, check_instructions program (cfg.blocks b).instruction_total
        (cfg.blocks b).first_instruction (in_rows.getD b []) = .ok () := by
  unfold output_initialized_at_appends at h
  obtain ⟨hcnt, h⟩ := ite_error_eq_ok.mp h
  obtain ⟨rows, hrows, h⟩ := bind_eq_ok.mp h
  obtain ⟨hchg, h⟩ := ite_error_eq_ok.mp h
  have hchg := Bool.eq_false_iff.mpr hchg
  refine ⟨by omega, rows.in_rows, rows.out_rows, ?_,
    fun b hb => check_blocks_eq_ok h (mem_range.mpr hb)⟩
  rcases run_passes_settled hrows hchg with hsame | hsett
  · -- The rows start as changed, so at least one pass ran.
    rw [hsame] at hchg
    nomatch hchg
  · exact hsett

end Flow

/-! ## Paths -/

section Paths

variable {program : USILGeometryProgram} {cfg : HLSLControlFlowGraph} {t : FlowTree}
  {in_rows out_rows : List OutputRow}

def HLSLControlFlowGraph.Next (cfg : HLSLControlFlowGraph) (k k' : ℕ) : Prop :=
  cfg.Step k (some k')

/-- A lane of the row that the analysis has before the instruction. -/
def LaneBefore (program : USILGeometryProgram) (cfg : HLSLControlFlowGraph)
    (in_rows : List OutputRow) (k : ℕ) (lane : ℕ × ℕ) : Prop :=
  ∃ b < cfg.block_count, (cfg.blocks b).Covers k ∧ ∃ row,
    write_outputs program (k - (cfg.blocks b).first_instruction) (cfg.blocks b).first_instruction
      (in_rows.getD b []) = .ok row ∧ HasLane row lane.1 lane.2

lemma not_hasLane_replicate_zero {n register lane : ℕ} :
    ¬ HasLane (List.replicate n 0) register lane := by
  unfold HasLane
  rw [getD_eq_getElem?_getD, getElem?_replicate]
  split_ifs
  · simp
  · simp

/-- **The rows are facts that hold on every walk from the entry.** -/
theorem mustFacts_of_settled {last : ℕ} (hex : ExactGraph 0 last t cfg) (hpos : 0 < cfg.block_count)
    (hsett : ∀ b < cfg.block_count, Settled program cfg in_rows out_rows b) :
    MustFacts cfg.Next 0 (fun k lane => WritesOutput (program.instruction k) lane.1 lane.2)
      (LaneBefore program cfg in_rows) := by
  have hin : ∀ b < cfg.block_count, ∃ before after, in_rows.getD b [] = before ∧
      out_rows[b]? = some after ∧
      meet_predecessors out_rows (cfg.blocks b).predecessors
        (replicate 32 (if b = 0 then 0 else 15)) = .ok before ∧
      write_outputs program (cfg.blocks b).instruction_total (cfg.blocks b).first_instruction
        before = .ok after := by
    intro b hb
    obtain ⟨before, after, hin, hout, hmeet, hwrite⟩ := (hsett b hb).solved
    refine ⟨before, after, ?_, hout, hmeet, hwrite⟩
    rw [getD_eq_getElem?_getD, hin]
    rfl
  constructor
  · -- The entry is the first instruction of block 0, whose row is empty.
    rintro ⟨register, lane⟩ ⟨b, hb, hcovers, row, hrow, hlane⟩
    have hstart := hex.tiles.start hpos
    obtain rfl : b = 0 := hex.tiles.unique hb hpos hcovers ⟨hstart.le, Nat.zero_le _⟩
    obtain ⟨before, -, hbefore, -, hmeet, -⟩ := hin 0 hpos
    rw [hstart, hbefore] at hrow
    rw [← Except.ok.inj hrow] at hlane
    exact not_hasLane_replicate_zero (hasLane_of_meet hmeet hlane).1
  · rintro k k' ⟨c, hc, hcovers, hstep⟩ ⟨register, lane⟩ ⟨b, hb, hcovers', row, hrow, hlane⟩
    by_cases hinside : k < (cfg.blocks c).last_instruction
    · -- Inside a block the row before the next instruction is the row after this one.
      rw [if_pos hinside] at hstep
      obtain rfl : k' = k + 1 := some.inj hstep
      obtain rfl : b = c := hex.tiles.unique hb hc hcovers' ⟨Nat.le_succ_of_le hcovers.1, hinside⟩
      rw [Nat.succ_sub hcovers.1] at hrow
      obtain ⟨row', hrow', hwrite⟩ := write_outputs_succ_eq_ok.mp hrow
      rw [Nat.add_sub_cancel' hcovers.1] at hwrite
      rcases hasLane_of_write hwrite hlane with hbefore | hmade
      · exact .inl ⟨b, hb, hcovers, row', hrow', hbefore⟩
      · exact .inr hmade
    · rw [if_neg hinside] at hstep
      obtain ⟨d, hd, htgt⟩ := hstep.resolve_right nofun
      have hlast : k = (cfg.blocks c).last_instruction := le_antisymm hcovers.2 (not_lt.mp hinside)
      have hdlt := hex.successors_lt c hc d hd
      obtain rfl : k' = (cfg.blocks d).first_instruction := some.inj htgt
      obtain rfl : b = d := hex.tiles.unique hb hdlt hcovers' ⟨le_refl _, hex.tiles.nonempty d hdlt⟩
      obtain ⟨before, -, hbefore, -, hmeet, -⟩ := hin b hb
      rw [Nat.sub_self, hbefore] at hrow
      rw [← Except.ok.inj hrow] at hlane
      -- The block before is a predecessor, so its row has the lane at the end.
      have hpred := (hex.mem_predecessors c b hb).mpr ⟨hc, hd⟩
      obtain ⟨after, hafter, hlane⟩ := (hasLane_of_meet hmeet hlane).2 c hpred
      obtain ⟨before', after', hbefore', hafter', -, hwrite⟩ := hin c hc
      obtain rfl : after = after' := some.inj (hafter.symm.trans hafter')
      have htotal : (cfg.blocks c).instruction_total =
          k - (cfg.blocks c).first_instruction + 1 := by
        have := hcovers.1
        unfold HLSLBasicBlock.instruction_total
        omega
      rw [htotal] at hwrite
      obtain ⟨row', hrow', hwrite⟩ := write_outputs_succ_eq_ok.mp hwrite
      rw [Nat.add_sub_cancel' hcovers.1] at hwrite
      rcases hasLane_of_write hwrite hlane with hheld | hmade
      · exact .inl ⟨c, hc, hcovers, row', by rwa [hbefore'], hheld⟩
      · exact .inr hmade

end Paths

lemma not_writesOutput_append {program : USILDeclaredProgram} {owner : USILInstruction}
    (hshape : usil_instruction_shape_valid program owner = true)
    (happend : owner.opcode = .GEOMETRY_APPEND) (register lane : ℕ) :
    ¬ WritesOutput owner register lane := by
  rintro ⟨hcnt, htype, -, -⟩
  have hexp : ∃ expected, geometry_shape_valid owner = some expected ∧
      owner.operands.length = expected := by
    unfold usil_instruction_shape_valid at hshape
    split_ifs at hshape with _ hmemory
    · rw [happend] at hmemory
      exact absurd hmemory.1 (by decide)
    · have heq : expected_operand_count owner = geometry_shape_valid owner := by
        unfold expected_operand_count
        rw [happend]
        rfl
      rw [heq] at hshape
      cases hvalid : geometry_shape_valid owner with
      | none =>
        rw [hvalid] at hshape
        cases hshape
      | some expected =>
        rw [hvalid] at hshape
        exact ⟨expected, rfl, (of_decide_eq_true hshape).1⟩
  obtain ⟨expected, hvalid, hlen⟩ := hexp
  unfold geometry_shape_valid at hvalid
  dsimp only at hvalid
  obtain ⟨-, hvalid⟩ := ite_none_left_eq_some.mp hvalid
  by_cases hexpl : owner.geometry_stream_explicit = true
  · rw [if_neg (not_not.mpr hexpl)] at hvalid
    by_cases hone : owner.operands.length = 1
    · rw [if_neg (not_not.mpr hone)] at hvalid
      obtain ⟨hstream, -⟩ := ite_none_right_eq_some.mp hvalid
      rw [hstream.1] at htype
      nomatch htype
    · rw [if_pos hone] at hvalid
      exact hone (hlen.trans (some.inj hvalid).symm)
  · rw [if_pos hexpl] at hvalid
    obtain ⟨-, hvalid⟩ := ite_none_left_eq_some.mp hvalid
    exact hcnt (hlen.trans (some.inj hvalid).symm)

/-- **Outputs are written before every append.** For an accepted program every path of the graph
from the entry to an append writes every lane of every declared output before it. -/
theorem output_initialized_at_appends_on_every_path (program : USILGeometryProgram)
    (cfg : HLSLControlFlowGraph)
    (hbuild : build_control_flow_graph program.toUSILProgram .zeroed = some cfg)
    (hshape : ∀ owner ∈ program.instructions,
      usil_instruction_shape_valid program.toUSILDeclaredProgram owner = true)
    (haccepted : output_initialized_at_appends program cfg = .ok ())
    (i : ℕ) (happend : program.opcode i = .GEOMETRY_APPEND)
    (path : List ℕ) (hpath : Walk cfg.Next 0 path i)
    (field : DXBCSignatureElement) (hfield : field ∈ program.outputs)
    (lane : ℕ) (hlane : field.mask.toNat.testBit lane) :
    ∃ k ∈ path.dropLast, WritesOutput (program.instruction k) field.register_id.toNat lane := by
  obtain ⟨⟨t, htree⟩, hexact⟩ := (build_control_flow_graph_range_exact _ _ _).1 cfg hbuild
  have hexact : ExactGraph 0 program.instruction_count t cfg := hexact t htree
  obtain ⟨hpos, in_rows, out_rows, hsettled, hcheck⟩ := exists_settled haccepted
  have hfacts := mustFacts_of_settled hexact hpos hsettled
  -- The append is in a block, and the last loop looked at the row after it.
  have hlt : i < program.instructions.length := by
    by_contra hge
    have hopcode : program.opcode i = USILInstruction.zeroed.opcode := by
      rw [USILProgram.opcode, USILProgram.instruction, getD_eq_default _ _ (not_lt.mp hge)]
    rw [happend] at hopcode
    nomatch hopcode
  have hmem : program.instruction i ∈ program.instructions := by
    rw [USILProgram.instruction, getD_eq_getElem _ _ hlt]
    exact getElem_mem hlt
  obtain ⟨b, hb, hcovers⟩ := hexact.tiles.exists_covers (Nat.zero_le i) hlt
  have hplace : (cfg.blocks b).first_instruction + (i - (cfg.blocks b).first_instruction) = i :=
    Nat.add_sub_cancel' hcovers.1
  have hinside : i - (cfg.blocks b).first_instruction < (cfg.blocks b).instruction_total := by
    have := hcovers.2
    have := hcovers.1
    unfold HLSLBasicBlock.instruction_total
    omega
  obtain ⟨row, hrow, hwritten⟩ := fields_written_of_check (hcheck b hb) hinside
    (by rw [hplace]; exact happend)
  obtain ⟨row', hrow', hwrite⟩ := write_outputs_succ_eq_ok.mp hrow
  rw [hplace] at hwrite
  rcases hasLane_of_write hwrite (hasLane_of_fields_written hwritten hfield hlane) with
    hbefore | hmade
  · exact hfacts.exists_made hpath (f := (field.register_id.toNat, lane))
      ⟨b, hb, hcovers, row', hrow', hbefore⟩
  · exact absurd hmade (not_writesOutput_append (hshape _ hmem) happend _ _)

/-- An instruction of the sample: a move to `o0`, a conditional break on `r0.x`, an append to the
stream 0, or control flow without operands. -/
def sampleInstruction (opcode : USILOpcode) : USILInstruction :=
  let output : DXBCOperand := { DXBCOperand.zeroed with type := .output, destination_mask := 240 }
  let source : DXBCOperand := { DXBCOperand.zeroed with swizzle_mode := 2 }
  { USILInstruction.zeroed with
    opcode
    condition_test := if opcode = .BREAKC then .nonzero else .none
    geometry_effect := if opcode = .GEOMETRY_APPEND then .append else .none
    operands := if opcode = .MOV then [output, source]
      else if opcode = .BREAKC then [source] else [] }

/-- The move stands before the loop that appends, and one output is declared. -/
def sampleGeometry : USILGeometryProgram where
  instructions := [.MOV, .LOOP, .BREAKC, .GEOMETRY_APPEND, .ENDLOOP, .RET].map sampleInstruction
  temp_count := 1
  count_le := by decide
  has_stage_contract := true
  program_type := .geometry
  shader_model_major := 4
  shader_model_minor := 0
  cbuffers := []
  textures := []
  uavs := []
  signature_declarations := []
  compute_valid := false
  shared_memory := []
  outputs := [⟨[], 0, 0, 0, 3, 0, 0, 0, 15, 0⟩]

/-- The first and the last instruction of a block, and its successors. -/
def HLSLBasicBlock.row (block : HLSLBasicBlock) : List ℕ :=
  block.first_instruction :: block.last_instruction :: block.successors

theorem sampleGeometry_second_append_after_write :
    ∃ cfg, build_control_flow_graph sampleGeometry.toUSILProgram .zeroed = some cfg ∧
      Walk cfg.Next 0 [0, 1, 2, 3, 4, 2, 3] 3 ∧
      ∃ k ∈ [0, 1, 2, 3, 4, 2], WritesOutput (sampleGeometry.instruction k) 0 2 := by
  have hrun : ((build_control_flow_graph sampleGeometry.toUSILProgram .zeroed).map fun cfg =>
      (output_initialized_at_appends sampleGeometry cfg, cfg.block_count,
        (range 6).map fun b => (cfg.blocks b).row)) =
      some (.ok (), 6, [[0, 0, 1], [1, 1, 2], [2, 2, 3, 5], [3, 3, 4], [4, 4, 2], [5, 5]]) := by
    decide +kernel
  obtain ⟨cfg, hcfg, hvalue⟩ := map_eq_some_iff.mp hrun
  obtain ⟨haccepted, hvalue⟩ := Prod.mk.inj hvalue
  obtain ⟨hcount, hblocks⟩ := Prod.mk.inj hvalue
  have hblock : ∀ b < 6, ∀ row, [[0, 0, 1], [1, 1, 2], [2, 2, 3, 5], [3, 3, 4], [4, 4, 2],
      [5, 5]][b]? = some row → (cfg.blocks b).row = row := by
    intro b hb row hrow
    rw [← hblocks, getElem?_map, getElem?_range hb] at hrow
    exact some.inj hrow
  -- Every block has one instruction, so an edge is a step.
  have hnext : ∀ a < 6, ∀ c < 6, ∀ a_row c_row,
      (cfg.blocks a).row = a :: a :: a_row → (cfg.blocks c).row = c :: c :: c_row → c ∈ a_row →
      cfg.Next a c := by
    intro a ha c hc a_row c_row ha_eq hc_eq hmem
    obtain ⟨ha_first, ha_rest⟩ := cons.inj ha_eq
    obtain ⟨ha_last, ha_successors⟩ := cons.inj ha_rest
    refine ⟨a, by omega, ⟨ha_first.le, ha_last.ge⟩, ?_⟩
    rw [if_neg (by omega), ha_successors]
    exact .inl ⟨c, hmem, congrArg some (cons.inj hc_eq).1.symm⟩
  have h0 := hblock 0 (by decide) _ rfl
  have h1 := hblock 1 (by decide) _ rfl
  have h2 := hblock 2 (by decide) _ rfl
  have h3 := hblock 3 (by decide) _ rfl
  have h4 := hblock 4 (by decide) _ rfl
  have hwalk : Walk cfg.Next 0 [0, 1, 2, 3, 4, 2, 3] 3 := by
    have h01 := hnext 0 (by decide) 1 (by decide) _ _ h0 h1 (by decide)
    have h12 := hnext 1 (by decide) 2 (by decide) _ _ h1 h2 (by decide)
    have h23 := hnext 2 (by decide) 3 (by decide) _ _ h2 h3 (by decide)
    have h34 := hnext 3 (by decide) 4 (by decide) _ _ h3 h4 (by decide)
    have h42 := hnext 4 (by decide) 2 (by decide) _ _ h4 h2 (by decide)
    exact ((((((Walk.single 0).snoc h01).snoc h12).snoc h23).snoc h34).snoc h42).snoc h23
  refine ⟨cfg, hcfg, hwalk, ?_⟩
  exact output_initialized_at_appends_on_every_path sampleGeometry cfg hcfg (by decide) haccepted 3
    rfl _ hwalk ⟨[], 0, 0, 0, 3, 0, 0, 0, 15, 0⟩ (mem_singleton.mpr rfl) 2 (by decide)

end DXBCSandbox
