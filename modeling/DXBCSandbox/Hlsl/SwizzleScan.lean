/-
The scan for decomposed swizzles (`PreScanSwizzleDecomposition` of
`src/translation/hlsl_analysis_swizzle.c`).

A move that permutes three components of a register is a candidate. The scan goes back from it
over writes of single components and stores the index of each in an array of three, until three
different components are written.

The tables start cleared. The names put into them are left out: they are formatted from the
registers and components that address the tables.
-/
import DXBCSandbox.Hlsl.SemanticDetect
import Mathlib.Data.Finset.Card

namespace DXBCSandbox

open List

namespace SwizzleScan

open Usil HlslSemantic

/-! ## The scan -/

inductive Fault where
  | writeInstIndices | table
  deriving DecidableEq

/-- The components of a mask, whose bits 4 to 7 are `x`, `y`, `z`, `w`. -/
def lanes (mask : ℕ) : List ℕ := [0, 1, 2, 3].filter fun c => mask.testBit (c + 4)

variable (program : USILProgram) (inst : USILInstruction)

def destLanes : List ℕ := lanes (operand inst 0).destination_mask

def srcComponents : List ℕ :=
  (destLanes inst).map fun c =>
    if (operand inst 1).swizzle_mode = 1 then (operand inst 1).swizzle.get c else c

def is_candidate : Bool :=
  let dest := operand inst 0
  let src := operand inst 1
  inst.opcode = .MOV ∧ inst.operands.length = 2 ∧ src.type = .temp ∧ dest.type = .temp ∧
    ¬ (src.has_neg ∨ src.has_abs) ∧ get_mask_component_count dest.destination_mask = 3 ∧
    srcComponents inst ≠ destLanes inst ∧
    ¬ (src.register_index < 0 ∨ dest.register_index < 0 ∨ src.register_index = dest.register_index)

structure WriteList where
  writeInstIndices : List ℕ
  writtenComps : Finset ℕ

variable (srcReg : ℤ)

def is_register (op : DXBCOperand) : Bool := op.type = .temp ∧ op.register_index = srcReg

/-- `prev` is the end of a block, or reads the register. -/
def stops (prev : USILInstruction) : Bool :=
  prev.opcode ∈ [USILOpcode.IF, .ELSE, .ENDIF, .LOOP, .ENDLOOP, .SWITCH, .CASE, .DEFAULT,
    .ENDSWITCH] ∨ (prev.operands.drop 1).any (is_register srcReg)

def writes (prev : USILInstruction) : Bool :=
  1 ≤ prev.operands.length ∧ is_register srcReg (operand prev 0)

/-- The scan over the indices before the move, the last one first. A block end leaves `valid` set,
but then too few components are written. -/
def scan : List ℕ → WriteList → Except Fault (Bool × WriteList)
  | [], list => .ok (true, list)
  | j :: rest, list =>
    let prev := program.instruction j
    if stops srcReg prev then .ok (false, list)
    else if ¬ writes srcReg prev then scan rest list
    else match destLanes prev with
      | [writtenComp] =>
        if 3 ≤ list.writeInstIndices.length then .error .writeInstIndices
        else
          let list := ⟨list.writeInstIndices ++ [j], insert writtenComp list.writtenComps⟩
          if list.writtenComps.card = 3 then .ok (true, list) else scan rest list
      | _ => .ok (false, list)

/-! ## The tables -/

inductive Table where
  | decompositions | int_temps | ftoi_temps | write_redirects | deferred_floats
  deriving DecidableEq

structure TableStore where
  table : Table
  register : ℤ
  component : ℕ
  deriving DecidableEq

def is_scalar_integer_op (op : USILOpcode) : Bool :=
  op ∈ [USILOpcode.AND, .OR, .XOR, .NOT, .ISHL, .ISHR, .USHR, .UBFE, .IADD, .IMUL, .IMAD, .INEG,
    .IMIN, .IMAX, .UMIN, .UMAX]

def intDestComp (writeInstIndices : List ℕ) : Option ℕ := do
  let j ← writeInstIndices.find? fun j => is_scalar_integer_op (program.opcode j)
  let intSrcComp ← (destLanes (program.instruction j)).head?
  let lane ← ((destLanes inst).zip (srcComponents inst)).find? (·.2 = intSrcComp)
  pure lane.1

/-- The stores for a move whose component `intDest` receives the integer. -/
def decomposition_stores (intDest : ℕ) : List TableStore :=
  let destReg := (operand inst 0).register_index
  let srcReg := (operand inst 1).register_index
  match (destLanes inst).filter (· ≠ intDest) with
  | [float0, float1] =>
    [⟨.decompositions, destReg, 0⟩, ⟨.int_temps, destReg, intDest⟩,
      ⟨.ftoi_temps, destReg, float0⟩, ⟨.ftoi_temps, destReg, float1⟩] ++
    ((destLanes inst).zip (srcComponents inst)).flatMap fun (lane, srcComp) =>
      ⟨.write_redirects, srcReg, srcComp⟩ ::
        if lane = intDest then [] else [⟨.deferred_floats, srcReg, srcComp⟩]
  | _ => []

def in_tables (store : TableStore) : Bool :=
  0 ≤ store.register ∧ store.register < program.temp_count ∧ store.component < 4

def prescan_move (i : ℕ) : Except Fault (List TableStore) :=
  let inst := program.instruction i
  if ¬ is_candidate inst then .ok []
  else
    (scan program (operand inst 1).register_index (List.range i).reverse ⟨[], ∅⟩).bind fun (valid, list) =>
    if ¬ valid ∨ list.writtenComps.card ≠ 3 then .ok []
    else match intDestComp program inst list.writeInstIndices with
      | none => .ok []
      | some intDest =>
        let stores := decomposition_stores inst intDest
        if stores.all (in_tables program) then .ok stores else .error .table

def PreScanSwizzleDecomposition (readability_transforms_enabled : Bool) :
    Except Fault (List TableStore) :=
  if ¬ readability_transforms_enabled then .ok []
  else (List.range program.instruction_count).foldlM (fun stores i =>
    (stores ++ ·) <$> prescan_move program i) []

/-! ## The writes that the scan meets -/

/-- What the emitter's validation says of the operands that the scan reads. -/
def Validated : Prop :=
  ∀ inst ∈ program.instructions, ∀ op ∈ inst.operands, op.type = .temp →
    0 ≤ op.register_index ∧ op.register_index < program.temp_count ∧ ∀ c < 4, op.swizzle.get c ≤ 3

/-- The components that single writes of the register give values, from the last one back to
whatever ends the scan. -/
def writtenLanes : List ℕ → List ℕ
  | [] => []
  | j :: rest =>
    let prev := program.instruction j
    if stops srcReg prev then []
    else if ¬ writes srcReg prev then writtenLanes rest
    else match destLanes prev with
      | [c] => c :: writtenLanes rest
      | _ => []

def moveLanes (i : ℕ) : List ℕ :=
  writtenLanes program (operand (program.instruction i) 1).register_index (List.range i).reverse

variable {program srcReg}

lemma scan_ok_iff (l : List ℕ) {list : WriteList} {before : List ℕ}
    (hlen : list.writeInstIndices.length = before.length)
    (hcomps : list.writtenComps = before.toFinset) (h3 : before.length ≤ 3)
    (hcard : before.toFinset.card < 3) :
    (∃ out, scan program srcReg l list = .ok out) ↔
      (4 ≤ (before ++ writtenLanes program srcReg l).length →
        ((before ++ writtenLanes program srcReg l).take 3).Nodup) := by
  -- the run is over with at most three writes
  have hend : 4 ≤ (before ++ []).length → ((before ++ []).take 3).Nodup := by
    simp only [append_nil]
    omega
  induction l generalizing list before with
  | nil => exact iff_of_true ⟨_, rfl⟩ hend
  | cons j l ih =>
    rw [scan, writtenLanes]
    by_cases hstop : stops srcReg (program.instruction j) = true
    · rw [if_pos hstop, if_pos hstop]
      exact iff_of_true ⟨_, rfl⟩ hend
    rw [if_neg hstop, if_neg hstop]
    by_cases hwrite : writes srcReg (program.instruction j) = true
    · rw [if_neg (not_not.mpr hwrite), if_neg (not_not.mpr hwrite)]
      rcases destLanes (program.instruction j) with _ | ⟨c, _ | ⟨d, more⟩⟩
      · exact iff_of_true ⟨_, rfl⟩ hend
      · simp only [hlen, length_append]
        by_cases hfull : 3 ≤ before.length
        · -- the fourth write, though two of the first three have one component
          have hdup : ¬ before.Nodup := fun h => by
            rw [toFinset_card_of_nodup h] at hcard
            omega
          rw [if_pos hfull, take_append_of_le_length hfull, take_of_length_le h3]
          simp [hdup]
          omega
        · have hins : insert c list.writtenComps = (before ++ [c]).toFinset := by
            ext x
            simp [hcomps]
          have hcons : before ++ c :: writtenLanes program srcReg l =
              (before ++ [c]) ++ writtenLanes program srcReg l := by simp
          have hle := toFinset_card_le (before ++ [c])
          have hlen' : (before ++ [c]).length = before.length + 1 := by simp
          rw [if_neg hfull, hins, ← length_append, hcons]
          split
          · next h =>
            refine iff_of_true ⟨_, rfl⟩ fun _ => ?_
            rw [take_append_of_le_length (by omega), take_of_length_le (by omega)]
            have hlist : before.length = 2 := by omega
            exact Multiset.coe_nodup.mp (Multiset.toFinset_card_eq_card_iff_nodup.mp
              (h.trans (by simp [hlist])))
          · next h =>
            refine ih (by simp [hlen]) rfl (by omega) (by omega) ?_
            simp only [append_nil]
            omega
      · exact iff_of_true ⟨_, rfl⟩ hend
    · rw [if_pos hwrite, if_pos hwrite]
      exact ih hlen hcomps h3 hcard hend

lemma lanes_lt {mask c : ℕ} (h : c ∈ lanes mask) : c < 4 := by
  have := mem_of_mem_filter h
  simp only [mem_cons, not_mem_nil, or_false] at this
  omega

/-- The stores of a candidate of a validated program. -/
theorem decomposition_stores_in_tables (hv : Validated program) {inst : USILInstruction}
    (hinst : inst ∈ program.instructions) (hc : is_candidate inst = true) {intDest : ℕ}
    (hd : intDest < 4) : (decomposition_stores inst intDest).all (in_tables program) = true := by
  simp only [is_candidate, decide_eq_true_eq] at hc
  obtain ⟨-, hlen, hsrc, hdest, -, -, -, -⟩ := hc
  have hop (k : ℕ) (hk : k < 2) (ht : (operand inst k).type = .temp) :=
    hv inst hinst (operand inst k) (by
      rw [operand, getD_eq_getElem _ _ (by omega)]
      exact getElem_mem _) ht
  obtain ⟨hd0, hd1, -⟩ := hop 0 (by omega) hdest
  obtain ⟨hs0, hs1, hswz⟩ := hop 1 (by omega) hsrc
  have hcomp : ∀ c ∈ srcComponents inst, c < 4 := by
    intro c hc
    obtain ⟨lane, hlane, rfl⟩ := mem_map.mp hc
    have := lanes_lt hlane
    have := hswz lane this
    split <;> omega
  unfold decomposition_stores
  split
  · next float0 float1 hfloat =>
    have hf (c : ℕ) (h : c ∈ [float0, float1]) : c < 4 :=
      lanes_lt (mem_of_mem_filter (hfloat ▸ h))
    have := hf float0 (by simp)
    have := hf float1 (by simp)
    simp only [all_append, Bool.and_eq_true, all_eq_true, mem_flatMap]
    constructor
    · intro store hstore
      simp only [mem_cons, not_mem_nil, or_false] at hstore
      obtain rfl | rfl | rfl | rfl := hstore <;> simp [in_tables, *]
    · rintro store ⟨⟨lane, srcComp⟩, hpair, hstore⟩
      have := hcomp srcComp (of_mem_zip hpair).2
      split at hstore
      · rw [mem_singleton.mp hstore]
        simp [in_tables, *]
      · simp only [mem_cons, not_mem_nil, or_false] at hstore
        obtain rfl | rfl := hstore <;> simp [in_tables, *]
  · rfl

/-- **The scan of one move.** -/
theorem prescan_move_ok_iff (hv : Validated program) {i : ℕ} (hi : i < program.instruction_count) :
    (∃ stores, prescan_move program i = .ok stores) ↔
      (is_candidate (program.instruction i) = true → 4 ≤ (moveLanes program i).length →
        ((moveLanes program i).take 3).Nodup) := by
  have hscan := @scan_ok_iff program (operand (program.instruction i) 1).register_index
    (range i).reverse ⟨[], ∅⟩ [] rfl rfl (by decide) (by decide)
  rw [nil_append] at hscan
  have hmem : program.instruction i ∈ program.instructions := by
    rw [USILProgram.instruction, getD_eq_getElem _ _ hi]
    exact getElem_mem hi
  unfold prescan_move
  by_cases hc : is_candidate (program.instruction i) = true
  · rw [if_neg (not_not.mpr hc), moveLanes]
    simp only [hc, true_imp_iff]
    rw [← hscan]
    refine ⟨fun ⟨stores, h⟩ => ?_, fun ⟨⟨valid, list⟩, h⟩ => ?_⟩
    · cases hrun : scan program (operand (program.instruction i) 1).register_index
          (range i).reverse ⟨[], ∅⟩ with
      | error fault =>
        rw [hrun] at h
        cases h
      | ok out => exact ⟨out, rfl⟩
    · rw [h]
      simp only [Except.bind]
      split
      · exact ⟨_, rfl⟩
      · split
        · exact ⟨_, rfl⟩
        · next intDest hint =>
          simp only [intDestComp, Option.bind_eq_bind, Option.bind_eq_some_iff] at hint
          obtain ⟨_, _, _, _, lane, hlane, hdest⟩ := hint
          have hlt := lanes_lt (of_mem_zip (mem_of_find?_eq_some hlane)).1
          rw [Option.some.inj hdest] at hlt
          rw [if_pos (decomposition_stores_in_tables hv hmem hc hlt)]
          exact ⟨_, rfl⟩
  · rw [if_pos hc]
    exact iff_of_true ⟨_, rfl⟩ fun h => absurd h hc

/-- **The scan stays in bounds** exactly when no candidate's run of single writes has a fourth
write before the third component. -/
theorem PreScanSwizzleDecomposition_ok_iff (hv : Validated program) :
    (∃ stores, PreScanSwizzleDecomposition program true = .ok stores) ↔
      ∀ i < program.instruction_count, is_candidate (program.instruction i) = true →
        4 ≤ (moveLanes program i).length → ((moveLanes program i).take 3).Nodup := by
  have hfold (l : List ℕ) (stores : List TableStore) :
      (∃ out, l.foldlM (fun stores i => (stores ++ ·) <$> prescan_move program i) stores =
        .ok out) ↔ ∀ i ∈ l, ∃ out, prescan_move program i = .ok out := by
    induction l generalizing stores with
    | nil => exact iff_of_true ⟨_, rfl⟩ (by simp)
    | cons i l ih =>
      rw [forall_mem_cons, foldlM_cons]
      cases h : prescan_move program i with
      | error fault => exact iff_of_false (by rintro ⟨out, h⟩; cases h) (by simp)
      | ok out =>
        simp only [Except.ok.injEq, exists_eq', true_and]
        exact ih (stores ++ out)
  rw [PreScanSwizzleDecomposition, if_neg (by simp), hfold]
  simp only [mem_range]
  exact forall₂_congr fun i hi => prescan_move_ok_iff hv hi

private def write (opcode : USILOpcode) (reg : ℤ) (mask : ℕ) (src : DXBCOperand) :
    USILInstruction :=
  { USILInstruction.zeroed with
    opcode
    operands := [{ DXBCOperand.zeroed with register_index := reg, destination_mask := mask }, src] }

/-- An integer goes into each component of `r0`, the given ones last, and `r0.yzx` into `r1`. -/
private def sample (masks : List ℕ) (h : masks.length ≤ 4) : USILProgram where
  instructions :=
    ((32 :: 64 :: masks).map fun mask =>
      write .NOT 0 mask { DXBCOperand.zeroed with type := .immediate32, imm_value_count := 1 }) ++
    [write .MOV 1 112 { DXBCOperand.zeroed with swizzle_mode := 1, swizzle := ⟨1, 2, 0, 0⟩ }]
  temp_count := 2
  count_le := by
    simp [INT_MAX]
    omega

theorem PreScanSwizzleDecomposition_ok_single :
    ∃ stores, PreScanSwizzleDecomposition (sample [16] (by decide)) true = .ok stores ∧
      stores ≠ [] := by
  obtain ⟨stores, h⟩ := (@PreScanSwizzleDecomposition_ok_iff (sample [16] (by decide))
    (by unfold Validated; decide)).mpr (by decide)
  refine ⟨stores, h, ?_⟩
  rintro rfl
  exact absurd h (by decide)

/-- Four writes of one component overrun the array. -/
theorem PreScanSwizzleDecomposition_overruns : Validated (sample [16, 16, 16, 16] (by decide)) ∧
      PreScanSwizzleDecomposition (sample [16, 16, 16, 16] (by decide)) true =
        .error .writeInstIndices := by
  unfold Validated
  decide

end SwizzleScan

end DXBCSandbox
