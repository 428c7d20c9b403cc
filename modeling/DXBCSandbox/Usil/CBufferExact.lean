/-
What an exact projection has met (`src/translation/dxbc_cbuffer_projection.c`).

A walk over the operands of a program that is exact was exact at each of them, so what is true of an
operand behind an exact step is true of all that the program reads. Padding is reported for a
static read or behind a dynamic one, which is reported as well.
-/
import DXBCSandbox.Usil.CBufferProjectionSpec

namespace DXBCSandbox

open List Option Usil CBuffer

namespace CBuffer

/-! ## Walks -/

/-- A projection that keeps the invariant, and a property that an exact one has established. -/
structure Walked (inv : State → Prop) (p : Prop) (s : State)
    (result : DXBCCBufferProjectionStatus × State) : Prop where
  inv : inv s → inv result.2
  exact : result.1 = .exact → p

variable {status : DXBCCBufferProjectionStatus} {state : State}

section Walk

variable {inv : State → Prop} {p q : Prop} {s s' : State}
  {result result' : DXBCCBufferProjectionStatus × State}

lemma walked_invalid (inv : State → Prop) (p : Prop) (s : State) :
    Walked inv p s (.invalid, s) where
  inv := id
  exact h := nomatch h

lemma walked_exact (inv : State → Prop) (s : State) : Walked inv True s (.exact, s) where
  inv := id
  exact _ := trivial

lemma Walked.mono (h : Walked inv p s result) (hpq : p → q) : Walked inv q s result where
  inv := h.inv
  exact hex := hpq (h.exact hex)

lemma Walked.after (h : Walked inv p s result) (h' : Walked inv q result.2 result') :
    Walked inv (p ∧ q) s (CBuffer.after result.1 result') where
  inv hs := h'.inv (h.inv hs)
  exact hex := by
    obtain ⟨hleft, hright⟩ := combine_status_eq_exact.mp hex
    exact ⟨h.exact hleft, h'.exact hright⟩

lemma Walked.relative (h : Walked inv p s result) {visited : DXBCOperand → Prop}
    {ref : OperandRef}
    (href : ref ≠ .null → Walked inv (∀ op ∈ operandsOf ref, visited op) result.2 result') :
    Walked inv (p ∧ ∀ op ∈ operandsOf ref, visited op) s
      (if ref = .null then result else CBuffer.after result.1 result') := by
  split_ifs with hnull
  · subst hnull
    exact h.mono fun hp => ⟨hp, fun op hop => absurd hop not_mem_nil⟩
  · exact h.after (href hnull)

variable (register size : UInt32) (ranges : List DXBCCBufferVariableRange)
  (visited : DXBCOperand → Prop)

/-- One operand keeps the invariant, and is visited when its projection is exact. -/
def Visits (inv : State → Prop) : Prop :=
  ∀ op mask s, Walked inv (visited op) s (dxbc_cbuffer_project_operand op mask register size ranges s)

variable {register size ranges visited}

/-- What a walk establishes of the constant-buffer operands. -/
def VisitedBuffer (visited : DXBCOperand → Prop) (op : DXBCOperand) : Prop :=
  op.type = .constantBuffer → visited op

variable (hvisits : Visits register size ranges visited inv)

include hvisits

lemma walked_node (op : DXBCOperand)
    (htree : ∀ ref ∈ [op.rel_op0, op.rel_op1, op.rel_op2], ∀ depth s, ref ≠ .null → Walked inv
    (∀ op ∈ operandsOf ref, VisitedBuffer visited op) s (project_operand_tree register size
      ranges ref true 1 depth s)) (project_root : Bool) (mask depth : ℕ) (s : State) :
    Walked inv ((project_root = true → VisitedBuffer visited op) ∧
        ∀ inner ∈ relatives op, VisitedBuffer visited inner) s
      (project_operand_tree register size ranges op.ref project_root mask depth s) := by
  unfold DXBCOperand.ref
  rw [project_operand_tree]
  by_cases hdepth : DXBC_MAX_NESTED_OPERAND_TOKENS ≤ depth
  · rw [if_pos hdepth]
    exact walked_invalid ..
  rw [if_neg hdepth]
  have hroot : Walked inv (project_root = true → VisitedBuffer visited op) s
      (if project_root = true ∧ op.type = .constantBuffer then
        dxbc_cbuffer_project_operand op mask register size ranges s else (.exact, s)) := by
    split_ifs with hproject
    · exact (hvisits op mask s).mono fun hvis _ _ => hvis
    · exact (walked_exact inv s).mono fun _ hp htype => absurd ⟨hp, htype⟩ hproject
  refine (((hroot.relative (htree _ ?_ _ _)).relative (htree _ ?_ _ _)).relative
    (htree _ ?_ _ _)).mono ?_
  · simp
  · simp
  · simp
  · rintro ⟨⟨⟨hop, h0⟩, h1⟩, h2⟩
    refine ⟨hop, fun inner hinner => ?_⟩
    unfold relatives at hinner
    rcases mem_append.mp hinner with hinner | hinner
    · exact (mem_append.mp hinner).elim (h0 inner) (h1 inner)
    · exact h2 inner hinner

lemma walked_tree (ref : OperandRef) :
    ∀ depth s, ref ≠ .null → Walked inv (∀ op ∈ operandsOf ref, VisitedBuffer visited op) s
      (project_operand_tree register size ranges ref true 1 depth s) := by
  induction ref with
  | null => exact fun _ _ hnull => absurd rfl hnull
  | node fields rel_op0 rel_op1 rel_op2 h0 h1 h2 =>
    intro depth s _
    refine (walked_node hvisits ⟨fields, rel_op0, rel_op1, rel_op2⟩ ?_ true 1 depth s).mono ?_
    · intro ref href
      simp only [mem_cons, not_mem_nil, or_false] at href
      rcases href with rfl | rfl | rfl
      · exact h0
      · exact h1
      · exact h2
    · rintro ⟨hroot, hinner⟩ op hop
      rcases mem_cons.mp hop with rfl | hop
      · exact hroot rfl
      · exact hinner op hop

omit hvisits in
/-- The operand is a source if it reads a constant buffer, and it and those nested in it have been
visited. -/
def OperandVisited (visited : DXBCOperand → Prop) (program : USILDeclaredProgram)
    (instruction : USILInstruction) (index : ℕ) (op : DXBCOperand) : Prop :=
  (op.type = .constantBuffer → visited op ∧
      ∃ mask, usil_instruction_operand_use program instruction index = some ⟨.source, mask⟩) ∧
    ∀ inner ∈ relatives op, VisitedBuffer visited inner

lemma walked_operands (program : USILDeclaredProgram) (instruction : USILInstruction)
    (ops : List DXBCOperand) (index : ℕ) (h : Walked inv p s (status, state)) :
    Walked inv (p ∧ ∀ (j : ℕ) (op : DXBCOperand), ops[j]? = some op →
        OperandVisited visited program instruction (index + j) op) s
      (project_operands register size ranges program instruction index ops status state) := by
  induction ops generalizing index status state p with
  | nil => exact h.mono fun hp => ⟨hp, fun j op hop => absurd hop (by simp)⟩
  | cons op ops ih =>
    rw [project_operands]
    cases huse : usil_instruction_operand_use program instruction index with
    | none => exact ⟨h.inv, fun hex => by cases hex⟩
    | some use =>
      dsimp only
      by_cases hrole : ¬ decide (use.use = .source) = true ∧ op.type = .constantBuffer
      · rw [if_pos hrole]
        exact ⟨h.inv, fun hex => by cases hex⟩
      rw [if_neg hrole]
      have htree := h.after (walked_node hvisits op (fun ref _ => walked_tree hvisits ref)
        (decide (use.use = .source)) use.source_lane_mask 0 state)
      split_ifs with hinv
      · exact ⟨htree.inv, fun hex => by cases hex.symm.trans hinv⟩
      refine (ih (index + 1) htree).mono ?_
      rintro ⟨⟨hp, hroot, hinner⟩, hrest⟩
      refine ⟨hp, fun j other hother => ?_⟩
      cases j with
      | zero =>
        rw [← some.inj hother]
        refine ⟨fun htype => ?_, hinner⟩
        have hsrc : use.use = .source := by
          by_contra hne
          exact hrole ⟨by simpa using hne, htype⟩
        refine ⟨hroot (decide_eq_true hsrc) htype, use.source_lane_mask, ?_⟩
        rw [Nat.add_zero, huse, ← hsrc]
      | succ j =>
        rw [Nat.add_comm j 1, ← Nat.add_assoc]
        exact hrest j other hother

lemma walked_instructions (program : USILDeclaredProgram) (instructions : List USILInstruction)
    (h : Walked inv p s (status, state)) :
    Walked inv (p ∧ ∀ instruction ∈ instructions, ∀ (index : ℕ) (op : DXBCOperand),
        instruction.operands[index]? = some op →
          OperandVisited visited program instruction index op) s
      (project_instructions register size ranges program instructions status state) := by
  induction instructions generalizing status state p with
  | nil => exact h.mono fun hp => ⟨hp, fun _ hmem => absurd hmem not_mem_nil⟩
  | cons instruction rest ih =>
    rw [project_instructions]
    by_cases hshape : usil_instruction_shape_valid program instruction = true
    swap
    · rw [if_pos hshape]
      exact ⟨h.inv, fun hex => by cases hex⟩
    rw [if_neg (not_not.mpr hshape)]
    have hfst := walked_operands hvisits program instruction instruction.operands 0 h
    dsimp only
    split_ifs with hinv
    · exact ⟨hfst.inv, fun hex => by cases hex.symm.trans hinv⟩
    refine (ih hfst).mono ?_
    rintro ⟨⟨hp, hops⟩, hrest⟩
    refine ⟨hp, forall_mem_cons.mpr ⟨fun index op hop => ?_, hrest⟩⟩
    have hvis := hops index op hop
    rwa [Nat.zero_add] at hvis

/-- **A walk over a program.** -/
theorem walked_program (program : USILDeclaredProgram) (s : State) :
    Walked inv (validate_ranges size ranges = true ∧
        ∀ instruction ∈ program.instructions, ∀ (index : ℕ) (op : DXBCOperand),
          instruction.operands[index]? = some op →
            OperandVisited visited program instruction index op) s
      (dxbc_cbuffer_project_program program register size ranges s) := by
  unfold dxbc_cbuffer_project_program
  by_cases hvalid : validate_ranges size ranges = true
  · rw [if_neg (not_not.mpr hvalid)]
    refine (walked_instructions hvisits program program.instructions (walked_exact inv s)).mono ?_
    exact fun h => ⟨hvalid, h.2⟩
  · rw [if_pos hvalid]
    exact walked_invalid ..

end Walk

/-! ## Padding -/

/-- Padding was met by a static read, or behind a dynamic one. -/
def PaddingSeen (s : State) : Prop :=
  s.projection.saw_padding_access = true →
    s.projection.saw_static_padding_access = true ∨ s.projection.saw_dynamic_access = true

/-- A dynamic read has been reported before its lanes are projected. -/
def Reported (dynamic : Bool) (s : State) : Prop :=
  PaddingSeen s ∧ (dynamic = true → s.projection.saw_dynamic_access = true)

section Padding

variable (ranges : List DXBCCBufferVariableRange) (size : UInt32) {dynamic : Bool} {s : State}

lemma project_byte_reported (byte lane : ℕ) (h : Reported dynamic s) :
    Reported dynamic (project_byte ranges byte lane dynamic s).2 := by
  unfold project_byte
  split
  · exact h
  · refine ⟨fun _ => ?_, h.2⟩
    cases dynamic with
    | false => exact .inl (Bool.or_true _)
    | true => exact .inr (h.2 rfl)
  · exact h

lemma project_lanes_reported (offset mask : ℕ) (lanes : List ℕ)
    (status : DXBCCBufferProjectionStatus) (h : Reported dynamic s) :
    Reported dynamic (project_lanes ranges offset mask dynamic lanes status s).2 := by
  induction lanes generalizing status s with
  | nil => exact h
  | cons lane lanes ih =>
    rw [project_lanes]
    split
    · exact ih status h
    · exact ih _ (project_byte_reported ranges (offset + lane * 4) lane h)

lemma project_row_reported (row mask : ℕ) (h : Reported dynamic s) :
    Reported dynamic (project_row size ranges row mask dynamic s).2 := by
  unfold project_row
  dsimp only
  split
  · exact h
  · exact project_lanes_reported ranges (row * 16) mask [0, 1, 2, 3] .exact h

lemma project_rows_reported (mask count row : ℕ) (status : DXBCCBufferProjectionStatus)
    (h : Reported true s) :
    Reported true (project_rows size ranges mask count row status s).2 := by
  induction count generalizing row status s with
  | zero => exact h
  | succ count ih =>
    rw [project_rows]
    exact ih (row + 1) _ (project_row_reported ranges size row mask h)

lemma project_rows_not_exact (mask count row : ℕ) (hstat : status ≠ .exact) (s : State) :
    (project_rows size ranges mask count row status s).1 ≠ .exact := by
  induction count generalizing row status s with
  | zero => exact hstat
  | succ count ih =>
    rw [project_rows]
    exact ih (row + 1) (fun hex => hstat (combine_status_eq_exact.mp hex).1) _

end Padding

/-- What an exact projection has checked about an operand. -/
structure Admitted (register : UInt32) (op : DXBCOperand) : Prop where
  slot : slot_valid op = true
  static : Names register op → op.rel_op1 = .null ∧ static_index_valid op = true

/-- **One operand.** -/
theorem visits_admitted (register size : UInt32) (ranges : List DXBCCBufferVariableRange) :
    Visits register size ranges (Admitted register) PaddingSeen := by
  intro op mask s
  unfold dxbc_cbuffer_project_operand
  split
  · exact walked_invalid ..
  split
  · exact walked_invalid ..
  rename_i hslot
  have hslot := not_not.mp hslot
  split
  · rename_i hother
    exact (walked_exact PaddingSeen s).mono fun _ => ⟨hslot, fun hnames => absurd hnames.2 hother⟩
  split
  · exact walked_invalid ..
  dsimp only
  split
  · rename_i hnull
    split
    · exact ⟨fun h => h, nofun⟩
    · rename_i hidx
      refine ⟨fun h => ?_, fun _ => ⟨hslot, fun _ => ⟨hnull, not_not.mp hidx⟩⟩⟩
      have hrep : Reported false { s with projection :=
          { s.projection with saw_access := true } } := ⟨h, fun hd => Bool.noConfusion hd⟩
      exact (project_row_reported ranges size _ _ hrep).1
  · split
    · exact ⟨fun h => h, nofun⟩
    · refine ⟨fun _ => ?_, fun hex => ?_⟩
      · exact (project_rows_reported ranges size _ _ _ _ ⟨fun _ => .inr rfl, fun _ => rfl⟩).1
      · exact absurd hex (project_rows_not_exact ranges size _ _ _ (by decide) _)

/-! ## Ranges -/

variable {ranges : List DXBCCBufferVariableRange} {size : UInt32}

lemma aligned_of_validate (h : validate_ranges size ranges = true) :
    ∀ range ∈ ranges, range.byte_offset.toNat % 4 = 0 ∧ range.byte_size.toNat % 4 = 0 := by
  have hfrom (rest : List DXBCCBufferVariableRange) : ∀ previous,
      validate_ranges_from previous rest = true →
        ∀ range ∈ rest, range.byte_offset.toNat % 4 = 0 ∧ range.byte_size.toNat % 4 = 0 := by
    induction rest with
    | nil => exact fun _ _ _ hmem => absurd hmem not_mem_nil
    | cons range rest ih =>
      intro previous hrest
      rw [validate_ranges_from] at hrest
      split at hrest
      · cases hrest
      rename_i hrange
      split at hrest
      · cases hrest
      refine forall_mem_cons.mpr ⟨?_, ih _ hrest⟩
      omega
  unfold validate_ranges at h
  split at h
  · cases h
  · exact hfrom ranges [] h

/-- **An exact projection that has met no padding by a static read and no dynamic read.** Each
constant-buffer operand names its buffer by an immediate, and where that is the projected one, it
is statically addressed and each of its lanes lies in a range. -/
theorem exact_without_padding {program : USILDeclaredProgram} {register : UInt32}
    (h : dxbc_cbuffer_project_program program register size ranges
      (dxbc_cbuffer_projection_reset ranges.length) = (.exact, state))
    (hstatic : state.projection.saw_static_padding_access = false)
    (hdyn : state.projection.saw_dynamic_access = false) :
    (∀ instruction ∈ program.instructions, ∀ (index : ℕ) (op : DXBCOperand),
      instruction.operands[index]? = some op → op.type = .constantBuffer →
        ∃ mask, usil_instruction_operand_use program instruction index = some ⟨.source, mask⟩) ∧
    ∀ op mask, SourceOperand program op mask → op.type = .constantBuffer →
      Admitted register op ∧ (Names register op → ∀ lane, ReadsLane op mask lane → ∃ range ∈ ranges,
          range.byte_offset.toNat ≤ (op.index_values.get 1).toNat * 16 + lane * 4 ∧
          (op.index_values.get 1).toNat * 16 + lane * 4 + 4 ≤
            range.byte_offset.toNat + range.byte_size.toNat) := by
  have hwalk := walked_program (visits_admitted register size ranges) program
    (dxbc_cbuffer_projection_reset ranges.length)
  have hspec := project_program_spec program register size ranges
    (dxbc_cbuffer_projection_reset ranges.length)
  rw [h] at hwalk hspec
  obtain ⟨hvalid, hvis⟩ := hwalk.exact rfl
  -- nothing is read outside the ranges
  have hpad : ¬ state.projection.saw_padding_access = true := by
    intro hsaw
    rcases hwalk.inv (nofun) hsaw with hbad | hbad
    · exact Bool.false_ne_true (hstatic.symm.trans hbad)
    · exact Bool.false_ne_true (hdyn.symm.trans hbad)
  have hadds := (hspec.adds (nofun)).of_reset.2
  refine ⟨fun instruction hinstr index op hop htype =>
    ((hvis instruction hinstr index op hop).1 htype).2, ?_⟩
  intro op mask hsrc htype
  have hadm : Admitted register op := by
    cases hsrc with
    | top hinstr hop huse => exact ((hvis _ hinstr _ op hop).1 htype).1
    | relative hinstr hop hinner =>
      obtain ⟨index, hidx⟩ := mem_iff_getElem?.mp hop
      exact (hvis _ hinstr index _ hidx).2 op hinner htype
  refine ⟨hadm, fun hnames lane hlane => ?_⟩
  by_contra hnone
  refine hpad (hadds.mpr ⟨(op.index_values.get 1).toNat * 16 + lane * 4, lane, ?_, ?_⟩)
  · refine mem_instructionReads_iff.mpr ⟨op, mask, hsrc, hnames, hlane, _, ?_, rfl⟩
    unfold MayName
    rw [if_pos (hadm.static hnames).1]
  · intro range hrange hcont
    have halign := aligned_of_validate hvalid range hrange
    unfold DXBCCBufferVariableRange.Contains at hcont
    exact hnone ⟨range, hrange, hcont.1, by omega⟩

end CBuffer

end DXBCSandbox
