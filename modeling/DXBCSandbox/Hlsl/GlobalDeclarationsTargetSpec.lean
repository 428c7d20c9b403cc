/-
A validated program reads only what it may (`src/translation/hlsl_global_declarations.c`).

The reads are projected onto the fields that the program's own parameters declare, and each of these
is a field of the union that the current subprogram declares.
-/
import DXBCSandbox.Hlsl.GlobalDeclarationsSpec
import DXBCSandbox.Hlsl.GlobalDeclarationsTarget
import DXBCSandbox.Usil.CBufferExact

namespace DXBCSandbox

open Usil CBuffer GlobalDeclarations

namespace GlobalDeclarations

/-! ## Own fields -/

section Fails

def Fails {α : Type} (p : Except HLSLGlobalDeclarationStatus α) : Prop := p ≠ .error .ok

variable {α : Type}

lemma fails_ok (a : α) : Fails (.ok a) := nofun

variable {β : Type}

lemma Fails.bind {p : Except HLSLGlobalDeclarationStatus α}
    {f : α → Except HLSLGlobalDeclarationStatus β} (hp : Fails p) (hf : ∀ a, Fails (f a)) :
    Fails (p >>= f) := by
  cases p with
  | error status => exact fun h => hp (congrArg _ (Except.error.inj h))
  | ok a => exact hf a

lemma fails_foldlM {f : β → α → Except HLSLGlobalDeclarationStatus β} (h : ∀ b a, Fails (f b a))
    (xs : List α) (b : β) : Fails (xs.foldlM f b) := by
  induction xs generalizing b with
  | nil => exact fails_ok b
  | cons x xs ih =>
    rw [List.foldlM_cons]
    exact (h b x).bind ih

lemma fails_findSlot (field : HLSLGlobalDeclarationField)
    (fields : List HLSLGlobalDeclarationField) : Fails (findSlot field fields) := by
  induction fields with
  | nil => exact fails_ok _
  | cons prior rest ih =>
    rw [findSlot]
    split
    · cases hrest : findSlot field rest with
      | error status =>
        rw [hrest] at ih
        exact fun h => ih (congrArg _ (Except.error.inj h))
      | ok slot => exact fails_ok _
    · split
      · exact fun h => by cases h
      · exact fails_ok _

lemma fails_add_field (fields : List HLSLGlobalDeclarationField)
    (field : HLSLGlobalDeclarationField) (witness : ℕ) (current : Bool) :
    Fails (add_field fields field witness current) := by
  unfold add_field
  split
  · rename_i status hslot
    have hfails := fails_findSlot field fields
    rw [hslot] at hfails
    exact fun h => hfails (congrArg _ (Except.error.inj h))
  · exact fails_ok _
  · split
    · exact nofun
    · exact fails_ok _

lemma fails_append_parameters (size : UInt32) (fields : List HLSLGlobalDeclarationField)
    (block : Option SerializedProgramParameters) (witness : ℕ) (current : Bool) :
    Fails (append_parameters size fields block witness current) := by
  unfold append_parameters
  split
  · exact fails_ok _
  refine fails_foldlM (fun fields buffer => ?_) _ _
  unfold append_buffer
  split
  · exact nofun
  split
  · exact nofun
  split
  · exact fails_ok _
  split
  · exact nofun
  split
  · exact nofun
  refine fails_foldlM (fun fields source => ?_) _ _
  unfold append_variable
  split
  · split
    · exact nofun
    split
    · exact fails_ok _
    dsimp only
    split
    · exact nofun
    · exact fails_add_field _ _ _ _
  · exact nofun

end Fails

/-! ## Buffers -/

variable {program : USILDeclaredProgram} {ranges : List DXBCCBufferVariableRange} {size : UInt32}

/-- Some buffer of the program in register 0 was projected, and found to be authorized. -/
theorem exists_of_targetBuffers {buffers : List USILConstantBuffer}
    (h : targetBuffers program size ranges buffers false = .ok) :
    ∃ buffer ∈ buffers, bufferUnauthorized program size ranges buffer = false := by
  induction buffers with
  | nil => nomatch h
  | cons buffer rest ih =>
    rw [targetBuffers] at h
    split at h
    · obtain ⟨other, hmem, hother⟩ := ih h
      exact ⟨other, List.mem_cons_of_mem _ hmem, hother⟩
    · split at h
      · nomatch h
      split at h
      · nomatch h
      rename_i hauth
      exact ⟨buffer, List.mem_cons_self, Bool.eq_false_iff.mpr hauth⟩

lemma exact_of_authorized {buffer : USILConstantBuffer}
    (h : bufferUnauthorized program size ranges buffer = false) :
    ∃ bytes state, dxbc_cbuffer_project_program program 0 bytes ranges
        (dxbc_cbuffer_projection_reset ranges.length) = (.exact, state) ∧
      state.projection.saw_static_padding_access = false ∧
      state.projection.saw_dynamic_access = false := by
  unfold bufferUnauthorized at h
  split at h
  · nomatch h
  generalize hrun : dxbc_cbuffer_project_program program 0 (buffer.size.toNat.toUInt32 * 16) ranges
    (dxbc_cbuffer_projection_reset ranges.length) = result at h
  obtain ⟨status, state⟩ := result
  simp only [decide_eq_false_iff_not, not_or, not_not, Bool.not_eq_true] at h
  rw [h.1] at hrun
  exact ⟨_, state, hrun, h.2⟩

variable {value : HLSLGlobalDeclarationUnion}

lemma own_of_validate_target {residual common : Option SerializedProgramParameters}
    (h : hlsl_global_declarations_validate_target value program residual common = .ok)
    (hshell : value.shell_size ≠ 0) :
    ∃ size own, targetMatches value own = true ∧
      targetBuffers program size (own.map fieldRange) program.cbuffers false = .ok := by
  unfold hlsl_global_declarations_validate_target at h
  split at h
  · nomatch h
  split at h
  · nomatch h
  rename_i size hsize
  split at h
  · nomatch h
  rename_i hsame
  split at h
  · rename_i hzero
    exact absurd ((not_not.mp hsame).symm.trans hzero) hshell
  split at h
  · rename_i status hflds
    rw [h] at hflds
    exact absurd hflds ((fails_append_parameters _ _ _ _ _).bind fun _ =>
      fails_append_parameters _ _ _ _ _)
  rename_i own hflds
  split at h
  · nomatch h
  rename_i hmatch
  exact ⟨size, own, not_not.mp hmatch, h⟩

/-- A range of an own field is one of a field of the union that the current subprogram declares. -/
theorem field_of_range {own : List HLSLGlobalDeclarationField} (h : targetMatches value own = true)
    {range : DXBCCBufferVariableRange} (hrange : range ∈ own.map fieldRange) :
    ∃ field ∈ value.fields, field.current_authority = true ∧ range = fieldRange field := by
  obtain ⟨field, hfld, rfl⟩ := List.mem_map.mp hrange
  obtain ⟨-, hall⟩ := of_decide_eq_true h
  obtain ⟨other, hother, hboth⟩ := List.any_eq_true.mp (List.all_eq_true.mp hall field hfld)
  rw [Bool.and_eq_true, same_layout_iff] at hboth
  refine ⟨other, hother, hboth.1, ?_⟩
  simp only [HLSLGlobalDeclarationField.declared, Declared.mk.injEq] at hboth
  simp only [fieldRange, hboth.2]

/-- The lane of the row lies in a field of the union that the current subprogram declares. -/
def LaneAuthorized (value : HLSLGlobalDeclarationUnion) (row lane : ℕ) : Prop :=
  ∃ field ∈ value.fields, field.current_authority = true ∧
    field.layout.byte_offset.toNat ≤ row * 16 + lane * 4 ∧
    row * 16 + lane * 4 + 4 ≤ field.declared.stop

/-- The operand names its buffer by an immediate. Where that is register 0, the row is an immediate
as well, and each lane that is read is authorized. -/
structure ReadAuthorized (value : HLSLGlobalDeclarationUnion) (op : DXBCOperand) (mask : ℕ) :
    Prop where
  slot : op.rel_op0 = .null ∧ op.index_has_immediate.get 0 = true
  row : Names 0 op → op.rel_op1 = .null ∧ op.index_has_immediate.get 1 = true
  lanes : Names 0 op → ∀ lane, ReadsLane op mask lane →
    LaneAuthorized value (op.index_values.get 1).toNat lane

end GlobalDeclarations

/-- **Authorized constant reads.** In a program that is valid for a union with a shell, constant
buffers are only read, in operands and in the relative indices nested in them, and a read of
register 0 is statically addressed and stays inside fields of the current subprogram. -/
theorem authorized_constant_reads {value : HLSLGlobalDeclarationUnion}
    {program : USILDeclaredProgram} {residual common : Option SerializedProgramParameters}
    (h : hlsl_global_declarations_validate_target value program residual common = .ok)
    (hshell : value.shell_size ≠ 0) :
    (∀ instruction ∈ program.instructions, ∀ (index : ℕ) (op : DXBCOperand),
      instruction.operands[index]? = some op → op.type = .constantBuffer →
        ∃ mask, usil_instruction_operand_use program instruction index = some ⟨.source, mask⟩) ∧
    ∀ op mask, SourceOperand program op mask → op.type = .constantBuffer →
      ReadAuthorized value op mask := by
  obtain ⟨size, own, hmatches, hbuffers⟩ := own_of_validate_target h hshell
  obtain ⟨buffer, -, hauthorized⟩ := exists_of_targetBuffers hbuffers
  obtain ⟨bytes, state, hrun, hstatic, hdynamic⟩ := exact_of_authorized hauthorized
  obtain ⟨hsources, hreads⟩ := exact_without_padding hrun hstatic hdynamic
  refine ⟨hsources, fun op mask hsource htype => ?_⟩
  obtain ⟨hadmitted, hlanes⟩ := hreads op mask hsource htype
  have hslot := hadmitted.slot
  simp only [slot_valid, decide_eq_true_eq] at hslot
  refine ⟨⟨hslot.2.1, hslot.1⟩, fun hnames => ?_, fun hnames lane hlane => ?_⟩
  · obtain ⟨hnull, hindex⟩ := hadmitted.static hnames
    simp only [static_index_valid, decide_eq_true_eq] at hindex
    exact ⟨hnull, hindex.1⟩
  · obtain ⟨range, hrange, hbegin, hend⟩ := hlanes hnames lane hlane
    obtain ⟨field, hfield, hcurrent, rfl⟩ := field_of_range hmatches hrange
    refine ⟨field, hfield, hcurrent, hbegin, hend.trans ?_⟩
    -- the range holds the size of the field in 32 bits
    refine Nat.add_le_add_left ?_ _
    rw [fieldRange, Nat.toUInt32, UInt32.toNat_ofNat']
    exact Nat.mod_le _ _

/-! ## A sample

The vertex program with the keyword reads its own vector `b` in the second row. -/

namespace GlobalDeclarations

def sampleTarget : USILDeclaredProgram :=
  { sampleMoveProgram .null with program_type := .vertex, cbuffers := [⟨0, 2⟩] }

def sampleTargetUnion : HLSLGlobalDeclarationUnion :=
  { sampleUnion [sampleField 97 zero_notMem_97 0 true [0, 1],
      sampleField 98 zero_notMem_98 16 true [1]] with current := 1 }

lemma validate_sample :
    hlsl_global_declarations_build sampleDeclaringPass 0 1 [sampleWitness, sampleKeywordWitness] =
        .ok sampleTargetUnion ∧
      hlsl_global_declarations_validate_target sampleTargetUnion sampleTarget
        sampleKeywordWitness.residual (some sampleCommonBlock) = .ok := by
  exact ⟨rfl, by decide⟩

end GlobalDeclarations

theorem authorized_constant_reads_sample :
    hlsl_global_declarations_build sampleDeclaringPass 0 1 [sampleWitness, sampleKeywordWitness] =
        .ok sampleTargetUnion ∧
      LaneAuthorized sampleTargetUnion 1 0 ∧ LaneAuthorized sampleTargetUnion 1 2 := by
  have huse : usil_instruction_operand_use sampleTarget (sampleMove .null) 1 =
      some ⟨.source, 3⟩ := by decide
  have hsource := SourceOperand.top List.mem_cons_self rfl huse
  have hread := (authorized_constant_reads validate_sample.2 (by decide)).2 _ _ hsource rfl
  exact ⟨validate_sample.1, hread.lanes ⟨rfl, rfl⟩ 0 ⟨0, by decide, by decide⟩,
    hread.lanes ⟨rfl, rfl⟩ 2 ⟨1, by decide, by decide⟩⟩

end DXBCSandbox
