/-
What an accepted stage contract says about its program.

`ContractStep` lists what one instruction can do to the walk that builds a contract. The
invariant of the walk of a hull program ties the phases to the markers that have been passed
(`HullWalk`), that of any other program orders declarations before executable instructions
(`PlainWalk`).
-/
import DXBCSandbox.Dxbc.StageContract
import DXBCSandbox.Dxbc.DocumentSpec
import Mathlib.Data.List.Chain
import Mathlib.Data.List.Nodup

namespace DXBCSandbox

open List Option Checks StageContract

variable {document : DXBCDocument} {phases : List DXBCHullPhaseContract} {rt : UnityCommon}
    {i : DXBCDocumentInstruction} {stop : ℕ}

namespace StageContract

/-- Not a declaration, not the head of the declarations of a hull program, not a marker. -/
def IsExecutable (opcode : UInt32) : Prop :=
  is_declaration_opcode opcode = false ∧ is_hull_phase_marker opcode = false ∧ opcode ≠ OP_HS_DECLS

/-! ## One instruction -/

structure SameFrame (c c' : DXBCStageContract) : Prop where
  program_type : c'.program_type = c.program_type
  first_instruction_index : c'.first_instruction_index = c.first_instruction_index
  end_instruction_index : c'.end_instruction_index = c.end_instruction_index
  hull_phases : c'.hull_phases = c.hull_phases

lemma SameFrame.refl (c : DXBCStageContract) : SameFrame c c := ⟨rfl, rfl, rfl, rfl⟩

/-- What most instructions leave alone. -/
structure SameFlow (w w' : ContractWalk) : Prop where
  contract : SameFrame w.contract w'.contract
  seen_hs_decls : w'.seen_hs_decls = w.seen_hs_decls
  seen_phase : w'.seen_phase = w.seen_phase
  hull_phase_order : w'.hull_phase_order = w.hull_phase_order
  seen_control_point_phase : w'.seen_control_point_phase = w.seen_control_point_phase

inductive ContractStep (i : DXBCDocumentInstruction) (w w' : ContractWalk) : Prop where
  | declaration (hop : is_declaration_opcode i.opcode = true)
      (hlevel : stage_level_declaration i.opcode = true →
        w.contract.program_type = some .hull → w.seen_phase = false)
      (horder : w.contract.program_type ≠ some .hull → w.seen_any_executable = false)
      (hflow : SameFlow w w') (hseen : w'.seen_any_executable = w.seen_any_executable)
  | instanceCount (hop : is_declaration_opcode i.opcode = true)
      (hlevel : stage_level_declaration i.opcode = false)
      (hhull : w.contract.program_type = some .hull) (value : ℕ) (hvalue : value ≠ 0)
      (hw : w' = { w with contract := modify_last_phase w.contract fun phase =>
        { phase with instance_count_declared := true, instance_count := value } })
  | hsDecls (hop : i.opcode = OP_HS_DECLS) (hhull : w.contract.program_type = some .hull)
      (hfirst : i.instruction_index = w.contract.first_instruction_index)
      (hw : w' = { w with seen_hs_decls := true })
  | marker (hop : is_hull_phase_marker i.opcode = true)
      (hhull : w.contract.program_type = some .hull) (hdecls : w.seen_hs_decls = true)
      (horder : w.hull_phase_order ≤ (marker_kind i.opcode).order)
      (honce : marker_kind i.opcode = .controlPoint → w.seen_control_point_phase = false)
      (hframe : SameFrame { modify_last_phase w.contract (fun phase =>
          { phase with end_instruction_index := i.instruction_index }) with
        hull_phases := (modify_last_phase w.contract fun phase =>
          { phase with end_instruction_index := i.instruction_index }).hull_phases ++
          [new_phase (marker_kind i.opcode) i.instruction_index] } w'.contract)
      (hphase : w'.seen_phase = true) (hdecls' : w'.seen_hs_decls = true)
      (horder' : w'.hull_phase_order = (marker_kind i.opcode).order)
      (honce' : w'.seen_control_point_phase = (decide (marker_kind i.opcode = .controlPoint) ||
        w.seen_control_point_phase))
  | effect (hop : IsExecutable i.opcode) (hhull : w.contract.program_type ≠ some .hull)
      (hflow : SameFlow w w') (hseen : w'.seen_any_executable = true)
  | execute (hop : IsExecutable i.opcode) (hhull : w.contract.program_type = some .hull)
      (hphase : w.seen_phase = true)
      (hw : w' = { w with
        seen_any_executable := true
        phase_has_executable := true
        contract := modify_last_phase w.contract fun phase =>
          { phase with end_instruction_index := i.instruction_index + 1 } })

section Step

variable {rt : UnityCommon} {document : DXBCDocument} {i : DXBCDocumentInstruction}
  {c c' : DXBCStageContract} {w w' : ContractWalk}

lemma sameFrame_geometry_effect {kind : DXBCGeometryEffectKind} {explicit_stream : Bool}
    (h : decode_geometry_effect rt document i c kind explicit_stream = .ok c') :
    SameFrame c c' := by
  obtain ⟨_, -, h⟩ := bind_eq_ok.mp h
  obtain ⟨_, -, h⟩ := bind_eq_ok.mp h
  rw [← pure_eq_ok.mp h]
  exact ⟨rfl, rfl, rfl, rfl⟩

lemma sameFrame_stream {stream : ℕ} (h : decode_stream rt document i c = .ok (c', stream)) :
    SameFrame c c' := by
  simp only [decode_stream, failAt, fail, bind_eq_ok, ite_error_eq_ok] at h
  obtain ⟨_, -, _, -, _, -, -, -, -, -, h⟩ := h
  have hc := congrArg Prod.fst (pure_eq_ok.mp h)
  dsimp only at hc
  rw [← hc]
  exact ⟨rfl, rfl, rfl, rfl⟩

lemma sameFrame_thread_group (h : decode_thread_group rt document i c = .ok c') :
    SameFrame c c' := by
  obtain ⟨_, -, h⟩ := bind_eq_ok.mp h
  obtain ⟨-, h⟩ := ite_error_eq_ok.mp h
  obtain ⟨_, -, h⟩ := bind_eq_ok.mp h
  obtain ⟨-, h⟩ := ite_error_eq_ok.mp h
  rw [← pure_eq_ok.mp h]
  exact ⟨rfl, rfl, rfl, rfl⟩

lemma sameFrame_shared_memory (h : decode_shared_memory rt document i c = .ok c') :
    SameFrame c c' := by
  simp only [decode_shared_memory, failAt, fail, bind_eq_ok, ite_error_eq_ok] at h
  obtain ⟨-, _, -, _, -, _, -, _, -, _, -, -, -, -, -, h⟩ := h
  rw [← pure_eq_ok.mp h]
  exact ⟨rfl, rfl, rfl, rfl⟩

lemma sameFrame_memory_barrier (h : decode_memory_barrier rt document i c = .ok c') :
    SameFrame c c' := by
  obtain ⟨_, -, h⟩ := bind_eq_ok.mp h
  obtain ⟨-, h⟩ := ite_error_eq_ok.mp h
  rw [← pure_eq_ok.mp h]
  exact ⟨rfl, rfl, rfl, rfl⟩

lemma sameFrame_max_tess_factor (h : max_tess_factor rt document i c = .ok c') :
    SameFrame c c' := by
  obtain ⟨-, h⟩ := ite_error_eq_ok.mp h
  obtain ⟨_, -, h⟩ := bind_eq_ok.mp h
  obtain ⟨-, h⟩ := ite_error_eq_ok.mp h
  rw [← pure_eq_ok.mp h]
  exact ⟨rfl, rfl, rfl, rfl⟩

/-- What a declaration does: its program type fits, and only the contract changes. -/
structure Declares (w w' : ContractWalk) : Prop where
  flow : SameFlow w w'
  seen : w'.seen_any_executable = w.seen_any_executable

lemma declares_of_contract {f : DXBCStageContract} (hw : { w with contract := f } = w')
    (h : SameFrame w.contract f) : Declares w w' := by
  rw [← hw]
  exact ⟨⟨h, rfl, rfl, rfl, rfl⟩, rfl⟩

lemma declares_geometry (h : geometry_declaration rt document i w = .ok w') : Declares w w' := by
  unfold geometry_declaration at h
  obtain ⟨-, h⟩ := ite_error_eq_ok.mp h
  dsimp only at h
  split_ifs at h
  · obtain ⟨_, -, h⟩ := bind_eq_ok.mp h
    exact declares_of_contract (pure_eq_ok.mp h) ⟨rfl, rfl, rfl, rfl⟩
  · obtain ⟨_, -, h⟩ := bind_eq_ok.mp h
    obtain ⟨-, h⟩ := ite_error_eq_ok.mp h
    exact declares_of_contract (pure_eq_ok.mp h) ⟨rfl, rfl, rfl, rfl⟩
  · obtain ⟨_, -, h⟩ := bind_eq_ok.mp h
    exact declares_of_contract (pure_eq_ok.mp h) ⟨rfl, rfl, rfl, rfl⟩
  · obtain ⟨⟨c', stream⟩, hstream, h⟩ := bind_eq_ok.mp h
    rw [← pure_eq_ok.mp h]
    exact ⟨⟨sameFrame_stream hstream, rfl, rfl, rfl, rfl⟩, rfl⟩
  · obtain ⟨_, -, h⟩ := bind_eq_ok.mp h
    exact declares_of_contract (pure_eq_ok.mp h) ⟨rfl, rfl, rfl, rfl⟩

lemma declares_tessellation (h : tessellation_declaration rt document i w = .ok w') :
    Declares w w' := by
  unfold tessellation_declaration at h
  dsimp only at h
  by_cases hinput : i.opcode = OP_DCL_INPUT_CONTROL_POINT_COUNT
  · rw [if_pos hinput] at h
    obtain ⟨-, h⟩ := ite_error_eq_ok.mp h
    obtain ⟨_, -, h⟩ := bind_eq_ok.mp h
    exact declares_of_contract (pure_eq_ok.mp h) ⟨rfl, rfl, rfl, rfl⟩
  rw [if_neg hinput] at h
  by_cases hdomain : i.opcode = OP_DCL_TESSELLATOR_DOMAIN
  · rw [if_pos hdomain] at h
    obtain ⟨-, h⟩ := ite_error_eq_ok.mp h
    obtain ⟨_, -, h⟩ := bind_eq_ok.mp h
    exact declares_of_contract (pure_eq_ok.mp h) ⟨rfl, rfl, rfl, rfl⟩
  rw [if_neg hdomain] at h
  obtain ⟨-, h⟩ := ite_error_eq_ok.mp h
  split_ifs at h
  · obtain ⟨_, -, h⟩ := bind_eq_ok.mp h
    exact declares_of_contract (pure_eq_ok.mp h) ⟨rfl, rfl, rfl, rfl⟩
  · obtain ⟨_, -, h⟩ := bind_eq_ok.mp h
    exact declares_of_contract (pure_eq_ok.mp h) ⟨rfl, rfl, rfl, rfl⟩
  · obtain ⟨_, -, h⟩ := bind_eq_ok.mp h
    exact declares_of_contract (pure_eq_ok.mp h) ⟨rfl, rfl, rfl, rfl⟩
  · obtain ⟨c', hfactor, h⟩ := bind_eq_ok.mp h
    exact declares_of_contract (pure_eq_ok.mp h) (sameFrame_max_tess_factor hfactor)

lemma declares_compute (h : compute_declaration rt document i w = .ok w') :
    Declares w w' ∧ w.contract.program_type = some .compute ∧ w.seen_any_executable = false := by
  unfold compute_declaration at h
  obtain ⟨htype, h⟩ := ite_error_eq_ok.mp h
  obtain ⟨hseen, h⟩ := ite_error_eq_ok.mp h
  refine ⟨?_, not_not.mp htype, Bool.eq_false_iff.mpr hseen⟩
  split_ifs at h
  · obtain ⟨c', hgroup, h⟩ := bind_eq_ok.mp h
    exact declares_of_contract (pure_eq_ok.mp h) (sameFrame_thread_group hgroup)
  · obtain ⟨c', hmemory, h⟩ := bind_eq_ok.mp h
    exact declares_of_contract (pure_eq_ok.mp h) (sameFrame_shared_memory hmemory)

lemma step_sync (hop : IsExecutable i.opcode) (h : sync_instruction rt document i w = .ok w') :
    ContractStep i w w' := by
  obtain ⟨htype, h⟩ := ite_error_eq_ok.mp h
  obtain ⟨c', hbarrier, h⟩ := bind_eq_ok.mp h
  rw [← pure_eq_ok.mp h]
  refine .effect hop ?_ ⟨sameFrame_memory_barrier hbarrier, rfl, rfl, rfl, rfl⟩ rfl
  intro hhull
  apply htype
  rw [hhull]
  exact ⟨by simp, by simp⟩

lemma step_geometry_effect (hop : IsExecutable i.opcode)
    (h : geometry_effect rt document i w = .ok w') : ContractStep i w w' := by
  obtain ⟨htype, h⟩ := ite_error_eq_ok.mp h
  obtain ⟨c', heffect, h⟩ := bind_eq_ok.mp h
  rw [← pure_eq_ok.mp h]
  refine .effect hop ?_ ⟨sameFrame_geometry_effect heffect, rfl, rfl, rfl, rfl⟩ rfl
  intro hhull
  rw [not_not.mp htype] at hhull
  simp at hhull

lemma step_hs_decls (hop : i.opcode = OP_HS_DECLS) (h : hs_decls rt document i w = .ok w') :
    ContractStep i w w' := by
  obtain ⟨htype, h⟩ := ite_error_eq_ok.mp h
  obtain ⟨-, h⟩ := ite_error_eq_ok.mp h
  obtain ⟨hfst, h⟩ := ite_error_eq_ok.mp h
  obtain ⟨_, -, h⟩ := bind_eq_ok.mp h
  exact .hsDecls hop (not_not.mp htype) (not_not.mp hfst) (pure_eq_ok.mp h).symm

lemma step_marker (hop : is_hull_phase_marker i.opcode = true)
    (h : hull_phase_marker rt document i w = .ok w') : ContractStep i w w' := by
  obtain ⟨htype, h⟩ := ite_error_eq_ok.mp h
  obtain ⟨hdecls, h⟩ := ite_error_eq_ok.mp h
  obtain ⟨_, -, h⟩ := bind_eq_ok.mp h
  obtain ⟨horder, h⟩ := ite_error_eq_ok.mp h
  rw [not_or, not_and, Bool.not_eq_true, Nat.not_lt] at horder
  have hdecls : w.seen_hs_decls = true := by simpa using hdecls
  rw [← pure_eq_ok.mp h]
  refine .marker hop (not_not.mp htype) hdecls horder.1 horder.2 (.refl _) rfl hdecls rfl ?_
  dsimp only
  split_ifs with hkind
  · rw [decide_eq_true hkind, Bool.true_or]
  · rw [decide_eq_false hkind, Bool.false_or]

lemma step_instance_count (hop : is_declaration_opcode i.opcode = true)
    (hlevel : stage_level_declaration i.opcode = false)
    (h : phase_instance_count rt document i w = .ok w') : ContractStep i w w' := by
  obtain ⟨htype, h⟩ := ite_error_eq_ok.mp h
  split at h
  · exact absurd h (by simp [stage_mismatch, failAt, fail])
  · obtain ⟨-, h⟩ := ite_error_eq_ok.mp h
    obtain ⟨-, h⟩ := ite_error_eq_ok.mp h
    obtain ⟨value, -, h⟩ := bind_eq_ok.mp h
    obtain ⟨hval, h⟩ := ite_error_eq_ok.mp h
    exact .instanceCount hop hlevel (not_not.mp htype) value.toNat hval (pure_eq_ok.mp h).symm

lemma step_other (hlevel : stage_level_declaration i.opcode = false)
    (hmarker : is_hull_phase_marker i.opcode = false) (hdecls : i.opcode ≠ OP_HS_DECLS)
    (h : other_instruction i w = .ok w') : ContractStep i w w' := by
  unfold other_instruction at h
  dsimp only at h
  by_cases hop : is_declaration_opcode i.opcode = true
  · rw [if_pos hop] at h
    obtain ⟨horder, h⟩ := ite_error_eq_ok.mp h
    rw [← pure_eq_ok.mp h]
    refine .declaration hop ?_ ?_ ⟨.refl _, rfl, rfl, rfl, rfl⟩ rfl
    · intro hlevel'
      rw [hlevel] at hlevel'
      cases hlevel'
    · intro hhull
      by_contra hseen
      exact horder (.inr ⟨hhull, by simpa using hseen⟩)
  · rw [if_neg hop] at h
    have hexec : IsExecutable i.opcode := ⟨by simpa using hop, hmarker, hdecls⟩
    obtain ⟨hphase, h⟩ := ite_error_eq_ok.mp h
    by_cases hhull : w.contract.program_type = some .hull
    · rw [if_pos hhull] at h
      refine .execute hexec hhull ?_ (pure_eq_ok.mp h).symm
      by_contra hseen
      exact hphase ⟨hhull, hseen⟩
    · rw [if_neg hhull] at h
      rw [← pure_eq_ok.mp h]
      exact .effect hexec hhull ⟨.refl _, rfl, rfl, rfl, rfl⟩ rfl

lemma Declares.step (hw : Declares w w') (hop : is_declaration_opcode i.opcode = true)
    (hlevel : stage_level_declaration i.opcode = true)
    (hguard : ¬ (stage_level_declaration i.opcode = true ∧ (w.seen_any_executable = true ∨
      (w.contract.program_type = some .hull ∧ w.seen_phase = true)))) : ContractStep i w w' := by
  refine .declaration hop ?_ ?_ hw.flow hw.seen
  · intro _ hhull
    by_contra hseen
    exact hguard ⟨hlevel, .inr ⟨hhull, by simpa using hseen⟩⟩
  · intro _
    by_contra hseen
    exact hguard ⟨hlevel, .inl (by simpa using hseen)⟩

lemma contractStep_of_decode (h : decode_instruction_contract rt document i w = .ok w') :
    ContractStep i w w' := by
  unfold decode_instruction_contract at h
  dsimp only at h
  by_cases hcompute : i.opcode = OP_DCL_THREAD_GROUP ∨ i.opcode = OP_DCL_TGSM_RAW ∨
      i.opcode = OP_DCL_TGSM_STRUCTURED
  · rw [if_pos hcompute] at h
    obtain ⟨hw, htype, hseen⟩ := declares_compute h
    refine .declaration ?_ ?_ (fun _ => hseen) hw.flow hw.seen
    · rcases hcompute with hop | hop | hop <;> rw [hop] <;> decide
    · intro _ hhull
      rw [htype] at hhull
      simp at hhull
  rw [if_neg hcompute] at h
  by_cases hsync : i.opcode = OP_SYNC
  · rw [if_pos hsync] at h
    exact step_sync (by rw [hsync]; exact ⟨by decide, by decide, by decide⟩) h
  rw [if_neg hsync] at h
  by_cases hdecls : i.opcode = OP_HS_DECLS
  · rw [if_pos hdecls] at h
    exact step_hs_decls hdecls h
  rw [if_neg hdecls] at h
  by_cases hmarker : is_hull_phase_marker i.opcode = true
  · rw [if_pos hmarker] at h
    exact step_marker hmarker h
  rw [if_neg hmarker] at h
  have hmarker : is_hull_phase_marker i.opcode = false := by simpa using hmarker
  obtain ⟨hguard, h⟩ := ite_error_eq_ok.mp h
  by_cases heffect : i.opcode = OP_EMIT ∨ i.opcode = OP_CUT ∨ i.opcode = OP_EMIT_STREAM ∨
      i.opcode = OP_CUT_STREAM
  · rw [if_pos heffect] at h
    refine step_geometry_effect ⟨?_, hmarker, hdecls⟩ h
    rcases heffect with hop | hop | hop | hop <;> rw [hop] <;> decide
  rw [if_neg heffect] at h
  by_cases hgeo : i.opcode = OP_DCL_INPUT_PRIMITIVE ∨ i.opcode = OP_DCL_OUTPUT_TOPOLOGY ∨
      i.opcode = OP_DCL_MAX_OUTPUT_VERTEX_COUNT ∨ i.opcode = OP_DCL_STREAM ∨
      i.opcode = OP_DCL_GS_INSTANCE_COUNT
  · rw [if_pos hgeo] at h
    refine (declares_geometry h).step ?_ ?_ hguard
    · rcases hgeo with hop | hop | hop | hop | hop <;> rw [hop] <;> decide
    · rcases hgeo with hop | hop | hop | hop | hop <;> rw [hop] <;> decide
  rw [if_neg hgeo] at h
  by_cases htess : OP_DCL_INPUT_CONTROL_POINT_COUNT ≤ i.opcode ∧
      i.opcode ≤ OP_DCL_HS_MAX_TESS_FACTOR
  · rw [if_pos htess] at h
    have hop : is_declaration_opcode i.opcode = true :=
      decide_eq_true (.inr (.inr (.inl ⟨UInt32.le_trans (by decide) htess.1,
        UInt32.le_trans htess.2 (by decide)⟩)))
    exact (declares_tessellation h).step hop (decide_eq_true (.inl htess)) hguard
  rw [if_neg htess] at h
  -- what is left declares nothing for the whole stage
  have hlevel : stage_level_declaration i.opcode = false := by
    unfold stage_level_declaration
    rw [decide_eq_false_iff_not]
    rintro (hop | hop | hop | hop | hop | hop)
    · exact htess hop
    · exact hgeo (.inr (.inr (.inl hop)))
    · exact hgeo (.inr (.inr (.inr (.inr hop))))
    · exact hgeo (.inr (.inr (.inr (.inl hop))))
    · exact hgeo (.inl hop)
    · exact hgeo (.inr (.inl hop))
  by_cases hcnt : i.opcode = OP_DCL_HS_FORK_PHASE_INSTANCE_COUNT ∨
      i.opcode = OP_DCL_HS_JOIN_PHASE_INSTANCE_COUNT
  · rw [if_pos hcnt] at h
    refine step_instance_count ?_ hlevel h
    rcases hcnt with hop | hop <;> rw [hop] <;> decide
  rw [if_neg hcnt] at h
  exact step_other hlevel hmarker hdecls h

end Step

/-! ## Phases -/

structure Phases (phases : List DXBCHullPhaseContract) : Prop where
  starts : ∀ p ∈ phases, p.first_instruction_index = p.marker_instruction_index + 1
  counts : ∀ p ∈ phases, 0 < p.instance_count
  ends : phases.IsChain fun p q => p.end_instruction_index = q.marker_instruction_index
  kinds : phases.Pairwise fun p q => p.kind.order ≤ q.kind.order
  once : phases.Pairwise fun p q => ¬ (p.kind = .controlPoint ∧ q.kind = .controlPoint)

def markerOf (phase : DXBCHullPhaseContract) : DXBCHullPhaseKind × ℕ :=
  (phase.kind, phase.marker_instruction_index)

lemma Phases.nil : Phases [] where
  starts _ hp := absurd hp not_mem_nil
  counts _ hp := absurd hp not_mem_nil
  ends := .nil
  kinds := .nil
  once := .nil

variable {f : DXBCHullPhaseContract → DXBCHullPhaseContract}
  {c : DXBCStageContract} {p : DXBCHullPhaseContract}

lemma modify_last_phase_concat (h : c.hull_phases = phases ++ [p]) :
    (modify_last_phase c f).hull_phases = phases ++ [f p] := by
  unfold modify_last_phase
  dsimp only
  rw [h, length_append, length_singleton, Nat.add_sub_cancel, modify_eq_take_cons_drop (by simp)]
  simp

lemma modify_last_phase_nil (h : c.hull_phases = []) :
    (modify_last_phase c f).hull_phases = [] := by
  unfold modify_last_phase
  dsimp only
  rw [h, modify_nil]

structure KeepsStart (f : DXBCHullPhaseContract → DXBCHullPhaseContract) : Prop where
  marker (p : DXBCHullPhaseContract) : markerOf (f p) = markerOf p
  first (p : DXBCHullPhaseContract) : (f p).first_instruction_index = p.first_instruction_index
  count (p : DXBCHullPhaseContract) : 0 < p.instance_count → 0 < (f p).instance_count

lemma keepsStart_end (stop : DXBCHullPhaseContract → ℕ) :
    KeepsStart fun p => { p with end_instruction_index := stop p } :=
  ⟨fun _ => rfl, fun _ => rfl, fun _ h => h⟩

lemma KeepsStart.kind (hf : KeepsStart f) (p : DXBCHullPhaseContract) : (f p).kind = p.kind :=
  congrArg Prod.fst (hf.marker p)

lemma KeepsStart.marker_instruction_index (hf : KeepsStart f) (p : DXBCHullPhaseContract) :
    (f p).marker_instruction_index = p.marker_instruction_index :=
  congrArg Prod.snd (hf.marker p)

lemma markers_modify_last_phase (hf : KeepsStart f) :
    (modify_last_phase c f).hull_phases.map markerOf = c.hull_phases.map markerOf := by
  rcases eq_nil_or_concat c.hull_phases with hnil | ⟨phases, p, hphs⟩
  · rw [modify_last_phase_nil hnil, hnil]
  · rw [concat_eq_append] at hphs
    rw [modify_last_phase_concat hphs, hphs, map_append, map_append,
      map_singleton, map_singleton, hf.marker]

lemma Phases.modify_last_phase (hf : KeepsStart f) (h : Phases c.hull_phases) :
    Phases (modify_last_phase c f).hull_phases := by
  rcases eq_nil_or_concat c.hull_phases with hnil | ⟨phases, p, hphs⟩
  · rw [modify_last_phase_nil hnil]
    exact .nil
  rw [concat_eq_append] at hphs
  rw [modify_last_phase_concat hphs]
  rw [hphs] at h
  refine ⟨?_, ?_, ?_, ?_, ?_⟩
  · intro q hq
    rcases mem_append.mp hq with hq | hq
    · exact h.starts q (mem_append_left _ hq)
    · rw [mem_singleton.mp hq, hf.first, hf.marker_instruction_index]
      exact h.starts p (by simp)
  · intro q hq
    rcases mem_append.mp hq with hq | hq
    · exact h.counts q (mem_append_left _ hq)
    · rw [mem_singleton.mp hq]
      exact hf.count p (h.counts p (by simp))
  · -- only the marker of the last phase takes part in the chain
    have hends := h.ends
    rw [isChain_append] at hends ⊢
    refine ⟨hends.1, .singleton _, ?_⟩
    intro q hq r hr
    rw [head?_singleton, mem_some_iff] at hr
    rw [hends.2.2 q hq p (by simp), ← hr, hf.marker_instruction_index]
  · have hkinds := h.kinds
    rw [pairwise_append] at hkinds ⊢
    refine ⟨hkinds.1, pairwise_singleton _ _, ?_⟩
    intro q hq r hr
    rw [mem_singleton.mp hr, hf.kind]
    exact hkinds.2.2 q hq p (by simp)
  · have honce := h.once
    rw [pairwise_append] at honce ⊢
    refine ⟨honce.1, pairwise_singleton _ _, ?_⟩
    intro q hq r hr
    rw [mem_singleton.mp hr, hf.kind]
    exact honce.2.2 q hq p (by simp)

lemma Phases.append {kind : DXBCHullPhaseKind} {marker : ℕ} (h : Phases c.hull_phases)
    (horder : ∀ p ∈ c.hull_phases, p.kind.order ≤ kind.order)
    (honce : kind = .controlPoint → ∀ p ∈ c.hull_phases, p.kind ≠ .controlPoint) :
    Phases ((StageContract.modify_last_phase c fun p =>
      { p with end_instruction_index := marker }).hull_phases ++ [new_phase kind marker]) := by
  have hf := keepsStart_end fun _ => marker
  have hmarkers := markers_modify_last_phase (c := c) hf
  have hall : ∀ P : DXBCHullPhaseKind → Prop, (∀ p ∈ c.hull_phases, P p.kind) →
      ∀ p ∈ (StageContract.modify_last_phase c fun p =>
        { p with end_instruction_index := marker }).hull_phases, P p.kind := by
    intro P hP p hp
    have hmem := mem_map_of_mem (f := markerOf) hp
    rw [hmarkers] at hmem
    obtain ⟨q, hq, heq⟩ := mem_map.mp hmem
    rw [← show q.kind = p.kind from congrArg Prod.fst heq]
    exact hP q hq
  have hmod := h.modify_last_phase hf
  refine ⟨?_, ?_, ?_, ?_, ?_⟩
  · intro q hq
    rcases mem_append.mp hq with hq | hq
    · exact hmod.starts q hq
    · rw [mem_singleton.mp hq]
      rfl
  · intro q hq
    rcases mem_append.mp hq with hq | hq
    · exact hmod.counts q hq
    · rw [mem_singleton.mp hq]
      exact Nat.one_pos
  · rw [isChain_append]
    refine ⟨hmod.ends, .singleton _, ?_⟩
    intro q hq r hr
    rw [head?_singleton, mem_some_iff] at hr
    rw [← hr]
    rcases eq_nil_or_concat c.hull_phases with hnil | ⟨phases, p, hphs⟩
    · rw [modify_last_phase_nil hnil] at hq
      simp at hq
    · rw [concat_eq_append] at hphs
      rw [modify_last_phase_concat hphs, getLast?_concat, mem_some_iff] at hq
      rw [← hq]
      rfl
  · rw [pairwise_append]
    refine ⟨hmod.kinds, pairwise_singleton _ _, ?_⟩
    intro q hq r hr
    rw [mem_singleton.mp hr]
    exact hall (fun k => k.order ≤ kind.order) horder q hq
  · rw [pairwise_append]
    refine ⟨hmod.once, pairwise_singleton _ _, ?_⟩
    rintro q hq r hr ⟨hq', hr'⟩
    rw [mem_singleton.mp hr] at hr'
    exact hall (fun k => k ≠ .controlPoint) (honce hr') q hq hq'

/-- Phases that meet, with the last one ending at `stop`, share out what lies between the first
marker and `stop`. -/
theorem Phases.countP_eq_one {k : ℕ}
    (hstarts : ∀ p ∈ phases, p.first_instruction_index = p.marker_instruction_index + 1)
    (hends : phases.IsChain fun p q => p.end_instruction_index = q.marker_instruction_index)
    (hinc : phases.Pairwise fun p q => p.marker_instruction_index < q.marker_instruction_index)
    (hlast : ∀ p ∈ phases.getLast?, p.end_instruction_index = stop) (hstop : k < stop)
    (hhead : ∃ p ∈ phases, p.marker_instruction_index < k)
    (hmarker : ∀ p ∈ phases, p.marker_instruction_index ≠ k) :
    phases.countP (fun p => p.first_instruction_index ≤ k ∧ k < p.end_instruction_index) = 1 := by
  induction phases with
  | nil =>
    obtain ⟨p, hp, -⟩ := hhead
    cases hp
  | cons p rest ih =>
    have hp : p.marker_instruction_index < k := by
      obtain ⟨q, hq, hlt⟩ := hhead
      rcases mem_cons.mp hq with rfl | hq
      · exact hlt
      · exact Nat.lt_trans (rel_of_pairwise_cons hinc hq) hlt
    have hfst := hstarts p (by simp)
    cases rest with
    | nil =>
      have hend := hlast p (by simp)
      rw [countP_singleton, if_pos]
      exact decide_eq_true ⟨by omega, by omega⟩
    | cons q rest =>
      obtain ⟨hend, hends⟩ := isChain_cons_cons.mp hends
      by_cases hlt : k < q.marker_instruction_index
      · -- the first phase holds `k`, the others start behind it
        rw [countP_cons_of_pos (by simp only [decide_eq_true_eq]; omega)]
        rw [countP_eq_zero.mpr]
        intro r hr
        have hle : q.marker_instruction_index ≤ r.marker_instruction_index := by
          rcases mem_cons.mp hr with rfl | hr
          · exact Nat.le_refl _
          · exact Nat.le_of_lt (rel_of_pairwise_cons (List.Pairwise.of_cons hinc) hr)
        have hr := hstarts r (mem_cons_of_mem _ hr)
        simp only [decide_eq_true_eq]
        omega
      · have hne := hmarker q (by simp)
        rw [countP_cons_of_neg (by simp only [decide_eq_true_eq]; omega)]
        apply ih
        · exact (forall_mem_cons.mp hstarts).2
        · exact hends
        · exact List.Pairwise.of_cons hinc
        · exact fun r hr => hlast r (by simpa using hr)
        · exact ⟨q, by simp, by omega⟩
        · exact (forall_mem_cons.mp hmarker).2

/-! ## The walk of a hull program -/

def IsMarker (i : DXBCDocumentInstruction) : Prop := is_hull_phase_marker i.opcode = true

lemma not_isMarker_of_declaration (h : is_declaration_opcode i.opcode = true) :
    is_hull_phase_marker i.opcode = false := by
  rw [is_declaration_opcode, decide_eq_true_eq] at h
  rw [is_hull_phase_marker, decide_eq_false_iff_not]
  simp only [OP_DCL_IMMEDIATE_CONSTANT_BUFFER, OP_DCL_RESOURCE, OP_DCL_GLOBAL_FLAGS,
    OP_DCL_STREAM, OP_DCL_RESOURCE_STRUCTURED, OP_DCL_GS_INSTANCE_COUNT, UInt32.le_iff_toNat_le,
    ← UInt32.toNat_inj] at h
  simp only [OP_HS_CONTROL_POINT_PHASE, OP_HS_JOIN_PHASE, UInt32.le_iff_toNat_le]
  simp only [UInt32.reduceToNat] at h ⊢
  omega

lemma declaration_of_stage_level {opcode : UInt32}
    (h : stage_level_declaration opcode = true) : is_declaration_opcode opcode = true := by
  rw [stage_level_declaration, decide_eq_true_eq] at h
  rw [is_declaration_opcode, decide_eq_true_eq]
  simp only [OP_DCL_INPUT_CONTROL_POINT_COUNT, OP_DCL_HS_MAX_TESS_FACTOR,
    OP_DCL_MAX_OUTPUT_VERTEX_COUNT, OP_DCL_GS_INSTANCE_COUNT, OP_DCL_STREAM,
    OP_DCL_INPUT_PRIMITIVE, OP_DCL_OUTPUT_TOPOLOGY, UInt32.le_iff_toNat_le,
    ← UInt32.toNat_inj] at h
  simp only [OP_DCL_IMMEDIATE_CONSTANT_BUFFER, OP_DCL_RESOURCE, OP_DCL_GLOBAL_FLAGS,
    OP_DCL_STREAM, OP_DCL_RESOURCE_STRUCTURED, OP_DCL_GS_INSTANCE_COUNT, UInt32.le_iff_toNat_le,
    ← UInt32.toNat_inj]
  simp only [UInt32.reduceToNat] at h ⊢
  omega

/-- The walk of a hull program after the instructions `done`. -/
structure HullWalk (stop : ℕ) (done : List DXBCDocumentInstruction) (w : ContractWalk) :
    Prop where
  program_type : w.contract.program_type = some .hull
  stop_eq : w.contract.end_instruction_index = stop
  phases : Phases w.contract.hull_phases
  markers : w.contract.hull_phases.map markerOf =
    (done.filter fun i => is_hull_phase_marker i.opcode).map fun i =>
      (marker_kind i.opcode, i.instruction_index)
  seen_phase : w.seen_phase = true ↔ ∃ m ∈ done, IsMarker m
  order : ∀ m ∈ done, IsMarker m → (marker_kind m.opcode).order ≤ w.hull_phase_order
  once : ∀ m ∈ done, IsMarker m → marker_kind m.opcode = .controlPoint →
    w.seen_control_point_phase = true
  executable : ∀ i ∈ done, IsExecutable i.opcode →
    ∃ m ∈ done, IsMarker m ∧ m.instruction_index < i.instruction_index
  level : ∀ i ∈ done, stage_level_declaration i.opcode = true →
    ∀ m ∈ done, IsMarker m → i.instruction_index < m.instruction_index

section Walk

variable {i : DXBCDocumentInstruction} {done : List DXBCDocumentInstruction} {stop : ℕ}
  {w w' : ContractWalk} (h : HullWalk stop done w)

include h

lemma HullWalk.marker_of_mem (hp : p ∈ w.contract.hull_phases) : ∃ m ∈ done, IsMarker m ∧
      p.kind = marker_kind m.opcode ∧ p.marker_instruction_index = m.instruction_index := by
  have hmem := mem_map_of_mem (f := markerOf) hp
  rw [h.markers] at hmem
  obtain ⟨m, hm, heq⟩ := mem_map.mp hmem
  obtain ⟨hm, hmarker⟩ := mem_filter.mp hm
  exact ⟨m, hm, hmarker, (congrArg Prod.fst heq).symm, (congrArg Prod.snd heq).symm⟩

lemma HullWalk.pass (hmarker : is_hull_phase_marker i.opcode = false)
    (hidx : ∀ j ∈ done, j.instruction_index < i.instruction_index)
    (hexec : IsExecutable i.opcode → w.seen_phase = true)
    (hlevel : stage_level_declaration i.opcode = true → w.seen_phase = false)
    (htype : w'.contract.program_type = w.contract.program_type)
    (hstop : w'.contract.end_instruction_index = w.contract.end_instruction_index)
    (hphs : Phases w'.contract.hull_phases)
    (hmarkers : w'.contract.hull_phases.map markerOf = w.contract.hull_phases.map markerOf)
    (hseen : w'.seen_phase = w.seen_phase) (horder : w'.hull_phase_order = w.hull_phase_order)
    (honce : w'.seen_control_point_phase = w.seen_control_point_phase) :
    HullWalk stop (done ++ [i]) w' := by
  have hnot : ¬ IsMarker i := by
    rw [IsMarker, hmarker]
    exact Bool.false_ne_true
  -- the markers passed are those passed before
  have hmem : ∀ m, m ∈ done ++ [i] → IsMarker m → m ∈ done := by
    intro m hm hm'
    rcases mem_append.mp hm with hm | hm
    · exact hm
    · rw [mem_singleton.mp hm] at hm'
      exact absurd hm' hnot
  refine ⟨htype.trans h.program_type, hstop.trans h.stop_eq, hphs, ?_, ?_, ?_, ?_, ?_, ?_⟩
  · rw [hmarkers, h.markers, filter_append, filter_singleton, hmarker]
    simp
  · rw [hseen, h.seen_phase]
    constructor
    · rintro ⟨m, hm, hm'⟩
      exact ⟨m, mem_append_left _ hm, hm'⟩
    · rintro ⟨m, hm, hm'⟩
      exact ⟨m, hmem m hm hm', hm'⟩
  · intro m hm hm'
    rw [horder]
    exact h.order m (hmem m hm hm') hm'
  · intro m hm hm'
    rw [honce]
    exact h.once m (hmem m hm hm') hm'
  · intro j hj hj'
    rcases mem_append.mp hj with hj | hj
    · obtain ⟨m, hm, hm'⟩ := h.executable j hj hj'
      exact ⟨m, mem_append_left _ hm, hm'⟩
    · rw [mem_singleton.mp hj] at hj' ⊢
      obtain ⟨m, hm, hm'⟩ := h.seen_phase.mp (hexec hj')
      exact ⟨m, mem_append_left _ hm, hm', hidx m hm⟩
  · intro j hj hj' m hm hm'
    have hm := hmem m hm hm'
    rcases mem_append.mp hj with hj | hj
    · exact h.level j hj hj' m hm hm'
    · rw [mem_singleton.mp hj] at hj'
      have hseen := h.seen_phase.mpr ⟨m, hm, hm'⟩
      rw [hlevel hj'] at hseen
      cases hseen

lemma HullWalk.enter (hmarker : is_hull_phase_marker i.opcode = true)
    (hidx : ∀ j ∈ done, j.instruction_index < i.instruction_index)
    (horder : w.hull_phase_order ≤ (marker_kind i.opcode).order)
    (honce : marker_kind i.opcode = .controlPoint → w.seen_control_point_phase = false)
    (hframe : SameFrame { modify_last_phase w.contract (fun phase => { phase with
    end_instruction_index := i.instruction_index }) with hull_phases := (modify_last_phase
    w.contract fun phase => { phase with end_instruction_index := i.instruction_index
      }).hull_phases ++ [new_phase (marker_kind i.opcode) i.instruction_index] } w'.contract)
    (hphase : w'.seen_phase = true) (horder' : w'.hull_phase_order = (marker_kind i.opcode).order)
    (honce' : w'.seen_control_point_phase = (decide (marker_kind i.opcode = .controlPoint) ||
      w.seen_control_point_phase)) :
    HullWalk stop (done ++ [i]) w' := by
  have hf := keepsStart_end fun _ => i.instruction_index
  have hdecl : stage_level_declaration i.opcode = false := by
    by_contra hlevel
    have hop := declaration_of_stage_level (by simpa using hlevel)
    rw [not_isMarker_of_declaration hop] at hmarker
    exact Bool.false_ne_true hmarker
  refine ⟨hframe.program_type.trans h.program_type,
    hframe.end_instruction_index.trans h.stop_eq, ?_, ?_, ?_, ?_, ?_, ?_, ?_⟩
  · rw [hframe.hull_phases]
    apply h.phases.append
    · intro p hp
      obtain ⟨m, hm, hm', hkind, -⟩ := h.marker_of_mem hp
      rw [hkind]
      exact (h.order m hm hm').trans horder
    · intro hkind p hp hp'
      obtain ⟨m, hm, hm', hkind', -⟩ := h.marker_of_mem hp
      have hseen := h.once m hm hm' (hkind'.symm.trans hp')
      rw [honce hkind] at hseen
      exact Bool.false_ne_true hseen
  · rw [hframe.hull_phases]
    dsimp only
    rw [map_append, markers_modify_last_phase hf, h.markers, filter_append,
      filter_singleton, hmarker, cond_true, map_append]
    rfl
  · rw [hphase]
    exact ⟨fun _ => ⟨i, by simp, hmarker⟩, fun _ => rfl⟩
  · intro m hm hm'
    rw [horder']
    rcases mem_append.mp hm with hm | hm
    · exact (h.order m hm hm').trans horder
    · rw [mem_singleton.mp hm]
  · intro m hm hm' hkind
    rw [honce', Bool.or_eq_true, decide_eq_true_eq]
    rcases mem_append.mp hm with hm | hm
    · exact .inr (h.once m hm hm' hkind)
    · rw [mem_singleton.mp hm] at hkind
      exact .inl hkind
  · intro j hj hj'
    rcases mem_append.mp hj with hj | hj
    · obtain ⟨m, hm, hm'⟩ := h.executable j hj hj'
      exact ⟨m, mem_append_left _ hm, hm'⟩
    · rw [mem_singleton.mp hj, IsExecutable, hmarker] at hj'
      cases hj'.2.1.symm
  · intro j hj hj' m hm hm'
    rcases mem_append.mp hj with hj | hj
    · rcases mem_append.mp hm with hm | hm
      · exact h.level j hj hj' m hm hm'
      · rw [mem_singleton.mp hm]
        exact hidx j hj
    · rw [mem_singleton.mp hj, hdecl] at hj'
      cases hj'

/-- **One instruction of a hull program.** -/
theorem HullWalk.step (hstep : ContractStep i w w')
    (hidx : ∀ j ∈ done, j.instruction_index < i.instruction_index) :
    HullWalk stop (done ++ [i]) w' := by
  cases hstep with
  | declaration hop hlevel horder hflow hseen =>
    have hphs := hflow.contract.hull_phases
    refine h.pass (not_isMarker_of_declaration hop) hidx ?_ ?_ hflow.contract.program_type
      hflow.contract.end_instruction_index ?_ ?_ hflow.seen_phase hflow.hull_phase_order
      hflow.seen_control_point_phase
    · intro hexec
      rw [hexec.1] at hop
      cases hop
    · exact fun hop => hlevel hop h.program_type
    · rw [hphs]
      exact h.phases
    · rw [hphs]
  | instanceCount hop hlevel hhull value hval hw =>
    have hf : KeepsStart fun p : DXBCHullPhaseContract =>
        { p with instance_count_declared := true, instance_count := value } :=
      ⟨fun _ => rfl, fun _ => rfl, fun _ _ => Nat.pos_of_ne_zero hval⟩
    rw [hw]
    refine h.pass (not_isMarker_of_declaration hop) hidx ?_ ?_ rfl rfl
      (h.phases.modify_last_phase hf) (markers_modify_last_phase hf) rfl rfl rfl
    · intro hexec
      rw [hexec.1] at hop
      cases hop
    · intro hlevel'
      rw [hlevel] at hlevel'
      cases hlevel'
  | hsDecls hop hhull hfst hw =>
    rw [hw]
    refine h.pass (by rw [hop]; decide) hidx ?_ ?_ rfl rfl h.phases rfl rfl rfl rfl
    · exact fun hexec => absurd hop hexec.2.2
    · intro hlevel
      rw [hop] at hlevel
      exact absurd hlevel (by decide)
  | marker hop hhull hdecls horder honce hframe hphase hdecls' horder' honce' =>
    exact h.enter hop hidx horder honce hframe hphase horder' honce'
  | effect hop hhull hflow hseen => exact absurd h.program_type hhull
  | execute hop hhull hphase hw =>
    have hf := keepsStart_end fun _ => i.instruction_index + 1
    rw [hw]
    refine h.pass hop.2.1 hidx (fun _ => hphase) ?_ rfl rfl (h.phases.modify_last_phase hf)
      (markers_modify_last_phase hf) rfl rfl rfl
    intro hlevel
    have hdecl := declaration_of_stage_level hlevel
    rw [hop.1] at hdecl
    cases hdecl

omit h

/-! ## The walk of any other program -/

/-- The walk of a program other than a hull program after the instructions `done`. -/
structure PlainWalk (done : List DXBCDocumentInstruction) (w : ContractWalk) : Prop where
  program_type : w.contract.program_type ≠ some .hull
  seen : ∀ i ∈ done, IsExecutable i.opcode → w.seen_any_executable = true
  order : done.Pairwise fun i j =>
    IsExecutable i.opcode → is_declaration_opcode j.opcode = false

/-- **One instruction of another program.** -/
theorem PlainWalk.step (h : PlainWalk done w) (hstep : ContractStep i w w') :
    PlainWalk (done ++ [i]) w' := by
  cases hstep with
  | declaration hop hlevel horder hflow hseen =>
    have hnone : ∀ j ∈ done, ¬ IsExecutable j.opcode := by
      intro j hj hexec
      have hseen := h.seen j hj hexec
      rw [horder h.program_type] at hseen
      exact Bool.false_ne_true hseen
    refine ⟨?_, ?_, ?_⟩
    · rw [hflow.contract.program_type]
      exact h.program_type
    · intro j hj hexec
      rcases mem_append.mp hj with hj | hj
      · exact absurd hexec (hnone j hj)
      · rw [mem_singleton.mp hj, IsExecutable, hop] at hexec
        cases hexec.1.symm
    · rw [pairwise_append]
      refine ⟨h.order, pairwise_singleton _ _, ?_⟩
      exact fun j hj _ _ hexec => absurd hexec (hnone j hj)
  | effect hop hhull hflow hseen =>
    refine ⟨?_, fun _ _ _ => hseen, ?_⟩
    · rw [hflow.contract.program_type]
      exact hhull
    · rw [pairwise_append]
      refine ⟨h.order, pairwise_singleton _ _, ?_⟩
      intro j _ k hk _
      rw [mem_singleton.mp hk]
      exact hop.1
  | instanceCount hop hlevel hhull => exact absurd hhull h.program_type
  | hsDecls hop hhull => exact absurd hhull h.program_type
  | marker hop hhull => exact absurd hhull h.program_type
  | execute hop hhull => exact absurd hhull h.program_type

/-! ## The whole walk -/

variable {rt : UnityCommon} {document : DXBCDocument} {rest : List DXBCDocumentInstruction}

/-- What one instruction keeps, all of them keep. -/
theorem decode_instructions_keeps (P : List DXBCDocumentInstruction → ContractWalk → Prop)
    (hstep : ∀ {done i w w'}, P done w → decode_instruction_contract rt document i w = .ok w' →
      P (done ++ [i]) w')
    (h : P done w) (hrun : decode_instructions rt document rest w = .ok w') :
    P (done ++ rest) w' := by
  induction rest generalizing done w with
  | nil =>
    rw [← pure_eq_ok.mp hrun, append_nil]
    exact h
  | cons i rest ih =>
    obtain ⟨next, hnext, hrun⟩ := bind_eq_ok.mp hrun
    rw [append_cons]
    exact ih (hstep h hnext) hrun

lemma decode_instructions_hull (h : HullWalk stop [] w)
    (hrun : decode_instructions rt document rest w = .ok w')
    (hidx : rest.Pairwise fun i j => i.instruction_index < j.instruction_index) :
    HullWalk stop rest w' :=
  decode_instructions_keeps (fun done w => (done.Pairwise fun i j =>
    i.instruction_index < j.instruction_index) → HullWalk stop done w) (fun h hnext hidx => by
      obtain ⟨hdone, -, hlt⟩ := pairwise_append.mp hidx
      exact (h hdone).step (contractStep_of_decode hnext) fun j hj => hlt j hj _ (by simp))
    (fun _ => h) hrun hidx

end Walk

/-! ## The program of an accepted document -/

lemma find_executable_spec {chunks : List DXBCDocumentChunk}
    {executable : Option DXBCDocumentChunk} {c : DXBCDocumentChunk}
    (h : find_executable chunks executable = .ok (some c)) :
    (executable = some c ∨ (c ∈ chunks ∧ c.kind = .executable)) ∧
      ∀ c' ∈ chunks, c'.kind = .executable → executable = none ∧ c' = c := by
  induction chunks generalizing executable with
  | nil =>
    refine ⟨.inl (pure_eq_ok.mp h), ?_⟩
    exact nofun
  | cons chunk chunks ih =>
    unfold find_executable at h
    by_cases hkind : chunk.kind ≠ .executable
    · rw [if_pos hkind] at h
      obtain ⟨hfrom, honly⟩ := ih h
      constructor
      · rcases hfrom with hfrom | ⟨hmem, hexec⟩
        · exact .inl hfrom
        · exact .inr ⟨mem_cons_of_mem _ hmem, hexec⟩
      · intro c' hc' hexec
        rcases mem_cons.mp hc' with rfl | hc'
        · exact absurd hexec hkind
        · exact honly c' hc' hexec
    · rw [if_neg hkind] at h
      obtain ⟨hnone, h⟩ := ite_error_eq_ok.mp h
      rw [Bool.not_eq_true, isSome_eq_false_iff, isNone_iff_eq_none] at hnone
      obtain ⟨hfrom, honly⟩ := ih h
      -- a second executable chunk would have been refused
      have hchunk : chunk = c := by
        rcases hfrom with hfrom | ⟨hmem, hexec⟩
        · exact some.inj hfrom
        · exact absurd (honly c hmem hexec).1 (by simp)
      refine ⟨.inr ⟨?_, ?_⟩, ?_⟩
      · rw [← hchunk]
        exact mem_cons_self
      · rw [← hchunk]
        exact not_not.mp hkind
      · intro c' hc' hexec
        refine ⟨hnone, ?_⟩
        rcases mem_cons.mp hc' with rfl | hc'
        · exact hchunk
        · exact (honly c' hc' hexec).2

variable {is : List DXBCDocumentInstruction}

lemma instruction_range_eq {table_index first : ℕ} (h : ∀ i ∈ is, i.chunk_index = table_index) :
    instruction_range table_index stop is (some first, stop) = (some first, stop + is.length) := by
  induction is generalizing stop with
  | nil => rfl
  | cons i is ih =>
    unfold instruction_range
    rw [if_neg (not_not.mpr (h i (by simp)))]
    rw [getD_some, ih (forall_mem_cons.mp h).2, length_cons]
    congr 1
    omega

lemma instruction_range_all {table_index : ℕ} (h : ∀ i ∈ is, i.chunk_index = table_index) :
    (instruction_range table_index 0 is (none, 0)).1.getD 0 = 0 ∧
      (instruction_range table_index 0 is (none, 0)).2 = is.length := by
  cases is with
  | nil => exact ⟨rfl, rfl⟩
  | cons i is =>
    unfold instruction_range
    rw [if_neg (not_not.mpr (h i (by simp)))]
    rw [instruction_range_eq (forall_mem_cons.mp h).2]
    refine ⟨rfl, ?_⟩
    dsimp only
    rw [length_cons]
    omega

lemma tiles_instruction_index {start index : ℕ} (h : Tiles stop start index is) :
    is.map (·.instruction_index) = List.range' index is.length := by
  induction is generalizing start index with
  | nil => rfl
  | cons i is ih =>
    obtain ⟨-, hidx, -, -, hrest⟩ := h
    rw [map_cons, ih hrest, hidx, length_cons, range'_succ]

/-- An accepted document with one executable chunk holds the instructions of that chunk, in
order, and nothing else. -/
structure OneProgram (document : DXBCDocument) (executable : DXBCDocumentChunk) : Prop where
  chunk_index : ∀ i ∈ document.instructions, i.chunk_index = executable.table_index
  instruction_index :
    document.instructions.map (·.instruction_index) = List.range document.instructions.length

variable {executable : DXBCDocumentChunk} {bytes : Bytes}

lemma oneProgram_of_parse (h : parse_document rt bytes = .ok document)
    (hfind : find_executable document.chunks none = .ok (some executable)) :
    OneProgram document executable := by
  obtain ⟨hfrom, honly⟩ := find_executable_spec hfind
  have hchunk : ∀ i ∈ document.instructions, i.chunk_index = executable.table_index := by
    intro i hi
    obtain ⟨c, hc, hkind, hidx⟩ := parse_document_owned h i hi
    rw [hidx, (honly c hc hkind).2]
  refine ⟨hchunk, ?_⟩
  have hmem : executable ∈ document.chunks ∧ executable.kind = .executable := by
    rcases hfrom with hfrom | hmem
    · simp at hfrom
    · exact hmem
  have hprog := (parse_document_wf h).programs executable hmem.1 hmem.2
  have hall : document.chunkInstructions executable.table_index = document.instructions := by
    rw [DXBCDocument.chunkInstructions, filter_eq_self]
    exact fun i hi => decide_eq_true (hchunk i hi)
  rw [hall] at hprog
  rw [tiles_instruction_index hprog.tiles, range_eq_range']

lemma OneProgram.increasing (h : OneProgram document executable) :
    document.instructions.Pairwise fun i j => i.instruction_index < j.instruction_index := by
  rw [← pairwise_map (f := DXBCDocumentInstruction.instruction_index) (R := (· < ·)),
    h.instruction_index]
  exact pairwise_lt_range

lemma OneProgram.index_eq (h : OneProgram document executable) {k : ℕ}
    (hk : k < document.instructions.length) :
    (document.instructions[k]?.map (·.instruction_index)).getD 0 = k := by
  rw [← getElem?_map, h.instruction_index, getElem?_range hk, getD_some]

structure Fresh (c : DXBCStageContract) : Prop where
  hull_phases : c.hull_phases = []
  geometry_effects : c.geometry_effects = []
  output_topology : c.output_topology = none
  output_topology_stream_mask : c.output_topology_stream_mask = 0
  declared_stream_mask : c.declared_stream_mask = 0
  referenced_stream_mask : c.referenced_stream_mask = 0
  thread_group_size : c.thread_group_size = none
  thread_group_shared_memory : c.thread_group_shared_memory = []
  thread_group_shared_memory_bytes : c.thread_group_shared_memory_bytes = 0

lemma fresh_of_decode_version {chunk : DXBCDocumentChunk}
    (h : decode_version rt document chunk dxbc_stage_contract_init = .ok c) : Fresh c := by
  unfold decode_version at h
  dsimp only at h
  split at h
  · exact absurd h (by simp [fail])
  · obtain ⟨-, h⟩ := ite_error_eq_ok.mp h
    obtain ⟨-, h⟩ := ite_error_eq_ok.mp h
    rw [← pure_eq_ok.mp h]
    exact ⟨rfl, rfl, rfl, rfl, rfl, rfl, rfl, rfl, rfl⟩

lemma decode_document_internal_parts {contract : DXBCStageContract}
    (hparse : parse_document rt bytes = .ok document)
    (h : decode_document_internal rt document = .ok contract) :
    ∃ executable start w, OneProgram document executable ∧ Fresh start ∧
      start.end_instruction_index = document.instructions.length ∧
      decode_instructions rt document document.instructions (start_walk start) = .ok w ∧
      contract = modify_last_phase w.contract (fun phase =>
        { phase with end_instruction_index := w.contract.end_instruction_index }) ∧
      finish_contract contract w.seen_hs_decls w.seen_phase = .ok () := by
  unfold decode_document_internal at h
  obtain ⟨-, h⟩ := ite_error_eq_ok.mp h
  obtain ⟨executable, hfind, h⟩ := bind_eq_ok.mp h
  cases executable with
  | none => exact absurd h (by simp [fail])
  | some executable =>
    obtain ⟨c, hver, h⟩ := bind_eq_ok.mp h
    obtain ⟨w, hrun, h⟩ := bind_eq_ok.mp h
    obtain ⟨_, hfinish, h⟩ := bind_eq_ok.mp h
    have hone := oneProgram_of_parse hparse hfind
    obtain ⟨hfst, hstop⟩ := instruction_range_all hone.chunk_index
    rw [hfst, hstop, take_length, drop_zero] at hrun
    have hctr := pure_eq_ok.mp h
    refine ⟨executable, _, w, hone, ?_, ?_, hrun, hctr.symm, hctr ▸ hfinish⟩
    · have hfresh := fresh_of_decode_version hver
      exact ⟨hfresh.hull_phases, hfresh.geometry_effects, hfresh.output_topology,
        hfresh.output_topology_stream_mask, hfresh.declared_stream_mask,
        hfresh.referenced_stream_mask, hfresh.thread_group_size,
        hfresh.thread_group_shared_memory, hfresh.thread_group_shared_memory_bytes⟩
    · dsimp only
      split_ifs with hzero
      · exact hzero.symm
      · rw [hone.index_eq (by omega)]
        omega

end StageContract

/-! ## Accepted contracts -/

/-- What the contract of a hull program says of its instructions. -/
structure DXBCStageContract.HullProgram (contract : DXBCStageContract)
    (instructions : List DXBCDocumentInstruction) : Prop where
  /-- Control-point phases come before fork phases, and these before join phases. -/
  kinds : contract.hull_phases.Pairwise fun p q => p.kind.order ≤ q.kind.order
  control_point_le : contract.hull_phases.countP (·.kind = .controlPoint) ≤ 1
  /-- There is one phase for each marker. -/
  markers : contract.hull_phases.map (fun p => (p.kind, p.marker_instruction_index)) =
    (instructions.filter fun i => is_hull_phase_marker i.opcode).map fun i =>
      (marker_kind i.opcode, i.instruction_index)
  starts : ∀ p ∈ contract.hull_phases,
    p.first_instruction_index = p.marker_instruction_index + 1
  ends : contract.hull_phases.IsChain fun p q =>
    p.end_instruction_index = q.marker_instruction_index
  last_end : ∀ p ∈ contract.hull_phases.getLast?,
    p.end_instruction_index = contract.end_instruction_index
  executable : ∀ i ∈ instructions, IsExecutable i.opcode →
    contract.hull_phases.countP (fun p =>
      p.first_instruction_index ≤ i.instruction_index ∧
        i.instruction_index < p.end_instruction_index) = 1
  declarations : ∀ i ∈ instructions, stage_level_declaration i.opcode = true →
    ∀ p ∈ contract.hull_phases, i.instruction_index < p.marker_instruction_index
  instance_count : ∀ p ∈ contract.hull_phases, 1 ≤ p.instance_count

namespace StageContract

section Accepted

variable {rt : UnityCommon} {bytes : Bytes} {document : DXBCDocument} {contract : DXBCStageContract}

lemma countP_le_one
    (h : phases.Pairwise fun p q => ¬ (p.kind = .controlPoint ∧ q.kind = .controlPoint)) :
    phases.countP (fun p => p.kind = .controlPoint) ≤ 1 := by
  induction phases with
  | nil => exact Nat.zero_le _
  | cons p phases ih =>
    by_cases hkind : p.kind = .controlPoint
    · rw [countP_cons_of_pos (by simpa using hkind), countP_eq_zero.mpr]
      intro q hq hq'
      exact rel_of_pairwise_cons h hq ⟨hkind, of_decide_eq_true hq'⟩
    · rw [countP_cons_of_neg (by simpa using hkind)]
      exact ih h.of_cons

lemma HullWalk.start {start : DXBCStageContract} (htype : start.program_type = some .hull)
    (hstop : start.end_instruction_index = stop) (hphs : start.hull_phases = []) :
    HullWalk stop [] (start_walk start) := by
  refine ⟨htype, hstop, ?_, ?_, ?_, ?_, ?_, ?_, ?_⟩
  · rw [start_walk, hphs]
    exact .nil
  · rw [start_walk, hphs]
    rfl
  · simp [start_walk]
  · exact nofun
  · exact nofun
  · exact nofun
  · exact nofun

lemma PlainWalk.start {start : DXBCStageContract} (htype : start.program_type ≠ some .hull) :
    PlainWalk [] (start_walk start) :=
  ⟨htype, nofun, .nil⟩

variable {executable : DXBCDocumentChunk} (hone : OneProgram document executable)

include hone

lemma increasing_of_markers
    (h : phases.map markerOf = (document.instructions.filter fun i => is_hull_phase_marker
      i.opcode).map fun i => (marker_kind i.opcode, i.instruction_index)) :
    phases.Pairwise fun p q => p.marker_instruction_index < q.marker_instruction_index := by
  have hpairs := congrArg (List.map Prod.snd) h
  rw [List.map_map, List.map_map] at hpairs
  have hfiltered := hone.increasing.filter fun i => is_hull_phase_marker i.opcode
  have hidxs := List.pairwise_map.mpr hfiltered
  exact pairwise_map.mp (hpairs.symm ▸ hidxs)

variable {w : ContractWalk}

lemma hullProgram_of_phases (h : HullWalk document.instructions.length document.instructions w)
    (hstop : contract.end_instruction_index = document.instructions.length)
    (hphs : Phases contract.hull_phases)
    (hmarkers : contract.hull_phases.map markerOf = w.contract.hull_phases.map markerOf)
    (hlast : ∀ p ∈ contract.hull_phases.getLast?, p.end_instruction_index =
      contract.end_instruction_index) :
    contract.HullProgram document.instructions := by
  rw [h.markers] at hmarkers
  -- the markers of the phases are instructions
  have hmem : ∀ p ∈ contract.hull_phases, ∃ m ∈ document.instructions, IsMarker m ∧
      p.marker_instruction_index = m.instruction_index := by
    intro p hp
    have hp := mem_map_of_mem (f := markerOf) hp
    rw [hmarkers] at hp
    obtain ⟨m, hm, heq⟩ := mem_map.mp hp
    obtain ⟨hm, hm'⟩ := mem_filter.mp hm
    exact ⟨m, hm, hm', (congrArg Prod.snd heq).symm⟩
  refine ⟨hphs.kinds, countP_le_one hphs.once, hmarkers, hphs.starts, hphs.ends,
    hlast, ?_, ?_, hphs.counts⟩
  · intro i hi hexec
    have hidx : i.instruction_index < document.instructions.length := by
      have hrange := mem_map_of_mem (f := DXBCDocumentInstruction.instruction_index) hi
      rw [hone.instruction_index] at hrange
      exact mem_range.mp hrange
    apply Phases.countP_eq_one hphs.starts hphs.ends (increasing_of_markers hone hmarkers) hlast
    · rw [hstop]
      exact hidx
    · obtain ⟨m, hm, hm', hlt⟩ := h.executable i hi hexec
      have hp : (marker_kind m.opcode, m.instruction_index) ∈
          contract.hull_phases.map markerOf := by
        rw [hmarkers]
        exact mem_map_of_mem (mem_filter.mpr ⟨hm, hm'⟩)
      obtain ⟨p, hp, heq⟩ := mem_map.mp hp
      refine ⟨p, hp, ?_⟩
      rw [show p.marker_instruction_index = m.instruction_index from congrArg Prod.snd heq]
      exact hlt
    · -- a marker is no executable instruction
      intro p hp heq
      obtain ⟨m, hm, hm', hidx'⟩ := hmem p hp
      have hnodup : (document.instructions.map (·.instruction_index)).Nodup := by
        rw [hone.instruction_index]
        exact nodup_range
      have hsame := inj_on_of_nodup_map hnodup hm hi (hidx'.symm.trans heq)
      rw [IsMarker, hsame, hexec.2.1] at hm'
      exact Bool.false_ne_true hm'
  · intro i hi hlevel p hp
    obtain ⟨m, hm, hm', hidx⟩ := hmem p hp
    rw [hidx]
    exact h.level i hi hlevel m hm hm'

lemma HullWalk.hullProgram (h : HullWalk document.instructions.length document.instructions w) :
    (modify_last_phase w.contract fun phase =>
      { phase with end_instruction_index := w.contract.end_instruction_index }).HullProgram
        document.instructions := by
  have hf := keepsStart_end fun _ => w.contract.end_instruction_index
  apply hullProgram_of_phases hone h
  · exact h.stop_eq
  · exact h.phases.modify_last_phase hf
  · exact markers_modify_last_phase hf
  · intro p hp
    rcases eq_nil_or_concat w.contract.hull_phases with hnil | ⟨phases, q, hq⟩
    · rw [modify_last_phase_nil hnil] at hp
      simp at hp
    · rw [concat_eq_append] at hq
      rw [modify_last_phase_concat hq, getLast?_concat, mem_some_iff] at hp
      rw [← hp]
      rfl

omit hone

/-- The program type is settled before the walk, and no instruction changes it. -/
theorem ContractStep.program_type {w' : ContractWalk} (h : ContractStep i w w') :
    w'.contract.program_type = w.contract.program_type := by
  cases h with
  | declaration hop hlevel horder hflow hseen => exact hflow.contract.program_type
  | instanceCount hop hlevel hhull value hval hw =>
    rw [hw]
    rfl
  | hsDecls hop hhull hfst hw => rw [hw]
  | marker hop hhull hdecls horder honce hframe => exact hframe.program_type
  | effect hop hhull hflow hseen => exact hflow.contract.program_type
  | execute hop hhull hphase hw =>
    rw [hw]
    rfl

lemma decode_instructions_program_type {rest : List DXBCDocumentInstruction} {w' : ContractWalk}
    (h : decode_instructions rt document rest w = .ok w') :
    w'.contract.program_type = w.contract.program_type :=
  @decode_instructions_keeps [] _ _ _ _ rest
    (fun _ w' => w'.contract.program_type = w.contract.program_type)
    (fun h hnext => (contractStep_of_decode hnext).program_type.trans h) rfl h

lemma decode_document_internal_spec (hparse : parse_document rt bytes = .ok document)
    (h : decode_document_internal rt document = .ok contract) :
    (contract.program_type = some .hull → contract.HullProgram document.instructions) ∧
      (contract.program_type ≠ some .hull → document.instructions.Pairwise fun i j =>
        IsExecutable i.opcode → is_declaration_opcode j.opcode = false) := by
  obtain ⟨executable, start, w, hone, hfresh, hstop, hrun, hctr, -⟩ :=
    decode_document_internal_parts hparse h
  have htype : contract.program_type = start.program_type := by
    rw [hctr]
    exact decode_instructions_program_type hrun
  rw [htype, hctr]
  constructor
  · intro hhull
    have hwalk := HullWalk.start hhull hstop hfresh.hull_phases
    exact (decode_instructions_hull hwalk hrun hone.increasing).hullProgram hone
  · intro hhull
    exact (decode_instructions_keeps PlainWalk (fun h hnext => h.step (contractStep_of_decode hnext))
      (.start hhull) hrun).order

end Accepted

end StageContract

lemma parse_document_of_parse {bytes : Option Bytes}
    (h : (dxbc_document_parse rt document bytes).1 = true) :
    ∃ data, parse_document rt data = .ok (dxbc_document_parse rt document bytes).2.1 := by
  cases bytes with
  | none => cases h
  | some data =>
    refine ⟨data, ?_⟩
    rw [dxbc_document_parse] at h ⊢
    cases hdata : parse_document rt data with
    | error d =>
      rw [hdata] at h
      cases h
    | ok result => rfl

/-- What a call returns: the contract of the program, or that of the caller. -/
theorem decode_cases (rt : UnityCommon) (document : DXBCDocument)
    (semantic_container : Option DXBCContainer) (out_contract : DXBCStageContract) :
    let decoded := dxbc_stage_contract_decode rt document semantic_container out_contract
    decoded.1 = true ∧ decode_document_internal rt document = .ok decoded.2.1 ∨
      decoded.1 = false ∧ decoded.2.1 = out_contract := by
  intro decoded
  have hdec : decoded =
      dxbc_stage_contract_decode rt document semantic_container out_contract := rfl
  unfold dxbc_stage_contract_decode at hdec
  split at hdec
  next result hres =>
    obtain ⟨contract, hctr, hres⟩ := bind_eq_ok.mp hres
    have hsame : contract = result := by
      cases semantic_container with
      | none => exact pure_eq_ok.mp hres
      | some container =>
        obtain ⟨_, -, hres⟩ := bind_eq_ok.mp hres
        exact pure_eq_ok.mp hres
    rw [hdec, ← hsame]
    exact Or.inl ⟨rfl, hctr⟩
  next => exact Or.inr (by rw [hdec]; exact ⟨rfl, rfl⟩)

/-- **An accepted stage contract describes its program.** The phases of a hull program are in
order, meet, end with the program and share out its executable instructions; its stage-level
declarations come first. In any other program the declarations come before the executable
instructions. A refused document leaves the contract of the caller as it was. -/
theorem dxbc_stage_contract_decode_spec (rt : UnityCommon) (document : DXBCDocument)
    (bytes : Option Bytes) (semantic_container : Option DXBCContainer)
    (out_contract : DXBCStageContract)
    (hparse : (dxbc_document_parse rt document bytes).1 = true) :
    let parsed := (dxbc_document_parse rt document bytes).2.1
    let decoded := dxbc_stage_contract_decode rt parsed semantic_container out_contract
    (decoded.1 = true → decoded.2.1.program_type = some .hull →
      decoded.2.1.HullProgram parsed.instructions) ∧
    (decoded.1 = true → decoded.2.1.program_type ≠ some .hull →
      parsed.instructions.Pairwise fun i j =>
        IsExecutable i.opcode → is_declaration_opcode j.opcode = false) ∧
    (decoded.1 = false → decoded.2.1 = out_contract) := by
  intro parsed decoded
  obtain ⟨data, hdata⟩ := parse_document_of_parse hparse
  rcases decode_cases rt parsed semantic_container out_contract with
    ⟨htrue, hcontract⟩ | ⟨hfalse, hout⟩
  · obtain ⟨hhull, hplain⟩ := decode_document_internal_spec hdata hcontract
    exact ⟨fun _ => hhull, fun _ => hplain, fun hfalse => absurd (htrue.symm.trans hfalse) (by simp)⟩
  · refine ⟨?_, ?_, fun _ => hout⟩
    · exact fun htrue => absurd (htrue.symm.trans hfalse) (by simp)
    · exact fun htrue => absurd (htrue.symm.trans hfalse) (by simp)

/-- A hull program with a fork phase of two instances and a join phase. -/
def forkJoinContainer : Bytes :=
  [68, 88, 66, 67, 5, 179, 138, 197, 138, 115, 51, 90, 192, 30, 4, 103, 201, 148, 41, 6,
   1, 0, 0, 0, 100, 0, 0, 0, 1, 0, 0, 0, 36, 0, 0, 0, 83, 72, 69, 88, 56, 0, 0, 0,
   80, 0, 3, 0, 14, 0, 0, 0, 113, 0, 0, 1, 147, 24, 0, 1, 148, 24, 0, 1, 149, 16, 0, 1,
   150, 8, 0, 1, 151, 24, 0, 1, 115, 0, 0, 1, 153, 0, 0, 2, 2, 0, 0, 0, 62, 0, 0, 1,
   116, 0, 0, 1, 62, 0, 0, 1]

def forkJoinDocument : DXBCDocument :=
  (dxbc_document_parse .reference dxbc_document_init (some forkJoinContainer)).2.1

def forkJoinContract : Bool × DXBCStageContract × DXBCStageContractDiagnostic :=
  dxbc_stage_contract_decode .reference forkJoinDocument none dxbc_stage_contract_init

/-- It is accepted as a hull program with two phases. -/
theorem dxbc_stage_contract_decode_fork_join :
    forkJoinContract.1 = true ∧ forkJoinContract.2.1.hull_phases.length = 2 ∧
      forkJoinContract.2.1.HullProgram forkJoinDocument.instructions := by
  have hparse : (dxbc_document_parse .reference dxbc_document_init
      (some forkJoinContainer)).1 = true := by decide +kernel
  have hfacts : forkJoinContract.1 = true ∧ forkJoinContract.2.1.hull_phases.length = 2 ∧
      forkJoinContract.2.1.program_type = some .hull := by decide +kernel
  have hspec := dxbc_stage_contract_decode_spec .reference dxbc_document_init
    (some forkJoinContainer) none dxbc_stage_contract_init hparse
  refine ⟨hfacts.1, hfacts.2.1, ?_⟩
  unfold forkJoinContract forkJoinDocument at hfacts ⊢
  exact hspec.1 hfacts.1 hfacts.2.2

end DXBCSandbox
