/-
The registry of semantic lifts (`src/translation/hlsl_semantic.c`, `hlsl_semantic.h`).

A lift replaces instructions that it claims, at a trigger or behind an anchor. The registry keeps the
lifts in a list and has three tables from instructions to lifts: the owner of an instruction, and
the lifts anchored before and behind it. A registration checks everything first and then writes the
list and the tables.

The entries of an array are the values of a function, and −1 in a table is `none`. Each access is
behind the test of its index.
-/
import DXBCSandbox.Usil.Syntax

namespace DXBCSandbox.HlslSemantic

/-! ## Lifts -/

inductive HLSLSemanticKind where
  | none | screenPosition | staticUvSelection | surfaceClipPosition | surfaceTangentFrame
  | indexedFaceBasis | shadowWorldPosition | deferredAlphaClip | speedtreeGlobalWind
  | truthinessCondition
  deriving DecidableEq

structure HLSLSemanticContract where
  kind : HLSLSemanticKind
  name : String
  priority : ℤ
  library_semantic : Bool
  deriving DecidableEq

def k_static_uv_contract : HLSLSemanticContract :=
  ⟨.staticUvSelection, "unity.static_uv_selection", 300, true⟩
def k_surface_clip_contract : HLSLSemanticContract :=
  ⟨.surfaceClipPosition, "unity.surface_clip_position", 400, true⟩
def k_surface_tangent_contract : HLSLSemanticContract :=
  ⟨.surfaceTangentFrame, "unity.surface_tangent_frame", 400, true⟩
def k_face_basis_contract : HLSLSemanticContract :=
  ⟨.indexedFaceBasis, "unity.indexed_face_basis", 450, true⟩
def k_shadow_position_contract : HLSLSemanticContract :=
  ⟨.shadowWorldPosition, "unity.shadow_world_position", 350, true⟩
def k_alpha_clip_contract : HLSLSemanticContract :=
  ⟨.deferredAlphaClip, "source.deferred_alpha_clip", 500, false⟩
def k_speedtree_wind_contract : HLSLSemanticContract :=
  ⟨.speedtreeGlobalWind, "unity.speedtree_global_wind", 600, true⟩
def k_readable_screen_position_contract : HLSLSemanticContract :=
  ⟨.screenPosition, "unity.compute_screen_position", 300, true⟩
def k_truthiness_contract : HLSLSemanticContract :=
  ⟨.truthinessCondition, "source.truthiness_condition", 200, false⟩

/-- The union of a lift. The lift of a screen position has none of its members. -/
inductive HLSLSemanticData where
  | zeroed
  | static_uv (select lightmap_input dynamic_input : ℤ)
  | surface (phase : ℤ)
  | face_basis (output_register uv_input_register : ℤ)
  | shadow_position (output_register input_register : ℤ) (matrix : String)
  | alpha_clip (mad compare discard multiply move : ℤ) (color_temp_operand : ℕ)
      (first_operand_is_cb : Bool)
  | speedtree_wind (start : ℤ)
  | truthiness (value_operand component_mask : ℕ)
  deriving DecidableEq

def claimedCapacity : ℕ := 64

/-- The list `claimed` has `claimed_count` entries. -/
structure HLSLSemanticLift where
  contract : HLSLSemanticContract
  trigger_instruction : ℤ
  after_instruction : ℤ
  claimed : List ℤ
  data : HLSLSemanticData
  deriving DecidableEq

/-! ## The registry -/

structure HLSLSemanticProgram where
  lifts : List HLSLSemanticLift
  lift_capacity : ℕ
  before_lift : ℤ → Option ℕ
  after_lift : ℤ → Option ℕ
  claim_owner : ℤ → Option ℕ
  conflict_count : ℕ
  skip_instruction : ℤ → Bool

variable (instruction_count : ℕ)

/-- The registry before the first registration. Passes before it may skip instructions too. -/
def HLSLSemanticProgram.initial (skip_instruction : ℤ → Bool) : HLSLSemanticProgram where
  lifts := []
  lift_capacity := instruction_count * 2 + 8
  before_lift _ := none
  after_lift _ := none
  claim_owner _ := none
  conflict_count := 0
  skip_instruction

/-- An anchor that is out of range, or has a lift. -/
def anchor_conflicts (table : ℤ → Option ℕ) (anchor : ℤ) : Bool :=
  0 ≤ anchor ∧ (instruction_count ≤ anchor ∨ (table anchor).isSome)

/-- A claim that is out of range, or has an owner. -/
def claim_conflicts (claim_owner : ℤ → Option ℕ) (instruction : ℤ) : Bool :=
  instruction < 0 ∨ instruction_count ≤ instruction ∨ (claim_owner instruction).isSome

/-- `if (anchor >= 0) table[anchor] = lift_id`. -/
def set_anchor (table : ℤ → Option ℕ) (anchor : ℤ) (lift_id : ℕ) : ℤ → Option ℕ :=
  if 0 ≤ anchor then Function.update table anchor (some lift_id) else table

def claim_instruction (lift_id : ℕ) (trigger_instruction : ℤ) (semantic : HLSLSemanticProgram)
    (instruction : ℤ) : HLSLSemanticProgram :=
  { semantic with
    claim_owner := Function.update semantic.claim_owner instruction (some lift_id)
    skip_instruction := if instruction ≠ trigger_instruction
      then Function.update semantic.skip_instruction instruction true
      else semantic.skip_instruction }

def register_lift (semantic : HLSLSemanticProgram) (candidate : HLSLSemanticLift) :
    Bool × HLSLSemanticProgram :=
  if anchor_conflicts instruction_count semantic.before_lift candidate.trigger_instruction then
    (false, { semantic with conflict_count := semantic.conflict_count + 1 })
  else if anchor_conflicts instruction_count semantic.after_lift candidate.after_instruction then
    (false, { semantic with conflict_count := semantic.conflict_count + 1 })
  else if candidate.claimed.any (claim_conflicts instruction_count semantic.claim_owner) then
    (false, { semantic with conflict_count := semantic.conflict_count + 1 })
  else if semantic.lift_capacity ≤ semantic.lifts.length then (false, semantic)
  else
    let lift_id := semantic.lifts.length
    let semantic := { semantic with
      lifts := semantic.lifts ++ [candidate]
      before_lift := set_anchor semantic.before_lift candidate.trigger_instruction lift_id
      after_lift := set_anchor semantic.after_lift candidate.after_instruction lift_id }
    (true, candidate.claimed.foldl (claim_instruction lift_id candidate.trigger_instruction)
      semantic)

def registerAll (n : ℕ) (semantic : HLSLSemanticProgram) (candidates : List HLSLSemanticLift) :
    HLSLSemanticProgram :=
  candidates.foldl (fun semantic candidate => (register_lift n semantic candidate).2) semantic

end DXBCSandbox.HlslSemantic
