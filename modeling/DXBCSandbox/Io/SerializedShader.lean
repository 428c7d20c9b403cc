/-
The serialized shader, as far as the variant planners read it (`src/io/serialized_shader.c`).

Counts are signed, and a negative count or a null array is something the readers of a pass
refuse. What the arrays hold is only looked at once the count has been checked.
-/
import DXBCSandbox.Common.VariantKey

namespace DXBCSandbox

/-- A pointer to an array, and the signed count that comes with it. -/
structure IntArray (α : Type) where
  values : Option (List α)
  count : ℤ
  count_eq : 0 ≤ count → ∀ l, values = some l → (l.length : ℤ) = count

/-- A null pointer with a count of zero. -/
def IntArray.null {α : Type} : IntArray α := ⟨none, 0, fun _ => nofun⟩

/-- An array that is there also when it is empty. -/
def IntArray.holding {α : Type} (l : List α) : IntArray α :=
  ⟨some l, l.length, fun _ _ h => by rw [Option.some.inj h]⟩

/-- `count < 0 || (count != 0 && !values)`. -/
def IntArray.invalid {α : Type} (a : IntArray α) : Bool :=
  a.count < 0 ∨ (a.count ≠ 0 ∧ a.values = none)

/-- The elements that a loop up to the count reads. -/
def IntArray.toList {α : Type} (a : IntArray α) : List α :=
  (a.values.getD []).take a.count.toNat

structure SerializedSubProgram where
  program_type : ℤ
  local_keywords : IntArray (Option CString)
  global_keywords : IntArray (Option CString)

structure SerializedSubProgramIdentity where
  hardware_tier_group : ℤ
  keyword_scopes_are_explicit : Bool
  global_keyword_indices : IntArray ℤ
  local_keyword_indices : IntArray ℤ

/-- The subprograms of one stage of a pass, and the identities beside them. -/
structure SerializedPassStage where
  subprograms : IntArray SerializedSubProgram
  identities : Option (List SerializedSubProgramIdentity)
  identities_eq : 0 ≤ subprograms.count → ∀ l, identities = some l →
    (l.length : ℤ) = subprograms.count

def SerializedPassStage.null : SerializedPassStage := ⟨.null, none, fun _ => nofun⟩

def SERIALIZED_STAGE_COUNT : ℕ := 6

structure SerializedPass where
  has_serialized_platforms : Bool
  platforms : IntArray ℤ
  stages : Fin SERIALIZED_STAGE_COUNT → SerializedPassStage
  serialized_keyword_state_mask : IntArray UInt16

structure SerializedShader where
  keyword_names : IntArray (Option CString)
  keyword_flags : Option Bytes

def is_serialized_console_program (program_type : ℤ) : Bool :=
  26 ≤ program_type ∧ program_type ≤ 30

def serialized_shader_platform_is_known (platform : ℤ) : Bool :=
  platform ∈ ([0, 1, 2, 3, 4, 5, 8, 9, 10, 11, 12, 14, 15, 16, 17, 18, 19, 20] : List ℤ)

def serialized_gpu_program_type_is_platform (program_type platform : ℤ) : Bool :=
  if ¬ serialized_shader_platform_is_known platform then false
  else if platform = 0 then program_type = 1
  else if platform = 1 then 9 ≤ program_type ∧ program_type ≤ 12
  else if platform ∈ ([2, 3, 10, 11, 12, 16, 17, 19] : List ℤ) then
    is_serialized_console_program program_type
  else if platform = 4 then (15 ≤ program_type ∧ program_type ≤ 22) ∨ program_type = 31
  else if platform = 5 then program_type = 5
  else if platform = 8 then program_type = 13 ∨ program_type = 14
  else if platform = 9 then 2 ≤ program_type ∧ program_type ≤ 4
  else if platform = 14 then program_type = 23 ∨ program_type = 24
  else if platform = 15 then 6 ≤ program_type ∧ program_type ≤ 8
  else if platform = 18 then program_type = 25
  else if platform = 20 then is_serialized_console_program program_type ∨ program_type = 31
  else false

def serialized_pass_subprogram_is_platform (pass : SerializedPass)
    (stage : Fin SERIALIZED_STAGE_COUNT) (subprogram_index platform : ℤ) : Bool :=
  let subprograms := (pass.stages stage).subprograms
  if subprogram_index < 0 ∨ subprograms.count ≤ subprogram_index then false
  else if ¬ pass.has_serialized_platforms then
    (pass.stages stage).identities.isNone ∧ pass.platforms.count = 0
  else if ¬ platform ∈ pass.platforms.toList then false
  else
    match subprograms.values with
    | none => false
    | some list =>
      match list[subprogram_index.toNat]? with
      | none => false
      | some sub => serialized_gpu_program_type_is_platform sub.program_type platform

end DXBCSandbox
