/-
The union of global declarations (`src/translation/hlsl_global_declarations.c`).

The keyword variants of one pass and stage share the constant buffer `$Globals`, but each declares
only the fields that it uses. The union collects the fields of all of them. A field that is declared
again must have the same layout, and any other field must have another name and other bytes.
-/
import DXBCSandbox.Common.ShaderStage
import DXBCSandbox.Io.ParameterLayout
import Mathlib.Data.List.DropRight

namespace DXBCSandbox

open Checks

/-! ## Data -/

/-- The fields of a serialized subprogram that only name what it was compiled for. -/
structure SerializedSubProgramRequirements where
  shader_requirements : UInt64
  has_hardware_tier : Bool
  hardware_tier : ℤ

structure DeclaringPass extends SerializedPass where
  program_mask : UInt32
  common_parameters : Fin SERIALIZED_STAGE_COUNT → SerializedProgramParameters
  requirements : Fin SERIALIZED_STAGE_COUNT → ℕ → SerializedSubProgramRequirements

/-- The fields of `PlayerSubProgramMetadata` that say which subprogram a blob is of. -/
structure PlayerSubProgramIdentity where
  program_type : ℤ
  has_player_blob_header : Bool
  local_keywords : IntArray (Option CString)

structure HLSLGlobalDeclarationWitness where
  subprogram_index : ℤ
  player : Option PlayerSubProgramIdentity
  residual : Option SerializedProgramParameters

structure HLSLGlobalDeclarationField where
  name : CString
  layout : DecodedVariableLayout
  byte_size : ℕ
  current_authority : Bool
  witness_subprogram_indices : List ℕ
  deriving DecidableEq

inductive HLSLGlobalDeclarationStatus where
  | ok | notApplicable | invalid | scopeConflict | shellConflict | fieldConflict
  | currentReadUnauthorized
  deriving DecidableEq

structure HLSLGlobalDeclarationDiagnostic where
  status : HLSLGlobalDeclarationStatus
  subprogram_index : ℤ
  conflicting_subprogram_index : ℤ
  field_index : ℤ

structure HLSLGlobalDeclarationUnion where
  stage : UnitySerializedProgramStage
  current : ℤ
  dxbc_stage : DXBCProgramType
  shell_size : UInt32
  program_mask : UInt32
  gpu_program_type : ℤ
  empty_residual_shell : Bool
  empty_common_shell : Bool
  fields : List HLSLGlobalDeclarationField

namespace GlobalDeclarations

/-! ## Fields -/

def same_layout (a b : HLSLGlobalDeclarationField) : Bool :=
  a.name = b.name ∧ a.byte_size = b.byte_size ∧ a.layout.byte_offset = b.layout.byte_offset ∧
    a.layout.array_size = b.layout.array_size ∧ a.layout.scalar_type = b.layout.scalar_type ∧
    a.layout.rows = b.layout.rows ∧ a.layout.columns = b.layout.columns ∧
    a.layout.is_matrix = b.layout.is_matrix

/-- The loop that looks for the slot of a field. The first field that is not apart from it must be
the same. -/
def findSlot (field : HLSLGlobalDeclarationField) :
    List HLSLGlobalDeclarationField → Except HLSLGlobalDeclarationStatus (Option ℕ)
  | [] => .ok none
  | prior :: rest =>
    let stop := field.layout.byte_offset.toNat + field.byte_size
    let prior_stop := prior.layout.byte_offset.toNat + prior.byte_size
    if prior.name ≠ field.name ∧
        (stop ≤ prior.layout.byte_offset.toNat ∨
          prior_stop ≤ field.layout.byte_offset.toNat) then
      (findSlot field rest).map fun slot => slot.map fun i => i + 1
    else if ¬ same_layout prior field then .error .fieldConflict
    else .ok (some 0)

/-- The greater indices at the end move up by one. -/
def insertWitness (ids : List ℕ) (witness : ℕ) : List ℕ :=
  ids.rdropWhile (fun id => witness < id) ++ witness :: ids.rtakeWhile fun id => witness < id

def addWitness (witness : ℕ) (current : Bool) (slot : HLSLGlobalDeclarationField) :
    HLSLGlobalDeclarationField :=
  let slot := { slot with current_authority := slot.current_authority || current }
  if witness ∈ slot.witness_subprogram_indices then slot
  else { slot with
    witness_subprogram_indices := insertWitness slot.witness_subprogram_indices witness }

def add_field (fields : List HLSLGlobalDeclarationField) (field : HLSLGlobalDeclarationField)
    (witness : ℕ) (current : Bool) :
    Except HLSLGlobalDeclarationStatus (List HLSLGlobalDeclarationField) :=
  match findSlot field fields with
  | .error status => .error status
  | .ok (some slot) => .ok (fields.modify slot (addWitness witness current))
  | .ok none =>
    if 4096 ≤ fields.length then .error .invalid
    else .ok (fields ++ [addWitness witness current
      { field with witness_subprogram_indices := [] }])

/-! ## Parameters -/

/-- `count < 0 || count > 4096 || (count && !values)`. -/
def arrayShape {α : Type} (a : IntArray α) : Bool :=
  0 ≤ a.count ∧ a.count ≤ 4096 ∧ (a.count = 0 ∨ a.values.isSome)

def metadata_shape (parameters : Option SerializedProgramParameters) : Bool :=
  match parameters with
  | none => true
  | some parameters => arrayShape parameters.constant_buffers ∧ arrayShape parameters.resources

def isGlobals (name : CString) : Bool := name.bytes = asciiBytes "$Globals"

def empty_parameters (parameters : Option SerializedProgramParameters) : Option Bool :=
  if ¬ metadata_shape parameters then none
  else
    match parameters with
    | none => some false
    | some parameters =>
      if parameters.resources.count ≠ 0 ∨ 1 < parameters.constant_buffers.count then none
      else
        match parameters.constant_buffers.toList with
        | [] => some false
        | buffer :: _ =>
          if ¬ buffer.name.any isGlobals ∨ buffer.role ≠ .looseParameters ∨
              buffer.size ≠ 0 ∨ buffer.has_is_partial ∨ buffer.is_partial ∨
              buffer.vars.count ≠ 0 ∨ buffer.vars.values.isSome ∨
              buffer.struct_params.count ≠ 0 ∨ buffer.struct_params.values.isSome then none
          else some true

/-- Both blocks are empty; whether one of them has a shell. -/
def empty_authority (residual common : Option SerializedProgramParameters) : Option Bool :=
  match empty_parameters residual, empty_parameters common with
  | some residual_shell, some common_shell => some (residual_shell || common_shell)
  | _, _ => none

def identifierByte (i : ℕ) (c : UInt8) : Bool :=
  (0x41 ≤ c ∧ c ≤ 0x5a) ∨ (0x61 ≤ c ∧ c ≤ 0x7a) ∨ c = 0x5f ∨ (i ≠ 0 ∧ 0x30 ≤ c ∧ c ≤ 0x39)

def identifierFrom : ℕ → Bytes → Bool
  | _, [] => true
  | i, c :: rest => if 255 ≤ i ∨ ¬ identifierByte i c then false else identifierFrom (i + 1) rest

def identifier (name : Option CString) : Bool :=
  match name with
  | none => false
  | some name => name.bytes ≠ [] ∧ identifierFrom 0 name.bytes

/-- The loop over the keywords, behind the ones before. -/
def keywordNames : (prior rest : List (Option CString)) → Bool
  | _, [] => true
  | prior, name :: rest =>
    if ¬ identifier name ∨ name ∈ prior then false else keywordNames (prior ++ [name]) rest

def keyword_shape (sub : SerializedSubProgram) : Bool :=
  if ¬ arrayShape sub.local_keywords ∨ ¬ arrayShape sub.global_keywords then false
  else keywordNames [] (sub.local_keywords.toList ++ sub.global_keywords.toList)

/-- The keywords of one list, each new and, when there is a list to look in, found there. -/
def keywordSet (candidates : Option (List (Option CString))) :
    (prior rest : List (Option CString)) → Bool
  | _, [] => true
  | prior, keyword :: rest =>
    if keyword.isNone ∨ keyword ∈ prior then false
    else if candidates.any fun names => names.any (fun name => name.isNone) || keyword ∉ names
    then false
    else keywordSet candidates (prior ++ [keyword]) rest

def subprogram_metadata_local_keyword_set_matches (player : PlayerSubProgramIdentity)
    (serialized : SerializedSubProgram) : Bool :=
  if player.local_keywords.count < 0 ∨ serialized.local_keywords.count < 0 ∨
      player.local_keywords.count ≠ serialized.local_keywords.count ∨
      (0 < player.local_keywords.count ∧
        (player.local_keywords.values.isNone ∨ serialized.local_keywords.values.isNone)) then
    false
  else
    keywordSet (some serialized.local_keywords.toList) [] player.local_keywords.toList ∧
      keywordSet none [] serialized.local_keywords.toList

/-- The loop over the resources. Whether `$Globals` is bound so far. -/
def shellResources : List SerializedResourceParam → (bound : Bool) →
    Except HLSLGlobalDeclarationStatus Bool
  | [], bound => .ok bound
  | resource :: rest, bound =>
    if resource.bind_type ≠ .constantBuffer ∨ ¬ resource.name.any isGlobals then
      shellResources rest bound
    else if resource.bind_index ≠ 0 then .error .scopeConflict
    else shellResources rest true

/-- The loop over the constant buffers. The size so far. -/
def shellBuffers : List SerializedConstantBuffer → (size : UInt32) →
    Except HLSLGlobalDeclarationStatus UInt32
  | [], size => .ok size
  | buffer :: rest, size =>
    match buffer.name with
    | none => .error .invalid
    | some name =>
      if ¬ isGlobals name ∨ buffer.role ≠ .named ∨
          (buffer.has_is_partial ∧ buffer.is_partial) then shellBuffers rest size
      else if buffer.size = 0 ∨ 65536 < buffer.size ∨ buffer.size &&& 15 ≠ 0 then
        .error .invalid
      else if size ≠ 0 ∧ size ≠ buffer.size then .error .shellConflict
      else shellBuffers rest buffer.size

def shellSources : List (Option SerializedProgramParameters) → (bound : Bool) → (size : UInt32) →
    Except HLSLGlobalDeclarationStatus (Bool × UInt32)
  | [], bound, size => .ok (bound, size)
  | none :: rest, bound, size => shellSources rest bound size
  | some parameters :: rest, bound, size => do
    let bound ← shellResources parameters.resources.toList bound
    let size ← shellBuffers parameters.constant_buffers.toList size
    shellSources rest bound size

def shell (residual common : Option SerializedProgramParameters) :
    Except HLSLGlobalDeclarationStatus UInt32 :=
  if ¬ metadata_shape residual ∨ ¬ metadata_shape common then .error .invalid
  else
    match empty_authority residual common with
    | some has_empty_shell => if has_empty_shell then .ok 0 else .error .notApplicable
    | none => do
      let (bound, size) ← shellSources [residual, common] false 0
      if bound ∧ size ≠ 0 then .ok size else .error .notApplicable

def scalar_vector_layout (field : HLSLGlobalDeclarationField) (shell_size : UInt32) : Bool :=
  let layout := field.layout
  layout.scalar_type ≤ 1 ∧ ¬ layout.is_matrix ∧ layout.array_size = 0 ∧ layout.rows = 1 ∧
    1 ≤ layout.columns ∧ layout.columns ≤ 4 ∧ layout.byte_offset &&& 3 = 0 ∧
    field.byte_size = layout.columns.toNat * 4 ∧
    (layout.byte_offset &&& 15).toNat + field.byte_size ≤ 16 ∧
    layout.byte_offset.toNat + field.byte_size ≤ shell_size.toNat

/-- One variable of `$Globals`. A projected block declares nothing behind the shell. -/
def append_variable (shell_size : UInt32) (parameters : SerializedProgramParameters)
    (project : Bool) (witness : ℕ) (current : Bool) (fields : List HLSLGlobalDeclarationField)
    (source : SerializedVariable) :
    Except HLSLGlobalDeclarationStatus (List HLSLGlobalDeclarationField) :=
  match source.name, parameter_layout_decode parameters source with
  | some name, some layout =>
    if ¬ identifier (some name) then .error .invalid
    else if project ∧ shell_size ≤ layout.byte_offset then .ok fields
    else
      let field : HLSLGlobalDeclarationField :=
        ⟨name, layout, parameter_layout_byte_size layout, false, []⟩
      if ¬ scalar_vector_layout field shell_size then .error .fieldConflict
      else add_field fields field witness current
  | _, _ => .error .invalid

def append_buffer (shell_size : UInt32) (parameters : SerializedProgramParameters)
    (witness : ℕ) (current : Bool) (fields : List HLSLGlobalDeclarationField)
    (buffer : SerializedConstantBuffer) :
    Except HLSLGlobalDeclarationStatus (List HLSLGlobalDeclarationField) :=
  match buffer.name with
  | none => .error .invalid
  | some name =>
    if ¬ arrayShape buffer.vars ∨ buffer.struct_params.count < 0 then .error .invalid
    else if ¬ isGlobals name then .ok fields
    else if buffer.role ≠ .named ∧ buffer.role ≠ .looseParameters then .error .invalid
    else if buffer.struct_params.count ≠ 0 then .error .notApplicable
    else
      let project : Bool :=
        buffer.role = .looseParameters ∨ (buffer.has_is_partial ∧ buffer.is_partial)
      buffer.vars.toList.foldlM
        (append_variable shell_size parameters project witness current) fields

def append_parameters (shell_size : UInt32) (fields : List HLSLGlobalDeclarationField)
    (parameters : Option SerializedProgramParameters) (witness : ℕ) (current : Bool) :
    Except HLSLGlobalDeclarationStatus (List HLSLGlobalDeclarationField) :=
  match parameters with
  | none => .ok fields
  | some parameters =>
    parameters.constant_buffers.toList.foldlM
      (append_buffer shell_size parameters witness current) fields

end GlobalDeclarations

open GlobalDeclarations

/-! ## The union -/

namespace GlobalDeclarations

/-- `&pass->subprograms[stage][index]` with the rest of its fields, its identity, and the fields
that are kept apart. -/
structure Sibling where
  sub : SerializedSubProgram
  identity : SerializedSubProgramIdentity
  requirements : SerializedSubProgramRequirements

def sibling (pass : DeclaringPass) (slot : Fin SERIALIZED_STAGE_COUNT) (index : ℤ) :
    Option Sibling := do
  let subprograms ← (pass.stages slot).subprograms.values
  let identities ← (pass.stages slot).identities
  let sub ← subprograms[index.toNat]?
  let identity ← identities[index.toNat]?
  some ⟨sub, identity, pass.requirements slot index.toNat⟩

def sameRequest (target sub : Sibling) : Bool :=
  sub.sub.program_type = target.sub.program_type ∧
    sub.requirements.shader_requirements = target.requirements.shader_requirements ∧
    sub.identity.hardware_tier_group = target.identity.hardware_tier_group ∧
    sub.requirements.has_hardware_tier = target.requirements.has_hardware_tier ∧
    (sub.requirements.has_hardware_tier = false ∨
      sub.requirements.hardware_tier = target.requirements.hardware_tier)

end GlobalDeclarations

def hlsl_global_declarations_same_family (pass : DeclaringPass)
    (slot : Fin SERIALIZED_STAGE_COUNT) (current candidate : ℤ) : Bool :=
  let count := (pass.stages slot).subprograms.count
  if current < 0 ∨ candidate < 0 ∨ 4096 < count ∨ count ≤ current ∨ count ≤ candidate ∨
      ¬ pass.has_serialized_platforms ∨ ¬ arrayShape pass.platforms ∨
      ¬ serialized_pass_subprogram_is_platform pass.toSerializedPass slot current 4 ∨
      ¬ serialized_pass_subprogram_is_platform pass.toSerializedPass slot candidate 4 then false
  else
    match sibling pass slot current, sibling pass slot candidate with
    | some target, some sub => sameRequest target sub
    | _, _ => false

namespace GlobalDeclarations

def empty_stage_scope (value : HLSLGlobalDeclarationUnion) (major minor : ℕ) : Bool :=
  shader_stage_validate_d3d11_tuple
    { serialized_stage := value.stage
      serialized_program_mask := value.program_mask
      gpu_program_type := value.gpu_program_type
      dxbc_program_type := value.dxbc_stage
      shader_model_major := major
      shader_model_minor := minor
      compiler_program := shader_stage_serialized_to_compiler value.stage } = .ok

/-- The stages of the five slots, and their DXBC program types. -/
def declaredStage (stage : ℤ) :
    Option (UnitySerializedProgramStage × Fin SERIALIZED_STAGE_COUNT × DXBCProgramType) :=
  if stage = 0 then some (.vertex, ⟨0, by decide⟩, .vertex)
  else if stage = 1 then some (.fragment, ⟨1, by decide⟩, .pixel)
  else if stage = 2 then some (.geometry, ⟨2, by decide⟩, .geometry)
  else if stage = 3 then some (.hull, ⟨3, by decide⟩, .hull)
  else if stage = 4 then some (.domain, ⟨4, by decide⟩, .domain)
  else none

section Witnesses

variable (pass : DeclaringPass) (slot : Fin SERIALIZED_STAGE_COUNT) (current : ℤ)
  (shell_size : UInt32) (target : Sibling)

/-- A witness is a sibling of the target, and its player data is of that sibling. -/
def witnessScope (witness : HLSLGlobalDeclarationWitness) : Bool :=
  match sibling pass slot witness.subprogram_index, witness.player with
  | some sub, some player =>
    serialized_pass_subprogram_is_platform pass.toSerializedPass slot witness.subprogram_index 4 ∧
      sameRequest target sub ∧ keyword_shape sub.sub ∧
      player.program_type = sub.sub.program_type ∧ player.has_player_blob_header ∧
      subprogram_metadata_local_keyword_set_matches player sub.sub
  | _, _ => false

def witnessShell (witness : HLSLGlobalDeclarationWitness) : Bool :=
  match shell witness.residual (some (pass.common_parameters slot)) with
  | .error _ => false
  | .ok size =>
    size = shell_size ∧ (shell_size ≠ 0 ∨
        empty_authority witness.residual (some (pass.common_parameters slot)) = some true)

/-- One round of the loop over the witnesses, behind the ones before. -/
def addDeclared (prior : List HLSLGlobalDeclarationWitness)
    (fields : List HLSLGlobalDeclarationField) (witness : HLSLGlobalDeclarationWitness) :
    Except HLSLGlobalDeclarationStatus (List HLSLGlobalDeclarationField) := do
  let index := witness.subprogram_index
  failWhen (index < 0 ∨ (pass.stages slot).subprograms.count ≤ index) .invalid
  failWhen (prior.any fun before => before.subprogram_index = index) .invalid
  failWhen (¬ witnessScope pass slot target witness) .scopeConflict
  failWhen (¬ witnessShell pass slot shell_size witness) .shellConflict
  let fields ← append_parameters shell_size fields witness.residual index.toNat
    (index = current)
  append_parameters shell_size fields (some (pass.common_parameters slot)) index.toNat
    (index = current)

/-- The loop over the witnesses. An error names the witness it was found at. -/
def addWitnesses : (prior rest : List HLSLGlobalDeclarationWitness) →
    List HLSLGlobalDeclarationField →
    Except (HLSLGlobalDeclarationStatus × ℤ) (List HLSLGlobalDeclarationField)
  | _, [], fields => .ok fields
  | prior, witness :: rest, fields =>
    match addDeclared pass slot current shell_size target prior fields witness with
    | .error status => .error (status, witness.subprogram_index)
    | .ok fields => addWitnesses (prior ++ [witness]) rest fields

end Witnesses

def failure {α : Type} (current conflict : ℤ) (status : HLSLGlobalDeclarationStatus) :
    Except HLSLGlobalDeclarationDiagnostic α :=
  .error ⟨status, current, conflict, -1⟩

def selectedWitness (current : ℤ) (witnesses : List HLSLGlobalDeclarationWitness) :
    Option HLSLGlobalDeclarationWitness :=
  (witnesses.filter fun witness => witness.subprogram_index = current).getLast?

def initialUnion (pass : DeclaringPass) (slot : Fin SERIALIZED_STAGE_COUNT)
    (stage : UnitySerializedProgramStage) (dxbc_stage : DXBCProgramType) (current : ℤ)
    (selected_shell : UInt32) (target : Sibling) (selected : HLSLGlobalDeclarationWitness) :
    Except HLSLGlobalDeclarationStatus HLSLGlobalDeclarationUnion :=
  let value : HLSLGlobalDeclarationUnion :=
    { stage, current, dxbc_stage, shell_size := selected_shell, program_mask := pass.program_mask
      gpu_program_type := target.sub.program_type, empty_residual_shell := false
      empty_common_shell := false, fields := [] }
  if selected_shell ≠ 0 then .ok value
  else if ¬ empty_stage_scope value 4 0 ∧ ¬ empty_stage_scope value 5 0 then
    .error .scopeConflict
  else
    match empty_parameters selected.residual,
        empty_parameters (some (pass.common_parameters slot)) with
    | some empty_residual_shell, some empty_common_shell =>
      .ok { value with empty_residual_shell, empty_common_shell }
    | _, _ => .error .shellConflict

/-- The number of subprograms in the family of the current one. -/
def eligibleCount (pass : DeclaringPass) (slot : Fin SERIALIZED_STAGE_COUNT) (current : ℤ) : ℕ :=
  (List.range (pass.stages slot).subprograms.count.toNat).countP fun i : ℕ =>
    hlsl_global_declarations_same_family pass slot current i

end GlobalDeclarations

def hlsl_global_declarations_build (pass : DeclaringPass) (stage current : ℤ)
    (witnesses : List HLSLGlobalDeclarationWitness) :
    Except HLSLGlobalDeclarationDiagnostic HLSLGlobalDeclarationUnion :=
  match declaredStage stage with
  | none => failure current (-1) .invalid
  | some (serialized_stage, slot, dxbc_stage) =>
    let count := (pass.stages slot).subprograms.count
    if current < 0 ∨ count ≤ current ∨ (pass.stages slot).subprograms.values.isNone ∨
        witnesses = [] ∨ 4096 < witnesses.length ∨ count < witnesses.length ∨
        4096 < count ∨ ¬ arrayShape pass.platforms then failure current (-1) .invalid
    else
      match selectedWitness current witnesses with
      | none => failure current (-1) .invalid
      | some selected =>
        match shell selected.residual (some (pass.common_parameters slot)) with
        | .error status => failure current (-1) status
        | .ok selected_shell =>
          if ¬ pass.has_serialized_platforms then failure current (-1) .scopeConflict
          else
            match sibling pass slot current with
            | none => failure current (-1) .scopeConflict
            | some target =>
              match initialUnion pass slot serialized_stage dxbc_stage current
                  selected_shell target selected with
              | .error status => failure current (-1) status
              | .ok value =>
                match addWitnesses pass slot current selected_shell target []
                    witnesses [] with
                | .error (status, conflict) => failure current conflict status
                | .ok fields =>
                  if eligibleCount pass slot current ≠ witnesses.length then
                    failure current (-1) .scopeConflict
                  else .ok { value with fields }

end DXBCSandbox
