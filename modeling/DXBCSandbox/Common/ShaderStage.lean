/-
Shader stages in three numberings (`src/common/shader_stage.c`).

The slots of a serialized pass, the programs of Unity's compiler and the program types of DXBC each
have an order of their own. A tuple names one stage in all of them, together with the program type
and the shader model that the stage is compiled for.
-/
import DXBCSandbox.Dxbc.StageContract

namespace DXBCSandbox

/-- The slots of a pass, without the invalid one. -/
inductive UnitySerializedProgramStage where
  | vertex | fragment | geometry | hull | domain | rayTracing
  deriving DecidableEq

def UnitySerializedProgramStage.slot : UnitySerializedProgramStage → ℕ
  | .vertex => 0
  | .fragment => 1
  | .geometry => 2
  | .hull => 3
  | .domain => 4
  | .rayTracing => 5

inductive UnityCompilerProgramStage where
  | vertex | fragment | hull | domain | geometry | compute | rayTracing
  deriving DecidableEq

inductive ShaderStageTupleStatus where
  | ok | compilerProgramMismatch | programMaskMismatch | dxbcProgramMismatch | gpuProgramMismatch
  | shaderModelMismatch
  deriving DecidableEq

structure ShaderStageTuple where
  serialized_stage : UnitySerializedProgramStage
  compiler_program : UnityCompilerProgramStage
  serialized_program_mask : UInt32
  gpu_program_type : ℤ
  dxbc_program_type : DXBCProgramType
  shader_model_major : ℕ
  shader_model_minor : ℕ

def shader_stage_serialized_to_compiler : UnitySerializedProgramStage → UnityCompilerProgramStage
  | .vertex => .vertex
  | .fragment => .fragment
  | .geometry => .geometry
  | .hull => .hull
  | .domain => .domain
  | .rayTracing => .rayTracing

def shader_stage_serialized_to_dxbc : UnitySerializedProgramStage → Option DXBCProgramType
  | .vertex => some .vertex
  | .fragment => some .pixel
  | .geometry => some .geometry
  | .hull => some .hull
  | .domain => some .domain
  | .rayTracing => none

/-- A pass stores the presence of a stage one bit above its slot. -/
def shader_stage_serialized_program_mask_bit (stage : UnitySerializedProgramStage) : UInt32 :=
  1 <<< (stage.slot + 1).toUInt32

/-- The stage and the shader model that a program type of D3D11 stands for. -/
def gpu_program_matches (tuple : ShaderStageTuple) : Bool :=
  let shader_model_4 := tuple.shader_model_major = 4 ∧ tuple.shader_model_minor ≤ 1
  let shader_model_5 := tuple.shader_model_major = 5 ∧ tuple.shader_model_minor = 0
  if tuple.gpu_program_type = 15 then tuple.serialized_stage = .vertex ∧ shader_model_4
  else if tuple.gpu_program_type = 16 then tuple.serialized_stage = .vertex ∧ shader_model_5
  else if tuple.gpu_program_type = 17 then tuple.serialized_stage = .fragment ∧ shader_model_4
  else if tuple.gpu_program_type = 18 then tuple.serialized_stage = .fragment ∧ shader_model_5
  else if tuple.gpu_program_type = 19 then tuple.serialized_stage = .geometry ∧ shader_model_4
  else if tuple.gpu_program_type = 20 then tuple.serialized_stage = .geometry ∧ shader_model_5
  else if tuple.gpu_program_type = 21 then tuple.serialized_stage = .hull ∧ shader_model_5
  else if tuple.gpu_program_type = 22 then tuple.serialized_stage = .domain ∧ shader_model_5
  else false

def shader_stage_validate_d3d11_tuple (tuple : ShaderStageTuple) : ShaderStageTupleStatus :=
  if tuple.compiler_program ≠ shader_stage_serialized_to_compiler tuple.serialized_stage then
    .compilerProgramMismatch
  else if tuple.serialized_program_mask &&&
      shader_stage_serialized_program_mask_bit tuple.serialized_stage = 0 then
    .programMaskMismatch
  else if some tuple.dxbc_program_type ≠
      shader_stage_serialized_to_dxbc tuple.serialized_stage then .dxbcProgramMismatch
  else if (tuple.shader_model_major ≠ 4 ∧ tuple.shader_model_major ≠ 5) ∨
      (tuple.shader_model_major = 4 ∧ 1 < tuple.shader_model_minor) ∨
      (tuple.shader_model_major = 5 ∧ tuple.shader_model_minor ≠ 0) then .shaderModelMismatch
  else if ¬ gpu_program_matches tuple then .gpuProgramMismatch
  else .ok

end DXBCSandbox
