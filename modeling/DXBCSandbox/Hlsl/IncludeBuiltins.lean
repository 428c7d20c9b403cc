/-
The declarations that Unity's shader include supplies (`g_builtins` of
`src/translation/hlsl_emitter_metadata.c`), and the tests by which a serialized variable is left
out of the source because it is one of them (`src/translation/hlsl_emitter_declarations.c`).

A variable must have the byte size that `temp_variable_byte_size` derives from its record, while
the decoded variable has the one of `parameter_layout_byte_size`. The first pads the last element
of a vector array to a full register and the second does not.
-/
import DXBCSandbox.Io.ParameterLayout
import Mathlib.Data.List.Basic

namespace DXBCSandbox.CBufferMerge

/-! ## Variables -/

structure TempVariable where
  name : CString
  type : UInt32
  rows : UInt32
  dim : UInt32
  is_matrix : Bool
  matrix_array_size : UInt32
  byte_offset : UInt32
  byte_size : ℕ
  row_major : Bool
  authority : ℕ

def temp_variable_byte_size (v : TempVariable) : ℕ :=
  if v.byte_size ≠ 0 then v.byte_size
  else
    let elements := if v.matrix_array_size ≠ 0 then v.matrix_array_size.toNat else 1
    (if v.is_matrix then v.rows.toNat * elements * 16
      else if v.matrix_array_size ≠ 0 then elements * 16
      else v.dim.toNat * 4) % 2 ^ 32

/-- The variable that a decoded field of a serialized buffer declares. -/
def decoded_variable (name : CString) (decoded : DecodedVariableLayout) (authority : ℕ) :
    TempVariable where
  name := name
  type := decoded.scalar_type
  rows := decoded.rows
  dim := decoded.columns
  is_matrix := decoded.is_matrix
  matrix_array_size := decoded.array_size
  byte_offset := decoded.byte_offset
  byte_size := parameter_layout_byte_size decoded
  row_major := false
  authority := authority

/-! ## The include records -/

structure BuiltinVariable where
  cb_name : String
  var_name : String
  offset : UInt32
  type : UInt32
  rows : UInt32
  dim : UInt32
  is_matrix : Bool
  matrix_array_size : UInt32
  deriving DecidableEq

private def float (name : String) (offset dim n : UInt32) (cb : String) : BuiltinVariable :=
  ⟨cb, name, offset, 0, 0, dim, false, n⟩

private def int (name : String) (offset : UInt32) (cb : String) : BuiltinVariable :=
  ⟨cb, name, offset, 1, 0, 1, false, 0⟩

private def matrix (name : String) (offset n : UInt32) (cb : String) : BuiltinVariable :=
  ⟨cb, name, offset, 0, 4, 4, true, n⟩

private def cbuffer (cb : String) (rows : List (String → BuiltinVariable)) : List BuiltinVariable :=
  rows.map (· cb)

def g_builtins : List BuiltinVariable :=
  cbuffer "UnityPerDraw" [matrix "unity_ObjectToWorld" 0 0, matrix "unity_WorldToObject" 64 0,
      float "unity_LODFade" 128 4 0, float "unity_WorldTransformParams" 144 4 0,
      float "unity_RenderingLayer" 160 4 0] ++
  cbuffer "UnityStereoEyeIndex" [int "unity_StereoEyeIndex" 0] ++
  cbuffer "UnityStereoGlobals"
    [matrix "unity_StereoMatrixP" 0 2, matrix "unity_StereoMatrixV" 128 2,
      matrix "unity_StereoMatrixInvV" 256 2, matrix "unity_StereoMatrixVP" 384 2,
      matrix "unity_StereoCameraProjection" 512 2, matrix "unity_StereoCameraInvProjection" 640 2,
      matrix "unity_StereoWorldToCamera" 768 2, matrix "unity_StereoCameraToWorld" 896 2,
      float "unity_StereoWorldSpaceCameraPos" 1024 3 2, float "unity_StereoScaleOffset" 1056 4 2] ++
  cbuffer "UnityPerFrame"
    [float "glstate_lightmodel_ambient" 0 4 0, float "unity_AmbientSky" 16 4 0,
      float "unity_AmbientEquator" 32 4 0, float "unity_AmbientGround" 48 4 0,
      float "unity_IndirectSpecColor" 64 4 0, matrix "glstate_matrix_projection" 80 0,
      matrix "unity_MatrixV" 144 0, matrix "unity_MatrixInvV" 208 0, matrix "unity_MatrixVP" 272 0,
      int "unity_StereoEyeIndex" 336, float "unity_ShadowColor" 352 4 0] ++
  cbuffer "UnityPerCamera" [float "_Time" 0 4 0, float "_SinTime" 16 4 0, float "_CosTime" 32 4 0,
      float "unity_DeltaTime" 48 4 0, float "_WorldSpaceCameraPos" 64 3 0,
      float "_ProjectionParams" 80 4 0, float "_ScreenParams" 96 4 0,
      float "_ZBufferParams" 112 4 0, float "unity_OrthoParams" 128 4 0,
      float "unity_HalfStereoSeparation" 144 4 0] ++
  cbuffer "UnityPerCameraRare"
    [float "unity_CameraWorldClipPlanes" 0 4 6, matrix "unity_CameraProjection" 96 0,
      matrix "unity_CameraInvProjection" 160 0, matrix "unity_WorldToCamera" 224 0,
      matrix "unity_CameraToWorld" 288 0] ++
  cbuffer "UnityLighting" [float "_WorldSpaceLightPos0" 0 4 0, float "_LightPositionRange" 16 4 0,
      float "_LightProjectionParams" 32 4 0, float "unity_4LightPosX0" 48 4 0,
      float "unity_4LightPosY0" 64 4 0, float "unity_4LightPosZ0" 80 4 0,
      float "unity_4LightAtten0" 96 4 0, float "unity_LightColor" 112 4 8,
      float "unity_LightPosition" 240 4 8, float "unity_LightAtten" 368 4 8,
      float "unity_SpotDirection" 496 4 8, float "unity_SHAr" 624 4 0, float "unity_SHAg" 640 4 0,
      float "unity_SHAb" 656 4 0, float "unity_SHBr" 672 4 0, float "unity_SHBg" 688 4 0,
      float "unity_SHBb" 704 4 0, float "unity_SHC" 720 4 0,
      float "unity_OcclusionMaskSelector" 736 4 0, float "unity_ProbesOcclusion" 752 4 0] ++
  cbuffer "UnityLightingOld" [float "unity_LightColor0" 0 3 0, float "unity_LightColor1" 16 3 0,
      float "unity_LightColor2" 32 3 0, float "unity_LightColor3" 48 3 0] ++
  cbuffer "UnityShadows"
    [float "unity_ShadowSplitSpheres" 0 4 4, float "unity_ShadowSplitSqRadii" 64 4 0,
      float "unity_LightShadowBias" 80 4 0, float "_LightSplitsNear" 96 4 0,
      float "_LightSplitsFar" 112 4 0, matrix "unity_WorldToShadow" 128 4,
      float "_LightShadowData" 384 4 0, float "unity_ShadowFadeCenterAndType" 400 4 0] ++
  cbuffer "UnityFog" [float "unity_FogColor" 0 4 0, float "unity_FogParams" 16 4 0] ++
  cbuffer "UnityLightmaps"
    [float "unity_LightmapST" 0 4 0, float "unity_DynamicLightmapST" 16 4 0] ++
  cbuffer "UnityReflectionProbes"
    [float "unity_SpecCube0_BoxMax" 0 4 0, float "unity_SpecCube0_BoxMin" 16 4 0,
      float "unity_SpecCube0_ProbePosition" 32 4 0, float "unity_SpecCube0_HDR" 48 4 0,
      float "unity_SpecCube1_BoxMax" 64 4 0, float "unity_SpecCube1_BoxMin" 80 4 0,
      float "unity_SpecCube1_ProbePosition" 96 4 0, float "unity_SpecCube1_HDR" 112 4 0] ++
  cbuffer "UnityProbeVolume"
    [float "unity_ProbeVolumeParams" 0 4 0, matrix "unity_ProbeVolumeWorldToObject" 16 0,
      float "unity_ProbeVolumeSizeInv" 80 3 0, float "unity_ProbeVolumeMin" 96 3 0] ++
  cbuffer "UnityPerDrawRare" [matrix "glstate_matrix_transpose_modelview0" 0 0]

/-! ## The tests -/

def literalBytes (literal : String) : Bytes := literal.toByteArray.data.toList

def normalized (cbuffer_name : CString) : Bytes :=
  if cbuffer_name.bytes.head? = some 0x24 then cbuffer_name.bytes.tail else cbuffer_name.bytes

def find_unity_include_builtin (cbuffer_name variable_name : CString) : Option BuiltinVariable :=
  match g_builtins.filter fun candidate =>
    literalBytes candidate.cb_name = normalized cbuffer_name ∧
      literalBytes candidate.var_name = variable_name.bytes with
  | [candidate] => some candidate
  | _ => none

/-- One turn of the search for the contract of a global; `none` is a conflict. -/
def merge_contract (contract : Option BuiltinVariable) (candidate : BuiltinVariable) :
    Option (Option BuiltinVariable) :=
  match contract with
  | some contract =>
    if contract.type ≠ candidate.type ∨ contract.rows ≠ candidate.rows ∨
        contract.dim ≠ candidate.dim ∨ contract.is_matrix ≠ candidate.is_matrix ∨
        contract.matrix_array_size ≠ candidate.matrix_array_size then none
    else some (some candidate)
  | none => some (some candidate)

/-- The variable that an include record declares, its byte size left to be derived. -/
def BuiltinVariable.expected (contract : BuiltinVariable) : TempVariable where
  name := default
  type := contract.type
  rows := if contract.is_matrix then contract.rows else 1
  dim := contract.dim
  is_matrix := contract.is_matrix
  matrix_array_size := contract.matrix_array_size
  byte_offset := 0
  byte_size := 0
  row_major := false
  authority := 0

def hlsl_unity_include_global_alias_status (v : TempVariable) : ℤ :=
  match g_builtins.foldlM (fun contract candidate =>
    if literalBytes candidate.var_name = v.name.bytes then merge_contract contract candidate
    else pure contract) none with
  | none => -1
  | some none => 0
  | some (some contract) =>
    let expected := contract.expected
    if v.type ≠ expected.type ∨ v.rows ≠ expected.rows ∨ v.dim ≠ expected.dim ∨
        v.is_matrix ≠ expected.is_matrix ∨ v.matrix_array_size ≠ expected.matrix_array_size ∨
        v.byte_size ≠ temp_variable_byte_size expected ∨ (v.is_matrix ∧ v.row_major) then -1
    else 1

structure HLSLCBufferLayout where
  declaration_name : CString
  is_unity_builtin : Bool
  raw_storage : Bool
  row_struct_storage : Bool
  vars : List TempVariable

def adopts_builtin (declaration_name : CString) (v : TempVariable) : Bool :=
  match find_unity_include_builtin declaration_name v.name with
  | none => false
  | some builtin =>
    v.type = builtin.type ∧ v.dim = builtin.dim ∧ v.is_matrix = builtin.is_matrix ∧
      v.matrix_array_size = builtin.matrix_array_size ∧ v.byte_offset = builtin.offset ∧
      (v.is_matrix → v.rows = builtin.rows) ∧
      v.byte_size = temp_variable_byte_size { v with
        rows := if builtin.is_matrix then builtin.rows else v.rows
        dim := builtin.dim
        is_matrix := builtin.is_matrix
        matrix_array_size := builtin.matrix_array_size
        byte_offset := builtin.offset
        byte_size := 0 }

def adopt_unity_include_cbuffer_layout (layout : HLSLCBufferLayout) : Option HLSLCBufferLayout :=
  if layout.is_unity_builtin ∧ ¬ layout.raw_storage ∧ ¬ layout.row_struct_storage ∧
      layout.vars ≠ [] ∧ layout.vars.all (adopts_builtin layout.declaration_name)
  then some { layout with vars := layout.vars.map ({ · with row_major := false }) }
  else none

/-! ## The two sizes of a declaration -/

def SameShape (decoded : DecodedVariableLayout) (record : BuiltinVariable) : Prop :=
  decoded.scalar_type = record.expected.type ∧ decoded.rows = record.expected.rows ∧
    decoded.columns = record.expected.dim ∧ decoded.is_matrix = record.expected.is_matrix ∧
    decoded.array_size = record.expected.matrix_array_size

/-- A vector array whose elements leave lanes of their registers free. -/
def NarrowArray (decoded : DecodedVariableLayout) : Prop :=
  decoded.is_matrix = false ∧ decoded.array_size ≠ 0 ∧ decoded.columns ≠ 4

lemma g_builtins_bounds : ∀ record ∈ g_builtins,
    record.expected.rows.toNat ≤ 4 ∧ record.expected.dim.toNat ≤ 4 ∧
      record.expected.matrix_array_size.toNat ≤ 8 := by
  decide +kernel

lemma byte_size_eq_iff {record : BuiltinVariable} (hr : record ∈ g_builtins)
    {decoded : DecodedVariableLayout} (h : SameShape decoded record) :
    parameter_layout_byte_size decoded = temp_variable_byte_size record.expected ↔
      ¬ NarrowArray decoded := by
  obtain ⟨hrows, hdim, hn⟩ := g_builtins_bounds record hr
  obtain ⟨-, h1, h2, h3, h4⟩ := h
  have hsize : temp_variable_byte_size record.expected =
      (if decoded.is_matrix then decoded.rows.toNat *
          (if decoded.array_size ≠ 0 then decoded.array_size.toNat else 1) * 16
        else if decoded.array_size ≠ 0 then
          (if decoded.array_size ≠ 0 then decoded.array_size.toNat else 1) * 16
        else decoded.columns.toNat * 4) % 2 ^ 32 := by
    rw [h1, h2, h3, h4]
    rfl
  rw [← h1] at hrows
  rw [← h2] at hdim
  rw [← h4] at hn
  rw [hsize, parameter_layout_byte_size, NarrowArray]
  by_cases hm : decoded.is_matrix = true
  · -- both sizes are `elements * rows * 16`, which the table keeps far below `2 ^ 32`
    have hn1 : (if decoded.array_size ≠ 0 then decoded.array_size.toNat else 1) ≤ 8 := by
      split
      · exact hn
      · decide
    have hle := Nat.mul_le_mul hn1 hrows
    rw [if_pos hm, if_pos hm, Nat.mul_comm decoded.rows.toNat, if_pos (by rw [UINT32_MAX]; omega),
      Nat.mod_eq_of_lt (by omega)]
    simp [hm]
  · simp only [if_neg hm]
    by_cases h0 : decoded.array_size = 0
    · simp only [h0, ne_eq, not_true, if_false, UINT32_MAX]
      rw [if_pos (by omega), Nat.mod_eq_of_lt (by omega)]
      simp
    · have hpos : 0 < decoded.array_size.toNat :=
        Nat.pos_of_ne_zero fun h => h0 (UInt32.toNat_inj.mp h)
      have hcol : decoded.columns = 4 ↔ decoded.columns.toNat = 4 := UInt32.toNat_inj.symm
      simp only [h0, hm, hcol, ne_eq, not_false_iff, if_true, UINT32_MAX, true_and, not_not]
      rw [if_pos (by omega), Nat.mod_eq_of_lt (by omega)]
      omega

/-! ## The tests on decoded variables -/

variable {name : CString} {decoded : DecodedVariableLayout} {authority : ℕ}
  {record : BuiltinVariable}

lemma global_alias_status_eq_one_iff
    (hr : g_builtins.filter (literalBytes ·.var_name = name.bytes) = [record])
    (h : SameShape decoded record) :
    hlsl_unity_include_global_alias_status (decoded_variable name decoded authority) = 1 ↔
      ¬ NarrowArray decoded := by
  have hmem : record ∈ g_builtins := by
    refine List.mem_of_mem_filter (p := fun r => literalBytes r.var_name = name.bytes) ?_
    rw [hr]
    exact List.mem_singleton_self record
  rw [← byte_size_eq_iff hmem h]
  obtain ⟨h0, h1, h2, h3, h4⟩ := h
  have hfold : g_builtins.foldlM (fun contract candidate =>
      if literalBytes candidate.var_name = name.bytes then merge_contract contract candidate
      else pure contract) none = some (some record) := by
    have := congrArg (List.foldlM merge_contract none) hr
    rw [List.foldlM_filter] at this
    simpa [merge_contract] using this
  unfold hlsl_unity_include_global_alias_status
  rw [show (decoded_variable name decoded authority).name = name from rfl, hfold]
  simp [decoded_variable, h0, h1, h2, h3, h4]

lemma adopts_builtin_iff {cb_name : CString}
    (hr : find_unity_include_builtin cb_name name = some record) (h : SameShape decoded record)
    (hoff : decoded.byte_offset = record.offset) :
    adopts_builtin cb_name (decoded_variable name decoded authority) = true ↔
      ¬ NarrowArray decoded := by
  have hmem : record ∈ g_builtins := by
    unfold find_unity_include_builtin at hr
    split at hr
    · next candidate hfilter =>
      cases hr
      exact List.mem_of_mem_filter (hfilter ▸ List.mem_singleton_self record)
    · cases hr
  rw [← byte_size_eq_iff hmem h]
  obtain ⟨h0, h1, h2, h3, h4⟩ := h
  -- a vector has one row in the layout and none in the table, and its size reads neither
  cases hm : record.is_matrix <;>
    simp [adopts_builtin, decoded_variable, hr, hoff, h0, h1, h2, h3, h4, hm,
      BuiltinVariable.expected, temp_variable_byte_size]

/-- Every variable of `layout` is a decoded field that repeats its include record. -/
def RepeatsRecords (layout : HLSLCBufferLayout)
    (fields : List (CString × DecodedVariableLayout × ℕ)) : Prop :=
  layout.vars = fields.map (fun f => decoded_variable f.1 f.2.1 f.2.2) ∧
    ∀ f ∈ fields, ∃ record, SameShape f.2.1 record ∧ f.2.1.byte_offset = record.offset ∧
      find_unity_include_builtin layout.declaration_name f.1 = some record

lemma adopt_unity_include_iff {layout : HLSLCBufferLayout}
    {fields : List (CString × DecodedVariableLayout × ℕ)} (h : RepeatsRecords layout fields) :
    (adopt_unity_include_cbuffer_layout layout).isSome ↔ layout.is_unity_builtin ∧
      ¬ layout.raw_storage ∧ ¬ layout.row_struct_storage ∧ layout.vars ≠ [] ∧
        ∀ f ∈ fields, ¬ NarrowArray f.2.1 := by
  have hall : layout.vars.all (adopts_builtin layout.declaration_name) = true ↔
      ∀ f ∈ fields, ¬ NarrowArray f.2.1 := by
    rw [h.1, List.all_map, List.all_eq_true]
    refine forall₂_congr fun f hf => ?_
    obtain ⟨record, hshape, hoff, hr⟩ := h.2 f hf
    exact adopts_builtin_iff hr hshape hoff
  simp only [adopt_unity_include_cbuffer_layout, ← hall]
  split <;> simp_all

/-- **Include-supplied declarations.** A field that repeats its include record is recognised, and
a buffer of such fields adopted, exactly when the field is no array of narrow vectors. -/
theorem include_declarations_recognised (record : BuiltinVariable)
    (decoded : DecodedVariableLayout) (hshape : SameShape decoded record) :
    (∀ (name : CString) (authority : ℕ),
      g_builtins.filter (literalBytes ·.var_name = name.bytes) = [record] →
        (hlsl_unity_include_global_alias_status (decoded_variable name decoded authority) = 1 ↔
          ¬ NarrowArray decoded)) ∧
    (∀ layout fields, RepeatsRecords layout fields →
      ((adopt_unity_include_cbuffer_layout layout).isSome ↔ layout.is_unity_builtin ∧
        ¬ layout.raw_storage ∧ ¬ layout.row_struct_storage ∧ layout.vars ≠ [] ∧
          ∀ f ∈ fields, ¬ NarrowArray f.2.1)) ∧
    (record ∈ g_builtins →
      (parameter_layout_byte_size decoded = temp_variable_byte_size record.expected ↔
        ¬ NarrowArray decoded)) :=
  ⟨fun _ _ hr => global_alias_status_eq_one_iff hr hshape, fun _ _ => adopt_unity_include_iff,
    fun hr => byte_size_eq_iff hr hshape⟩

private def camera_pos : CString := ⟨literalBytes "unity_StereoWorldSpaceCameraPos", by decide⟩

private def camera_pos_layout : DecodedVariableLayout := ⟨1024, 2, 0, 1, 3, false⟩

private def camera_pos_record : BuiltinVariable :=
  ⟨"UnityStereoGlobals", "unity_StereoWorldSpaceCameraPos", 1024, 0, 0, 3, false, 2⟩

private def scale_offset : CString := ⟨literalBytes "unity_StereoScaleOffset", by decide⟩

private def scale_offset_layout : DecodedVariableLayout := ⟨1056, 2, 0, 1, 4, false⟩

private def scale_offset_record : BuiltinVariable :=
  ⟨"UnityStereoGlobals", "unity_StereoScaleOffset", 1056, 0, 0, 4, false, 2⟩

/-- `float4 unity_StereoScaleOffset[2]` is an alias, and its buffer is adopted. -/
theorem include_declarations_recognised_array :
    hlsl_unity_include_global_alias_status
        (decoded_variable scale_offset scale_offset_layout 1) = 1 ∧
      (adopt_unity_include_cbuffer_layout ⟨⟨literalBytes "UnityStereoGlobals", by decide⟩, true,
        false, false, [decoded_variable scale_offset scale_offset_layout 1]⟩).isSome := by
  have hshape : SameShape scale_offset_layout scale_offset_record := ⟨rfl, rfl, rfl, rfl, rfl⟩
  obtain ⟨halias, hadopts, -⟩ := include_declarations_recognised _ _ hshape
  have hwide : ¬ NarrowArray scale_offset_layout := fun h => h.2.2 rfl
  refine ⟨(halias scale_offset 1 (by decide +kernel)).mpr hwide,
    (hadopts _ [(scale_offset, scale_offset_layout, 1)] ⟨rfl, ?_⟩).mpr ?_⟩
  · exact List.forall_mem_singleton.mpr ⟨scale_offset_record, hshape, rfl, by decide +kernel⟩
  · exact ⟨rfl, Bool.false_ne_true, Bool.false_ne_true, List.cons_ne_nil _ _,
      List.forall_mem_singleton.mpr hwide⟩

/-- The two stereo camera positions repeat their record and are rejected. -/
theorem stereo_camera_positions_are_rejected :
    g_builtins.filter (literalBytes ·.var_name = camera_pos.bytes) = [camera_pos_record] ∧
      SameShape camera_pos_layout camera_pos_record ∧
      hlsl_unity_include_global_alias_status (decoded_variable camera_pos camera_pos_layout 1) = -1 ∧
      adopt_unity_include_cbuffer_layout ⟨⟨literalBytes "UnityStereoGlobals", by decide⟩, true, false,
        false, [decoded_variable camera_pos camera_pos_layout 1]⟩ = none := by
  refine ⟨by decide +kernel, ⟨rfl, rfl, rfl, rfl, rfl⟩, by decide +kernel, by decide +kernel⟩

end DXBCSandbox.CBufferMerge
