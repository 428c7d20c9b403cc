/-
The reflection records that player metadata stands for (the first part of
`src/compiler/unity_reflection_certificate.c`).

Unity stores the parameters that all subprograms share and, per subprogram, an optional residual.
Merged, they say which records the compiler must report. The source builds the records twice, first
to count and then to fill an array of that size; here they are built once, as a list.
-/
import DXBCSandbox.Io.ParameterLayout

namespace DXBCSandbox

/-! ## Records -/

inductive UnityCompilerReflectionKind where
  | input | constantBuffer | constant | constantBufferBinding | textureBinding | sampler
  | bufferBinding | uavBinding | stats
  deriving DecidableEq

def UnityCompilerReflectionKind.number : UnityCompilerReflectionKind → ℕ
  | .input => 0
  | .constantBuffer => 1
  | .constant => 2
  | .constantBufferBinding => 3
  | .textureBinding => 4
  | .sampler => 5
  | .bufferBinding => 6
  | .uavBinding => 7
  | .stats => 8

def UNITY_COMPILER_REFLECTION_MAX_VALUES : ℕ := 6

/-- A record that the compiler reported. The array of values has six entries. -/
structure UnityCompilerReflectionRecord where
  kind : UnityCompilerReflectionKind
  name : Option CString
  values : List Int32
  value_count_le : values.length ≤ UNITY_COMPILER_REFLECTION_MAX_VALUES
  deriving DecidableEq

structure ExpectedReflectionRecord where
  kind : UnityCompilerReflectionKind
  name : Option CString
  prefix_name : Option CString
  values : List Int32
  deriving DecidableEq

def signed_wire_word (word : UInt32) : Int32 := word.toInt32

structure PlayerSubProgramBindChannel where
  channel : UInt32
  component : UInt32

structure PlayerSubProgramMetadata where
  source_map : UInt32
  bindings : IntArray PlayerSubProgramBindChannel

/-! ## What is accepted -/

/-- `value &= value - 1` until nothing is left. A word has 32 bits. -/
def count_set_bits_loop : ℕ → UInt32 → ℕ
  | 0, _ => 0
  | fuel + 1, value => if value = 0 then 0 else count_set_bits_loop fuel (value &&& (value - 1)) + 1

def count_set_bits_u32 (value : UInt32) : ℕ := count_set_bits_loop 32 value

def bindings_are_valid (source_map : UInt32) :
    List PlayerSubProgramBindChannel → List PlayerSubProgramBindChannel → Bool
  | _, [] => true
  | prior, binding :: bindings =>
    if binding.channel ≥ 14 ∨ binding.component ≥ 31 ∨
        source_map &&& (1 <<< binding.channel) = 0 then false
    else if prior.any fun other =>
        other.channel = binding.channel ∨ other.component = binding.component then false
    else bindings_are_valid source_map (prior ++ [binding]) bindings

variable (player : PlayerSubProgramMetadata)

def player_input_model_is_valid : Option ℕ :=
  if player.bindings.invalid ∨ player.source_map &&& ~~~0x3fff ≠ 0 then none
  else if !bindings_are_valid player.source_map [] player.bindings.toList then none
  else some (count_set_bits_u32 player.source_map)

def name_is (name : Option CString) (text : String) : Bool :=
  name.map CString.bytes = some (asciiBytes text)

def struct_params_are_valid (structures : List SerializedStructParam) : Bool :=
  structures.all fun parameter =>
    parameter.name.isSome ∧ ¬ parameter.members.invalid ∧ ¬ parameter.members.count > INT_MAX ∧
      parameter.members.toList.all fun member => member.name.isSome

def constant_buffers_are_valid (expect_binary : Bool) :
    Bool → List SerializedConstantBuffer → List SerializedConstantBuffer → Bool
  | _, _, [] => true
  | saw_loose_parameters, prior, buffer :: buffers =>
    if buffer.name = none ∨ buffer.vars.invalid ∨ buffer.struct_params.invalid ∨
        (!buffer.has_is_partial && buffer.is_partial) ∨
        (expect_binary && (buffer.has_is_partial || buffer.is_partial)) ∨
        buffer.vars.count > INT_MAX - buffer.struct_params.count then false
    else if buffer.role = .looseParameters ∧ (saw_loose_parameters ∨ buffer.has_is_partial ∨
        buffer.is_partial ∨ buffer.struct_params.count ≠ 0 ∨
        !name_is buffer.name "$Globals") then false
    else if !buffer.vars.toList.all fun field => field.name.isSome then false
    else if !struct_params_are_valid buffer.struct_params.toList then false
    else if prior.any fun other => buffer.role = .named ∧ other.role = .named ∧
        names_equal other.name buffer.name then false
    else constant_buffers_are_valid expect_binary
      (saw_loose_parameters || buffer.role = .looseParameters) (prior ++ [buffer]) buffers

def resource_is_valid (value : SerializedResourceParam) : Bool :=
  if value.name = none then false
  else match value.bind_type with
    | .texture =>
      value.extra.get 0 = value.sampler_index ∧ value.dimension ≤ 0x7f ∧
        value.extra.get 1 = (value.dimension <<< 1) ||| (if value.multisampled then 1 else 0)
    | .constantBuffer => value.extra.get 0 = value.array_size
    | .buffer => value.extra.get 0 = 1 ∧ value.array_size = 1
    | .uav => value.extra.get 0 = value.original_index
    | .sampler =>
      name_is value.name "" ∧ value.extra.get 0 = value.sampler_state ∧ value.sampler_state ≤ 0xfff

variable (parameters : SerializedProgramParameters)

def parameter_block_shape_is_valid (expect_binary : Bool) : Bool :=
  if parameters.is_binary ≠ expect_binary ∨ parameters.constant_buffers.invalid ∨
      parameters.resources.invalid then false
  else if !constant_buffers_are_valid expect_binary false [] parameters.constant_buffers.toList then
    false
  else parameters.resources.toList.all resource_is_valid

def find_named_constant_buffer (name : Option CString) : Option SerializedConstantBuffer :=
  parameters.constant_buffers.toList.find? fun buffer =>
    buffer.role = .named ∧ names_equal buffer.name name

def find_loose_parameter_buffer : Option SerializedConstantBuffer :=
  parameters.constant_buffers.toList.find? fun buffer => buffer.role = .looseParameters

/-! ## The expected records

A `ReflectionBufferSource` is a buffer with the block it is in, since the block says how to read its
layouts. -/

structure ReflectionBufferSource where
  parameters : SerializedProgramParameters
  buffer : SerializedConstantBuffer

def decode_variable_for_shell (field : SerializedVariable) (shell_size : ℕ)
    (project_to_shell : Bool) : Option (DecodedVariableLayout × Bool) :=
  if field.name = none ∨ shell_size = 0 then none
  else match parameter_layout_decode parameters field with
    | none => none
    | some layout =>
      let byte_size := parameter_layout_byte_size layout
      if byte_size = 0 ∨ layout.byte_offset.toNat > UINT32_MAX - byte_size then none
      else if !project_to_shell ∧ layout.byte_offset.toNat + byte_size > shell_size then none
      else some (layout, !project_to_shell || layout.byte_offset.toNat < shell_size)

def append_variable_record (field : SerializedVariable) (prefix_name : Option CString)
    (shell_size : ℕ) (project_to_shell : Bool) : Option (List ExpectedReflectionRecord) :=
  match decode_variable_for_shell parameters field shell_size project_to_shell with
  | none => none
  | some (_, false) => some []
  | some (layout, true) => some [{
      kind := .constant
      name := field.name
      prefix_name
      values := [signed_wire_word layout.byte_offset, signed_wire_word layout.scalar_type,
        if layout.is_matrix then 1 else 0, signed_wire_word layout.rows,
        signed_wire_word layout.columns, signed_wire_word layout.array_size] }]

/-- The records of several items, in order, unless one of them fails. -/
def append_each {α : Type} (append : α → Option (List ExpectedReflectionRecord)) :
    List α → Option (List ExpectedReflectionRecord)
  | [] => some []
  | item :: items =>
    match append item with
    | none => none
    | some records => (append_each append items).map (records ++ ·)

def input_record (bindings : List PlayerSubProgramBindChannel) (channel : UInt32) :
    ExpectedReflectionRecord where
  kind := .input
  name := none
  prefix_name := none
  values := [signed_wire_word channel, signed_wire_word
    (match bindings.find? fun binding => binding.channel = channel with
      | some binding => binding.component
      | none => 0xffffffff)]

def append_input_records : List ExpectedReflectionRecord :=
  ((List.range 14).filter fun channel =>
    player.source_map &&& ((1 : UInt32) <<< channel.toUInt32) ≠ 0).map fun channel =>
      input_record player.bindings.toList channel.toUInt32

def append_struct_records (shell_size : ℕ) (project_to_shell : Bool)
    (parameter : SerializedStructParam) : Option (List ExpectedReflectionRecord) :=
  let layout (i : Fin 3) := parameter.layout.get i
  if layout 1 = 0 ∨ layout 2 = 0 ∨
      (layout 1).toNat > (UINT32_MAX - (layout 0).toNat) / (layout 2).toNat then none
  else
    let end_ := (layout 0).toNat + (layout 1).toNat * (layout 2).toNat
    if project_to_shell ∧ (layout 0).toNat ≥ shell_size then some []
    else if !project_to_shell ∧ end_ > shell_size then none
    else
      let record : ExpectedReflectionRecord := {
        kind := .constant
        name := parameter.name
        prefix_name := none
        values := [signed_wire_word (layout 0), 0, 2, signed_wire_word (layout 2), 1,
          signed_wire_word (layout 1)] }
      (append_each (fun member =>
        append_variable_record parameters member parameter.name UINT32_MAX false)
        parameter.members.toList).map (record :: ·)

def append_buffer_body_records (shell_size : ℕ) (source : ReflectionBufferSource) :
    Option (List ExpectedReflectionRecord) :=
  let buffer := source.buffer
  let project_to_shell := buffer.role = .looseParameters ||
    (buffer.has_is_partial && buffer.is_partial)
  match append_each (fun field =>
      append_variable_record source.parameters field none shell_size project_to_shell)
      buffer.vars.toList with
  | none => none
  | some fields =>
    (append_each (append_struct_records source.parameters shell_size project_to_shell)
      buffer.struct_params.toList).map (fields ++ ·)

def UNITY_REFLECTION_CB_VARIABLE_COUNT_UNAVAILABLE : Int32 := -1

def append_buffer_records (shell_name : Option CString) (shell_size : UInt32)
    (sources : List ReflectionBufferSource) : Option (List ExpectedReflectionRecord) :=
  if shell_name = none ∨ shell_size = 0 then none
  else
    let record : ExpectedReflectionRecord := {
      kind := .constantBuffer
      name := shell_name
      prefix_name := none
      values := [signed_wire_word shell_size, UNITY_REFLECTION_CB_VARIABLE_COUNT_UNAVAILABLE] }
    (append_each (append_buffer_body_records shell_size.toNat) sources).map (record :: ·)

def resource_record (resource : SerializedResourceParam) : ExpectedReflectionRecord :=
  match resource.bind_type with
  | .texture => {
      kind := .textureBinding
      name := resource.name
      prefix_name := none
      values := [signed_wire_word resource.bind_index, signed_wire_word resource.sampler_index,
        if resource.multisampled then 1 else 0, signed_wire_word resource.dimension] }
  | .constantBuffer => {
      kind := .constantBufferBinding
      name := resource.name
      prefix_name := none
      values := [signed_wire_word resource.bind_index] }
  | .buffer => {
      kind := .bufferBinding
      name := resource.name
      prefix_name := none
      values := [signed_wire_word resource.bind_index, signed_wire_word resource.array_size] }
  | .uav => {
      kind := .uavBinding
      name := resource.name
      prefix_name := none
      values := [signed_wire_word resource.bind_index, signed_wire_word resource.original_index] }
  | .sampler => {
      kind := .sampler
      name := none
      prefix_name := none
      values := [signed_wire_word resource.sampler_state, signed_wire_word resource.bind_index] }

def append_resource_records :
    List ExpectedReflectionRecord := parameters.resources.toList.map resource_record

def buffer_source (parameters : Option SerializedProgramParameters)
    (buffer : Option SerializedConstantBuffer) : List ReflectionBufferSource :=
  match parameters, buffer with
  | some parameters, some buffer => [⟨parameters, buffer⟩]
  | _, _ => []

variable (common : SerializedProgramParameters)

def add_globals_loose_sources (residual : Option SerializedProgramParameters) :
    List ReflectionBufferSource :=
  buffer_source (some common) (find_loose_parameter_buffer common) ++
    buffer_source residual (residual.bind find_loose_parameter_buffer)

def loose_buffer_has_body (buffer : Option SerializedConstantBuffer) : Bool :=
  buffer.any fun buffer => buffer.vars.count > 0 || buffer.struct_params.count > 0

def append_common_buffer (residual : Option SerializedProgramParameters)
    (common_buffer : SerializedConstantBuffer) : Option (List ExpectedReflectionRecord) :=
  if common_buffer.role ≠ .named then some []
  else
    let residual_buffer := residual.bind fun residual =>
      find_named_constant_buffer residual common_buffer.name
    let partial_ := common_buffer.has_is_partial && common_buffer.is_partial
    if (!partial_ ∧ residual_buffer.isSome) ∨ (partial_ ∧ residual_buffer = none) then none
    else
      let shell := if partial_ then residual_buffer.getD common_buffer else common_buffer
      append_buffer_records shell.name shell.size
        ((if partial_ then buffer_source residual residual_buffer else []) ++
          [⟨common, common_buffer⟩] ++
          (if name_is common_buffer.name "$Globals" then add_globals_loose_sources common residual
            else []))

def append_residual_buffer (common residual : SerializedProgramParameters)
    (residual_buffer : SerializedConstantBuffer) : Option (List ExpectedReflectionRecord) :=
  if residual_buffer.role ≠ .named then some []
  else if (find_named_constant_buffer common residual_buffer.name).isSome then some []
  else
    append_buffer_records residual_buffer.name residual_buffer.size (⟨residual, residual_buffer⟩ ::
        (if name_is residual_buffer.name "$Globals" then
          add_globals_loose_sources common (some residual) else []))

def has_named_globals (residual : Option SerializedProgramParameters) : Bool :=
  (common.constant_buffers.toList.any fun buffer =>
    buffer.role = .named ∧ name_is buffer.name "$Globals") ||
  residual.any fun residual => residual.constant_buffers.toList.any fun buffer =>
    buffer.role = .named ∧ find_named_constant_buffer common buffer.name = none ∧
      name_is buffer.name "$Globals"

def globals_name : CString := .ofBytes (asciiBytes "$Globals")

/-- The shell of loose parameters that have no named `$Globals` to go to. -/
def append_loose_globals (residual : Option SerializedProgramParameters) :
    Option (List ExpectedReflectionRecord) :=
  let common_loose := find_loose_parameter_buffer common
  let residual_loose := residual.bind find_loose_parameter_buffer
  if !has_named_globals common residual ∧
      (loose_buffer_has_body common_loose ∨ loose_buffer_has_body residual_loose) then
    let residual_size := (residual_loose.map SerializedConstantBuffer.size).getD 0
    let shell_size := if residual_size > 0 then residual_size
      else (common_loose.map SerializedConstantBuffer.size).getD 0
    append_buffer_records (some globals_name) shell_size (add_globals_loose_sources common residual)
  else some []

def append_residual_buffers (residual : Option SerializedProgramParameters) :
    Option (List ExpectedReflectionRecord) :=
  match residual with
  | none => some []
  | some residual =>
    append_each (append_residual_buffer common residual) residual.constant_buffers.toList

def build_merged_expected_records (common : SerializedProgramParameters)
    (residual : Option SerializedProgramParameters) : Option (List ExpectedReflectionRecord) :=
  if (player_input_model_is_valid player).isNone ∨ !parameter_block_shape_is_valid common false ∨
      residual.any fun residual => !parameter_block_shape_is_valid residual true then none
  else do
    let common_records ← append_each (append_common_buffer common residual)
      common.constant_buffers.toList
    let residual_records ← append_residual_buffers common residual
    let loose_records ← append_loose_globals common residual
    return append_input_records player ++ common_records ++ residual_records ++ loose_records ++
      append_resource_records common ++ (residual.map append_resource_records).getD []

end DXBCSandbox
