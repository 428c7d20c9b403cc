/-
The parameter blob of a player subprogram (`src/io/subprogram_metadata.c`).

A blob is little-endian words and strings. A string is its length, its bytes, and padding up to
the next multiple of four; the padding is skipped and not looked at. The first constant buffer is
the loose parameter area, and is called `$Globals` where the wire leaves its name out.

The stream comes from `external/UnityCommon`. Allocation succeeds. The string pool only says who
owns a name, so a name is its text.
-/
import DXBCSandbox.Io.SerializedShader
import DXBCSandbox.Lib.Reader

namespace DXBCSandbox

/-! ## Models -/

def UNITY_2021_3_PLAYER_BLOB_VERSION : UInt32 := 202012090

inductive PlayerBlobDialect where
  | invalid | unity_2021_3_35f1
  deriving DecidableEq

structure SerializedVariable where
  name : Option CString
  layout : Vector UInt32 6

structure SerializedStructParam where
  name : Option CString
  layout : Vector UInt32 3
  members : IntArray SerializedVariable

inductive SerializedConstantBufferRole where
  | named | looseParameters
  deriving DecidableEq

structure SerializedConstantBuffer where
  name : Option CString
  role : SerializedConstantBufferRole
  size : UInt32
  has_is_partial : Bool
  is_partial : Bool
  vars : IntArray SerializedVariable
  struct_params : IntArray SerializedStructParam

inductive SerializedResourceType where
  | texture | constantBuffer | buffer | uav | sampler
  deriving DecidableEq

structure SerializedResourceParam where
  name : Option CString
  bind_type : SerializedResourceType
  bind_index : UInt32
  array_size : UInt32
  dimension : UInt32
  sampler_index : UInt32
  multisampled : Bool
  original_index : UInt32
  sampler_state : UInt32
  extra : Vector UInt32 2

structure SerializedProgramParameters where
  version : UInt32
  dialect : PlayerBlobDialect
  is_binary : Bool
  constant_buffers : IntArray SerializedConstantBuffer
  resources : IntArray SerializedResourceParam

/-- An array as `allocate_zeroed_array` makes it: there is none for a count of zero. -/
def IntArray.ofList {α : Type} (xs : List α) : IntArray α where
  values := if xs.isEmpty then none else some xs
  count := xs.length
  count_eq := by
    intro _ l hl
    split at hl
    · cases hl
    · rw [← Option.some.inj hl]

/-! ## Equality -/

def struct_has_valid_shape (value : SerializedStructParam) : Bool :=
  value.name.isSome ∧ ¬ value.members.invalid ∧
    value.members.toList.all fun member => member.name.isSome

def buffer_has_valid_shape (buffer : SerializedConstantBuffer) : Bool :=
  buffer.name.isSome ∧ ¬ buffer.vars.invalid ∧ ¬ buffer.struct_params.invalid ∧
    (buffer.vars.toList.all fun field => field.name.isSome) ∧
    buffer.struct_params.toList.all struct_has_valid_shape

def parameters_have_valid_shape (parameters : SerializedProgramParameters) : Bool :=
  ¬ parameters.constant_buffers.invalid ∧ ¬ parameters.resources.invalid ∧
    parameters.constant_buffers.toList.all buffer_has_valid_shape ∧
    parameters.resources.toList.all fun resource => resource.name.isSome

/-- The loop over two arrays of one count. -/
def each_equal {α : Type} (equal : α → α → Bool) (left right : IntArray α) : Bool :=
  left.count = right.count ∧ ¬ (right.count ≠ 0 ∧ right.values = none) ∧
    (left.toList.zip right.toList).all fun pair => equal pair.1 pair.2

/-- `right && !strcmp(left, right)`, for a left name that is there. -/
def names_equal (left right : Option CString) : Bool :=
  match left, right with
  | some left, some right => left.bytes = right.bytes
  | _, _ => false

def parameter_variable_equal (left right : SerializedVariable) : Bool :=
  names_equal left.name right.name ∧ left.layout = right.layout

def parameter_struct_equal (left right : SerializedStructParam) : Bool :=
  names_equal left.name right.name ∧ left.layout = right.layout ∧
    each_equal parameter_variable_equal left.members right.members

def parameter_buffer_equal (left right : SerializedConstantBuffer) : Bool :=
  names_equal left.name right.name ∧ left.role = right.role ∧ left.size = right.size ∧
    left.has_is_partial = right.has_is_partial ∧ left.is_partial = right.is_partial ∧
    each_equal parameter_variable_equal left.vars right.vars ∧
    each_equal parameter_struct_equal left.struct_params right.struct_params

def parameter_resource_equal (left right : SerializedResourceParam) : Bool :=
  names_equal left.name right.name ∧ left.bind_type = right.bind_type ∧
    left.bind_index = right.bind_index ∧ left.array_size = right.array_size ∧
    left.dimension = right.dimension ∧ left.sampler_index = right.sampler_index ∧
    left.multisampled = right.multisampled ∧ left.original_index = right.original_index ∧
    left.sampler_state = right.sampler_state ∧ left.extra = right.extra

def serialized_program_parameters_equal (left right : SerializedProgramParameters) : Bool :=
  parameters_have_valid_shape left ∧ parameters_have_valid_shape right ∧
    left.version = right.version ∧ left.dialect = right.dialect ∧
    left.is_binary = right.is_binary ∧
    each_equal parameter_buffer_equal left.constant_buffers right.constant_buffers ∧
    each_equal parameter_resource_equal left.resources right.resources

/-! ## Reading -/

/-- The next position that is a multiple of `alignment`. -/
def alignUp (position alignment : ℕ) : ℕ := (position + alignment - 1) / alignment * alignment

/-- What the reader of a blob uses of the stream besides words and bytes. An alignment moves to
the next multiple, which has to be inside the stream. -/
structure UnityStream extends UnityCommon where
  stream_remaining : ByteStream → ℕ
  stream_read_int32 : ByteStream → Option (Int32 × ByteStream)
  stream_align : ByteStream → ℕ → Option (Unit × ByteStream)
  stream_remaining_eq : ∀ s, stream_remaining s = s.size - s.position
  stream_read_int32_eq : ∀ s, stream_read_int32 s =
    (stream_read_uint32 s).map fun r => (r.1.toInt32, r.2)
  stream_align_eq : ∀ s alignment, 0 < alignment → stream_align s alignment =
    if alignUp s.position alignment ≤ s.size then
      some ((), { s with position := alignUp s.position alignment }) else none

def UnityStream.reference : UnityStream where
  toUnityCommon := UnityCommon.reference
  stream_remaining s := s.size - s.position
  stream_read_int32 s :=
    (UnityCommon.reference.stream_read_uint32 s).map fun r => (r.1.toInt32, r.2)
  stream_align s alignment :=
    if alignUp s.position alignment ≤ s.size then
      some ((), { s with position := alignUp s.position alignment }) else none
  stream_remaining_eq _ := rfl
  stream_read_int32_eq _ := rfl
  stream_align_eq _ _ _ := rfl

abbrev BlobReader := StateT ByteStream Option

namespace ParameterBlob

variable (rt : UnityStream) (sz : SizeChecks)

def read_uint32 : BlobReader UInt32 := rt.stream_read_uint32

def read_int32 : BlobReader Int32 := rt.stream_read_int32

/-- `memchr(str, '\0', len) == NULL`, and then the bytes are a C string. -/
def toCString (bytes : Bytes) : Option CString :=
  if h : 0 ∉ bytes then some ⟨bytes, h⟩ else none

def read_string_bytes (len : UInt32) : BlobReader Bytes :=
  if 0 < len then (rt.stream_read_bytes · len.toNat) else pure []

def read_pascal_string : BlobReader CString := do
  let len ← read_uint32 rt
  let stream ← get
  guard (¬ (rt.stream_remaining stream < len.toNat ∨ sz.dxbc_size_add_overflows len.toNat 1))
  let bytes ← read_string_bytes rt len
  let str ← (toCString bytes : Option CString)
  (rt.stream_align · 4)
  pure str

def wire_count_to_int (count : UInt32) (remaining minimum_item_size : ℕ) : Option ℕ :=
  if INT_MAX < count.toNat ∨ minimum_item_size = 0 ∨ remaining / minimum_item_size < count.toNat then
    none
  else some count.toNat

/-- A count, its check against what is left, and the loop over the items. -/
def read_items {α : Type} (minimum_item_size : ℕ) (item : ℕ → BlobReader α) :
    BlobReader (List α) := do
  let wire_count ← read_uint32 rt
  let stream ← get
  let count ← (wire_count_to_int wire_count (rt.stream_remaining stream) minimum_item_size :
    Option ℕ)
  readItems item 0 count

def read_layout : (n : ℕ) → BlobReader (Vector UInt32 n)
  | 0 => pure #v[]
  | n + 1 => do
    let layout ← read_layout n
    let word ← read_uint32 rt
    pure (layout.push word)

def read_variable : BlobReader SerializedVariable := do
  let name ← read_pascal_string rt sz
  let layout ← read_layout rt 6
  pure ⟨some name, layout⟩

def read_struct : BlobReader SerializedStructParam := do
  let name ← read_pascal_string rt sz
  let layout ← read_layout rt 3
  let members ← read_items rt 28 fun _ => read_variable rt sz
  pure ⟨some name, layout, .ofList members⟩

def globalsName : CString := ⟨asciiBytes "$Globals", by decide⟩

def makeBuffer (cb_index : ℕ) (name : CString) (size : UInt32)
    (vars : List SerializedVariable) (struct_params : List SerializedStructParam) :
    SerializedConstantBuffer where
  name := if cb_index = 0 ∧ name.bytes = [] then some globalsName else some name
  role := if cb_index = 0 then .looseParameters else .named
  size := size
  has_is_partial := false
  is_partial := false
  vars := .ofList vars
  struct_params := .ofList struct_params

def read_buffer (cb_index : ℕ) : BlobReader SerializedConstantBuffer := do
  let name ← read_pascal_string rt sz
  let size ← read_uint32 rt
  let vars ← read_items rt 28 fun _ => read_variable rt sz
  let struct_params ← read_items rt 20 fun _ => read_struct rt sz
  pure (makeBuffer cb_index name size vars struct_params)

/-- The resource type of a raw word, which is refused below the first and above the last one. -/
def resource_type (raw_bind_type : Int32) : Option SerializedResourceType :=
  match raw_bind_type.toInt with
  | 0 => some .texture
  | 1 => some .constantBuffer
  | 2 => some .buffer
  | 3 => some .uav
  | 4 => some .sampler
  | _ => none

/-- The resource with the words of the wire, and the fields that its type takes from them. -/
def makeResource (name : CString) (bind_type : SerializedResourceType) (bind_index : UInt32)
    (extra : Vector UInt32 2) : SerializedResourceParam :=
  let resource : SerializedResourceParam :=
    ⟨some name, bind_type, bind_index, 0, 0, 0, false, 0, 0, extra⟩
  match bind_type with
  | .texture =>
    { resource with
      sampler_index := extra[0]
      multisampled := extra[1] &&& 1 ≠ 0
      dimension := (extra[1] >>> 1) &&& 0x7f }
  | .constantBuffer => { resource with array_size := extra[0] }
  | .buffer => { resource with array_size := extra[0] }
  | .uav => { resource with original_index := extra[0] }
  | .sampler => { resource with sampler_state := extra[0] }

/-- The second extra word, which only a texture has. -/
def read_extra (bind_type : SerializedResourceType) : BlobReader UInt32 :=
  if bind_type = .texture then read_uint32 rt else pure 0

def read_resource : BlobReader SerializedResourceParam := do
  let name ← read_pascal_string rt sz
  let raw_bind_type ← read_int32 rt
  let bind_type ← (resource_type raw_bind_type : Option SerializedResourceType)
  let bind_index ← read_uint32 rt
  let extra0 ← read_uint32 rt
  let extra1 ← read_extra rt bind_type
  pure (makeResource name bind_type bind_index #v[extra0, extra1])

def player_blob_dialect_from_version (version : UInt32) : Option PlayerBlobDialect :=
  if version = UNITY_2021_3_PLAYER_BLOB_VERSION then some .unity_2021_3_35f1 else none

def read_parameters : BlobReader SerializedProgramParameters := do
  let version ← read_uint32 rt
  let dialect ← (player_blob_dialect_from_version version : Option PlayerBlobDialect)
  let constant_buffers ← read_items rt 16 (read_buffer rt sz)
  let resources ← read_items rt 16 fun _ => read_resource rt sz
  pure ⟨version, dialect, true, .ofList constant_buffers, .ofList resources⟩

end ParameterBlob

open ParameterBlob

/-- The result, and the model that is then at `out_params`. -/
def subprogram_metadata_parse_parameters (rt : UnityStream) (sz : SizeChecks)
    (stream : ByteStream) (out_params : SerializedProgramParameters) :
    Bool × SerializedProgramParameters :=
  match (read_parameters rt sz).run stream with
  | none => (false, out_params)
  | some (parsed, stream) =>
    if rt.stream_remaining stream ≠ 0 then (false, out_params) else (true, parsed)

end DXBCSandbox
