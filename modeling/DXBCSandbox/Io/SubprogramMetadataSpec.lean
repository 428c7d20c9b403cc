/-
The parameter blob is a codec.

A model that the wire carries is read back as an equal one, and what is read back is one. Not
every model is carried: the wire has no words for some fields, and it spells `$Globals` as the
missing name of the first buffer.
-/
import DXBCSandbox.Io.ParameterWire

namespace DXBCSandbox

open List StepParser

namespace ParameterBlob

variable (rt : UnityStream) (sz : SizeChecks)

/-! ## The whole blob -/

/-- The rows that the reader takes for a model. -/
def ParametersSpell (parameters : SerializedProgramParameters) (items : List WireItem) : Prop :=
  parameters.version = UNITY_2021_3_PLAYER_BLOB_VERSION ∧
    parameters.dialect = .unity_2021_3_35f1 ∧ parameters.is_binary = true ∧
    ∃ buffers resources bufferRows, parameters.constant_buffers = .ofList buffers ∧
      parameters.resources = .ofList resources ∧ Counted BufferSpells buffers bufferRows ∧
      WireArray WireResource (.ofList resources) ∧
      items = .word parameters.version ::
        (bufferRows ++ arrayItems resourceItems (.ofList resources))

lemma accepts_read_parameters : blobTape.Accepts (read_parameters rt sz) ParametersSpell := by
  apply ((accepts_read_uint32 rt).bind fun version =>
    Tape.Accepts.lift_bind (o := player_blob_dialect_from_version version) fun dialect =>
      (accepts_read_items rt (by decide) (accepts_read_buffer rt sz)
        fun _ _ _ => buffer_size).bind fun buffers =>
          ((accepts_read_items rt (by decide) (fun _ => accepts_read_resource rt sz) ?_).congr
            fun resources items => counted_iff).map fun resources =>
              SerializedProgramParameters.mk version dialect true (.ofList buffers)
                (.ofList resources)).congr
  · intro parameters items
    unfold player_blob_dialect_from_version
    constructor
    · rintro ⟨version, _, _, rfl, ⟨dialect, hdial, buffers, rows, _, hbufs, ⟨resources, rfl,
        hress, rfl⟩, rfl⟩, rfl⟩
      split at hdial
      case isTrue hver =>
        cases hdial
        exact ⟨hver, rfl, rfl, buffers, resources, rows, rfl, rfl, hbufs, hress, rfl⟩
      case isFalse => cases hdial
    · rintro ⟨hver, hdial, hbinary, buffers, resources, rows, hb, hr, hbufs, hress, rfl⟩
      obtain ⟨version, _, _, _, _⟩ := parameters
      dsimp only at hver hdial hbinary hb hr
      subst hdial hbinary hb hr
      exact ⟨version, _, _, rfl, ⟨_, if_pos hver, buffers, rows, _, hbufs, ⟨resources, rfl,
        hress, rfl⟩, rfl⟩, rfl⟩
  · rintro _ resource items ⟨-, rfl⟩
    exact resource_size resource

lemma parse_parameters_iff {blob : Bytes} {out parsed : SerializedProgramParameters} :
    subprogram_metadata_parse_parameters rt sz ⟨blob, 0⟩ out = (true, parsed) ↔
      ∃ items, ParametersSpell parsed items ∧ SpelledBy items blob := by
  have hok : blobTape.Ok ⟨blob, 0⟩ := ⟨rfl, Nat.zero_le _⟩
  have hslice : ∀ bs : Bytes, blob.length = bs.length →
      slice blob 0 bs.length = bs → blob = bs := by
    intro bs hlen hbs
    rw [← hlen, slice_zero_length] at hbs
    exact hbs
  unfold subprogram_metadata_parse_parameters
  constructor
  · intro h
    cases hrun : (read_parameters rt sz).run ⟨blob, 0⟩ with
    | none =>
      rw [hrun] at h
      cases h
    | some result =>
      obtain ⟨model, s'⟩ := result
      rw [hrun] at h
      dsimp only at h
      split at h
      case isTrue => cases h
      case isFalse hleft =>
        cases h
        obtain ⟨items, hitems, bs, hbs, hread, rfl⟩ :=
          (accepts_read_parameters rt sz hok parsed s').mp hrun
        rw [rt.stream_remaining_eq, not_not] at hleft
        refine ⟨items, hitems, ?_⟩
        have hle := congrArg length hread
        simp only [slice, length_take, length_drop] at hle
        simp only [ByteStream.size, ByteStream.advance_data, ByteStream.advance_position] at hleft
        rw [hslice bs (by omega) hread]
        exact hbs
  · rintro ⟨items, hitems, hblob⟩
    have hrun : (read_parameters rt sz).run ⟨blob, 0⟩ =
        some (parsed, ByteStream.advance ⟨blob, 0⟩ blob.length) := by
      apply (accepts_read_parameters rt sz hok parsed _).mpr
      exact ⟨items, hitems, blob, hblob, slice_zero_length blob, rfl⟩
    rw [hrun]
    dsimp only
    rw [if_neg]
    rw [rt.stream_remaining_eq, not_not]
    simp only [ByteStream.size, ByteStream.advance_data, ByteStream.advance_position]
    omega

/-! ## Equal models -/

/-- The model with its arrays as the reader makes them. -/
def normalStruct (value : SerializedStructParam) : SerializedStructParam :=
  { value with members := .ofList (value.members.toList.map id) }

def normalBuffer (buffer : SerializedConstantBuffer) : SerializedConstantBuffer :=
  { buffer with
    vars := .ofList (buffer.vars.toList.map id)
    struct_params := .ofList (buffer.struct_params.toList.map normalStruct) }

def normalParameters (parameters : SerializedProgramParameters) : SerializedProgramParameters :=
  { parameters with
    constant_buffers := .ofList (parameters.constant_buffers.toList.map normalBuffer)
    resources := .ofList (parameters.resources.toList.map id) }

section Normal

variable {α : Type} {Element : α → Prop} {array : IntArray α} {f : α → α}

lemma count_normal (h : WireArray Element array) :
    (IntArray.ofList (array.toList.map f)).count = array.count := by
  rw [count_ofList, length_map, length_toList_of_valid h.1]

lemma WireArray.normal (h : WireArray Element array) (hf : ∀ x, Element x → Element (f x)) :
    WireArray Element (.ofList (array.toList.map f)) := by
  refine ⟨invalid_ofList _, ?_, ?_⟩
  · rw [count_normal h]
    exact h.2.1
  · intro x hx
    rw [toList_ofList, mem_map] at hx
    obtain ⟨y, hy, rfl⟩ := hx
    exact hf y (h.2.2 y hy)

lemma arrayItems_normal (element : α → List WireItem) (h : WireArray Element array)
    (hf : ∀ x, Element x → element (f x) = element x) :
    arrayItems element (.ofList (array.toList.map f)) = arrayItems element array := by
  rw [arrayItems, arrayItems, count_normal h, toList_ofList, flatMap_map]
  congr 1
  exact flatMap_congr fun x hx => hf x (h.2.2 x hx)

lemma each_equal_normal {equal : α → α → Bool} (h : WireArray Element array)
    (hf : ∀ x, Element x → equal x (f x) = true) :
    each_equal equal array (.ofList (array.toList.map f)) = true := by
  have hvalid := invalid_ofList (array.toList.map f)
  simp only [IntArray.invalid, decide_eq_false_iff_not, not_or] at hvalid
  rw [each_equal, decide_eq_true_iff]
  refine ⟨(count_normal h).symm, hvalid.2, ?_⟩
  rw [toList_ofList, zip_map_right, all_map, all_eq_true]
  rintro ⟨x, y⟩ hxy
  obtain ⟨hx, rfl⟩ : x ∈ array.toList ∧ x = y := by
    obtain ⟨k, hk⟩ := mem_iff_getElem?.mp hxy
    rw [getElem?_zip_eq_some] at hk
    exact ⟨mem_of_getElem? hk.1, Option.some.inj (hk.1.symm.trans hk.2)⟩
  exact hf x (h.2.2 x hx)

end Normal

lemma names_equal_self {name : Option CString} (h : WireName name) :
    names_equal name name = true := by
  obtain ⟨text, rfl, -⟩ := h
  simp only [names_equal, decide_true]

lemma variable_equal_self {field : SerializedVariable} (h : WireVariable field) :
    parameter_variable_equal field field = true := by
  rw [parameter_variable_equal, decide_eq_true_iff]
  exact ⟨names_equal_self h, rfl⟩

variable {value : SerializedStructParam}

lemma struct_equal_normal (h : WireStruct value) :
    parameter_struct_equal value (normalStruct value) = true := by
  rw [parameter_struct_equal, decide_eq_true_iff]
  exact ⟨names_equal_self h.1, rfl, each_equal_normal h.2 fun _ => variable_equal_self⟩

variable {buffer : SerializedConstantBuffer}

lemma buffer_equal_normal (h : WireBuffer buffer) :
    parameter_buffer_equal buffer (normalBuffer buffer) = true := by
  obtain ⟨hname, -, -, hvars, hstructs⟩ := h
  rw [parameter_buffer_equal, decide_eq_true_iff]
  exact ⟨names_equal_self hname, rfl, rfl, rfl, rfl,
    each_equal_normal hvars fun _ => variable_equal_self,
    each_equal_normal hstructs fun _ => struct_equal_normal⟩

lemma WireResource.wireName {resource : SerializedResourceParam} (h : WireResource resource) :
    WireName resource.name := by
  obtain ⟨name, hlen, -, hresrc⟩ := h
  refine ⟨name, ?_, hlen⟩
  rw [hresrc, makeResource_name]

lemma resource_equal_self {resource : SerializedResourceParam} (h : WireResource resource) :
    parameter_resource_equal resource resource = true := by
  rw [parameter_resource_equal, decide_eq_true_iff]
  exact ⟨names_equal_self h.wireName, rfl, rfl, rfl, rfl, rfl, rfl, rfl, rfl, rfl⟩

lemma WireStruct.normal (h : WireStruct value) :
    WireStruct (normalStruct value) := ⟨h.1, h.2.normal fun _ => id⟩

lemma WireBuffer.normal (h : WireBuffer buffer) : WireBuffer (normalBuffer buffer) := by
  obtain ⟨hname, hpart, hpart', hvars, hstructs⟩ := h
  exact ⟨hname, hpart, hpart', hvars.normal fun _ => id, hstructs.normal fun _ => WireStruct.normal⟩

/-! ## Shapes -/

lemma WireName.isSome {name : Option CString} (h : WireName name) : name.isSome = true := by
  obtain ⟨text, rfl, -⟩ := h
  rfl

lemma WireArray.all {α : Type} {Element : α → Prop} {array : IntArray α} {p : α → Bool}
    (h : WireArray Element array) (hp : ∀ x, Element x → p x = true) :
    array.toList.all p = true := by
  rw [all_eq_true]
  exact fun x hx => hp x (h.2.2 x hx)

lemma WireArray.valid {α : Type} {Element : α → Prop} {array : IntArray α}
    (h : WireArray Element array) : ¬ array.invalid = true := by
  rw [h.1]
  exact Bool.false_ne_true

lemma struct_shape (h : WireStruct value) : struct_has_valid_shape value = true := by
  rw [struct_has_valid_shape, decide_eq_true_iff]
  exact ⟨h.1.isSome, h.2.valid, h.2.all fun _ => WireName.isSome⟩

lemma buffer_shape (h : WireBuffer buffer) : buffer_has_valid_shape buffer = true := by
  obtain ⟨hname, -, -, hvars, hstructs⟩ := h
  rw [buffer_has_valid_shape, decide_eq_true_iff]
  exact ⟨hname.isSome, hvars.valid, hstructs.valid, hvars.all fun _ => WireName.isSome,
    hstructs.all fun _ => struct_shape⟩

variable {parameters : SerializedProgramParameters}

lemma parameters_shape (hbufs : WireArray WireBuffer parameters.constant_buffers)
    (hress : WireArray WireResource parameters.resources) :
    parameters_have_valid_shape parameters = true := by
  rw [parameters_have_valid_shape, decide_eq_true_iff]
  exact ⟨hbufs.valid, hress.valid, hbufs.all fun _ => buffer_shape,
    hress.all fun _ h => h.wireName.isSome⟩

/-- A model that the wire carries is equal to the one with the arrays of the reader. -/
theorem WireModel.equal_normal (h : WireModel parameters) :
    serialized_program_parameters_equal parameters (normalParameters parameters) = true := by
  rw [serialized_program_parameters_equal, decide_eq_true_iff]
  refine ⟨parameters_shape h.buffers h.resources, ?_, rfl, rfl, rfl, ?_, ?_⟩
  · exact parameters_shape (h.buffers.normal fun _ => WireBuffer.normal)
      (h.resources.normal fun _ => id)
  · exact each_equal_normal h.buffers fun _ => buffer_equal_normal
  · exact each_equal_normal h.resources fun _ => resource_equal_self

/-! ## Both directions -/

lemma structItems_normal (h : WireStruct value) :
    structItems (normalStruct value) = structItems value := by
  have hmems := arrayItems_normal (f := id) variableItems h.2 fun _ _ => rfl
  unfold structItems normalStruct
  rw [hmems]

lemma bufferItems_normal (h : WireBuffer buffer) :
    bufferItems (normalBuffer buffer) = bufferItems buffer := by
  obtain ⟨-, -, -, hvars, hstructs⟩ := h
  have hflds := arrayItems_normal (f := id) variableItems hvars fun _ _ => rfl
  have hvals := arrayItems_normal structItems hstructs fun _ => structItems_normal
  unfold bufferItems normalBuffer
  rw [hflds, hvals]

lemma bufferSpells_normal {cb_index : ℕ} (h : WireBuffer buffer)
    (hrole : buffer.role = roleAt cb_index)
    (hname : cb_index = 0 → buffer.name ≠ some ⟨[], List.not_mem_nil⟩) :
    BufferSpells cb_index (normalBuffer buffer) (bufferItems buffer) := by
  obtain ⟨text, htext, hlen⟩ := h.1
  refine ⟨⟨h.normal, hrole, ⟨_, rfl⟩, _, rfl, ?_⟩, text, hlen, ?_, ?_⟩
  · intro value hval
    obtain ⟨value', -, rfl⟩ := mem_map.mp hval
    exact ⟨_, rfl⟩
  · have hne : ¬ (cb_index = 0 ∧ text.bytes = []) := by
      rintro ⟨hzero, hempty⟩
      apply hname hzero
      rw [htext]
      congr 1
      cases text
      congr
    rw [bufferName, if_neg hne]
    exact htext
  · rw [← bufferItems_normal h, ← htext]
    rfl

lemma WireModel.spells (h : WireModel parameters) :
    ParametersSpell (normalParameters parameters) (parameterItems parameters) := by
  have hlen : (parameters.constant_buffers.toList.map normalBuffer).length =
      parameters.constant_buffers.count.toNat := by
    have := length_toList_of_valid h.buffers.1
    rw [length_map]
    omega
  have hress := arrayItems_normal (f := id) resourceItems h.resources fun _ _ => rfl
  have hrows : SpellsEach BufferSpells 0 (parameters.constant_buffers.toList.map normalBuffer)
      (parameters.constant_buffers.toList.flatMap bufferItems) := by
    apply spellsEach_map
    intro k buffer hbuf
    rw [Nat.zero_add]
    refine bufferSpells_normal (h.buffers.2.2 _ (mem_of_getElem? hbuf)) (h.roles k buffer hbuf) ?_
    rintro rfl
    exact h.first_name buffer hbuf
  refine ⟨h.version, h.dialect, h.binary, _, _, _, rfl, rfl, ⟨?_, _, hrows, rfl⟩,
    h.resources.normal fun _ => id, ?_⟩
  · have := h.buffers.2.1
    omega
  · rw [hress, hlen]
    rfl

/-- The other spelling of a model: `$Globals` left out as the name of the first buffer. -/
def EmptyFirstName (parameters model : SerializedProgramParameters) : Prop :=
  ∃ buffer rest, parameters.constant_buffers.toList = buffer :: rest ∧
    buffer.name = some globalsName ∧ model = { parameters with
      constant_buffers :=
        .ofList ({ buffer with name := some (.ofBytes []) } :: rest) }

variable {items : List WireItem}

lemma BufferSpells.of_pos {cb_index : ℕ} (h : BufferSpells cb_index buffer items)
    (hpos : 1 ≤ cb_index) : ReadBuffer cb_index buffer ∧ items = bufferItems buffer := by
  obtain ⟨hread, name, -, hname, rfl⟩ := h
  rw [bufferName, if_neg fun h => absurd h.1 (by omega)] at hname
  rw [← hname]
  exact ⟨hread, rfl⟩

/-- The first buffer has its own name, or none for `$Globals`; and it is never without a name. -/
theorem BufferSpells.of_zero (h : BufferSpells 0 buffer items) :
    buffer.name ≠ some ⟨[], List.not_mem_nil⟩ ∧
      (items = bufferItems buffer ∨ buffer.name = some globalsName ∧
        items = bufferItems { buffer with name := some (.ofBytes []) }) := by
  obtain ⟨-, name, -, hname, rfl⟩ := h
  by_cases hempty : name.bytes = []
  · rw [bufferName, if_pos ⟨rfl, hempty⟩] at hname
    obtain rfl : name = ⟨[], not_mem_nil⟩ := by
      cases name
      congr
    refine ⟨?_, .inr ⟨hname, rfl⟩⟩
    rw [hname]
    decide
  · rw [bufferName, if_neg fun h => hempty h.2] at hname
    refine ⟨?_, .inl (by rw [← hname])⟩
    rw [hname]
    rintro heq
    cases heq
    exact hempty rfl

/-- What the reader takes for a model is the row of the model, or of the one that leaves
`$Globals` out. -/
theorem ParametersSpell.model (h : ParametersSpell parameters items) :
    WireModel parameters ∧ ∃ model, (model = parameters ∨ EmptyFirstName parameters model) ∧
      items = parameterItems model := by
  obtain ⟨hver, hdial, hbinary, buffers, resources, rows, hb, hr,
    ⟨hmax, v, hv, rfl⟩, hress, rfl⟩ := h
  obtain ⟨version, _, _, _, _⟩ := parameters
  dsimp only at hver hdial hbinary hb hr
  subst hver hdial hbinary hb hr
  cases buffers with
  | nil =>
    obtain rfl : v = [] := hv
    refine ⟨⟨rfl, rfl, rfl, ?_, hress, ?_, ?_⟩, _, .inl rfl, rfl⟩
    · exact wireArray_ofList.mpr ⟨hmax, nofun⟩
    · intro k buffer hbuf
      rw [toList_ofList] at hbuf
      cases hbuf
    · intro buffer hbuf
      rw [toList_ofList] at hbuf
      cases hbuf
  | cons buffer rest =>
    obtain ⟨u, w, hfst, hrest, rfl⟩ := hv
    have hrows : SpellsEach (fun k x u => ReadBuffer k x ∧ u = bufferItems x) 1 rest w := by
      apply hrest.imp
      intro k x u hk hx
      exact hx.of_pos hk
    obtain ⟨hall, rfl⟩ := spellsEach_iff_flatMap.mp hrows
    obtain ⟨hname, hrow⟩ := hfst.of_zero
    have hread : ∀ k x, (buffer :: rest)[k]? = some x → ReadBuffer k x := by
      intro k x hx
      cases k with
      | zero =>
        cases hx
        exact hfst.1
      | succ k =>
        rw [Nat.add_comm]
        exact hall k x hx
    refine ⟨⟨rfl, rfl, rfl, ?_, hress, ?_, ?_⟩, ?_⟩
    · refine wireArray_ofList.mpr ⟨hmax, fun x hx => ?_⟩
      obtain ⟨k, hk⟩ := mem_iff_getElem?.mp hx
      exact (hread k x hk).1
    · intro k x hx
      rw [toList_ofList] at hx
      exact (hread k x hx).2.1
    · intro x hx
      rw [toList_ofList] at hx
      cases hx
      exact hname
    · rcases hrow with rfl | ⟨hglobals, rfl⟩
      · refine ⟨_, .inl rfl, ?_⟩
        simp only [parameterItems, arrayItems, toList_ofList, count_ofList, Int.toNat_natCast,
          flatMap_cons]
      · refine ⟨_, .inr ⟨buffer, rest, toList_ofList _, hglobals, rfl⟩, ?_⟩
        simp only [parameterItems, arrayItems, toList_ofList, count_ofList, Int.toNat_natCast,
          flatMap_cons, length_cons]

lemma parse_parameters_append {blob extra : Bytes} (hextra : extra ≠ [])
    {out parsed : SerializedProgramParameters}
    (h : subprogram_metadata_parse_parameters rt sz ⟨blob, 0⟩ out = (true, parsed))
    (out' : SerializedProgramParameters) :
    subprogram_metadata_parse_parameters rt sz ⟨blob ++ extra, 0⟩ out' = (false, out') := by
  obtain ⟨items, hitems, hblob⟩ := (parse_parameters_iff rt sz).mp h
  have hrun : (read_parameters rt sz).run ⟨blob ++ extra, 0⟩ =
      some (parsed, ByteStream.advance ⟨blob ++ extra, 0⟩ blob.length) := by
    apply (accepts_read_parameters rt sz ⟨rfl, Nat.zero_le _⟩ parsed _).mpr
    exact ⟨items, hitems, blob, hblob, slice_append_self blob extra, rfl⟩
  unfold subprogram_metadata_parse_parameters
  rw [hrun]
  dsimp only
  rw [if_pos]
  rw [rt.stream_remaining_eq]
  have hlen := length_pos_of_ne_nil hextra
  simp only [ByteStream.size, ByteStream.advance_data, ByteStream.advance_position, length_append]
  omega

end ParameterBlob

open ParameterBlob

/-- **The parameter blob is a codec.** A model that the wire carries is read back as an equal one.
What is accepted spells a model that the wire carries, and differs from its serialisation at most
in padding and in the left out `$Globals`. Bytes behind a blob are refused, and a refused blob
leaves the model alone. -/
theorem subprogram_metadata_parse_parameters_codec (rt : UnityStream) (sz : SizeChecks) :
    (∀ parameters out, WireModel parameters → ∃ parsed,
      subprogram_metadata_parse_parameters rt sz ⟨serialize_parameters parameters, 0⟩ out =
        (true, parsed) ∧ serialized_program_parameters_equal parameters parsed = true) ∧
    (∀ blob out parsed, subprogram_metadata_parse_parameters rt sz ⟨blob, 0⟩ out = (true, parsed) →
        WireModel parsed ∧ ∃ model, (model = parsed ∨ EmptyFirstName parsed model) ∧
          SpelledBy (parameterItems model) blob) ∧
    (∀ blob extra out out' parsed, extra ≠ [] →
      subprogram_metadata_parse_parameters rt sz ⟨blob, 0⟩ out = (true, parsed) →
        subprogram_metadata_parse_parameters rt sz ⟨blob ++ extra, 0⟩ out' = (false, out')) ∧
    ∀ stream out parsed, subprogram_metadata_parse_parameters rt sz stream out =
      (false, parsed) → parsed = out := by
  refine ⟨?_, ?_, ?_, ?_⟩
  · intro parameters out h
    refine ⟨normalParameters parameters, ?_, h.equal_normal⟩
    exact (parse_parameters_iff rt sz).mpr ⟨_, h.spells, spelledBy_bytes _⟩
  · intro blob out parsed h
    obtain ⟨items, hitems, hblob⟩ := (parse_parameters_iff rt sz).mp h
    obtain ⟨hwire, model, hmodel, rfl⟩ := hitems.model
    exact ⟨hwire, model, hmodel, hblob⟩
  · intro blob extra out out' parsed hextra h
    exact parse_parameters_append rt sz hextra h out'
  · intro stream out parsed h
    unfold subprogram_metadata_parse_parameters at h
    split at h
    · cases h
      rfl
    · split at h
      · cases h
        rfl
      · cases h

def emptyParameters : SerializedProgramParameters := ⟨0, .invalid, false, .ofList [], .ofList []⟩

/-- One buffer `A` with a variable, and a texture `T`. -/
def sampleParameters : SerializedProgramParameters where
  version := UNITY_2021_3_PLAYER_BLOB_VERSION
  dialect := .unity_2021_3_35f1
  is_binary := true
  constant_buffers := .ofList [⟨some (.ofBytes [65]), .looseParameters, 16, false, false,
      .ofList [⟨some (.ofBytes [86]), #v[0, 1, 2, 3, 4, 5]⟩], .ofList []⟩]
  resources := .ofList [⟨some (.ofBytes [84]), .texture, 3, 0, 2, 5, true, 0, 0, #v[5, 5]⟩]

lemma sampleParameters_wire : WireModel sampleParameters := by
  refine ⟨rfl, rfl, rfl, ?_, ?_, ?_, ?_⟩
  · refine wireArray_ofList.mpr ⟨by decide, fun buffer hbuf => ?_⟩
    rw [mem_singleton.mp hbuf]
    refine ⟨⟨_, rfl, by decide⟩, rfl, rfl, wireArray_ofList.mpr ⟨by decide, ?_⟩,
      wireArray_ofList.mpr ⟨by decide, ?_⟩⟩
    · intro field hfld
      rw [mem_singleton.mp hfld]
      exact ⟨_, rfl, by decide⟩
    · intro value hval
      cases hval
  · refine wireArray_ofList.mpr ⟨by decide, fun resource hresrc => ?_⟩
    rw [mem_singleton.mp hresrc]
    exact ⟨_, by decide, fun hne => absurd rfl hne, rfl⟩
  · intro k buffer hbuf
    match k, hbuf with
    | 0, hbuf =>
      cases hbuf
      rfl
  · intro buffer hbuf
    cases hbuf
    decide

theorem subprogram_metadata_parse_parameters_codec_sample : WireModel sampleParameters ∧ ∃ parsed,
      subprogram_metadata_parse_parameters .reference .reference
        ⟨serialize_parameters sampleParameters, 0⟩ emptyParameters = (true, parsed) ∧
      serialized_program_parameters_equal sampleParameters parsed = true ∧
      subprogram_metadata_parse_parameters .reference .reference
        ⟨serialize_parameters sampleParameters ++ [204], 0⟩ emptyParameters =
          (false, emptyParameters) := by
  obtain ⟨hread, -, htrailing, -⟩ := subprogram_metadata_parse_parameters_codec .reference .reference
  obtain ⟨parsed, hparsed, hequal⟩ := hread sampleParameters emptyParameters sampleParameters_wire
  refine ⟨sampleParameters_wire, parsed, hparsed, hequal, ?_⟩
  exact htrailing _ [204] _ _ _ (by decide) hparsed

def unnamedParameters : SerializedProgramParameters where
  version := UNITY_2021_3_PLAYER_BLOB_VERSION
  dialect := .unity_2021_3_35f1
  is_binary := true
  constant_buffers := .ofList
    [⟨some (.ofBytes []), .looseParameters, 0, false, false, .ofList [], .ofList []⟩]
  resources := .ofList []

/-- It comes back as `$Globals`. -/
theorem unnamed_first_buffer_is_renamed :
    parameters_have_valid_shape unnamedParameters = true ∧ ∃ parsed,
      subprogram_metadata_parse_parameters .reference .reference
        ⟨serialize_parameters unnamedParameters, 0⟩ emptyParameters = (true, parsed) ∧
      parsed.constant_buffers.toList.map (·.name) = [some globalsName] ∧
      serialized_program_parameters_equal unnamedParameters parsed = false := by
  refine ⟨by decide, ?_⟩
  refine ⟨{ unnamedParameters with
    constant_buffers := .ofList
      [⟨some globalsName, .looseParameters, 0, false, false, .ofList [], .ofList []⟩] }, ?_, ?_, ?_⟩
  · rfl
  · rfl
  · decide

end DXBCSandbox
