/-
The shape of the expected reflection records.

The merge lists the inputs, then every constant buffer with its constants behind it, then the
resources. The named buffers of a block have different names, a residual buffer is listed only when
no common buffer has its name, and `$Globals` is made up only when neither has it. So no two
constant buffers have the same name.
-/
import DXBCSandbox.Compiler.ReflectionRows

namespace DXBCSandbox

open List
open Option (map_eq_some_iff map_some bind_eq_some_iff isNone_iff_eq_none any_some)

/-- A part of the merge, whose constant buffers have these names. -/
structure Merged (records : List ExpectedReflectionRecord) (names : List (Option Bytes)) :
    Prop where
  no_stats : ∀ e ∈ records, e.kind ≠ .stats
  values_le : ∀ e ∈ records, e.values.length ≤ UNITY_COMPILER_REFLECTION_MAX_VALUES
  buffer_values : ∀ e ∈ records, e.kind = .constantBuffer → e.values.length = 2
  owned : ∀ owner, ∀ row ∈ bindingRows owner (records.map ExpectedReflectionRecord.binding),
    row.1.kind = .constant → row.2 ≠ none
  names_eq : (records.filter fun e => e.kind = .constantBuffer).map (fun e => e.binding.name) =
    names

lemma Merged.append {xs ys : List ExpectedReflectionRecord} {ns ms : List (Option Bytes)}
    (hx : Merged xs ns) (hy : Merged ys ms) : Merged (xs ++ ys) (ns ++ ms) where
  no_stats := forall_mem_append.mpr ⟨hx.no_stats, hy.no_stats⟩
  values_le := forall_mem_append.mpr ⟨hx.values_le, hy.values_le⟩
  buffer_values := forall_mem_append.mpr ⟨hx.buffer_values, hy.buffer_values⟩
  owned := by
    intro owner
    rw [map_append, bindingRows_append]
    exact forall_mem_append.mpr ⟨hx.owned owner, hy.owned _⟩
  names_eq := by
    rw [filter_append, map_append, hx.names_eq, hy.names_eq]

variable {records : List ExpectedReflectionRecord}

lemma merged_plain
    (h : ∀ e ∈ records, e.kind ≠ .stats ∧ e.kind ≠ .constantBuffer ∧ e.kind ≠ .constant ∧
      e.values.length ≤ UNITY_COMPILER_REFLECTION_MAX_VALUES) : Merged records [] where
  no_stats := fun e he => (h e he).1
  values_le := fun e he => (h e he).2.2.2
  buffer_values := fun e he hkind => absurd hkind (h e he).2.1
  owned := by
    intro owner row hrow hkind
    have hmem : ∃ e ∈ records, row.1 = e.binding := by
      induction records generalizing owner with
      | nil => nomatch hrow
      | cons e records ih =>
        have hstats : e.binding.kind ≠ .stats := (h e mem_cons_self).1
        rw [map_cons, bindingRows, if_neg hstats] at hrow
        rcases mem_cons.mp hrow with rfl | hrow
        · exact ⟨e, mem_cons_self, rfl⟩
        · obtain ⟨e', he', hrow⟩ := ih (forall_mem_cons.mp h).2 _ hrow
          exact ⟨e', mem_cons_of_mem _ he', hrow⟩
    obtain ⟨e, he, heq⟩ := hmem
    rw [heq] at hkind
    exact absurd hkind (h e he).2.2.1
  names_eq := by
    rw [filter_eq_nil_iff.mpr]
    · rfl
    · intro e he
      rw [decide_eq_true_iff]
      exact (h e he).2.1

def BodyRecord (e : ExpectedReflectionRecord) : Prop :=
  e.kind = .constant ∧ e.values.length ≤ UNITY_COMPILER_REFLECTION_MAX_VALUES

lemma rows_of_body {body : List ExpectedReflectionRecord} (h : ∀ e ∈ body, BodyRecord e)
    (owner : Option Binding) :
    ∀ row ∈ bindingRows owner (body.map ExpectedReflectionRecord.binding), row.2 = owner := by
  induction body with
  | nil => exact nofun
  | cons e body ih =>
    have hkind : e.binding.kind = .constant := (h e mem_cons_self).1
    have hstats : e.binding.kind ≠ .stats := by
      rw [hkind]
      decide
    have howner : ownerBehind owner e.binding = owner := by
      rw [ownerBehind, hkind, if_neg (by decide), if_pos (Or.inl rfl)]
    intro row hrow
    rw [map_cons, bindingRows, if_neg hstats, howner] at hrow
    rcases mem_cons.mp hrow with rfl | hrow
    · rw [rowOf, if_pos hkind]
    · exact ih (forall_mem_cons.mp h).2 row hrow

lemma merged_buffer {record : ExpectedReflectionRecord} {body : List ExpectedReflectionRecord}
    (hkind : record.kind = .constantBuffer) (hvals : record.values.length = 2)
    (hbody : ∀ e ∈ body, BodyRecord e) : Merged (record :: body) [record.binding.name] where
  no_stats := by
    refine forall_mem_cons.mpr ⟨by rw [hkind]; decide, fun e he => ?_⟩
    rw [(hbody e he).1]
    decide
  values_le := by
    refine forall_mem_cons.mpr ⟨by rw [hvals]; decide, fun e he => (hbody e he).2⟩
  buffer_values := by
    refine forall_mem_cons.mpr ⟨fun _ => hvals, fun e he hbuf => ?_⟩
    rw [(hbody e he).1] at hbuf
    cases hbuf
  owned := by
    intro owner row hrow hconst
    have hbind : record.binding.kind = .constantBuffer := hkind
    have hstats : record.binding.kind ≠ .stats := by
      rw [hbind]
      decide
    have howner : ownerBehind owner record.binding = some record.binding := by
      rw [ownerBehind, if_pos hbind]
    rw [map_cons, bindingRows, if_neg hstats, howner] at hrow
    rcases mem_cons.mp hrow with rfl | hrow
    · rw [rowOf, hbind] at hconst
      cases hconst
    · rw [rows_of_body hbody _ row hrow]
      exact Option.some_ne_none _
  names_eq := by
    have hnone : body.filter (fun e => e.kind = .constantBuffer) = [] := by
      apply filter_eq_nil_iff.mpr
      intro e he
      rw [(hbody e he).1]
      decide
    rw [filter_cons_of_pos (by rw [hkind]; decide), hnone]
    rfl

/-! ## The parts -/

lemma append_each_forall {α : Type} {append : α → Option (List ExpectedReflectionRecord)}
    {P : ExpectedReflectionRecord → Prop}
    (h : ∀ a records, append a = some records → ∀ e ∈ records, P e) {items : List α}
    (hrun : append_each append items = some records) : ∀ e ∈ records, P e := by
  induction items generalizing records with
  | nil =>
    rw [← Option.some.inj hrun]
    exact nofun
  | cons a items ih =>
    unfold append_each at hrun
    cases ha : append a with
    | none =>
      rw [ha] at hrun
      nomatch hrun
    | some first =>
      rw [ha] at hrun
      obtain ⟨rest, hrest, rfl⟩ := map_eq_some_iff.mp hrun
      exact forall_mem_append.mpr ⟨h a first ha, ih hrest⟩

variable {shell_size : ℕ}

lemma append_variable_record_body {parameters : SerializedProgramParameters}
    {field : SerializedVariable} {prefix_name : Option CString} {project : Bool}
    (h : append_variable_record parameters field prefix_name shell_size project = some records) :
    ∀ e ∈ records, BodyRecord e := by
  unfold append_variable_record at h
  split at h
  next => nomatch h
  next =>
      rw [← Option.some.inj h]
      exact nofun
  next =>
      rw [← Option.some.inj h]
      intro e he
      rw [mem_singleton.mp he]
      exact ⟨rfl, Nat.le_refl 6⟩

lemma append_struct_records_body {parameters : SerializedProgramParameters} {project : Bool}
    (parameter : SerializedStructParam) (records : List ExpectedReflectionRecord)
    (h : append_struct_records parameters shell_size project parameter = some records) :
    ∀ e ∈ records, BodyRecord e := by
  unfold append_struct_records at h
  dsimp only at h
  split_ifs at h
  · rw [← Option.some.inj h]
    exact nofun
  · obtain ⟨members, hmems, rfl⟩ := map_eq_some_iff.mp h
    refine forall_mem_cons.mpr ⟨⟨rfl, Nat.le_refl 6⟩, ?_⟩
    exact append_each_forall (fun _ _ hmember => append_variable_record_body hmember) hmems

lemma append_buffer_body_records_body (source : ReflectionBufferSource)
    (records : List ExpectedReflectionRecord)
    (h : append_buffer_body_records shell_size source = some records) :
    ∀ e ∈ records, BodyRecord e := by
  unfold append_buffer_body_records at h
  dsimp only at h
  split at h
  next => nomatch h
  next fields hflds =>
      obtain ⟨structures, hstructures, rfl⟩ := map_eq_some_iff.mp h
      refine forall_mem_append.mpr ⟨?_, ?_⟩
      · exact append_each_forall (fun _ _ hfld => append_variable_record_body hfld) hflds
      · exact append_each_forall append_struct_records_body hstructures

lemma merged_append_buffer_records {shell_name : Option CString} {shell_size : UInt32}
    {sources : List ReflectionBufferSource}
    (h : append_buffer_records shell_name shell_size sources = some records) :
    Merged records [shell_name.map CString.bytes] := by
  unfold append_buffer_records at h
  split_ifs at h
  obtain ⟨body, hbody, rfl⟩ := map_eq_some_iff.mp h
  exact merged_buffer rfl rfl (append_each_forall append_buffer_body_records_body hbody)

lemma merged_append_each {α : Type} {append : α → Option (List ExpectedReflectionRecord)}
    {names : α → List (Option Bytes)} {items : List α}
    (h : ∀ a ∈ items, ∀ records, append a = some records → Merged records (names a))
    (hrun : append_each append items = some records) : Merged records (items.flatMap names) := by
  induction items generalizing records with
  | nil =>
    rw [← Option.some.inj hrun]
    exact merged_plain nofun
  | cons a items ih =>
    unfold append_each at hrun
    cases ha : append a with
    | none =>
      rw [ha] at hrun
      nomatch hrun
    | some first =>
      rw [ha] at hrun
      obtain ⟨rest, hrest, rfl⟩ := map_eq_some_iff.mp hrun
      have hfst := h a mem_cons_self first ha
      exact hfst.append (ih (forall_mem_cons.mp h).2 hrest)

/-! ## Names -/

def bufferName (buffer : SerializedConstantBuffer) : Option Bytes :=
  buffer.name.map CString.bytes

def namedNames (keep : SerializedConstantBuffer → Bool) (buffers : List SerializedConstantBuffer) :
    List (Option Bytes) :=
  buffers.flatMap fun buffer =>
    if buffer.role = .named ∧ keep buffer then [bufferName buffer] else []

variable {buffers : List SerializedConstantBuffer}

lemma mem_namedNames {keep : SerializedConstantBuffer → Bool} {name : Option Bytes} :
    name ∈ namedNames keep buffers ↔
      ∃ buffer ∈ buffers, buffer.role = .named ∧ keep buffer = true ∧ bufferName buffer = name := by
  unfold namedNames
  rw [mem_flatMap]
  constructor
  · rintro ⟨buffer, hbuf, hname⟩
    by_cases hkeep : buffer.role = .named ∧ keep buffer = true
    · rw [if_pos hkeep, mem_singleton] at hname
      exact ⟨buffer, hbuf, hkeep.1, hkeep.2, hname.symm⟩
    · rw [if_neg hkeep] at hname
      nomatch hname
  · rintro ⟨buffer, hbuf, hrole, hkeep, rfl⟩
    refine ⟨buffer, hbuf, ?_⟩
    rw [if_pos ⟨hrole, hkeep⟩]
    exact mem_singleton_self _

lemma names_equal_iff {left right : Option CString} (h : right ≠ none) :
    names_equal left right = true ↔ left.map CString.bytes = right.map CString.bytes := by
  match left, right with
  | _, none => exact absurd rfl h
  | none, some _ => exact iff_of_false Bool.false_ne_true (by simp)
  | some left, some right =>
    rw [map_some, map_some, Option.some.injEq]
    exact decide_eq_true_iff

/-- The names of an accepted block: they are there, and the named buffers differ. -/
theorem names_of_valid {expect_binary saw : Bool} {prior : List SerializedConstantBuffer}
    (h : constant_buffers_are_valid expect_binary saw prior buffers = true) :
    (∀ buffer ∈ buffers, buffer.name ≠ none) ∧
      ((prior.Pairwise fun a b => a.role = .named → b.role = .named → bufferName a ≠ bufferName b) →
        (prior ++ buffers).Pairwise fun a b =>
          a.role = .named → b.role = .named → bufferName a ≠ bufferName b) := by
  induction buffers generalizing saw prior with
  | nil =>
    refine ⟨fun buffer hbuf => (nomatch hbuf), ?_⟩
    rw [append_nil]
    exact id
  | cons buffer buffers ih =>
    unfold constant_buffers_are_valid at h
    split_ifs at h with h1 h2 h3 h4 h5
    obtain ⟨hthere, hdiffer⟩ := ih h
    have hname : buffer.name ≠ none := fun hnone => h1 (Or.inl hnone)
    refine ⟨forall_mem_cons.mpr ⟨hname, hthere⟩, ?_⟩
    intro hprior
    rw [append_cons]
    apply hdiffer
    rw [pairwise_append]
    refine ⟨hprior, pairwise_singleton _ _, ?_⟩
    intro other hother _ hbuf hrole hnamed heq
    rw [mem_singleton] at hbuf
    subst hbuf
    apply h5
    rw [any_eq_true]
    refine ⟨other, hother, decide_eq_true ⟨hnamed, hrole, ?_⟩⟩
    exact (names_equal_iff hname).mpr heq

lemma nodup_namedNames {keep : SerializedConstantBuffer → Bool}
    (h : buffers.Pairwise fun a b => a.role = .named → b.role = .named →
      bufferName a ≠ bufferName b) : (namedNames keep buffers).Nodup := by
  induction buffers with
  | nil => exact nodup_nil
  | cons buffer buffers ih =>
    obtain ⟨hhead, htail⟩ := pairwise_cons.mp h
    unfold namedNames
    rw [flatMap_cons]
    by_cases hkeep : buffer.role = .named ∧ keep buffer = true
    · rw [if_pos hkeep, singleton_append, nodup_cons]
      refine ⟨?_, ih htail⟩
      intro hmem
      obtain ⟨other, hother, hrole, -, heq⟩ := mem_namedNames.mp hmem
      exact hhead other hother hkeep.1 hrole heq.symm
    · rw [if_neg hkeep, nil_append]
      exact ih htail

/-! ## The merge -/

section

variable {common : SerializedProgramParameters} {residual : Option SerializedProgramParameters}
  {parameters : SerializedProgramParameters} {name : Option CString}
  {buffer : SerializedConstantBuffer}

lemma find_named_constant_buffer_some (hname : name ≠ none)
    (h : find_named_constant_buffer parameters name = some buffer) :
    bufferName buffer = name.map CString.bytes := by
  have hfound := find?_some h
  rw [decide_eq_true_iff] at hfound
  exact (names_equal_iff hname).mp hfound.2

lemma find_named_constant_buffer_none (hname : name ≠ none)
    (h : find_named_constant_buffer parameters name = none)
    (hbuf : buffer ∈ parameters.constant_buffers.toList) (hrole : buffer.role = .named) :
    bufferName buffer ≠ name.map CString.bytes := by
  intro heq
  have hnone := find?_eq_none.mp h buffer hbuf
  exact hnone (decide_eq_true ⟨hrole, (names_equal_iff hname).mpr heq⟩)

variable {records : List ExpectedReflectionRecord}

lemma merged_append_common_buffer (hname : buffer.name ≠ none)
    (h : append_common_buffer common residual buffer = some records) :
    Merged records (if buffer.role = .named ∧ true then [bufferName buffer] else []) := by
  unfold append_common_buffer at h
  by_cases hrole : buffer.role = .named
  · rw [if_neg (not_not.mpr hrole)] at h
    rw [if_pos ⟨hrole, rfl⟩]
    dsimp only at h
    cases hrow : buffer.has_is_partial && buffer.is_partial with
    | false =>
      rw [hrow] at h
      simp only [Bool.not_false, true_and, Bool.false_eq_true, false_and, or_false, if_false] at h
      by_cases hfound : (residual.bind fun residual =>
          find_named_constant_buffer residual buffer.name).isSome = true
      · rw [if_pos hfound] at h
        nomatch h
      · rw [if_neg hfound] at h
        exact merged_append_buffer_records h
    | true =>
      rw [hrow] at h
      cases hfound : residual.bind fun residual =>
          find_named_constant_buffer residual buffer.name with
      | none =>
        rw [hfound] at h
        simp at h
      | some shell =>
        rw [hfound] at h
        simp only [Bool.not_true, Bool.false_eq_true, false_and, reduceCtorEq, and_false,
          or_self, if_false, if_true, Option.getD_some] at h
        obtain ⟨block, -, hblock⟩ := bind_eq_some_iff.mp hfound
        rw [bufferName, ← find_named_constant_buffer_some hname hblock]
        exact merged_append_buffer_records h
  · rw [if_pos hrole] at h
    rw [if_neg fun hboth => hrole hboth.1, ← Option.some.inj h]
    exact merged_plain nofun

lemma merged_append_residual_buffer {residual : SerializedProgramParameters}
    (h : append_residual_buffer common residual buffer = some records) :
    Merged records (if buffer.role = .named ∧
      (find_named_constant_buffer common buffer.name).isNone then [bufferName buffer] else []) := by
  unfold append_residual_buffer at h
  by_cases hrole : buffer.role = .named
  · rw [if_neg (not_not.mpr hrole)] at h
    by_cases hfound : (find_named_constant_buffer common buffer.name).isSome = true
    · rw [if_pos hfound] at h
      rw [if_neg, ← Option.some.inj h]
      · exact merged_plain nofun
      · rintro ⟨-, hnone⟩
        rw [isNone_iff_eq_none] at hnone
        rw [hnone] at hfound
        nomatch hfound
    · rw [if_neg hfound] at h
      have hnone := isNone_iff_eq_none.mpr (Option.not_isSome_iff_eq_none.mp hfound)
      rw [if_pos ⟨hrole, hnone⟩]
      exact merged_append_buffer_records h
  · rw [if_pos hrole] at h
    rw [if_neg fun hboth => hrole hboth.1, ← Option.some.inj h]
    exact merged_plain nofun

lemma append_input_records_plain (player : PlayerSubProgramMetadata) :
    Merged (append_input_records player) [] := by
  apply merged_plain
  intro e he
  obtain ⟨channel, -, rfl⟩ := mem_map.mp he
  exact ⟨nofun, nofun, nofun, (by decide : 2 ≤ 6)⟩

lemma append_resource_records_plain (parameters : SerializedProgramParameters) :
    Merged (append_resource_records parameters) [] := by
  apply merged_plain
  intro e he
  obtain ⟨resource, -, rfl⟩ := mem_map.mp he
  unfold resource_record
  cases resource.bind_type with
  | texture => exact ⟨nofun, nofun, nofun, (by decide : 4 ≤ 6)⟩
  | constantBuffer => exact ⟨nofun, nofun, nofun, (by decide : 1 ≤ 6)⟩
  | buffer => exact ⟨nofun, nofun, nofun, (by decide : 2 ≤ 6)⟩
  | uav => exact ⟨nofun, nofun, nofun, (by decide : 2 ≤ 6)⟩
  | sampler => exact ⟨nofun, nofun, nofun, (by decide : 2 ≤ 6)⟩

def residualNames (common : SerializedProgramParameters)
    (residual : Option SerializedProgramParameters) : List (Option Bytes) :=
  match residual with
  | none => []
  | some residual =>
    namedNames (fun buffer => (find_named_constant_buffer common buffer.name).isNone)
      residual.constant_buffers.toList

/-- Loose parameters get a shell of their own only when nothing else is called `$Globals`. -/
theorem merged_append_loose_globals (h : append_loose_globals common residual = some records) :
    Merged records [] ∨ has_named_globals common residual = false ∧
      Merged records [some (asciiBytes "$Globals")] := by
  unfold append_loose_globals at h
  dsimp only at h
  by_cases hloose : (!has_named_globals common residual) = true ∧
      (loose_buffer_has_body (find_loose_parameter_buffer common) = true ∨
        loose_buffer_has_body (residual.bind find_loose_parameter_buffer) = true)
  · right
    rw [if_pos hloose] at h
    refine ⟨?_, merged_append_buffer_records h⟩
    rw [← Bool.not_eq_true']
    exact hloose.1
  · left
    rw [if_neg hloose] at h
    rw [← Option.some.inj h]
    exact merged_plain nofun

lemma name_is_iff {text : String} :
    name_is name text = true ↔ name.map CString.bytes = some (asciiBytes text) := by
  unfold name_is
  exact decide_eq_true_iff

lemma globals_notMem (h : has_named_globals common residual = false) :
    some (asciiBytes "$Globals") ∉
      namedNames (fun _ => true) common.constant_buffers.toList ++ residualNames common residual := by
  unfold has_named_globals at h
  rw [Bool.or_eq_false_iff] at h
  obtain ⟨hcom, hresid⟩ := h
  intro hmem
  rcases mem_append.mp hmem with hmem | hmem
  · obtain ⟨buffer, hbuf, hrole, -, hname⟩ := mem_namedNames.mp hmem
    have hnot := any_eq_false.mp hcom buffer hbuf
    exact hnot (decide_eq_true ⟨hrole, name_is_iff.mpr hname⟩)
  · unfold residualNames at hmem
    cases residual with
    | none => nomatch hmem
    | some residual =>
      obtain ⟨buffer, hbuf, hrole, hnone, hname⟩ := mem_namedNames.mp hmem
      rw [any_some] at hresid
      have hnot := any_eq_false.mp hresid buffer hbuf
      exact hnot (decide_eq_true ⟨hrole, isNone_iff_eq_none.mp hnone, name_is_iff.mpr hname⟩)

lemma valid_buffers {expect_binary : Bool}
    (h : parameter_block_shape_is_valid parameters expect_binary = true) :
    constant_buffers_are_valid expect_binary false [] parameters.constant_buffers.toList = true := by
  unfold parameter_block_shape_is_valid at h
  split_ifs at h with h1 h2
  rwa [Bool.not_eq_true', Bool.not_eq_false] at h2

lemma nodup_shell_names (hcom : parameter_block_shape_is_valid common false = true)
    (hresid : ∀ block, residual = some block → parameter_block_shape_is_valid block true = true) :
    (namedNames (fun _ => true) common.constant_buffers.toList ++
      residualNames common residual).Nodup := by
  have hnames := (names_of_valid (valid_buffers hcom)).2 List.Pairwise.nil
  rw [nil_append] at hnames
  cases residual with
  | none =>
    rw [residualNames, append_nil]
    exact nodup_namedNames hnames
  | some block =>
    obtain ⟨hthere, hdiffer⟩ := names_of_valid (valid_buffers (hresid block rfl))
    have hdiffer := hdiffer List.Pairwise.nil
    rw [nil_append] at hdiffer
    refine (nodup_namedNames hnames).append (nodup_namedNames hdiffer) ?_
    intro name hleft hright
    obtain ⟨buffer, hbuf, hrole, -, rfl⟩ := mem_namedNames.mp hleft
    obtain ⟨other, hother, -, hnone, heq⟩ := mem_namedNames.mp hright
    exact find_named_constant_buffer_none (hthere other hother)
      (isNone_iff_eq_none.mp hnone) hbuf hrole heq.symm

lemma merged_append_residual_buffers (h : append_residual_buffers common residual = some records)
    : Merged records (residualNames common residual) := by
  unfold append_residual_buffers at h
  unfold residualNames
  cases residual with
  | none =>
    rw [← Option.some.inj h]
    exact merged_plain nofun
  | some block =>
    exact merged_append_each (fun _ _ _ hbuf => merged_append_residual_buffer hbuf) h

lemma merged_residual_resources (residual : Option SerializedProgramParameters) :
    Merged ((residual.map append_resource_records).getD []) [] := by
  cases residual with
  | none => exact merged_plain nofun
  | some block => exact append_resource_records_plain block

lemma merged_of_build {player : PlayerSubProgramMetadata}
    {expected : List ExpectedReflectionRecord}
    (h : build_merged_expected_records player common residual = some expected) :
    ∃ names, Merged expected names ∧ names.Nodup := by
  unfold build_merged_expected_records at h
  split_ifs at h with hinv
  simp only [not_or, Bool.not_eq_true', Bool.not_eq_false] at hinv
  obtain ⟨-, hcom, hresid⟩ := hinv
  have hresid : ∀ block, residual = some block →
      parameter_block_shape_is_valid block true = true := by
    rintro block rfl
    rwa [any_some, Bool.not_eq_true', Bool.not_eq_false] at hresid
  obtain ⟨common_records, hcommonRun, h⟩ := bind_eq_some_iff.mp h
  obtain ⟨residual_records, hresidualRun, h⟩ := bind_eq_some_iff.mp h
  obtain ⟨loose_records, hlooseRun, h⟩ := bind_eq_some_iff.mp h
  rw [← Option.some.inj h]
  have hnames := (names_of_valid (valid_buffers hcom)).1
  have hcommonPart := merged_append_each
    (fun buffer hbuf _ hrun => merged_append_common_buffer (hnames buffer hbuf) hrun)
    hcommonRun
  have hblocks := ((append_input_records_plain player).append hcommonPart).append
    (merged_append_residual_buffers hresidualRun)
  have hnodup := nodup_shell_names hcom hresid
  -- Resources come last and have no constant buffer among them.
  have hress : ∀ names, Merged (append_input_records player ++ common_records ++
      residual_records ++ loose_records) names → Merged (append_input_records player ++
        common_records ++ residual_records ++ loose_records ++ append_resource_records common ++
          (residual.map append_resource_records).getD []) names := by
    intro names hmrg
    have hall := (hmrg.append (append_resource_records_plain common)).append
      (merged_residual_resources residual)
    rwa [append_nil, append_nil] at hall
  rcases merged_append_loose_globals hlooseRun with hloose | ⟨hglobals, hloose⟩
  · refine ⟨_, hress _ (hblocks.append hloose), ?_⟩
    rw [append_nil, nil_append]
    exact hnodup
  · refine ⟨_, hress _ (hblocks.append hloose), ?_⟩
    rw [nil_append]
    refine hnodup.append (nodup_singleton _) ?_
    intro name hname hsingle
    rw [mem_singleton.mp hsingle] at hname
    exact globals_notMem hglobals hname

/-- **The shape of the merge.** -/
theorem expectedShape_of_build {player : PlayerSubProgramMetadata}
    {expected : List ExpectedReflectionRecord}
    (h : build_merged_expected_records player common residual = some expected) :
    ExpectedShape expected := by
  obtain ⟨names, hmrg, hnodup⟩ := merged_of_build h
  refine ⟨hmrg.no_stats, hmrg.values_le, hmrg.buffer_values, ?_, hmrg.owned none⟩
  rw [← hmrg.names_eq, List.Nodup, pairwise_map, pairwise_filter] at hnodup
  apply hnodup.imp
  intro a b hne ha hb heq
  exact hne (decide_eq_true ha) (decide_eq_true hb) (congrArg Binding.name heq)

end

end DXBCSandbox
