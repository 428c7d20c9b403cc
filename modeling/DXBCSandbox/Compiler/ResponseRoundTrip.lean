/-
Replay of cached responses (`src/compiler/unity_compiler_cache.c`).

A response of texts is a response of buffers in which every buffer is a whole text. Under that view
an encoder and a decoder are inverse, up to the size that an encoder allows. A decoder also reads
what no encoder writes: strings with NULs, results of version 4, and payloads beyond the size.
-/
import DXBCSandbox.Common.VariantKeyCodec
import DXBCSandbox.Compiler.ResponseCodecSpec

namespace DXBCSandbox

open List Option

namespace ResponseCodec

open CacheStore (USC_CACHE_MAX_OUTPUT_SIZE)

/-! ## Other strings -/

section Map

variable {S T : Type} (f : S → T)

def UnityCompilerDiagnostic.map (diagnostic : UnityCompilerDiagnostic S) :
    UnityCompilerDiagnostic T :=
  ⟨diagnostic.fields, f diagnostic.record, f diagnostic.file, f diagnostic.message⟩

def UnityCompilerResponseStatus.map (status : UnityCompilerResponseStatus S) :
    UnityCompilerResponseStatus T :=
  ⟨status.availability, status.compiler_success, status.diagnostics.map (.map f)⟩

def ConditionalShaderRequirement.map (requirement : ConditionalShaderRequirement S) :
    ConditionalShaderRequirement T :=
  ⟨f requirement.keyword, requirement.requirements⟩

def SnippetProgramKeywordVariants.map (program : SnippetProgramKeywordVariants S) :
    SnippetProgramKeywordVariants T :=
  ⟨program.compiler_program, Option.map (List.map f) program.user_global,
    Option.map (List.map f) program.user_local, Option.map (List.map f) program.builtin⟩

def SnippetCompileContract.map (contract : SnippetCompileContract S) : SnippetCompileContract T where
  snippet_id := contract.snippet_id
  platforms := contract.platforms
  quality_variants := contract.quality_variants
  program_types_mask := contract.program_types_mask
  compilation_flags := contract.compilation_flags
  language := contract.language
  source_hash := contract.source_hash
  start_line := contract.start_line
  use_dxc_apis := contract.use_dxc_apis
  never_use_dxc_apis := contract.never_use_dxc_apis
  program_keyword_variants := contract.program_keyword_variants.map (.map f)
  non_stripped_user_keywords := contract.non_stripped_user_keywords.map f
  builtin_keywords := contract.builtin_keywords.map f
  requirements := contract.requirements
  conditional_requirements := contract.conditional_requirements.map (.map f)

def PreprocessedSnippet.map (snippet : PreprocessedSnippet S) : PreprocessedSnippet T :=
  ⟨f snippet.source, snippet.reqs, snippet.language, snippet.gpu_program_id,
    snippet.conditional_requirements.map (.map f), Option.map (.map f) snippet.contract⟩

def PreprocessResult.map (result : PreprocessResult S) : PreprocessResult T :=
  ⟨result.snippets.map (.map f), result.blob, Option.map (List.map f) result.includes,
    Option.map (List.map f) result.probed_paths⟩

def UnityCompilerPreprocessResponse.map (response : UnityCompilerPreprocessResponse S) :
    UnityCompilerPreprocessResponse T :=
  ⟨response.status.map f, response.result.map f⟩

def ReflectionEntry.map (entry : ReflectionEntry S) : ReflectionEntry T :=
  ⟨entry.content, f entry.record⟩

def UnityCompilerBinaryResponse.map (response : UnityCompilerBinaryResponse S) :
    UnityCompilerBinaryResponse T :=
  ⟨response.status.map f, response.reflection_records.map (.map f), response.data⟩

/-! ### Spellings -/

variable (bytesOf : T → Bytes)

lemma countedBytes_map {α β : Type} (g : α → β) (spelling : β → Bytes) (items : List α) :
    countedBytes spelling (items.map g) = countedBytes (fun item => spelling (g item)) items := by
  rw [countedBytes, countedBytes, length_map, flatMap_map]

lemma statusBytes_map (status : UnityCompilerResponseStatus S) :
    statusBytes bytesOf (status.map f) = statusBytes (fun s => bytesOf (f s)) status := by
  rw [statusBytes, statusBytes, UnityCompilerResponseStatus.map, countedBytes_map]
  rfl

lemma optionalBytes_map (values : Option (List S)) :
    optionalBytes bytesOf (values.map (List.map f)) =
      optionalBytes (fun s => bytesOf (f s)) values := by
  cases values with
  | none => rfl
  | some values =>
    rw [Option.map_some, optionalBytes, optionalBytes, stringsBytes, stringsBytes, countedBytes_map]

lemma programBytes_map (program : SnippetProgramKeywordVariants S) :
    programBytes bytesOf (program.map f) = programBytes (fun s => bytesOf (f s)) program := by
  simp only [programBytes, SnippetProgramKeywordVariants.map, optionalBytes_map]

lemma contractBytes_map (contract : SnippetCompileContract S) :
    contractBytes bytesOf (contract.map f) = contractBytes (fun s => bytesOf (f s)) contract := by
  simp only [contractBytes, SnippetCompileContract.map, stringsBytes, countedBytes_map,
    programBytes_map]
  rfl

lemma snippetBytes_map (snippet : PreprocessedSnippet S) :
    snippetBytes bytesOf (snippet.map f) = snippetBytes (fun s => bytesOf (f s)) snippet := by
  obtain ⟨source, reqs, language, gpu_program_id, conditional, contract⟩ := snippet
  cases contract with
  | none =>
    simp only [snippetBytes, snippetBody, PreprocessedSnippet.map, map_none, countedBytes_map]
    rfl
  | some contract =>
    simp only [snippetBytes, snippetBody, PreprocessedSnippet.map, Option.map_some,
      contractBytes_map]
    rfl

lemma resultBytes_map (result : PreprocessResult S) :
    resultBytes bytesOf (result.map f) = resultBytes (fun s => bytesOf (f s)) result := by
  simp only [resultBytes, resultBody, PreprocessResult.map, length_map, flatMap_map,
    snippetBytes_map, optionalBytes_map]

lemma envelopeBytes_map (status : UnityCompilerResponseStatus S) (preprocess_data : Bytes) :
    envelopeBytes bytesOf (status.map f) preprocess_data =
      envelopeBytes (fun s => bytesOf (f s)) status preprocess_data := by
  rw [envelopeBytes, envelopeBytes, statusBytes_map]

lemma binaryBytes_map (response : UnityCompilerBinaryResponse S) :
    binaryBytes bytesOf (response.map f) = binaryBytes (fun s => bytesOf (f s)) response := by
  rw [binaryBytes, binaryBytes, UnityCompilerBinaryResponse.map, statusBytes_map, countedBytes_map]
  rfl

/-! ### Validity -/

variable (text : T → CString)

lemma status_is_valid_map (status : UnityCompilerResponseStatus S) :
    cache_response_status_is_valid text (status.map f) =
      cache_response_status_is_valid (fun s => text (f s)) status := by
  simp only [cache_response_status_is_valid, UnityCompilerResponseStatus.map, List.length_map,
    List.all_map]
  rfl

lemma valid_program_map (program : SnippetProgramKeywordVariants S) :
    valid_program (program.map f) = valid_program program := by
  have hset : ∀ set : SnippetKeywordVariantSet S,
      valid_variant_set (Option.map (map f) set) = valid_variant_set set := by
    intro set
    cases set with
    | none => rfl
    | some values => simp [valid_variant_set]
  simp only [valid_program, SnippetProgramKeywordVariants.map, hset]

lemma distinct_programs_map (programs : List (SnippetProgramKeywordVariants S)) :
    distinct_programs (programs.map (.map f)) = distinct_programs programs := by
  induction programs with
  | nil => rfl
  | cons program programs ih =>
    rw [List.map_cons, distinct_programs, distinct_programs, ih, List.all_map]
    rfl

lemma contract_validate_map (contract : SnippetCompileContract S) :
    unity_compiler_snippet_contract_validate text (contract.map f) =
      unity_compiler_snippet_contract_validate (fun s => text (f s)) contract := by
  simp only [unity_compiler_snippet_contract_validate, SnippetCompileContract.map,
    valid_owned_string_array, List.length_map, List.all_map, distinct_programs_map,
    Function.comp_def, valid_program_map]
  rfl

lemma snippetOk_map (snippet : PreprocessedSnippet S) :
    SnippetOk text (snippet.map f) ↔ SnippetOk (fun s => text (f s)) snippet := by
  obtain ⟨source, reqs, language, gpu_program_id, conditional, contract⟩ := snippet
  cases contract with
  | none => simp [SnippetOk, PreprocessedSnippet.map]
  | some contract => simp [SnippetOk, PreprocessedSnippet.map, contract_validate_map]

lemma pathsOk_map (paths : UnityCompilerDependencyPaths S) :
    PathsOk text (Option.map (List.map f) paths) ↔ PathsOk (fun s => text (f s)) paths := by
  cases paths with
  | none => simp [PathsOk]
  | some paths => simp [PathsOk]

lemma resultOk_map (result : PreprocessResult S) :
    ResultOk text (result.map f) ↔ ResultOk (fun s => text (f s)) result := by
  have hcnt : (result.map f).snippets.length = result.snippets.length := length_map _
  have hsnips : (∀ snippet ∈ (result.map f).snippets, SnippetOk text snippet) ↔
      ∀ snippet ∈ result.snippets, SnippetOk (fun s => text (f s)) snippet := by
    simp [PreprocessResult.map, snippetOk_map]
  constructor
  · rintro ⟨h1, h2, h3, h4⟩
    exact ⟨hcnt ▸ h1, hsnips.mp h2, (pathsOk_map f text _).mp h3, (pathsOk_map f text _).mp h4⟩
  · rintro ⟨h1, h2, h3, h4⟩
    exact ⟨hcnt ▸ h1, hsnips.mpr h2, (pathsOk_map f text _).mpr h3, (pathsOk_map f text _).mpr h4⟩

lemma binaryOk_map (response : UnityCompilerBinaryResponse S) :
    BinaryOk text (response.map f) ↔ BinaryOk (fun s => text (f s)) response := by
  have hcnt : (response.map f).reflection_records.length =
      response.reflection_records.length := length_map _
  have hents : (∀ entry ∈ (response.map f).reflection_records, EntryOk text entry) ↔
      ∀ entry ∈ response.reflection_records, EntryOk (fun s => text (f s)) entry := by
    simp [UnityCompilerBinaryResponse.map, EntryOk, ReflectionEntry.map]
  constructor
  · rintro ⟨h1, h2, h3, h4⟩
    exact ⟨h1, (status_is_valid_map f text _).symm.trans h2, hcnt ▸ h3, hents.mp h4⟩
  · rintro ⟨h1, h2, h3, h4⟩
    exact ⟨h1, (status_is_valid_map f text _).trans h2, hcnt ▸ h3, hents.mpr h4⟩

lemma mirrors_map {f : S → T} {snippet : PreprocessedSnippet S} (h : Mirrors snippet) :
    Mirrors (snippet.map f) := by
  intro contract hctr
  obtain ⟨inner, hinner, rfl⟩ := map_eq_some_iff.mp hctr
  obtain ⟨h1, h2, h3, h4⟩ := h inner hinner
  exact ⟨h1, h2, h3, congrArg (map (ConditionalShaderRequirement.map f)) h4⟩

end Map

/-! ## Inputs -/

lemma textOf_bytes (s : CString) : textOf s.bytes = s := by
  have hbytes : (textOf s.bytes).bytes = s.bytes := by
    refine takeWhile_eq_self_iff.mpr fun c hc => ?_
    rw [bne_iff_ne]
    rintro rfl
    exact s.no_nul hc
  exact CString.ext_bytes hbytes

lemma textOf_comp_bytes : (fun s : CString => textOf s.bytes) = id := funext textOf_bytes

variable {α : Type} {zeroed : α} {output : Option α}

lemma outputOf_eq_true {value : α} :
    outputOf zeroed output = (true, value) ↔ output = some value := by
  cases output with
  | none => simp [outputOf]
  | some other => simp [outputOf]

lemma outputOf_fst : (outputOf zeroed output).1 = true ↔ ∃ value, output = some value := by
  cases output with
  | none => simp [outputOf]
  | some other => simp [outputOf]

lemma outputOf_rejected (h : (outputOf zeroed output).1 = false) :
    (outputOf zeroed output).2 = zeroed := by
  cases output with
  | none => rfl
  | some other => exact absurd h (by simp [outputOf])

variable {data : Bytes}

lemma deserialize_result_iff (hsize : data.length ≤ SIZE_MAX) {result : PreprocessResult Buffer} :
    usc_cache_deserialize_preprocess_result data = (true, result) ↔ ResultSpells result data := by
  rw [usc_cache_deserialize_preprocess_result, outputOf_eq_true, decoded_eq_some accepts_result hsize]

lemma deserialize_binary_iff (hsize : data.length ≤ SIZE_MAX)
    {response : UnityCompilerBinaryResponse Buffer} :
    usc_cache_deserialize_binary_response data = (true, response) ↔
      BinaryOk textOf response ∧ data = binaryBytes (fun buffer => buffer) response := by
  rw [usc_cache_deserialize_binary_response, outputOf_eq_true, decoded_eq_some decodes_binary hsize]

def ResponseSpells (response : UnityCompilerPreprocessResponse Buffer) (data : Bytes) : Prop :=
  ∃ payload, (response.status.compiler_success = true ∧
      cache_response_status_is_valid textOf response.status = true) ∧
    data = envelopeBytes (fun buffer => buffer) response.status payload ∧
    ResultSpells response.result payload

lemma payload_le {status : UnityCompilerResponseStatus Buffer} {payload : Bytes}
    (hsize : (envelopeBytes (fun buffer => buffer) status payload).length ≤ SIZE_MAX) :
    payload.length ≤ SIZE_MAX := by
  simp only [envelopeBytes, sizedBytes, length_append] at hsize
  omega

lemma deserialize_response_iff (hsize : data.length ≤ SIZE_MAX)
    {response : UnityCompilerPreprocessResponse Buffer} :
    usc_cache_deserialize_preprocess_response data = (true, response) ↔
      ResponseSpells response data := by
  rw [usc_cache_deserialize_preprocess_response, outputOf_eq_true]
  simp only [bind_eq_bind, bind_eq_some_iff, some_inj, Prod.exists,
    decoded_eq_some accepts_envelope hsize]
  constructor
  · rintro ⟨status, payload, ⟨hstat, rfl⟩, result, hres, rfl⟩
    exact ⟨payload, hstat, rfl, (decoded_eq_some accepts_result (payload_le hsize)).mp hres⟩
  · rintro ⟨payload, hstat, rfl, hres⟩
    exact ⟨response.status, payload, ⟨hstat, rfl⟩, response.result,
      (decoded_eq_some accepts_result (payload_le hsize)).mpr hres, rfl⟩

/-! ## Replay -/

/-- **Replay.** What was written is read back, and what is read is what would be written. No input is
accepted with something behind it, and a rejected one leaves the output zeroed. -/
structure ExactReplay {R B : Type} (serialize : R → Option Bytes)
    (deserialize : Bytes → Bool × B) (buffers : R → B) (zeroed : B) (Live : R → Prop)
    (Current : Bytes → Prop) : Prop where
  replay : ∀ response data, Live response → serialize response = some data →
    deserialize data = (true, buffers response)
  canonical : ∀ data response, data.length ≤ USC_CACHE_MAX_OUTPUT_SIZE → Current data →
    deserialize data = (true, buffers response) → serialize response = some data
  whole : ∀ data rest, rest ≠ [] → (data ++ rest).length ≤ SIZE_MAX →
    (deserialize data).1 = false ∨ (deserialize (data ++ rest)).1 = false
  reserved : ∀ data, data.length ≤ SIZE_MAX → (deserialize data).1 = true →
    slice data 12 4 = [0, 0, 0, 0]
  rejected : ∀ data, (deserialize data).1 = false → (deserialize data).2 = zeroed

/-- The snippets of a live result have the fields of their contracts. -/
def LiveResult (result : PreprocessResult CString) : Prop :=
  ∀ snippet ∈ result.snippets, Mirrors snippet

def CurrentResult (data : Bytes) : Prop := data.take 8 = preprocess_result_magic

/-- A response around a result of version 5. -/
def CurrentResponse (data : Bytes) : Prop :=
  ∃ status payload, decoded decoder_preprocess_envelope data = some (status, payload) ∧
    CurrentResult payload

lemma le_size_max {n : ℕ} (h : n ≤ USC_CACHE_MAX_OUTPUT_SIZE) : n ≤ SIZE_MAX := by
  unfold USC_CACHE_MAX_OUTPUT_SIZE at h
  unfold SIZE_MAX
  omega

lemma resultSpells_of_live {result : PreprocessResult CString} (hlive : LiveResult result)
    (hok : ResultOk id result) :
    ResultSpells (result.map CString.bytes) (resultBytes CString.bytes result) := by
  refine ⟨⟨(resultOk_map _ _ _).mpr ?_, fun snippet hsnip => ?_⟩, .inl ?_⟩
  · rw [textOf_comp_bytes]
    exact hok
  · obtain ⟨inner, hinner, rfl⟩ := mem_map.mp hsnip
    exact mirrors_map (hlive inner hinner)
  · rw [resultBytes_map]

lemma result_of_spells {result : PreprocessResult CString} {data : Bytes}
    (h : ResultSpells (result.map CString.bytes) data) (hcur : CurrentResult data) :
    ResultOk id result ∧ data = resultBytes CString.bytes result := by
  obtain ⟨⟨hok, -⟩, hspelling⟩ := h
  rw [resultOk_map, textOf_comp_bytes] at hok
  rcases hspelling with rfl | ⟨-, -, rfl⟩
  · rw [resultBytes_map]
    exact ⟨hok, rfl⟩
  · have hmagic : asciiBytes "USCPREP4" = preprocess_result_magic := hcur
    exact absurd hmagic (by decide)

lemma reserved_zero {magic rest : Bytes} (hmagic : magic.length = 8) (version : UInt32) :
    slice (magic ++ (wordBytes version ++ (wordBytes 0 ++ rest))) 12 4 = [0, 0, 0, 0] := by
  have hfront : (magic ++ wordBytes version).length = 12 := by
    rw [length_append, hmagic, wordBytes, length_leBytes]
  rw [← append_assoc]
  exact slice_middle (magic ++ wordBytes version) (wordBytes 0) rest hfront.symm rfl

lemma result_replay : ExactReplay usc_cache_serialize_preprocess_result
    usc_cache_deserialize_preprocess_result (.map CString.bytes) .zeroed LiveResult CurrentResult where
  replay result data hlive hdata := by
    obtain ⟨hok, hfit, rfl⟩ := serialize_preprocess_result_eq_some.mp hdata
    exact (deserialize_result_iff (le_size_max hfit)).mpr (resultSpells_of_live hlive hok)
  canonical data result hfit hcur hdata := by
    have hspells := (deserialize_result_iff (le_size_max hfit)).mp hdata
    obtain ⟨hok, rfl⟩ := result_of_spells hspells hcur
    exact serialize_preprocess_result_eq_some.mpr ⟨hok, hfit, rfl⟩
  whole data rest hrest hsize := by
    by_contra hboth
    simp only [not_or, Bool.not_eq_false, usc_cache_deserialize_preprocess_result,
      outputOf_fst] at hboth
    obtain ⟨⟨value, hval⟩, other, hother⟩ := hboth
    exact decoded_append accepts_result hrest hsize hval hother
  reserved data hsize hdata := by
    obtain ⟨result, hres⟩ := outputOf_fst.mp hdata
    obtain ⟨-, rfl | ⟨-, -, rfl⟩⟩ := (decoded_eq_some accepts_result hsize).mp hres
    · simp only [resultBytes, resultBody, append_assoc]
      exact reserved_zero rfl 5
    · simp only [oldResultBytes, resultBody]
      exact reserved_zero rfl 4
  rejected data hdata := outputOf_rejected hdata

/-- The snippets of a live response have the fields of their contracts. -/
def LiveResponse (response : UnityCompilerPreprocessResponse CString) : Prop :=
  LiveResult response.result

lemma status_buffers_is_valid {status : UnityCompilerResponseStatus CString} :
    cache_response_status_is_valid textOf (status.map CString.bytes) =
      cache_response_status_is_valid id status := by
  rw [status_is_valid_map, textOf_comp_bytes]

/-- **Written responses.** A live response that was written is read back. -/
theorem response_read_back {response : UnityCompilerPreprocessResponse CString} {data : Bytes}
    (hlive : LiveResponse response)
    (hdata : usc_cache_serialize_preprocess_response response = some data) :
    usc_cache_deserialize_preprocess_response data = (true, response.map CString.bytes) := by
  obtain ⟨⟨hsucc, hstat, hok⟩, hfit, rfl⟩ := serialize_preprocess_response_eq_some.mp hdata
  refine (deserialize_response_iff (le_size_max hfit)).mpr
    ⟨resultBytes CString.bytes response.result, ⟨hsucc, ?_⟩, ?_, resultSpells_of_live hlive hok⟩
  · exact status_buffers_is_valid.trans hstat
  · exact (envelopeBytes_map CString.bytes (fun buffer => buffer) response.status _).symm

lemma response_replay : ExactReplay usc_cache_serialize_preprocess_response
    usc_cache_deserialize_preprocess_response (.map CString.bytes) .zeroed LiveResponse
    CurrentResponse where
  replay _ _ hlive hdata := response_read_back hlive hdata
  canonical data response hfit hcur hdata := by
    have hsize := le_size_max hfit
    obtain ⟨payload, ⟨hsucc, hstat⟩, rfl, hres⟩ :=
      (deserialize_response_iff hsize).mp hdata
    obtain ⟨status, other, hother, hcur⟩ := hcur
    -- The envelope has one payload, so the version is the version of the one that was read.
    have henvl := (decoded_eq_some accepts_envelope hsize).mpr
      (⟨⟨hsucc, hstat⟩, rfl⟩ : _ ∧ _ = envelopeBytes _
        ((response.map CString.bytes).status, payload).1 payload)
    rw [hother] at henvl
    obtain ⟨-, rfl⟩ := Prod.mk.inj (some_inj.mp henvl)
    obtain ⟨hok, rfl⟩ := result_of_spells hres hcur
    have hbytes : envelopeBytes (fun buffer => buffer) (response.map CString.bytes).status
        (resultBytes CString.bytes response.result) = envelopeBytes CString.bytes response.status
          (resultBytes CString.bytes response.result) := envelopeBytes_map _ _ _ _
    rw [hbytes] at hfit ⊢
    exact serialize_preprocess_response_eq_some.mpr
      ⟨⟨hsucc, status_buffers_is_valid.symm.trans hstat, hok⟩, hfit, rfl⟩
  whole data rest hrest hsize := by
    by_contra hboth
    simp only [not_or, Bool.not_eq_false, usc_cache_deserialize_preprocess_response,
      outputOf_fst, bind_eq_bind, bind_eq_some_iff] at hboth
    obtain ⟨⟨-, envelope, henvl, -⟩, -, other, hother, -⟩ := hboth
    exact decoded_append accepts_envelope hrest hsize henvl hother
  reserved data hsize hdata := by
    obtain ⟨response, hresp⟩ := outputOf_fst.mp hdata
    obtain ⟨payload, -, rfl, -⟩ := (deserialize_response_iff hsize).mp (outputOf_eq_true.mpr hresp)
    simp only [envelopeBytes, headerBytes, append_assoc]
    exact reserved_zero rfl 1
  rejected data hdata := outputOf_rejected hdata

lemma binary_replay : ExactReplay usc_cache_serialize_binary_response
    usc_cache_deserialize_binary_response (.map CString.bytes) .zeroed (fun _ => True)
    (fun _ => True) where
  replay response data _ hdata := by
    obtain ⟨hok, hfit, rfl⟩ := serialize_binary_response_eq_some.mp hdata
    refine (deserialize_binary_iff (le_size_max hfit)).mpr ⟨?_, ?_⟩
    · rw [binaryOk_map, textOf_comp_bytes]
      exact hok
    · exact (binaryBytes_map CString.bytes (fun buffer => buffer) response).symm
  canonical data response hfit _ hdata := by
    obtain ⟨hok, rfl⟩ := (deserialize_binary_iff (le_size_max hfit)).mp hdata
    rw [binaryOk_map, textOf_comp_bytes] at hok
    rw [binaryBytes_map] at hfit ⊢
    exact serialize_binary_response_eq_some.mpr ⟨hok, hfit, rfl⟩
  whole data rest hrest hsize := by
    by_contra hboth
    simp only [not_or, Bool.not_eq_false, usc_cache_deserialize_binary_response,
      outputOf_fst] at hboth
    obtain ⟨⟨value, hval⟩, other, hother⟩ := hboth
    exact decoded_append decodes_binary hrest hsize hval hother
  reserved data hsize hdata := by
    obtain ⟨response, hresp⟩ := outputOf_fst.mp hdata
    obtain ⟨-, rfl⟩ := (decoded_eq_some decodes_binary hsize).mp hresp
    simp only [binaryBytes, headerBytes, append_assoc]
    exact reserved_zero rfl 2
  rejected data hdata := outputOf_rejected hdata

/-- **Cached responses replay exactly.** A response around a rejected result is rejected too. -/
theorem cached_responses_replay :
    ExactReplay usc_cache_serialize_preprocess_result usc_cache_deserialize_preprocess_result
      (.map CString.bytes) .zeroed LiveResult CurrentResult ∧
    ExactReplay usc_cache_serialize_preprocess_response usc_cache_deserialize_preprocess_response
      (.map CString.bytes) .zeroed LiveResponse CurrentResponse ∧
    ExactReplay usc_cache_serialize_binary_response usc_cache_deserialize_binary_response
      (.map CString.bytes) .zeroed (fun _ => True) (fun _ => True) ∧
    ∀ data status payload, decoded decoder_preprocess_envelope data = some (status, payload) →
      (usc_cache_deserialize_preprocess_result payload).1 = false →
      (usc_cache_deserialize_preprocess_response data).1 = false := by
  refine ⟨result_replay, response_replay, binary_replay, fun data status payload hdata hresult => ?_⟩
  by_contra haccepted
  rw [Bool.not_eq_false, usc_cache_deserialize_preprocess_response, outputOf_fst] at haccepted
  obtain ⟨response, hresponse⟩ := haccepted
  simp only [hdata, bind_eq_bind, bind_some, bind_eq_some_iff] at hresponse
  obtain ⟨result, hsome, -⟩ := hresponse
  rw [usc_cache_deserialize_preprocess_result, hsome] at hresult
  exact absurd hresult (by simp [outputOf])

/-! ### A payload that is too large to be written -/

/-- A success without diagnostics and records, and zeros for a program. -/
def largeResponse : UnityCompilerBinaryResponse CString :=
  ⟨⟨.available, true, []⟩, [], List.replicate USC_CACHE_MAX_OUTPUT_SIZE 0⟩

lemma largeResponse_ok : BinaryOk id largeResponse :=
  ⟨rfl, rfl, Nat.zero_le _, fun _ h => absurd h (not_mem_nil)⟩

lemma largeResponse_length : (binaryBytes CString.bytes largeResponse).length =
    USC_CACHE_MAX_OUTPUT_SIZE + 36 := by
  simp only [binaryBytes, headerBytes, statusBytes, countedBytes, sizedBytes, flagBytes, wordBytes,
    largeResponse, length_append, length_leBytes, length_nil, flatMap_nil,
    length_replicate, show binary_response_magic.length = 8 from rfl]
  omega

/-- The decoder accepts the payload, and the encoder does not write it. -/
theorem large_response_not_written : ∃ data : Bytes, data.length ≤ SIZE_MAX ∧
    usc_cache_deserialize_binary_response data = (true, largeResponse.map CString.bytes) ∧
    usc_cache_serialize_binary_response largeResponse ≠ some data := by
  have hlength := largeResponse_length
  have hsize : (binaryBytes CString.bytes largeResponse).length ≤ SIZE_MAX := by
    rw [hlength]
    decide
  refine ⟨binaryBytes CString.bytes largeResponse, hsize, (deserialize_binary_iff hsize).mpr ⟨?_, ?_⟩,
    fun hwritten => ?_⟩
  · rw [binaryOk_map, textOf_comp_bytes]
    exact largeResponse_ok
  · exact (binaryBytes_map CString.bytes (fun buffer => buffer) largeResponse).symm
  · have hfit := (serialize_binary_response_eq_some.mp hwritten).2.1
    omega

end ResponseCodec

end DXBCSandbox
