/-
What the codecs of cached responses accept (`src/compiler/unity_compiler_cache.c`).

Every value has one spelling. An encoder appends it when the value is valid and the output has room,
and a decoder accepts just the spellings of valid values. So what was written is read back, and what
was read is what was written, up to the NULs in strings that no encoder writes.
-/
import DXBCSandbox.Compiler.ResponseCodec

namespace DXBCSandbox

open List Option

namespace ResponseCodec

open StepParser
open CacheStore (USC_CACHE_MAX_OUTPUT_SIZE)

def bytesTape : Tape Bytes UInt8 where
  Ok s := s.length ≤ SIZE_MAX
  Moves s w s' := s = w ++ s'
  moves_nil := by
    intro s s'
    exact eq_comm
  moves_append := by
    intro s u v s''
    rw [List.append_assoc]
    constructor
    · intro h
      exact ⟨v ++ s'', h, rfl⟩
    · rintro ⟨s', h, rfl⟩
      exact h
  ok_of_moves := by
    rintro s w s' hs rfl
    rw [List.length_append] at hs
    omega

/-- The decoder accepts the spellings of the values with a property. -/
def Decodes {α : Type} (decoder : CacheDecoder α) (Valid : α → Prop) (spelling : α → Bytes) :
    Prop :=
  bytesTape.Accepts decoder fun x w => Valid x ∧ w = spelling x

lemma Decodes.bind {α β : Type} {p : CacheDecoder α} {Valid : α → Prop}
    {spelling : α → Bytes} {f : α → CacheDecoder β} {Q : α → β → Bytes → Prop}
    (hp : Decodes p Valid spelling) (hf : ∀ x, bytesTape.Accepts (f x) (Q x)) :
    bytesTape.Accepts (p >>= f) fun y w => ∃ x v, Valid x ∧ w = spelling x ++ v ∧ Q x y v := by
  apply (Tape.Accepts.bind hp hf).congr
  intro y w
  constructor
  · rintro ⟨x, -, v, ⟨hvalid, rfl⟩, hy, rfl⟩
    exact ⟨x, v, hvalid, rfl, hy⟩
  · rintro ⟨x, v, hvalid, rfl, hy⟩
    exact ⟨x, _, v, ⟨hvalid, rfl⟩, hy, rfl⟩

abbrev Encodes (encoder : CacheEncoder) (Valid : Prop) (spelling : Bytes) : Prop :=
  Appends USC_CACHE_MAX_OUTPUT_SIZE encoder Valid spelling

/-! ## Words -/

def wordBytes (value : UInt32) : Bytes := leBytes 4 value.toNat
def longBytes (value : UInt64) : Bytes := leBytes 8 value.toNat
def flagBytes (flag : Bool) : Bytes := leBytes 4 (if flag then 1 else 0)

def sizedBytes (data : Bytes) : Bytes := leBytes 8 data.length ++ data

/-- The number of items, and each of them. -/
def countedBytes {α : Type} (spelling : α → Bytes) (items : List α) : Bytes :=
  leBytes 4 items.length ++ items.flatMap spelling

lemma accepts_bytes (size : ℕ) :
    bytesTape.Accepts (decoder_bytes size) fun data w => data.length = size ∧ w = data := by
  intro s _ data s'
  show (if size ≤ s.length then some (s.take size, s.drop size) else none) = some (data, s') ↔ _
  constructor
  · intro h
    split at h
    · rename_i hsize
      cases h
      exact ⟨s.take size, ⟨length_take_of_le hsize, rfl⟩, (take_append_drop size s).symm⟩
    · cases h
  · rintro ⟨w, ⟨hlen, rfl⟩, rfl⟩
    subst hlen
    rw [if_pos (by rw [length_append]; omega), take_left, drop_left]

lemma decodes_u32 : Decodes decoder_u32 (fun _ => True) wordBytes := by
  apply ((accepts_bytes 4).map fun bytes => UInt32.ofNat (leValue bytes)).congr
  intro value w
  constructor
  · rintro ⟨bytes, rfl, hlen, rfl⟩
    have hlt := leValue_lt w
    rw [hlen] at hlt
    refine ⟨trivial, ?_⟩
    rw [wordBytes, UInt32.toNat_ofNat_of_lt' (by simpa using hlt), ← hlen, leBytes_leValue]
  · rintro ⟨-, rfl⟩
    refine ⟨wordBytes value, ?_, length_leBytes 4 _, rfl⟩
    rw [wordBytes, leValue_leBytes (by simpa using value.toNat_lt), UInt32.ofNat_toNat]

lemma decodes_u64 : Decodes decoder_u64 (fun _ => True) longBytes := by
  apply ((accepts_bytes 8).map fun bytes => UInt64.ofNat (leValue bytes)).congr
  intro value w
  constructor
  · rintro ⟨bytes, rfl, hlen, rfl⟩
    have hlt := leValue_lt w
    rw [hlen] at hlt
    refine ⟨trivial, ?_⟩
    rw [longBytes, UInt64.toNat_ofNat_of_lt' (by simpa using hlt), ← hlen, leBytes_leValue]
  · rintro ⟨-, rfl⟩
    refine ⟨longBytes value, ?_, length_leBytes 8 _, rfl⟩
    rw [longBytes, leValue_leBytes (by simpa using value.toNat_lt), UInt64.ofNat_toNat]

lemma decodes_i32 : Decodes decoder_i32 (fun _ => True) fun value => wordBytes value.toUInt32 := by
  apply (decodes_u32.map Int32.ofUInt32).congr
  intro value w
  constructor
  · rintro ⟨word, rfl, -, rfl⟩
    exact ⟨trivial, rfl⟩
  · rintro ⟨-, rfl⟩
    exact ⟨value.toUInt32, rfl, trivial, rfl⟩

lemma decodes_flag : Decodes decoder_flag (fun _ => True) flagBytes := by
  apply (Decodes.bind decodes_u32 fun value =>
    (Tape.accepts_pure (decide (value = 1))).guard_bind (c := value ≤ 1)).congr
  intro flag w
  constructor
  · rintro ⟨value, v, -, rfl, hle, rfl, rfl⟩
    refine ⟨trivial, ?_⟩
    have hcases : value = 0 ∨ value = 1 := by
      have hnat := UInt32.le_iff_toNat_le.mp hle
      rcases Nat.le_one_iff_eq_zero_or_eq_one.mp hnat with h0 | h1
      · exact .inl (UInt32.toNat_inj.mp h0)
      · exact .inr (UInt32.toNat_inj.mp h1)
    rcases hcases with rfl | rfl <;> rfl
  · rintro ⟨-, rfl⟩
    cases flag with
    | false => exact ⟨0, [], trivial, rfl, by decide, rfl, rfl⟩
    | true => exact ⟨1, [], trivial, rfl, by decide, rfl, rfl⟩

/-- The size in front leaves no more than the limit for what follows. -/
theorem decodes_sized {limit : ℕ} (hlimit : SIZE_MAX - 8 ≤ limit) :
    Decodes (decoder_sized limit) (fun _ => True) sizedBytes := by
  intro s hs data s'
  have hrun := (Decodes.bind decodes_u64 fun size =>
    (accepts_bytes size.toNat).guard_bind (c := size.toNat ≤ limit)) hs data s'
  refine hrun.trans ?_
  constructor
  · rintro ⟨w, ⟨size, v, -, rfl, -, hlen, rfl⟩, hmoves⟩
    refine ⟨sizedBytes v, ⟨trivial, rfl⟩, ?_⟩
    rwa [sizedBytes, hlen]
  · rintro ⟨w, ⟨-, rfl⟩, hmoves⟩
    have hsize : data.length ≤ SIZE_MAX - 8 := by
      have hlen := congrArg length (show s = sizedBytes data ++ s' from hmoves)
      have hle : s.length ≤ SIZE_MAX := hs
      rw [length_append, sizedBytes, length_append, length_leBytes] at hlen
      omega
    have hsmall : data.length < 2 ^ 64 := by
      unfold SIZE_MAX at hsize
      omega
    refine ⟨sizedBytes data, ⟨UInt64.ofNat data.length, data, trivial, ?_, ?_, ?_, rfl⟩, hmoves⟩
    · rw [sizedBytes, longBytes, UInt64.toNat_ofNat_of_lt' hsmall]
    · rw [UInt64.toNat_ofNat_of_lt' hsmall]
      omega
    · rw [UInt64.toNat_ofNat_of_lt' hsmall]

lemma decodes_string : Decodes decoder_string (fun _ => True) sizedBytes :=
  decodes_sized (by decide)

/-- A loop over counted items decodes their row. -/
lemma Decodes.counted {α : Type} {item : CacheDecoder α} {Valid : α → Prop}
    {spelling : α → Bytes} (h : Decodes item Valid spelling) :
    Decodes (decoder_counted item)
      (fun xs => xs.length ≤ USC_PREPROCESS_MAX_COUNT ∧ ∀ x ∈ xs, Valid x)
      (countedBytes spelling) := by
  apply (Decodes.bind decodes_u32 fun count =>
    (Tape.accepts_readItems (fun _ => h) 0 count.toNat).guard_bind
      (c := count.toNat ≤ USC_PREPROCESS_MAX_COUNT)).congr
  intro xs w
  constructor
  · rintro ⟨count, v, -, rfl, hle, hlen, hspells⟩
    obtain ⟨hvalid, rfl⟩ := spellsEach_iff_flatMap.mp hspells
    refine ⟨⟨by omega, fun x hx => ?_⟩, by rw [countedBytes, wordBytes, hlen]⟩
    obtain ⟨k, hk⟩ := mem_iff_getElem?.mp hx
    exact hvalid k x hk
  · rintro ⟨⟨hle, hvalid⟩, rfl⟩
    have hsmall : xs.length < 2 ^ 32 := by
      unfold USC_PREPROCESS_MAX_COUNT at hle
      omega
    refine ⟨UInt32.ofNat xs.length, xs.flatMap spelling, trivial, ?_, ?_, ?_, ?_⟩
    · rw [countedBytes, wordBytes, UInt32.toNat_ofNat_of_lt' hsmall]
    · rwa [UInt32.toNat_ofNat_of_lt' hsmall]
    · rw [UInt32.toNat_ofNat_of_lt' hsmall]
    · exact spellsEach_iff_flatMap.mpr ⟨fun k x hx => hvalid x (mem_of_getElem? hx), rfl⟩

/-! ## Spellings -/

section Spellings

variable {S : Type} (bytesOf : S → Bytes)

def diagnosticBytes (diagnostic : UnityCompilerDiagnostic S) : Bytes :=
  let fields := diagnostic.fields
  wordBytes (fields.get ⟨0, Nat.zero_lt_succ 2⟩).toUInt32 ++
    (wordBytes (fields.get ⟨1, Nat.one_lt_succ_succ 1⟩).toUInt32 ++
      (wordBytes (fields.get ⟨2, Nat.lt_succ_self 2⟩).toUInt32 ++
        (sizedBytes (bytesOf diagnostic.record) ++
          (sizedBytes (bytesOf diagnostic.file) ++ sizedBytes (bytesOf diagnostic.message)))))

def statusBytes (status : UnityCompilerResponseStatus S) : Bytes :=
  flagBytes status.compiler_success ++ countedBytes (diagnosticBytes bytesOf) status.diagnostics

def stringsBytes (values : List S) : Bytes :=
  countedBytes (fun value => sizedBytes (bytesOf value)) values

def optionalBytes : Option (List S) → Bytes
  | none => flagBytes false
  | some values => flagBytes true ++ stringsBytes bytesOf values

def programBytes (program : SnippetProgramKeywordVariants S) : Bytes :=
  wordBytes program.compiler_program.toUInt32 ++ (optionalBytes bytesOf program.user_global ++
    (optionalBytes bytesOf program.user_local ++ optionalBytes bytesOf program.builtin))

def requirementBytes (requirement : ConditionalShaderRequirement S) : Bytes :=
  sizedBytes (bytesOf requirement.keyword) ++ longBytes requirement.requirements

def contractBytes (contract : SnippetCompileContract S) : Bytes :=
  (contract_words contract).flatMap wordBytes ++
    (countedBytes (programBytes bytesOf) contract.program_keyword_variants ++
      (stringsBytes bytesOf contract.non_stripped_user_keywords ++
        (stringsBytes bytesOf contract.builtin_keywords ++ (longBytes contract.requirements ++
          countedBytes (requirementBytes bytesOf) contract.conditional_requirements))))

def snippetBody (snippet : PreprocessedSnippet S) : Bytes :=
  match snippet.contract with
  | some contract => contractBytes bytesOf contract
  | none => longBytes snippet.reqs ++ (wordBytes snippet.language.toUInt32 ++
      (wordBytes snippet.gpu_program_id.toUInt32 ++
        countedBytes (requirementBytes bytesOf) snippet.conditional_requirements))

def snippetBytes (snippet : PreprocessedSnippet S) : Bytes :=
  sizedBytes (bytesOf snippet.source) ++ (flagBytes snippet.contract.isSome ++
    snippetBody bytesOf snippet)

variable (result : PreprocessResult S)

def resultBody : Bytes :=
  wordBytes 0 ++ (leBytes 4 result.snippets.length ++ (sizedBytes result.blob ++
    result.snippets.flatMap (snippetBytes bytesOf)))

/-- A preprocess result in the current format. -/
def resultBytes : Bytes :=
  preprocess_result_magic ++ (wordBytes 5 ++ (resultBody bytesOf result ++
    (optionalBytes bytesOf result.includes ++ optionalBytes bytesOf result.probed_paths)))

/-- A preprocess result in the format before it. -/
def oldResultBytes : Bytes :=
  asciiBytes "USCPREP4" ++ (wordBytes 4 ++ resultBody bytesOf result)

def headerBytes (magic : Bytes) (version : UInt32) : Bytes :=
  magic ++ (wordBytes version ++ wordBytes 0)

def entryBytes (entry : ReflectionEntry S) : Bytes := sizedBytes (bytesOf entry.record)

def binaryBytes (response : UnityCompilerBinaryResponse S) : Bytes :=
  headerBytes binary_response_magic 2 ++ (statusBytes bytesOf response.status ++
    (countedBytes (entryBytes bytesOf) response.reflection_records ++ sizedBytes response.data))

/-- A live response around a preprocess result. -/
def envelopeBytes (status : UnityCompilerResponseStatus S) (preprocess_data : Bytes) : Bytes :=
  headerBytes preprocess_response_magic 1 ++ (statusBytes bytesOf status ++
    sizedBytes preprocess_data)

end Spellings

/-! ## Encoders -/

lemma leBytes_mod (k n : ℕ) : leBytes k (n % 256 ^ k) = leBytes k n := by
  induction k generalizing n with
  | zero => rfl
  | succ k ih =>
    rw [leBytes, leBytes, Nat.pow_succ, Nat.mul_comm, Nat.mod_mul_right_div_self, ih]
    congr 1
    apply UInt8.toNat_inj.mp
    rw [UInt8.toNat_ofNat', UInt8.toNat_ofNat']
    exact Nat.mod_mul_right_mod n 256 (256 ^ k)

lemma encodes_bytes (data : Bytes) : Encodes (encoder_bytes data) True data := by
  intro s hs s'
  show (if data.length ≤ USC_CACHE_MAX_OUTPUT_SIZE - s.length then some ((), s ++ data)
    else none) = some ((), s') ↔ _
  constructor
  · intro h
    split at h
    · cases h
      exact ⟨trivial, by omega, rfl⟩
    · cases h
  · rintro ⟨-, hfit, rfl⟩
    rw [if_pos (by omega)]

lemma encodes_u32 (value : UInt32) : Encodes (encoder_u32 value) True (wordBytes value) :=
  encodes_bytes _

lemma encodes_u64 (value : UInt64) : Encodes (encoder_u64 value) True (longBytes value) :=
  encodes_bytes _

lemma encodes_i32 (value : Int32) :
    Encodes (encoder_i32 value) True (wordBytes value.toUInt32) := encodes_u32 _

lemma encodes_flag (flag : Bool) : Encodes (encoder_flag flag) True (flagBytes flag) := by
  cases flag with
  | false => exact encodes_u32 0
  | true => exact encodes_u32 1

lemma encodes_count (count : ℕ) : Encodes (encoder_count count) True (leBytes 4 count) := by
  have h := encodes_u32 (UInt32.ofNat count)
  have hlow : leBytes 4 (count % 2 ^ 32) = leBytes 4 count := leBytes_mod 4 count
  rwa [wordBytes, UInt32.toNat_ofNat', hlow] at h

lemma longBytes_ofNat (n : ℕ) : longBytes (UInt64.ofNat n) = leBytes 8 n := by
  rw [longBytes, UInt64.toNat_ofNat']
  exact leBytes_mod 8 n

lemma encodes_sized (data : Bytes) : Encodes (encoder_sized data) True (sizedBytes data) := by
  have h := (encodes_u64 (UInt64.ofNat data.length)).bind (encodes_bytes data)
  rw [longBytes_ofNat] at h
  exact h.congr (and_self_iff)

lemma encodes_string (value : CString) :
    Encodes (encoder_string value) True (sizedBytes value.bytes) := encodes_sized _

lemma Encodes.then_rest {p q : CacheEncoder} {Q : Prop} {u v : Bytes}
    (hp : Encodes p True u) (hq : Encodes q Q v) : Encodes (do p; q) Q (u ++ v) :=
  (hp.bind hq).congr ⟨fun h => h.2, fun h => ⟨trivial, h⟩⟩

variable {α : Type} {item : α → CacheEncoder}

lemma encodes_each {spelling : α → Bytes} (h : ∀ x, Encodes (item x) True (spelling x))
    (xs : List α) :
    Encodes (writeEach item xs) True (xs.flatMap spelling) :=
  (Appends.each h xs).congr (by simp)

/-- A loop over items encodes their row. -/
lemma encodes_counted {spelling : α → Bytes} (h : ∀ x, Encodes (item x) True (spelling x))
    (xs : List α) :
    Encodes (do encoder_count xs.length; writeEach item xs) True (countedBytes spelling xs) :=
  Encodes.then_rest (encodes_count xs.length) (encodes_each h xs)

lemma encodes_diagnostic (diagnostic : UnityCompilerDiagnostic CString) :
    Encodes (encoder_diagnostic diagnostic) True (diagnosticBytes CString.bytes diagnostic) :=
  Encodes.then_rest (encodes_i32 _) <| Encodes.then_rest (encodes_i32 _) <|
    Encodes.then_rest (encodes_i32 _) <| Encodes.then_rest (encodes_string _) <|
      Encodes.then_rest (encodes_string _) (encodes_string _)

lemma encodes_status (status : UnityCompilerResponseStatus CString) :
    Encodes (encoder_response_status status) (cache_response_status_is_valid id status = true)
      (statusBytes CString.bytes status) :=
  (Appends.guard (Encodes.then_rest (encodes_flag _)
    (encodes_counted encodes_diagnostic status.diagnostics))).congr
      ⟨fun h => h.1, fun h => ⟨h, trivial⟩⟩

lemma encodes_strings (values : List CString) :
    Encodes (encoder_string_array values) True (stringsBytes CString.bytes values) :=
  encodes_counted encodes_string values

lemma encodes_variant_set (set : SnippetKeywordVariantSet CString) :
    Encodes (encoder_variant_set set) True (optionalBytes CString.bytes set) := by
  cases set with
  | none => exact encodes_flag false
  | some combinations => exact Encodes.then_rest (encodes_flag true) (encodes_strings combinations)

lemma encodes_program (program : SnippetProgramKeywordVariants CString) :
    Encodes (encoder_program program) True (programBytes CString.bytes program) :=
  Encodes.then_rest (encodes_i32 _) <| Encodes.then_rest (encodes_variant_set _) <|
    Encodes.then_rest (encodes_variant_set _) (encodes_variant_set _)

lemma encodes_requirement (requirement : ConditionalShaderRequirement CString) :
    Encodes (encoder_requirement requirement) True (requirementBytes CString.bytes requirement) :=
  Encodes.then_rest (encodes_string _) (encodes_u64 _)

lemma encodes_contract (contract : SnippetCompileContract CString) :
    Encodes (encoder_snippet_contract contract) True (contractBytes CString.bytes contract) := by
  have hprograms := encodes_counted encodes_program contract.program_keyword_variants
  have hrest := Encodes.then_rest (encodes_strings contract.non_stripped_user_keywords) <|
    Encodes.then_rest (encodes_strings contract.builtin_keywords) <|
      Encodes.then_rest (encodes_u64 contract.requirements)
        (encodes_counted encodes_requirement contract.conditional_requirements)
  refine Encodes.then_rest (encodes_each encodes_u32 (contract_words contract)) ?_
  have hall := Encodes.then_rest (encodes_count contract.program_keyword_variants.length) <|
    Encodes.then_rest (encodes_each encodes_program contract.program_keyword_variants) hrest
  rwa [← append_assoc] at hall

/-- The paths of a family are few enough, and none is empty. -/
def PathsOk {S : Type} (text : S → CString) (dependencies : UnityCompilerDependencyPaths S) : Prop :=
  ∀ paths, dependencies = some paths →
    paths.length ≤ USC_PREPROCESS_MAX_COUNT ∧ ∀ path ∈ paths, (text path).bytes ≠ []

/-- A snippet has a valid contract, or not too many requirements. -/
def SnippetOk {S : Type} (text : S → CString) (snippet : PreprocessedSnippet S) : Prop :=
  match snippet.contract with
  | some contract => unity_compiler_snippet_contract_validate text contract = true
  | none => snippet.conditional_requirements.length ≤ USC_PREPROCESS_MAX_COUNT

structure ResultOk {S : Type} (text : S → CString) (result : PreprocessResult S) : Prop where
  count : result.snippets.length ≤ USC_PREPROCESS_MAX_COUNT
  snippets : ∀ snippet ∈ result.snippets, SnippetOk text snippet
  includes : PathsOk text result.includes
  probed_paths : PathsOk text result.probed_paths

lemma encodes_paths (dependencies : UnityCompilerDependencyPaths CString) :
    Encodes (encoder_dependency_paths dependencies) (PathsOk id dependencies)
      (optionalBytes CString.bytes dependencies) := by
  cases dependencies with
  | none => exact (encodes_flag false).congr (by simp [PathsOk])
  | some paths =>
    refine (Appends.guard ((encodes_flag true).bind (Appends.guard (encodes_strings paths)))).congr ?_
    simp only [PathsOk, Option.some_inj, true_and, and_true, id_eq, forall_eq', List.all_eq_true,
      decide_eq_true_eq]

lemma encodes_snippet (snippet : PreprocessedSnippet CString) :
    Encodes (encoder_snippet snippet) (SnippetOk id snippet)
      (snippetBytes CString.bytes snippet) := by
  unfold encoder_snippet SnippetOk snippetBytes snippetBody
  cases snippet.contract with
  | some contract =>
    refine (Appends.guard (Encodes.then_rest (encodes_string _) <|
      Encodes.then_rest (encodes_flag true) (encodes_contract contract))).congr ?_
    exact ⟨fun h => h.1, fun h => ⟨h, trivial⟩⟩
  | none =>
    refine (Appends.guard (Encodes.then_rest (encodes_string _) <|
      Encodes.then_rest (encodes_flag false) <| Encodes.then_rest (encodes_u64 _) <|
        Encodes.then_rest (encodes_i32 _) <| Encodes.then_rest (encodes_i32 _)
          (encodes_counted encodes_requirement snippet.conditional_requirements))).congr ?_
    exact ⟨fun h => h.1, fun h => ⟨h, trivial⟩⟩

variable {w : Bytes}

lemma encoded_eq_some {encoder : CacheEncoder} {Valid : Prop} {spelling : Bytes}
    (h : Encodes encoder Valid spelling) : encoded encoder = some w ↔
      Valid ∧ spelling.length ≤ USC_CACHE_MAX_OUTPUT_SIZE ∧ w = spelling := by
  have hrun := @h [] (Nat.zero_le _) w
  rw [length_nil, Nat.zero_add, nil_append] at hrun
  rw [← hrun, encoded, map_eq_some_iff]
  constructor
  · rintro ⟨⟨⟨⟩, output⟩, hsome, rfl⟩
    exact hsome
  · intro hsome
    exact ⟨((), w), hsome, rfl⟩

lemma serialize_preprocess_result_eq_some {result : PreprocessResult CString} :
    usc_cache_serialize_preprocess_result result = some w ↔ ResultOk id result ∧
      (resultBytes CString.bytes result).length ≤ USC_CACHE_MAX_OUTPUT_SIZE ∧
        w = resultBytes CString.bytes result := by
  have hbody := Encodes.then_rest (encodes_bytes preprocess_result_magic) <|
    Encodes.then_rest (encodes_u32 5) <| Encodes.then_rest (encodes_u32 0) <|
      Encodes.then_rest (encodes_count result.snippets.length) <|
        Encodes.then_rest (encodes_sized result.blob) <|
          (Appends.each encodes_snippet result.snippets).bind
            ((encodes_paths result.includes).bind (encodes_paths result.probed_paths))
  have hall := (Appends.guard (c := result.snippets.length ≤ USC_PREPROCESS_MAX_COUNT) hbody).congr
    (Q := ResultOk id result) ⟨fun h => ⟨h.1, h.2.1, h.2.2.1, h.2.2.2⟩,
      fun h => ⟨h.count, h.snippets, h.includes, h.probed_paths⟩⟩
  rw [usc_cache_serialize_preprocess_result, encoded_eq_some hall]
  simp only [resultBytes, resultBody, append_assoc]

lemma serialize_preprocess_response_eq_some {response : UnityCompilerPreprocessResponse CString} :
    usc_cache_serialize_preprocess_response response = some w ↔
      (response.status.compiler_success = true ∧
        cache_response_status_is_valid id response.status = true ∧ ResultOk id response.result) ∧
      (envelopeBytes CString.bytes response.status
        (resultBytes CString.bytes response.result)).length ≤ USC_CACHE_MAX_OUTPUT_SIZE ∧
      w = envelopeBytes CString.bytes response.status
        (resultBytes CString.bytes response.result) := by
  have hall := fun data : Bytes =>
    Encodes.then_rest (encodes_bytes preprocess_response_magic) <|
      Encodes.then_rest (encodes_u32 1) <| Encodes.then_rest (encodes_u32 0) <|
        (encodes_status response.status).bind (encodes_sized data)
  rw [usc_cache_serialize_preprocess_response, guard_bind_eq_some, bind_eq_bind, bind_eq_some_iff]
  simp only [serialize_preprocess_result_eq_some, encoded_eq_some (hall _)]
  simp only [envelopeBytes, headerBytes, append_assoc]
  constructor
  · rintro ⟨⟨hsucc, hstat⟩, data, ⟨hres, -, rfl⟩, -, hfit, rfl⟩
    exact ⟨⟨hsucc, hstat, hres⟩, hfit, rfl⟩
  · rintro ⟨⟨hsucc, hstat, hres⟩, hfit, rfl⟩
    refine ⟨⟨hsucc, hstat⟩, _, ⟨hres, ?_, rfl⟩, ⟨hstat, trivial⟩, hfit, rfl⟩
    simp only [length_append, sizedBytes] at hfit
    simp only [resultBytes, resultBody, length_append] at hfit ⊢
    omega

def EntryOk {S : Type} (text : S → CString) (entry : ReflectionEntry S) : Prop :=
  ∃ parsed, unity_compiler_reflection_record_parse (text entry.record) = some parsed ∧
    parsed.toUnityCompilerReflectionRecord = entry.content

structure BinaryOk {S : Type} (text : S → CString) (response : UnityCompilerBinaryResponse S) :
    Prop where
  success : response.status.compiler_success = true
  status : cache_response_status_is_valid text response.status = true
  count : response.reflection_records.length ≤ USC_PREPROCESS_MAX_COUNT
  entries : ∀ entry ∈ response.reflection_records, EntryOk text entry

lemma reflection_entry_is_exact_iff {entry : ReflectionEntry CString} :
    reflection_entry_is_exact entry = true ↔ EntryOk id entry := by
  unfold reflection_entry_is_exact EntryOk
  rw [id_eq]
  cases unity_compiler_reflection_record_parse entry.record with
  | none => simp
  | some parsed => simp

lemma serialize_binary_response_eq_some {response : UnityCompilerBinaryResponse CString} :
    usc_cache_serialize_binary_response response = some w ↔ BinaryOk id response ∧
      (binaryBytes CString.bytes response).length ≤ USC_CACHE_MAX_OUTPUT_SIZE ∧
        w = binaryBytes CString.bytes response := by
  have hbody := Encodes.then_rest (encodes_bytes binary_response_magic) <|
    Encodes.then_rest (encodes_u32 2) <| Encodes.then_rest (encodes_u32 0) <|
      (encodes_status response.status).bind <|
        Encodes.then_rest (encodes_count response.reflection_records.length) <|
          Encodes.then_rest (encodes_each
            (fun entry : ReflectionEntry CString => encodes_string entry.record)
            response.reflection_records) (encodes_sized response.data)
  have hall := (Appends.guard (c := response.status.compiler_success ∧
    cache_response_status_is_valid id response.status ∧
    response.reflection_records.length ≤ USC_PREPROCESS_MAX_COUNT ∧
    response.reflection_records.all reflection_entry_is_exact) hbody).congr
      (Q := BinaryOk id response) ?_
  · rw [usc_cache_serialize_binary_response, encoded_eq_some hall]
    simp only [binaryBytes, headerBytes, countedBytes, append_assoc]
    rfl
  · simp only [List.all_eq_true, reflection_entry_is_exact_iff, and_true]
    constructor
    · rintro ⟨⟨hsucc, hstat, hcnt, hents⟩, -⟩
      exact ⟨hsucc, hstat, hcnt, hents⟩
    · rintro ⟨hsucc, hstat, hcnt, hents⟩
      exact ⟨⟨hsucc, hstat, hcnt, hents⟩, hstat⟩

/-! ## Decoders -/

lemma decodes_diagnostic : Decodes decoder_diagnostic
    (fun diagnostic => cache_diagnostic_is_valid textOf diagnostic = true)
    (diagnosticBytes fun buffer => buffer) := by
  apply (Decodes.bind decodes_i32 fun field0 => Decodes.bind decodes_i32 fun field1 =>
    Decodes.bind decodes_i32 fun field2 => Decodes.bind decodes_string fun record =>
      Decodes.bind decodes_string fun file => Decodes.bind decodes_string fun message =>
        (Tape.accepts_pure (⟨#v[field0, field1, field2], record, file, message⟩ :
          UnityCompilerDiagnostic Buffer)).guard_bind).congr
  intro diagnostic w
  constructor
  · rintro ⟨field0, v, -, rfl, field1, v, -, rfl, field2, v, -, rfl, record, v, -, rfl, file, v,
      -, rfl, message, v, -, rfl, hvalid, rfl, rfl⟩
    exact ⟨hvalid, by simp [diagnosticBytes, Vector.get]⟩
  · rintro ⟨hvalid, rfl⟩
    obtain ⟨fields, record, file, message⟩ := diagnostic
    have hflds : fields = #v[fields[0], fields[1], fields[2]] := by
      ext i hi
      rcases i with _ | _ | _ | i
      · rfl
      · rfl
      · rfl
      · omega
    refine ⟨fields[0], _, trivial, ?_, fields[1], _, trivial, rfl, fields[2], _, trivial, rfl,
      record, _, trivial, rfl, file, _, trivial, rfl, message, _, trivial, rfl, ?_, ?_, rfl⟩
    · simp [diagnosticBytes, Vector.get]
    · rw [← hflds]
      exact hvalid
    · rw [← hflds]

lemma decodes_status : Decodes decoder_response_status
    (fun status => cache_response_status_is_valid textOf status = true)
    (statusBytes fun buffer => buffer) := by
  apply (Decodes.bind decodes_flag fun compiler_success =>
    Decodes.bind (.counted decodes_diagnostic) fun diagnostics =>
    Tape.accepts_pure (⟨.available, compiler_success, diagnostics⟩ :
      UnityCompilerResponseStatus Buffer)).congr
  intro status w
  constructor
  · rintro ⟨compiler_success, v, -, rfl, diagnostics, v, ⟨hcnt, hvalid⟩, rfl, rfl, rfl⟩
    refine ⟨?_, by simp [statusBytes]⟩
    simp only [cache_response_status_is_valid, List.all_eq_true, decide_eq_true_eq]
    exact ⟨trivial, hcnt, hvalid⟩
  · rintro ⟨hvalid, rfl⟩
    obtain ⟨availability, compiler_success, diagnostics⟩ := status
    simp only [cache_response_status_is_valid, List.all_eq_true, decide_eq_true_eq] at hvalid
    obtain ⟨rfl, hcnt, hall⟩ := hvalid
    exact ⟨compiler_success, _, trivial, by simp [statusBytes], diagnostics, _, ⟨hcnt, hall⟩,
      rfl, rfl, rfl⟩

lemma decodes_filled_string : Decodes decoder_filled_string
    (fun buffer => (textOf buffer).bytes ≠ []) sizedBytes := by
  apply (Decodes.bind decodes_string fun buffer => (Tape.accepts_pure buffer).guard_bind).congr
  intro buffer w
  constructor
  · rintro ⟨value, v, -, rfl, hfilled, rfl, rfl⟩
    exact ⟨hfilled, append_nil _⟩
  · rintro ⟨hfilled, rfl⟩
    exact ⟨buffer, [], trivial, (append_nil _).symm, hfilled, rfl, rfl⟩

lemma decodes_strings : Decodes (decoder_string_array true)
    (fun values => values.length ≤ USC_PREPROCESS_MAX_COUNT) (stringsBytes fun buffer => buffer) :=
  decodes_string.counted.congr fun values w => by simp [stringsBytes]

lemma decodes_filled_strings : Decodes (decoder_string_array false)
    (fun values => values.length ≤ USC_PREPROCESS_MAX_COUNT ∧
      ∀ value ∈ values, (textOf value).bytes ≠ []) (stringsBytes fun buffer => buffer) :=
  decodes_filled_string.counted

lemma decodes_optional {strings : CacheDecoder (List Buffer)} {Valid : List Buffer → Prop}
    (h : Decodes strings Valid (stringsBytes fun buffer => buffer)) :
    Decodes (do
        let present ← decoder_flag
        if present then do
          let values ← strings
          pure (some values)
        else pure none)
      (fun set => ∀ values, set = some values → Valid values)
      (optionalBytes fun buffer => buffer) := by
  have hbranch : ∀ present : Bool, bytesTape.Accepts
      (if present = true then do
          let values ← strings
          pure (some values)
        else pure none)
      fun set w => (present = true ∧ ∃ values, set = some values ∧ Valid values ∧
        w = stringsBytes (fun buffer => buffer) values) ∨ (present = false ∧ set = none ∧ w = []) := by
    intro present
    cases present with
    | true => exact (h.map some).congr fun set w => by simp
    | false => exact (Tape.accepts_pure none).congr fun set w => by simp
  apply (Decodes.bind decodes_flag hbranch).congr
  intro set w
  constructor
  · rintro ⟨present, v, -, rfl, ⟨rfl, values, rfl, hvalid, rfl⟩ | ⟨rfl, rfl, rfl⟩⟩
    · refine ⟨fun other hother => ?_, rfl⟩
      cases hother
      exact hvalid
    · exact ⟨fun other hother => absurd hother (by simp), append_nil _⟩
  · rintro ⟨hvalid, rfl⟩
    cases set with
    | none => exact ⟨false, [], trivial, (append_nil _).symm, .inr ⟨rfl, rfl, rfl⟩⟩
    | some values =>
      exact ⟨true, _, trivial, rfl, .inl ⟨rfl, values, rfl, hvalid values rfl, rfl⟩⟩

lemma decodes_paths : Decodes decoder_dependency_paths (PathsOk textOf)
    (optionalBytes fun buffer => buffer) :=
  decodes_optional decodes_filled_strings

lemma decodes_variant_set : Decodes decoder_variant_set
    (fun set => valid_variant_set set = true) (optionalBytes fun buffer => buffer) := by
  apply (decodes_optional decodes_strings).congr
  intro set w
  refine and_congr_left fun _ => ?_
  cases set with
  | none => simp [valid_variant_set]
  | some values =>
    simp only [valid_variant_set, getD_some, decide_eq_true_eq, Option.some_inj, forall_eq']
    exact Iff.rfl

lemma int32_nonneg_iff (word : UInt32) : 0 ≤ Int32.ofUInt32 word ↔ word.toNat ≤ INT_MAX := by
  have hlt : word.toBitVec.toNat < 4294967296 := word.toBitVec.isLt
  have hsign : (Int32.ofUInt32 word).toInt = if 2 * word.toBitVec.toNat < 4294967296
      then (word.toBitVec.toNat : ℤ) else (word.toBitVec.toNat : ℤ) - 4294967296 :=
    BitVec.toInt_eq_toNat_cond word.toBitVec
  have hword : word.toNat = word.toBitVec.toNat := rfl
  rw [Int32.le_iff_toInt_le, hsign, hword, show (0 : Int32).toInt = 0 from rfl]
  unfold INT_MAX
  split <;> omega

lemma decodes_program : Decodes decoder_program (fun program => valid_program program = true)
    (programBytes fun buffer => buffer) := by
  apply (Decodes.bind decodes_u32 fun word => (Decodes.bind decodes_variant_set fun user_global =>
    Decodes.bind decodes_variant_set fun user_local =>
      Decodes.bind decodes_variant_set fun builtin =>
        Tape.accepts_pure (⟨.ofUInt32 word, user_global, user_local, builtin⟩ :
          SnippetProgramKeywordVariants Buffer)).guard_bind (c := word.toNat ≤ INT_MAX)).congr
  intro program w
  simp only [valid_program, decide_eq_true_eq]
  constructor
  · rintro ⟨word, v, -, rfl, hword, user_global, v, hglobal, rfl, user_local, v, hlocal, rfl,
      builtin, v, hbuilt, rfl, rfl, rfl⟩
    exact ⟨⟨(int32_nonneg_iff word).mpr hword, hglobal, hlocal, hbuilt⟩, by simp [programBytes]⟩
  · rintro ⟨⟨hword, hglobal, hlocal, hbuilt⟩, rfl⟩
    obtain ⟨⟨word⟩, user_global, user_local, builtin⟩ := program
    exact ⟨word, _, trivial, by simp [programBytes], (int32_nonneg_iff word).mp hword,
      user_global, _, hglobal, rfl, user_local, _, hlocal, rfl, builtin, _, hbuilt, rfl, rfl,
      rfl⟩

lemma decodes_requirement {keyword : CacheDecoder Buffer} {Valid : Buffer → Prop}
    (h : Decodes keyword Valid sizedBytes) : Decodes (decoder_requirement keyword)
    (fun requirement => Valid requirement.keyword) (requirementBytes fun buffer => buffer) := by
  apply (h.bind fun keyword => Decodes.bind decodes_u64 fun requirements =>
    Tape.accepts_pure (⟨keyword, requirements⟩ : ConditionalShaderRequirement Buffer)).congr
  intro requirement w
  constructor
  · rintro ⟨keyword, v, hvalid, rfl, requirements, v, -, rfl, rfl, rfl⟩
    exact ⟨hvalid, by simp [requirementBytes]⟩
  · rintro ⟨hvalid, rfl⟩
    exact ⟨requirement.keyword, _, hvalid, by simp [requirementBytes], requirement.requirements,
      _, trivial, rfl, rfl, rfl⟩

lemma decodes_words (n : ℕ) : Decodes (readItems (fun _ => decoder_u32) 0 n)
    (fun words => words.length = n) fun words => words.flatMap wordBytes := by
  apply (Tape.accepts_readItems (fun _ => decodes_u32) 0 n).congr
  intro words w
  exact and_congr_right fun _ => spellsEach_iff_flatMap.trans (by simp)

lemma contract_of_eq_some {words : List UInt32}
    {programs : List (SnippetProgramKeywordVariants Buffer)} {user_keywords builtin : List Buffer}
    {requirements : UInt64} {conditional : List (ConditionalShaderRequirement Buffer)}
    {contract : SnippetCompileContract Buffer} :
    contract_of words programs user_keywords builtin requirements conditional = some contract ↔
      words = contract_words contract ∧ programs = contract.program_keyword_variants ∧
      user_keywords = contract.non_stripped_user_keywords ∧ builtin = contract.builtin_keywords ∧
      requirements = contract.requirements ∧ conditional = contract.conditional_requirements := by
  constructor
  · intro h
    unfold contract_of at h
    split at h
    · obtain rfl := some_inj.mp h
      exact ⟨rfl, rfl, rfl, rfl, rfl, rfl⟩
    · simp at h
  · rintro ⟨rfl, rfl, rfl, rfl, rfl, rfl⟩
    have hhash : contract.source_hash = #v[contract.source_hash[0], contract.source_hash[1],
        contract.source_hash[2], contract.source_hash[3]] := by
      ext i hi
      rcases i with _ | _ | _ | _ | i
      · rfl
      · rfl
      · rfl
      · rfl
      · omega
    simp only [contract_of, contract_words]
    rw [← hhash]

lemma decodes_contract : Decodes decoder_snippet_contract
    (fun contract => unity_compiler_snippet_contract_validate textOf contract = true)
    (contractBytes fun buffer => buffer) := by
  apply ((decodes_words 13).bind fun words =>
    Decodes.bind (.counted decodes_program) fun programs =>
      Decodes.bind decodes_filled_strings fun user_keywords =>
        Decodes.bind decodes_filled_strings fun builtin => Decodes.bind decodes_u64
          fun requirements => Decodes.bind
            (.counted (decodes_requirement decodes_filled_string)) fun conditional =>
          Tape.Accepts.lift_bind (o := contract_of words programs user_keywords builtin requirements
            conditional) fun contract => (Tape.accepts_pure contract).guard_bind
              (c := unity_compiler_snippet_contract_validate textOf contract)).congr
  intro contract w
  constructor
  · rintro ⟨words, v, -, rfl, programs, v, -, rfl, user_keywords, v, -, rfl, builtin, v, -, rfl,
      requirements, v, -, rfl, conditional, v, -, rfl, other, hctr, hvalid, rfl, rfl⟩
    obtain ⟨rfl, rfl, rfl, rfl, rfl, rfl⟩ := contract_of_eq_some.mp hctr
    exact ⟨hvalid, by simp [contractBytes]⟩
  · rintro ⟨hvalid, rfl⟩
    have hall := hvalid
    simp only [unity_compiler_snippet_contract_validate, valid_owned_string_array, List.all_eq_true,
      decide_eq_true_eq] at hall
    obtain ⟨⟨-, -, -, hprograms, ⟨huser, huser'⟩, ⟨hbuilt, hbuilt'⟩, hconditional⟩, hprog, -,
      hkws⟩ := hall
    exact ⟨contract_words contract, _, rfl, by simp [contractBytes],
      contract.program_keyword_variants, _, ⟨hprograms, hprog⟩, rfl,
      contract.non_stripped_user_keywords, _, ⟨huser, huser'⟩, rfl, contract.builtin_keywords, _,
      ⟨hbuilt, hbuilt'⟩, rfl, contract.requirements, _, trivial, rfl,
      contract.conditional_requirements, _, ⟨hconditional, hkws⟩, rfl, contract,
      contract_of_eq_some.mpr ⟨rfl, rfl, rfl, rfl, rfl, rfl⟩, hvalid, rfl, rfl⟩

/-! ## Results and responses -/

/-- The fields of a snippet with a contract are those of the contract. -/
def Mirrors {S : Type} (snippet : PreprocessedSnippet S) : Prop :=
  ∀ contract, snippet.contract = some contract →
    snippet.reqs = contract.requirements ∧ snippet.language = contract.language ∧
    snippet.gpu_program_id = contract.snippet_id ∧
    snippet.conditional_requirements = contract.conditional_requirements

lemma decodes_snippet : Decodes decoder_snippet
    (fun snippet => SnippetOk textOf snippet ∧ Mirrors snippet)
    (snippetBytes fun buffer => buffer) := by
  have hbranch : ∀ (source : Buffer) (has_contract : Bool), bytesTape.Accepts
      (if has_contract = true then do
          let contract ← decoder_snippet_contract
          pure (⟨source, contract.requirements, contract.language, contract.snippet_id,
            contract.conditional_requirements, some contract⟩ : PreprocessedSnippet Buffer)
        else do
          let reqs ← decoder_u64
          let language ← decoder_i32
          let gpu_program_id ← decoder_i32
          let conditional ← decoder_counted (decoder_requirement decoder_string)
          pure ⟨source, reqs, language, gpu_program_id, conditional, none⟩)
      fun snippet w => snippet.source = source ∧ snippet.contract.isSome = has_contract ∧
        (SnippetOk textOf snippet ∧ Mirrors snippet) ∧
        w = snippetBody (fun buffer => buffer) snippet := by
    intro source has_contract
    cases has_contract with
    | true =>
      apply (decodes_contract.map fun contract => (⟨source, contract.requirements, contract.language,
        contract.snippet_id, contract.conditional_requirements, some contract⟩ :
          PreprocessedSnippet Buffer)).congr
      intro snippet w
      constructor
      · rintro ⟨contract, rfl, hvalid, rfl⟩
        refine ⟨rfl, rfl, ⟨hvalid, fun other hother => ?_⟩, rfl⟩
        cases hother
        exact ⟨rfl, rfl, rfl, rfl⟩
      · rintro ⟨rfl, hsome, ⟨hvalid, hmirrors⟩, rfl⟩
        obtain ⟨source, reqs, language, gpu_program_id, conditional, contract⟩ := snippet
        cases contract with
        | none => simp at hsome
        | some contract =>
          obtain ⟨rfl, rfl, rfl, rfl⟩ := hmirrors contract rfl
          exact ⟨contract, rfl, hvalid, rfl⟩
    | false =>
      apply (Decodes.bind decodes_u64 fun reqs => Decodes.bind decodes_i32 fun language =>
        Decodes.bind decodes_i32 fun gpu_program_id =>
          Decodes.bind (.counted (decodes_requirement decodes_string))
          fun conditional => Tape.accepts_pure (⟨source, reqs, language, gpu_program_id, conditional,
            none⟩ : PreprocessedSnippet Buffer)).congr
      intro snippet w
      constructor
      · rintro ⟨reqs, v, -, rfl, language, v, -, rfl, gpu_program_id, v, -, rfl, conditional, v,
          ⟨hcnt, -⟩, rfl, rfl, rfl⟩
        exact ⟨rfl, rfl, ⟨hcnt, fun other hother => absurd hother (by simp)⟩, by simp [snippetBody]⟩
      · rintro ⟨rfl, hsome, ⟨hvalid, hmirrors⟩, rfl⟩
        obtain ⟨source, reqs, language, gpu_program_id, conditional, contract⟩ := snippet
        cases contract with
        | some contract => simp at hsome
        | none =>
          exact ⟨reqs, _, trivial, by simp [snippetBody], language, _, trivial, rfl,
            gpu_program_id, _, trivial, rfl, conditional, _, ⟨hvalid, fun _ _ => trivial⟩, rfl,
            rfl, rfl⟩
  apply (Decodes.bind decodes_string fun source => Decodes.bind decodes_flag fun has_contract =>
    hbranch source has_contract).congr
  intro snippet w
  constructor
  · rintro ⟨source, v, -, rfl, has_contract, v, -, rfl, rfl, rfl, hok, rfl⟩
    exact ⟨hok, rfl⟩
  · rintro ⟨hok, rfl⟩
    exact ⟨snippet.source, _, trivial, rfl, snippet.contract.isSome, _, trivial, rfl, rfl, rfl,
      hok, rfl⟩

def versionBytes (version : UInt32) : Bytes :=
  preprocess_result_magic.take 7 ++ [48 + version.toUInt8] ++ wordBytes version

lemma decodes_version : Decodes decoder_result_version
    (fun version => version = 4 ∨ version = 5) versionBytes := by
  apply ((accepts_bytes 8).bind fun stored_magic => (Decodes.bind decodes_u32 fun version =>
    (Tape.accepts_pure version).guard_bind
      (c := (version = 4 ∨ version = 5) ∧ stored_magic.getD 7 0 = 48 + version.toUInt8)).guard_bind
        (c := stored_magic.take 7 = preprocess_result_magic.take 7)).congr
  intro version w
  constructor
  · rintro ⟨_, stored_magic, v, ⟨hlen, rfl⟩, ⟨hmagic, other, v, -, rfl, ⟨hver, hlast⟩, rfl, rfl⟩,
      rfl⟩
    refine ⟨hver, ?_⟩
    have hdrop : stored_magic.drop 7 = [48 + version.toUInt8] := by
      rw [drop_eq_getElem_cons (by omega), drop_eq_nil_of_le (by omega), ← hlast,
        getD_eq_getElem _ _ (by omega)]
    rw [versionBytes, ← hmagic, ← hdrop, take_append_drop, append_nil]
  · rintro ⟨hver, rfl⟩
    exact ⟨preprocess_result_magic.take 7 ++ [48 + version.toUInt8], _, wordBytes version,
      ⟨rfl, rfl⟩, ⟨rfl, version, [], trivial, (append_nil _).symm, ⟨hver, rfl⟩, rfl, rfl⟩, rfl⟩

def ResultSpells (result : PreprocessResult Buffer) (w : Bytes) : Prop :=
  (ResultOk textOf result ∧ ∀ snippet ∈ result.snippets, Mirrors snippet) ∧
    (w = resultBytes (fun buffer => buffer) result ∨
      (result.includes = none ∧ result.probed_paths = none ∧
        w = oldResultBytes (fun buffer => buffer) result))

lemma accepts_result : bytesTape.Accepts decoder_preprocess_result ResultSpells := by
  have hpaths : ∀ (version : UInt32) (snippets : List (PreprocessedSnippet Buffer))
      (blob : Bytes), bytesTape.Accepts
      (if version = 5 then do
          let includes ← decoder_dependency_paths
          let probed_paths ← decoder_dependency_paths
          pure (⟨snippets, blob, includes, probed_paths⟩ : PreprocessResult Buffer)
        else pure ⟨snippets, blob, none, none⟩)
      fun result w => result.snippets = snippets ∧ result.blob = blob ∧
        ((version = 5 ∧ PathsOk textOf result.includes ∧ PathsOk textOf result.probed_paths ∧
          w = optionalBytes (fun buffer => buffer) result.includes ++
            optionalBytes (fun buffer => buffer) result.probed_paths) ∨
        (version ≠ 5 ∧ result.includes = none ∧ result.probed_paths = none ∧ w = [])) := by
    intro version snippets blob
    by_cases hver : version = 5
    · simp only [hver, if_true]
      apply (Decodes.bind decodes_paths fun includes =>
        Decodes.bind decodes_paths fun probed_paths =>
        Tape.accepts_pure (⟨snippets, blob, includes, probed_paths⟩ : PreprocessResult Buffer)).congr
      intro result w
      constructor
      · rintro ⟨includes, v, hincs, rfl, probed_paths, v, hprobed, rfl, rfl, rfl⟩
        exact ⟨rfl, rfl, .inl ⟨trivial, hincs, hprobed, by simp⟩⟩
      · rintro ⟨rfl, rfl, ⟨-, hincs, hprobed, rfl⟩ | ⟨hne, -⟩⟩
        · exact ⟨result.includes, _, hincs, by simp, result.probed_paths, _, hprobed, rfl, rfl, rfl⟩
        · exact absurd rfl hne
    · rw [if_neg hver]
      apply (Tape.accepts_pure (⟨snippets, blob, none, none⟩ : PreprocessResult Buffer)).congr
      intro result w
      constructor
      · rintro ⟨rfl, rfl⟩
        exact ⟨rfl, rfl, .inr ⟨hver, rfl, rfl, rfl⟩⟩
      · rintro ⟨rfl, rfl, ⟨heq, -⟩ | ⟨-, hincs, hprobed, rfl⟩⟩
        · exact absurd heq hver
        · obtain ⟨snippets, blob, includes, probed_paths⟩ := result
          obtain rfl : includes = none := hincs
          obtain rfl : probed_paths = none := hprobed
          exact ⟨rfl, rfl⟩
  apply (Decodes.bind decodes_version fun version => Decodes.bind decodes_u32 fun reserved =>
    (Decodes.bind decodes_u32 fun snippet_count => ((@decodes_sized SIZE_MAX (by decide)).bind
      fun blob => (Tape.accepts_readItems (fun _ => decodes_snippet) 0 snippet_count.toNat).bind
        fun snippets => hpaths version snippets blob).guard_bind
          (c := snippet_count.toNat ≤ USC_PREPROCESS_MAX_COUNT)).guard_bind (c := reserved = 0)).congr
  intro result w
  constructor
  · rintro ⟨version, v, hver, rfl, reserved, v, -, rfl, rfl, snippet_count, v, -, rfl, hcnt,
      blob, v, -, rfl, snippets, u, v, ⟨hlen, hspells⟩, ⟨rfl, rfl, hpaths⟩, rfl⟩
    obtain ⟨hvalid, rfl⟩ := spellsEach_iff_flatMap.mp hspells
    have hsnips : ∀ snippet ∈ result.snippets, SnippetOk textOf snippet ∧ Mirrors snippet := by
      intro snippet hmem
      obtain ⟨k, hk⟩ := mem_iff_getElem?.mp hmem
      exact hvalid k snippet hk
    have hword : wordBytes snippet_count = leBytes 4 result.snippets.length := by
      rw [hlen]
      rfl
    rcases hpaths with ⟨rfl, hincs, hprobed, rfl⟩ | ⟨hne, hincs, hprobed, rfl⟩
    · refine ⟨⟨⟨by omega, fun snippet h => (hsnips snippet h).1, hincs, hprobed⟩,
        fun snippet h => (hsnips snippet h).2⟩, .inl ?_⟩
      simp only [resultBytes, resultBody, ← hword, append_assoc]
      rfl
    · obtain rfl : version = 4 := hver.resolve_right hne
      refine ⟨⟨⟨by omega, fun snippet h => (hsnips snippet h).1, ?_, ?_⟩,
        fun snippet h => (hsnips snippet h).2⟩, .inr ⟨hincs, hprobed, ?_⟩⟩
      · rw [hincs]
        exact fun paths h => absurd h (by simp)
      · rw [hprobed]
        exact fun paths h => absurd h (by simp)
      · simp only [oldResultBytes, resultBody, ← hword, append_nil]
        rfl
  · rintro ⟨⟨hok, hmirrors⟩, hw⟩
    have hcnt := hok.count
    have hsmall : result.snippets.length < 2 ^ 32 := by
      unfold USC_PREPROCESS_MAX_COUNT at hcnt
      omega
    have hnat : (UInt32.ofNat result.snippets.length).toNat = result.snippets.length :=
      UInt32.toNat_ofNat_of_lt' hsmall
    have hword : wordBytes (UInt32.ofNat result.snippets.length) =
        leBytes 4 result.snippets.length := by
      rw [wordBytes, hnat]
    have hspells : SpellsEach (fun _ snippet w => (SnippetOk textOf snippet ∧ Mirrors snippet) ∧
        w = snippetBytes (fun buffer => buffer) snippet) 0 result.snippets
        (result.snippets.flatMap (snippetBytes fun buffer => buffer)) :=
      spellsEach_iff_flatMap.mpr ⟨fun k snippet hk =>
        ⟨hok.snippets snippet (mem_of_getElem? hk), hmirrors snippet (mem_of_getElem? hk)⟩,
        rfl⟩
    rcases hw with rfl | ⟨hincs, hprobed, rfl⟩
    · refine ⟨5, _, .inr rfl, ?_, 0, _, trivial, rfl, rfl, UInt32.ofNat result.snippets.length,
        _, trivial, rfl, by rwa [hnat], result.blob, _, trivial, rfl, result.snippets, _, _,
        ⟨hnat.symm, hspells⟩, ⟨rfl, rfl, .inl ⟨rfl, hok.includes, hok.probed_paths, rfl⟩⟩, rfl⟩
      simp only [resultBytes, resultBody, hword, append_assoc]
      rfl
    · refine ⟨4, _, .inl rfl, ?_, 0, _, trivial, rfl, rfl, UInt32.ofNat result.snippets.length,
        _, trivial, rfl, by rwa [hnat], result.blob, _, trivial, rfl, result.snippets, _, _,
        ⟨hnat.symm, hspells⟩, ⟨rfl, rfl, .inr ⟨by decide, hincs, hprobed, rfl⟩⟩, rfl⟩
      simp only [oldResultBytes, resultBody, hword, append_nil]
      rfl

lemma accepts_header {magic : Bytes} (hmagic : magic.length = 8) (version : UInt32) :
    bytesTape.Accepts (decoder_response_header magic version)
      fun _ w => w = headerBytes magic version := by
  apply ((accepts_bytes 8).bind fun stored_magic => (Decodes.bind decodes_u32 fun stored_version =>
    (Decodes.bind decodes_u32 fun reserved => (Tape.accepts_pure ()).guard_bind
      (c := reserved = 0)).guard_bind (c := stored_version = version)).guard_bind
        (c := stored_magic = magic)).congr
  intro value w
  constructor
  · rintro ⟨_, stored_magic, v, ⟨-, rfl⟩, ⟨rfl, stored_version, v, -, rfl, rfl, reserved, v, -,
      rfl, rfl, -, rfl⟩, rfl⟩
    rw [headerBytes, append_nil]
  · rintro rfl
    refine ⟨magic, magic, _, ⟨hmagic, rfl⟩, ⟨rfl, version, _, trivial, rfl, rfl, 0, [], trivial,
      rfl, rfl, rfl, rfl⟩, ?_⟩
    rw [headerBytes, append_nil]

lemma decodes_success : Decodes decoder_success (fun status => status.compiler_success = true ∧
      cache_response_status_is_valid textOf status = true) (statusBytes fun buffer => buffer) := by
  apply (Decodes.bind decodes_status fun status => (Tape.accepts_pure status).guard_bind
    (c := status.compiler_success = true)).congr
  intro status w
  constructor
  · rintro ⟨other, v, hvalid, rfl, hsucc, rfl, rfl⟩
    exact ⟨⟨hsucc, hvalid⟩, append_nil _⟩
  · rintro ⟨⟨hsucc, hvalid⟩, rfl⟩
    exact ⟨status, [], hvalid, (append_nil _).symm, hsucc, rfl, rfl⟩

lemma decodes_entry : Decodes decoder_reflection_entry (EntryOk textOf)
    (entryBytes fun buffer => buffer) := by
  apply (Decodes.bind decodes_string fun record => Tape.Accepts.lift_bind
    (o := unity_compiler_reflection_record_parse (textOf record)) fun parsed => Tape.accepts_pure
      (⟨parsed.toUnityCompilerReflectionRecord, record⟩ : ReflectionEntry Buffer)).congr
  intro entry w
  constructor
  · rintro ⟨record, v, -, rfl, parsed, hprs, rfl, rfl⟩
    exact ⟨⟨parsed, hprs, rfl⟩, append_nil _⟩
  · rintro ⟨⟨parsed, hprs, hcontent⟩, rfl⟩
    refine ⟨entry.record, [], trivial, (append_nil _).symm, parsed, hprs, ?_, rfl⟩
    rw [hcontent]

lemma decodes_binary : Decodes decoder_binary_response (BinaryOk textOf)
    (binaryBytes fun buffer => buffer) := by
  apply ((@accepts_header binary_response_magic rfl 2).bind fun _ =>
    Decodes.bind decodes_success fun status => Decodes.bind (.counted decodes_entry) fun records =>
      (@decodes_sized SIZE_MAX (by decide)).bind fun data => Tape.accepts_pure
        (⟨status, records, data⟩ : UnityCompilerBinaryResponse Buffer)).congr
  intro response w
  constructor
  · rintro ⟨-, -, v, rfl, ⟨status, v, ⟨hsucc, hvalid⟩, rfl, records, v, ⟨hcnt, hents⟩, rfl, data,
      v, -, rfl, rfl, rfl⟩, rfl⟩
    exact ⟨⟨hsucc, hvalid, hcnt, hents⟩, by simp [binaryBytes]⟩
  · rintro ⟨⟨hsucc, hvalid, hcnt, hents⟩, rfl⟩
    exact ⟨(), _, _, rfl, ⟨response.status, _, ⟨hsucc, hvalid⟩, rfl, response.reflection_records,
      _, ⟨hcnt, hents⟩, rfl, response.data, _, trivial, rfl, rfl, rfl⟩, by simp [binaryBytes]⟩

lemma accepts_envelope : bytesTape.Accepts decoder_preprocess_envelope
    fun envelope w => (envelope.1.compiler_success = true ∧
      cache_response_status_is_valid textOf envelope.1 = true) ∧
      w = envelopeBytes (fun buffer => buffer) envelope.1 envelope.2 := by
  apply ((@accepts_header preprocess_response_magic rfl 1).bind fun _ =>
    Decodes.bind decodes_success fun status => (@decodes_sized SIZE_MAX (by decide)).bind
      fun data => Tape.accepts_pure (status, data)).congr
  intro envelope w
  constructor
  · rintro ⟨-, -, v, rfl, ⟨status, v, hvalid, rfl, data, v, -, rfl, rfl, rfl⟩, rfl⟩
    exact ⟨hvalid, by simp [envelopeBytes]⟩
  · rintro ⟨hvalid, rfl⟩
    exact ⟨(), _, _, rfl, ⟨envelope.1, _, hvalid, rfl, envelope.2, _, trivial, rfl, rfl, rfl⟩, by
      simp [envelopeBytes]⟩

variable {Spells : α → Bytes → Prop} {decoder : CacheDecoder α} {data : Bytes}

lemma decoded_eq_some (h : bytesTape.Accepts decoder Spells) (hsize : data.length ≤ SIZE_MAX)
    {value : α} : decoded decoder data = some value ↔ Spells value data := by
  have hrun := h (s := data) hsize value []
  have hspells : (∃ w, Spells value w ∧ bytesTape.Moves data w []) ↔ Spells value data := by
    constructor
    · rintro ⟨w, hw, hmoves⟩
      have hdata : data = w ++ [] := hmoves
      rwa [hdata, append_nil]
    · intro hw
      exact ⟨data, hw, (append_nil data).symm⟩
  rw [← hspells, ← hrun]
  unfold decoded
  split
  · rename_i other hother
    rw [hother]
    simp
  · rename_i hother
    simp only [reduceCtorEq, false_iff]
    intro hsome
    exact hother value hsome

/-- Nothing in front of an accepted input is accepted, and nothing that begins with one. -/
theorem decoded_append (h : bytesTape.Accepts decoder Spells) {rest : Bytes}
    (hrest : rest ≠ []) (hsize : (data ++ rest).length ≤ SIZE_MAX) {value other : α}
    (hval : decoded decoder data = some value) : decoded decoder (data ++ rest) ≠ some other := by
  intro hother
  have hle : data.length ≤ SIZE_MAX := by
    rw [length_append] at hsize
    omega
  have hdata := (decoded_eq_some h hle).mp hval
  have hlong := (h hsize value rest).mpr ⟨data, hdata, rfl⟩
  have hall := (h hsize other []).mpr
    ⟨data ++ rest, (decoded_eq_some h hsize).mp hother, (append_nil _).symm⟩
  rw [hlong] at hall
  exact hrest (Prod.mk.inj (some_inj.mp hall)).2

end ResponseCodec

end DXBCSandbox
