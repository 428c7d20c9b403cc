/-
Variant keys are told apart by their bytes.

The writes of the serialiser append the fields of the key, and the size computed before is
the sum of their sizes. Every field is a prefix code, so the bytes fix the fields. The
comparison of two keys asks for the same fields. So two keys have the same bytes exactly
when they compare equal.
-/
import Mathlib.Algebra.Order.BigOperators.Group.Finset
import DXBCSandbox.Lib.PrefixCode
import DXBCSandbox.Words
import DXBCSandbox.Common.VariantKey

namespace DXBCSandbox

open List Option
open UInt32 (toNat_inj toNat_lt)

/-! ## Writes -/

/-- With enough room the write appends these bytes. -/
def Writes (write : VariantKeyWriter → Option VariantKeyWriter) (bytes : Bytes) : Prop :=
  ∀ writer, writer.data.length + bytes.length ≤ writer.size →
    write writer = some { writer with data := writer.data ++ bytes }

namespace Writes

variable {f g : VariantKeyWriter → Option VariantKeyWriter} {bs cs : Bytes}

lemma bind (hf : Writes f bs) (hg : Writes g cs) :
    Writes (fun writer => f writer >>= g) (bs ++ cs) := by
  intro writer hroom
  rw [length_append] at hroom
  simp only [hf writer (by omega), bind_eq_bind, bind_some]
  rw [hg _ (by simp only [length_append]; omega), append_assoc]

lemma congr (hf : Writes f bs) (h : bs = cs) : Writes f cs := h ▸ hf

lemma nil : Writes some [] := by
  intro writer _
  rw [append_nil]

end Writes

lemma writes_bytes (bytes : Bytes) : Writes (writer_bytes bytes) bytes := by
  intro writer hroom
  rw [writer_bytes, if_neg (by omega)]

lemma writes_u32 (value : UInt32) : Writes (writer_u32 value) (leBytes 4 value.toNat) := by
  rw [← le32Bytes_eq]
  exact writes_bytes _

lemma writes_u64 (value : UInt64) : Writes (writer_u64 value) (leBytes 8 value.toNat) := by
  rw [← le64Bytes_eq]
  exact writes_bytes _

lemma writes_i32 (value : Int32) :
    Writes (writer_i32 value) (leBytes 4 value.toUInt32.toNat) := writes_u32 _

lemma writes_i64 (value : Int64) :
    Writes (writer_i64 value) (leBytes 8 value.toUInt64.toNat) := writes_u64 _

lemma writes_flag (flag : Bool) : Writes (writer_flag flag) (leBytes 4 flag.toNat) := by
  cases flag with
  | false => exact writes_u32 0
  | true => exact writes_u32 1

def wordsBytes (words : List UInt32) : Bytes := words.flatMap fun w => leBytes 4 w.toNat

lemma writes_words (words : List UInt32) : Writes (writer_words words) (wordsBytes words) := by
  induction words with
  | nil => exact Writes.nil
  | cons w ws ih => exact (writes_u32 w).bind ih

lemma writes_count {n : ℕ} (h : n ≤ UINT32_MAX) :
    Writes (writer_u32 (UInt32.ofNat n)) (leBytes 4 n) := by
  unfold UINT32_MAX at h
  have hwrites := writes_u32 (UInt32.ofNat n)
  rwa [ofNat_toNat (by omega)] at hwrites

def stringBytes (s : CString) : Bytes := leBytes 4 s.bytes.length ++ s.bytes

/-- The bytes of a string array, behind its count. -/
def stringsBytes (values : List CString) : Bytes :=
  leBytes 4 values.length ++ values.flatMap stringBytes

lemma writes_string {s : CString} (h : s.bytes.length ≤ UINT32_MAX) :
    Writes (writer_string s) (stringBytes s) := by
  intro writer hroom
  rw [writer_string, if_neg (by omega)]
  exact (writes_count h).bind (writes_bytes s.bytes) writer hroom

variable {values : List CString}

lemma writes_strings (h : ∀ s ∈ values, s.bytes.length ≤ UINT32_MAX) :
    Writes (writer_strings values) (values.flatMap stringBytes) := by
  induction values with
  | nil => exact Writes.nil
  | cons s values ih =>
    have hs := writes_string (h s mem_cons_self)
    exact hs.bind (ih fun s' hs' => h s' (mem_cons_of_mem _ hs'))

lemma writes_string_array (hcnt : values.length ≤ UINT32_MAX)
    (h : ∀ s ∈ values, s.bytes.length ≤ UINT32_MAX) :
    Writes (writer_string_array values) (stringsBytes values) := by
  intro writer hroom
  rw [writer_string_array, if_neg (by omega)]
  exact (writes_count hcnt).bind (writes_strings h) writer hroom

variable (fingerprint : VariantKeyFingerprint)

def fingerprintBytes : Bytes :=
  leBytes 4 fingerprint.present.toNat ++
    (if fingerprint.present then fingerprint.bytes.toList
      else List.replicate VARIANT_KEY_DIGEST_SIZE 0)

lemma writes_fingerprint :
    Writes (writer_fingerprint fingerprint) (fingerprintBytes fingerprint) :=
  (writes_flag _).bind (writes_bytes _)

/-! ## The bytes of a key -/

/-- The numbers in front of the header words, with their widths. -/
def identityNumbers (key : VariantKey) (size : ℕ) : List (ℕ × ℕ) :=
  [(4, 4), (8, size), (8, key.shader_path_id.toUInt64.toNat), (4, key.subshader_index.toNat),
   (4, key.pass_index.toNat), (4, key.stage.toNat), (4, key.compiler_platform.toUInt32.toNat),
   (4, key.archive_platform_index.toNat), (4, key.hardware_tier_group.toNat),
   (4, key.subprogram_index.toNat), (4, key.parameter_blob_index.toUInt32.toNat),
   (4, key.serialized_program_type.toUInt32.toNat),
   (4, key.serialized_hardware_tier_present.toNat),
   (4, key.serialized_hardware_tier.toUInt32.toNat), (8, key.serialized_requirements.toNat),
   (4, key.serialized_program_mask.toNat), (4, key.player_metadata_present.toNat),
   (4, key.player_program_type.toUInt32.toNat)]

def scopeNumbers (key : VariantKey) : List (ℕ × ℕ) :=
  [(4, key.player_source_map.toNat), (4, key.keyword_scopes_are_explicit.toNat)]

def compilerNumbers (compiler : VariantCompilerAuthority CString (List CString)) : List (ℕ × ℕ) :=
  [(4, compiler.schema_version.toNat), (4, compiler.build_platform.toNat),
   (4, compiler.compiler_flags.toNat), (4, compiler.language.toUInt32.toNat),
   (4, compiler.shader_type.toUInt32.toNat), (8, compiler.request_requirements.toNat),
   (4, compiler.request_program_mask.toNat), (4, compiler.program_start.toUInt32.toNat),
   (4, compiler.render_state_length.toUInt32.toNat), (4, compiler.valid_apis.toNat),
   (4, compiler.caching_preprocessor.toNat), (4, compiler.preprocess_only.toNat),
   (4, compiler.strip_line_directives.toNat)]

def variantBytes (key : VariantKey) (size : ℕ) : Bytes :=
  VARIANT_KEY_MAGIC ++ (numberBytes (identityNumbers key size) ++
    (wordsBytes key.player_header_words.toList ++ numberBytes (scopeNumbers key)))

def keywordIndexBytes (key : VariantKey) : Bytes :=
  (leBytes 4 key.global_keyword_indices.length ++ wordsBytes key.global_keyword_indices) ++
    (leBytes 4 key.local_keyword_indices.length ++ wordsBytes key.local_keyword_indices)

def compilerBytes (compiler : VariantCompilerAuthority CString (List CString)) : Bytes :=
  numberBytes (compilerNumbers compiler) ++ (stringBytes compiler.source_directory ++
    (stringBytes compiler.source_basename ++ (stringBytes compiler.pass_name ++
      (stringsBytes compiler.variant_keywords ++ (stringsBytes compiler.user_keywords ++
        (stringsBytes compiler.enabled_platform_keywords ++
          (stringsBytes compiler.disabled_keywords ++
            (fingerprintBytes compiler.compiler_fingerprint ++
              (fingerprintBytes compiler.environment_fingerprint ++
                (fingerprintBytes compiler.source_fingerprint ++
                  fingerprintBytes compiler.request_input_fingerprint))))))))))

def keyBytes (key : VariantKey) (size : ℕ) : Bytes :=
  variantBytes key size ++ (keywordIndexBytes key ++ compilerBytes key.compiler)

/-! ## Well-formed keys -/

structure StringsOk (values : List CString) : Prop where
  count_le : values.length ≤ VARIANT_KEY_MAX_COMPILER_KEYWORDS
  length_le : ∀ s ∈ values, s.bytes.length ≤ VARIANT_KEY_MAX_STRING_BYTES

def CanonicalFingerprint : Prop :=
  fingerprint.present = false → fingerprint.bytes = Vector.replicate VARIANT_KEY_DIGEST_SIZE 0

structure KeyOk (key : VariantKey) : Prop where
  global_le : key.global_keyword_indices.length ≤ VARIANT_KEY_MAX_KEYWORD_INDICES
  local_le : key.local_keyword_indices.length ≤ VARIANT_KEY_MAX_KEYWORD_INDICES
  directory_le : key.compiler.source_directory.bytes.length ≤ VARIANT_KEY_MAX_STRING_BYTES
  basename_le : key.compiler.source_basename.bytes.length ≤ VARIANT_KEY_MAX_STRING_BYTES
  pass_le : key.compiler.pass_name.bytes.length ≤ VARIANT_KEY_MAX_STRING_BYTES
  variant_keywords : StringsOk key.compiler.variant_keywords
  user_keywords : StringsOk key.compiler.user_keywords
  enabled_keywords : StringsOk key.compiler.enabled_platform_keywords
  disabled_keywords : StringsOk key.compiler.disabled_keywords
  compiler_fingerprint : CanonicalFingerprint key.compiler.compiler_fingerprint
  environment_fingerprint : CanonicalFingerprint key.compiler.environment_fingerprint
  source_fingerprint : CanonicalFingerprint key.compiler.source_fingerprint
  request_input_fingerprint : CanonicalFingerprint key.compiler.request_input_fingerprint

/-! ## The serialiser -/

variable {amount size : ℕ}

section Serialise

variable {key : VariantKey} {size : ℕ}

lemma writes_variant (key : VariantKey) (hsize : size ≤ SIZE_MAX) :
    Writes (write_variant key size) (variantBytes key size) := by
  unfold SIZE_MAX at hsize
  have hwrite := writes_u64 (UInt64.ofNat size)
  rw [UInt64.toNat_ofNat_of_lt' (by rw [UInt64.size]; omega)] at hwrite
  refine Writes.congr ((writes_bytes _).bind <| (writes_u32 _).bind <| hwrite.bind <|
    (writes_i64 _).bind <| (writes_u32 _).bind <| (writes_u32 _).bind <| (writes_u32 _).bind <|
    (writes_i32 _).bind <| (writes_u32 _).bind <| (writes_u32 _).bind <| (writes_u32 _).bind <|
    (writes_i32 _).bind <| (writes_i32 _).bind <| (writes_flag _).bind <| (writes_i32 _).bind <|
    (writes_u64 _).bind <| (writes_u32 _).bind <| (writes_flag _).bind <| (writes_i32 _).bind <|
    (writes_words _).bind <| (writes_u32 _).bind <| writes_flag _) ?_
  simp only [variantBytes, identityNumbers, scopeNumbers, numberBytes, flatMap_cons,
    flatMap_nil, append_assoc, append_nil]
  rfl

lemma writes_keyword_indices (h : KeyOk key) :
    Writes (write_keyword_indices key) (keywordIndexBytes key) := by
  have hg := h.global_le
  have hl := h.local_le
  unfold VARIANT_KEY_MAX_KEYWORD_INDICES at hg hl
  refine Writes.congr ((writes_count (by unfold UINT32_MAX; omega)).bind <|
    (writes_words _).bind <| (writes_count (by unfold UINT32_MAX; omega)).bind <|
    writes_words _) ?_
  simp only [keywordIndexBytes, append_assoc]

variable {values : List CString}

lemma StringsOk.writes (h : StringsOk values) :
    Writes (writer_string_array values) (stringsBytes values) := by
  have hcnt := h.count_le
  unfold VARIANT_KEY_MAX_COMPILER_KEYWORDS at hcnt
  apply writes_string_array
  · unfold UINT32_MAX
    omega
  · intro s hs
    have hlen := h.length_le s hs
    unfold VARIANT_KEY_MAX_STRING_BYTES at hlen
    unfold UINT32_MAX
    omega

lemma writes_bounded_string {s : CString} (h : s.bytes.length ≤ VARIANT_KEY_MAX_STRING_BYTES) :
    Writes (writer_string s) (stringBytes s) := by
  apply writes_string
  unfold VARIANT_KEY_MAX_STRING_BYTES at h
  unfold UINT32_MAX
  omega

lemma writes_compiler (h : KeyOk key) :
    Writes (write_compiler key.compiler) (compilerBytes key.compiler) := by
  refine Writes.congr ((writes_u32 _).bind <| (writes_u32 _).bind <| (writes_u32 _).bind <|
    (writes_i32 _).bind <| (writes_i32 _).bind <| (writes_u64 _).bind <| (writes_u32 _).bind <|
    (writes_i32 _).bind <| (writes_i32 _).bind <| (writes_u32 _).bind <| (writes_flag _).bind <|
    (writes_flag _).bind <| (writes_flag _).bind <| (writes_bounded_string h.directory_le).bind <|
    (writes_bounded_string h.basename_le).bind <| (writes_bounded_string h.pass_le).bind <|
    h.variant_keywords.writes.bind <| h.user_keywords.writes.bind <|
    h.enabled_keywords.writes.bind <| h.disabled_keywords.writes.bind <|
    (writes_fingerprint _).bind <| (writes_fingerprint _).bind <| (writes_fingerprint _).bind <|
    writes_fingerprint _) ?_
  simp only [compilerBytes, compilerNumbers, numberBytes, flatMap_cons, flatMap_nil,
    append_assoc, append_nil]

lemma writes_key (h : KeyOk key) (hsize : size ≤ SIZE_MAX) :
    Writes (write_key key size) (keyBytes key size) :=
  (writes_variant key hsize).bind ((writes_keyword_indices h).bind (writes_compiler h))

/-! ## The size -/

/-- The bytes of the strings of an array, each with its length. -/
def stringsSize (values : List CString) : ℕ := (values.map fun s => 4 + s.bytes.length).sum

def keySize (key : VariantKey) : ℕ :=
  340 + key.global_keyword_indices.length * 4 + key.local_keyword_indices.length * 4 +
    (4 + key.compiler.source_directory.bytes.length) +
    (4 + key.compiler.source_basename.bytes.length) +
    (4 + key.compiler.pass_name.bytes.length) +
    stringsSize key.compiler.variant_keywords + stringsSize key.compiler.user_keywords +
    stringsSize key.compiler.enabled_platform_keywords +
    stringsSize key.compiler.disabled_keywords

lemma StringsOk.size_le (h : StringsOk values) :
    stringsSize values ≤ VARIANT_KEY_MAX_COMPILER_KEYWORDS * (4 + VARIANT_KEY_MAX_STRING_BYTES) := by
  have hsum : stringsSize values ≤ values.length * (4 + VARIANT_KEY_MAX_STRING_BYTES) := by
    have hle := sum_le_card_nsmul (values.map fun s => 4 + s.bytes.length)
      (4 + VARIANT_KEY_MAX_STRING_BYTES) ?_
    · rwa [length_map] at hle
    · intro n hn
      obtain ⟨s, hs, rfl⟩ := mem_map.mp hn
      exact Nat.add_le_add_left (h.length_le s hs) 4
  exact hsum.trans (Nat.mul_le_mul_right _ h.count_le)

lemma KeyOk.size_le (h : KeyOk key) : keySize key ≤ SIZE_MAX := by
  have h1 := h.variant_keywords.size_le
  have h2 := h.user_keywords.size_le
  have h3 := h.enabled_keywords.size_le
  have h4 := h.disabled_keywords.size_le
  have h5 := h.global_le
  have h6 := h.local_le
  have h7 := h.directory_le
  have h8 := h.basename_le
  have h9 := h.pass_le
  unfold VARIANT_KEY_MAX_COMPILER_KEYWORDS VARIANT_KEY_MAX_STRING_BYTES at *
  unfold VARIANT_KEY_MAX_KEYWORD_INDICES at *
  unfold keySize SIZE_MAX
  omega

variable {total : ℕ}

lemma checked_add_size_eq (h : total + amount ≤ SIZE_MAX) :
    checked_add_size total amount = some (total + amount) := by
  rw [checked_add_size, if_neg (by omega)]

lemma checked_add_encoded_string_size_eq {s : CString}
    (hs : s.bytes.length ≤ VARIANT_KEY_MAX_STRING_BYTES)
    (h : total + (4 + s.bytes.length) ≤ SIZE_MAX) :
    checked_add_encoded_string_size total s = some (total + (4 + s.bytes.length)) := by
  unfold VARIANT_KEY_MAX_STRING_BYTES at hs
  rw [checked_add_encoded_string_size, if_neg (by unfold UINT32_MAX; omega),
    checked_add_size_eq (by omega), bind_eq_bind, bind_some,
    checked_add_size_eq (by omega), Nat.add_assoc]

lemma checked_add_string_array_size_eq
    (hs : ∀ s ∈ values, s.bytes.length ≤ VARIANT_KEY_MAX_STRING_BYTES)
    (h : total + stringsSize values ≤ SIZE_MAX) :
    checked_add_string_array_size total values = some (total + stringsSize values) := by
  induction values generalizing total with
  | nil => rfl
  | cons s values ih =>
    simp only [stringsSize, map_cons, sum_cons] at h ih ⊢
    rw [checked_add_string_array_size,
      checked_add_encoded_string_size_eq (hs s mem_cons_self) (by omega),
      bind_eq_bind, bind_some,
      ih (fun s' hs' => hs s' (mem_cons_of_mem _ hs')) (by omega), Nat.add_assoc]

lemma serialized_size_eq (h : KeyOk key) : serialized_size key = some (keySize key) := by
  have hmax := h.size_le
  unfold keySize at hmax ⊢
  unfold serialized_size
  rw [if_neg (by unfold SIZE_MAX at *; omega), checked_add_size_eq (by omega)]
  simp only [bind_eq_bind, bind_some]
  rw [checked_add_size_eq (by omega), bind_some,
    checked_add_encoded_string_size_eq h.directory_le (by omega), bind_some,
    checked_add_encoded_string_size_eq h.basename_le (by omega), bind_some,
    checked_add_encoded_string_size_eq h.pass_le (by omega), bind_some,
    checked_add_string_array_size_eq h.variant_keywords.length_le (by omega), bind_some,
    checked_add_string_array_size_eq h.user_keywords.length_le (by omega), bind_some,
    checked_add_string_array_size_eq h.enabled_keywords.length_le (by omega), bind_some,
    checked_add_string_array_size_eq h.disabled_keywords.length_le (by omega)]

lemma length_wordsBytes (words : List UInt32) : (wordsBytes words).length = words.length * 4 := by
  rw [wordsBytes, length_flatMap]
  simp [length_leBytes]

lemma length_stringBytes (s : CString) : (stringBytes s).length = 4 + s.bytes.length := by
  rw [stringBytes, length_append, length_leBytes]

lemma length_stringsBytes (values : List CString) :
    (stringsBytes values).length = 4 + stringsSize values := by
  rw [stringsBytes, length_append, length_leBytes, length_flatMap]
  simp only [length_stringBytes, stringsSize]

lemma length_fingerprintBytes (fingerprint : VariantKeyFingerprint) :
    (fingerprintBytes fingerprint).length = 36 := by
  unfold fingerprintBytes
  rw [length_append, length_leBytes]
  split_ifs
  · rw [Vector.length_toList, VARIANT_KEY_DIGEST_SIZE]
  · rw [length_replicate, VARIANT_KEY_DIGEST_SIZE]

/-- **The closed formula is the number of bytes.** -/
theorem length_keyBytes (key : VariantKey) (size : ℕ) :
    (keyBytes key size).length = keySize key := by
  simp only [keyBytes, variantBytes, keywordIndexBytes, compilerBytes, length_append,
    length_numberBytes, length_wordsBytes, length_stringBytes, length_stringsBytes,
    length_fingerprintBytes, length_leBytes, identityNumbers, scopeNumbers, compilerNumbers,
    map_cons, map_nil, sum_cons, sum_nil, Vector.length_toList,
    show VARIANT_KEY_MAGIC.length = 8 by decide, keySize]
  omega

/-- **Serialisation succeeds** and writes the bytes of the key. -/
theorem variant_key_serialize_eq (h : KeyOk key) :
    variant_key_serialize key = .ok (keyBytes key (keySize key)) := by
  have hwrite := writes_key h h.size_le ⟨[], keySize key⟩
    (by rw [length_keyBytes, length_nil, Nat.zero_add])
  unfold variant_key_serialize
  rw [serialized_size_eq h]
  simp only [hwrite, nil_append, length_keyBytes]
  rw [if_neg (by simp)]

end Serialise

/-! ## The start of the bytes of any key -/

/-- A write that succeeds only appends. -/
def Extends (write : VariantKeyWriter → Option VariantKeyWriter) : Prop :=
  ∀ writer writer', write writer = some writer' → writer.data <+: writer'.data

lemma Extends.bind {f g : VariantKeyWriter → Option VariantKeyWriter} (hf : Extends f)
    (hg : Extends g) : Extends fun writer => f writer >>= g := by
  intro writer writer' h
  obtain ⟨middle, hfst, hsnd⟩ := bind_eq_some_iff.mp h
  exact (hf _ _ hfst).trans (hg _ _ hsnd)

lemma extends_bytes (bytes : Bytes) : Extends (writer_bytes bytes) := by
  intro writer writer' h
  unfold writer_bytes at h
  split_ifs at h
  rw [← some.inj h]
  exact prefix_append _ _

lemma extends_u32 (value : UInt32) : Extends (writer_u32 value) := extends_bytes _

lemma extends_u64 (value : UInt64) : Extends (writer_u64 value) := extends_bytes _

lemma extends_i32 (value : Int32) : Extends (writer_i32 value) := extends_u32 _

lemma extends_flag (flag : Bool) : Extends (writer_flag flag) := extends_u32 _

lemma extends_words (words : List UInt32) : Extends (writer_words words) := by
  induction words with
  | nil =>
    intro writer writer' h
    rw [some.inj h]
  | cons word words ih => exact (extends_u32 _).bind ih

lemma extends_string (value : CString) : Extends (writer_string value) := by
  intro writer writer' h
  unfold writer_string at h
  split_ifs at h
  exact (extends_u32 _).bind (extends_bytes _) _ _ h

lemma extends_strings (values : List CString) : Extends (writer_strings values) := by
  induction values with
  | nil =>
    intro writer writer' h
    rw [some.inj h]
  | cons value values ih => exact (extends_string _).bind ih

lemma extends_string_array (values : List CString) : Extends (writer_string_array values) := by
  intro writer writer' h
  unfold writer_string_array at h
  split_ifs at h
  exact (extends_u32 _).bind (extends_strings _) _ _ h

lemma extends_fingerprint (fingerprint : VariantKeyFingerprint) :
    Extends (writer_fingerprint fingerprint) :=
  (extends_flag _).bind (extends_bytes _)

lemma extends_keyword_indices (key : VariantKey) : Extends (write_keyword_indices key) :=
  (extends_u32 _).bind <| (extends_words _).bind <| (extends_u32 _).bind <| extends_words _

lemma extends_compiler (compiler : VariantCompilerAuthority CString (List CString)) :
    Extends (write_compiler compiler) :=
  (extends_u32 _).bind <| (extends_u32 _).bind <| (extends_u32 _).bind <| (extends_i32 _).bind <|
    (extends_i32 _).bind <| (extends_u64 _).bind <| (extends_u32 _).bind <|
    (extends_i32 _).bind <| (extends_i32 _).bind <| (extends_u32 _).bind <|
    (extends_flag _).bind <| (extends_flag _).bind <| (extends_flag _).bind <|
    (extends_string _).bind <| (extends_string _).bind <| (extends_string _).bind <|
    (extends_string_array _).bind <| (extends_string_array _).bind <|
    (extends_string_array _).bind <| (extends_string_array _).bind <|
    (extends_fingerprint _).bind <| (extends_fingerprint _).bind <|
    (extends_fingerprint _).bind <| extends_fingerprint _

variable {total t : ℕ}

lemma checked_add_size_bounds (hpos : 0 < total) (h : checked_add_size total amount = some t) :
    total ≤ t ∧ t ≤ SIZE_MAX := by
  unfold checked_add_size at h
  split_ifs at h with hroom
  have := some.inj h
  omega

lemma checked_add_encoded_string_size_bounds {value : CString} (hpos : 0 < total)
    (h : checked_add_encoded_string_size total value = some t) : total ≤ t ∧ t ≤ SIZE_MAX := by
  unfold checked_add_encoded_string_size at h
  split_ifs at h
  obtain ⟨next, hnext, h⟩ := bind_eq_some_iff.mp h
  have h1 := checked_add_size_bounds hpos hnext
  have h2 := checked_add_size_bounds (by omega) h
  omega

lemma checked_add_string_array_size_bounds (hpos : 0 < total) (hle : total ≤ SIZE_MAX)
    (h : checked_add_string_array_size total values = some t) :
    total ≤ t ∧ t ≤ SIZE_MAX := by
  induction values generalizing total with
  | nil =>
    have := some.inj h
    omega
  | cons value values ih =>
    obtain ⟨next, hnext, h⟩ := bind_eq_some_iff.mp h
    have h1 := checked_add_encoded_string_size_bounds hpos hnext
    have h2 := ih (by omega) h1.2 h
    omega

variable {key : VariantKey}

lemma serialized_size_bounds (h : serialized_size key = some size) :
    340 ≤ size ∧ size ≤ SIZE_MAX := by
  unfold serialized_size at h
  split_ifs at h
  obtain ⟨s1, h1, h⟩ := bind_eq_some_iff.mp h
  obtain ⟨s2, h2, h⟩ := bind_eq_some_iff.mp h
  obtain ⟨s3, h3, h⟩ := bind_eq_some_iff.mp h
  obtain ⟨s4, h4, h⟩ := bind_eq_some_iff.mp h
  obtain ⟨s5, h5, h⟩ := bind_eq_some_iff.mp h
  obtain ⟨s6, h6, h⟩ := bind_eq_some_iff.mp h
  obtain ⟨s7, h7, h⟩ := bind_eq_some_iff.mp h
  obtain ⟨s8, h8, h⟩ := bind_eq_some_iff.mp h
  have h1 := checked_add_size_bounds (by decide) h1
  have h2 := checked_add_size_bounds (by omega) h2
  have h3 := checked_add_encoded_string_size_bounds (by omega) h3
  have h4 := checked_add_encoded_string_size_bounds (by omega) h4
  have h5 := checked_add_encoded_string_size_bounds (by omega) h5
  have h6 := checked_add_string_array_size_bounds (by omega) h5.2 h6
  have h7 := checked_add_string_array_size_bounds (by omega) h6.2 h7
  have h8 := checked_add_string_array_size_bounds (by omega) h7.2 h8
  have h9 := checked_add_string_array_size_bounds (by omega) h8.2 h
  omega

lemma length_variantBytes (key : VariantKey) (size : ℕ) :
    (variantBytes key size).length = 116 := by
  simp only [variantBytes, length_append, length_numberBytes, length_wordsBytes,
    identityNumbers, scopeNumbers, map_cons, map_nil, sum_cons, sum_nil,
    Vector.length_toList, show VARIANT_KEY_MAGIC.length = 8 by decide, Nat.reduceAdd,
    Nat.reduceMul]

/-- Whatever key was serialised, its bytes start with the fixed part, which has their number. -/
theorem variant_key_serialize_start {bytes : Bytes} (h : variant_key_serialize key = .ok bytes) :
    340 ≤ bytes.length ∧ bytes.length ≤ SIZE_MAX ∧
      ∃ rest, bytes = variantBytes key bytes.length ++ rest := by
  unfold variant_key_serialize at h
  split at h
  · simp at h
  · rename_i size hsize
    have hbnds := serialized_size_bounds hsize
    split at h
    · simp at h
    · rename_i writer hwrite
      split_ifs at h with hlen
      rw [not_not] at hlen
      rw [← Except.ok.inj h, hlen]
      refine ⟨hbnds.1, hbnds.2, ?_⟩
      have hfst := writes_variant key hbnds.2 ⟨[], size⟩ (by
        rw [length_variantBytes]
        simp only [length_nil]
        omega)
      unfold write_key at hwrite
      rw [hfst, bind_eq_bind, bind_some] at hwrite
      obtain ⟨middle, hmid, hlast⟩ := bind_eq_some_iff.mp hwrite
      have hmid := extends_keyword_indices key _ _ hmid
      have hlast := extends_compiler key.compiler _ _ hlast
      obtain ⟨rest, hrest⟩ := hmid.trans hlast
      exact ⟨rest, hrest.symm⟩

/-! ## Reading the bytes back -/

lemma CString.ext_bytes {s t : CString} (h : s.bytes = t.bytes) : s = t := by
  cases s
  cases t
  congr

lemma prefixCode_word : PrefixCode (fun _ => True) fun w : UInt32 => leBytes 4 w.toNat := by
  intro x y r s _ _ h
  obtain ⟨hword, hrest⟩ := PrefixCode.number 4 _ _ _ _ x.toNat_lt y.toNat_lt h
  exact ⟨toNat_inj.mp hword, hrest⟩

lemma prefixCode_string :
    PrefixCode (fun s => s.bytes.length ≤ VARIANT_KEY_MAX_STRING_BYTES) stringBytes := by
  intro x y r s hx hy h
  unfold VARIANT_KEY_MAX_STRING_BYTES at hx hy
  obtain ⟨hbytes, hrest⟩ := PrefixCode.sized 4 _ _ _ _ (show x.bytes.length < 256 ^ 4 by omega)
    (show y.bytes.length < 256 ^ 4 by omega) h
  exact ⟨CString.ext_bytes hbytes, hrest⟩

lemma prefixCode_strings : PrefixCode StringsOk stringsBytes := by
  intro x y r s hx hy h
  have hx' := hx.count_le
  have hy' := hy.count_le
  unfold VARIANT_KEY_MAX_COMPILER_KEYWORDS at hx' hy'
  exact PrefixCode.counted 4 prefixCode_string _ _ _ _ ⟨by omega, hx.length_le⟩
    ⟨by omega, hy.length_le⟩ h

lemma prefixCode_indices :
    PrefixCode (fun words : List UInt32 => words.length ≤ VARIANT_KEY_MAX_KEYWORD_INDICES)
      fun words => leBytes 4 words.length ++ wordsBytes words := by
  intro x y r s hx hy h
  unfold VARIANT_KEY_MAX_KEYWORD_INDICES at hx hy
  exact PrefixCode.counted 4 prefixCode_word _ _ _ _ ⟨by omega, fun _ _ => trivial⟩
    ⟨by omega, fun _ _ => trivial⟩ h

lemma toNat_bool_inj {a b : Bool} (h : a.toNat = b.toNat) : a = b := by
  cases a <;> cases b <;> first | rfl | exact absurd h (by decide)

lemma prefixCode_fingerprint : PrefixCode CanonicalFingerprint fingerprintBytes := by
  intro x y r s hx hy h
  obtain ⟨hbytes, hrest⟩ := append_inj h (by rw [length_fingerprintBytes, length_fingerprintBytes])
  unfold fingerprintBytes at hbytes
  obtain ⟨hflag, hdig⟩ := append_inj hbytes (by rw [length_leBytes, length_leBytes])
  have hpres : x.present = y.present := by
    have hval := congrArg leValue hflag
    have hlt : ∀ b : Bool, b.toNat < 256 ^ 4 := by decide
    rw [leValue_leBytes (hlt _), leValue_leBytes (hlt _)] at hval
    exact toNat_bool_inj hval
  refine ⟨?_, hrest⟩
  have hsame : x.bytes = y.bytes := by
    cases hp : x.present with
    | false => rw [hx hp, hy (hpres ▸ hp)]
    | true =>
      rw [hpres] at hp
      rw [hpres, hp] at hdig
      exact Vector.toList_inj.mp hdig
  cases x
  cases y
  simp_all

lemma toUInt32_toNat_inj {a b : Int32} (h : a.toUInt32.toNat = b.toUInt32.toNat) : a = b := by
  have hword : a.toUInt32 = b.toUInt32 := toNat_inj.mp h
  rw [← Int32.toInt32_toUInt32 a, hword, Int32.toInt32_toUInt32]

lemma toUInt64_toNat_inj {a b : Int64} (h : a.toUInt64.toNat = b.toUInt64.toNat) : a = b := by
  have hword : a.toUInt64 = b.toUInt64 := UInt64.toNat_inj.mp h
  rw [← Int64.toInt64_toUInt64 a, hword, Int64.toInt64_toUInt64]

section Injective

variable {a b : VariantKey} {r s : Bytes}

lemma identityNumbers_lt (key : VariantKey) (hsize : size ≤ SIZE_MAX) :
    ∀ f ∈ identityNumbers key size, f.2 < 256 ^ f.1 := by
  unfold SIZE_MAX at hsize
  have hflag : ∀ b : Bool, b.toNat < 256 ^ 4 := by decide
  simp only [identityNumbers, mem_cons, not_mem_nil, or_false, forall_eq_or_imp, forall_eq]
  exact ⟨by decide, by omega, UInt64.toNat_lt _, toNat_lt _, toNat_lt _,
    toNat_lt _, toNat_lt _, toNat_lt _, toNat_lt _, toNat_lt _,
    toNat_lt _, toNat_lt _, hflag _, toNat_lt _, UInt64.toNat_lt _,
    toNat_lt _, hflag _, toNat_lt _⟩

lemma scopeNumbers_lt (key : VariantKey) : ∀ f ∈ scopeNumbers key, f.2 < 256 ^ f.1 := by
  have hflag : ∀ b : Bool, b.toNat < 256 ^ 4 := by decide
  simp only [scopeNumbers, mem_cons, not_mem_nil, or_false, forall_eq_or_imp, forall_eq]
  exact ⟨toNat_lt _, hflag _⟩

lemma compilerNumbers_lt (compiler : VariantCompilerAuthority CString (List CString)) :
    ∀ f ∈ compilerNumbers compiler, f.2 < 256 ^ f.1 := by
  have hflag : ∀ b : Bool, b.toNat < 256 ^ 4 := by decide
  simp only [compilerNumbers, mem_cons, not_mem_nil, or_false, forall_eq_or_imp, forall_eq]
  exact ⟨toNat_lt _, toNat_lt _, toNat_lt _, toNat_lt _,
    toNat_lt _, UInt64.toNat_lt _, toNat_lt _, toNat_lt _,
    toNat_lt _, toNat_lt _, hflag _, hflag _, hflag _⟩

lemma identityNumbers_widths (a b : VariantKey) (n m : ℕ) :
    (identityNumbers a n).map Prod.fst = (identityNumbers b m).map Prod.fst := rfl

lemma scopeNumbers_widths (a b : VariantKey) :
    (scopeNumbers a).map Prod.fst = (scopeNumbers b).map Prod.fst := rfl

lemma compilerNumbers_widths (a b : VariantCompilerAuthority CString (List CString)) :
    (compilerNumbers a).map Prod.fst = (compilerNumbers b).map Prod.fst := rfl

/-- **The bytes of a key fix the key.** -/
theorem keyBytes_inj (ha : KeyOk a) (hb : KeyOk b)
    (h : keyBytes a (keySize a) = keyBytes b (keySize b)) : a = b := by
  simp only [keyBytes, variantBytes, keywordIndexBytes, compilerBytes, append_assoc] at h
  have h := append_cancel_left h
  obtain ⟨hident, h⟩ := numberBytes_append_inj (identityNumbers_widths a b _ _)
    (identityNumbers_lt a ha.size_le) (identityNumbers_lt b hb.size_le) h
  obtain ⟨hwords, h⟩ := prefixCode_word.flatMap _ _ _ _ (by simp) (fun _ _ => trivial)
    (fun _ _ => trivial) h
  obtain ⟨hscope, h⟩ := numberBytes_append_inj (scopeNumbers_widths a b) (scopeNumbers_lt a)
    (scopeNumbers_lt b) h
  rw [← append_assoc, ← append_assoc (leBytes 4 b.global_keyword_indices.length)] at h
  obtain ⟨hglobal, h⟩ := prefixCode_indices _ _ _ _ ha.global_le hb.global_le h
  rw [← append_assoc, ← append_assoc (leBytes 4 b.local_keyword_indices.length)] at h
  obtain ⟨hlocal, h⟩ := prefixCode_indices _ _ _ _ ha.local_le hb.local_le h
  obtain ⟨hcomp, h⟩ := numberBytes_append_inj (compilerNumbers_widths _ _)
    (compilerNumbers_lt a.compiler) (compilerNumbers_lt b.compiler) h
  obtain ⟨hdir, h⟩ := prefixCode_string _ _ _ _ ha.directory_le hb.directory_le h
  obtain ⟨hbasename, h⟩ := prefixCode_string _ _ _ _ ha.basename_le hb.basename_le h
  obtain ⟨hpass, h⟩ := prefixCode_string _ _ _ _ ha.pass_le hb.pass_le h
  obtain ⟨hvar, h⟩ := prefixCode_strings _ _ _ _ ha.variant_keywords hb.variant_keywords h
  obtain ⟨huser, h⟩ := prefixCode_strings _ _ _ _ ha.user_keywords hb.user_keywords h
  obtain ⟨hen, h⟩ := prefixCode_strings _ _ _ _ ha.enabled_keywords hb.enabled_keywords h
  obtain ⟨hdisab, h⟩ := prefixCode_strings _ _ _ _ ha.disabled_keywords hb.disabled_keywords h
  obtain ⟨hf1, h⟩ := prefixCode_fingerprint _ _ _ _ ha.compiler_fingerprint
    hb.compiler_fingerprint h
  obtain ⟨hf2, h⟩ := prefixCode_fingerprint _ _ _ _ ha.environment_fingerprint
    hb.environment_fingerprint h
  obtain ⟨hf3, h⟩ := prefixCode_fingerprint _ _ _ _ ha.source_fingerprint hb.source_fingerprint h
  rw [← append_nil (fingerprintBytes a.compiler.request_input_fingerprint),
    ← append_nil (fingerprintBytes b.compiler.request_input_fingerprint)] at h
  obtain ⟨hf4, -⟩ := prefixCode_fingerprint _ _ _ _ ha.request_input_fingerprint
    hb.request_input_fingerprint h
  simp only [identityNumbers, cons.injEq, Prod.mk.injEq, true_and, and_true] at hident
  simp only [scopeNumbers, cons.injEq, Prod.mk.injEq, true_and, and_true] at hscope
  simp only [compilerNumbers, cons.injEq, Prod.mk.injEq, true_and, and_true] at hcomp
  obtain ⟨-, i1, i2, i3, i4, i5, i6, i7, i8, i9, i10, i11, i12, i13, i14, i15, i16⟩ := hident
  obtain ⟨s1, s2⟩ := hscope
  obtain ⟨c1, c2, c3, c4, c5, c6, c7, c8, c9, c10, c11, c12, c13⟩ := hcomp
  have hauth : a.compiler = b.compiler :=
    VariantCompilerAuthority.ext (toNat_inj.mp c1) (toNat_inj.mp c2)
      (toNat_inj.mp c3) (toUInt32_toNat_inj c4) (toUInt32_toNat_inj c5)
      (UInt64.toNat_inj.mp c6) (toNat_inj.mp c7) (toUInt32_toNat_inj c8)
      (toUInt32_toNat_inj c9) (toNat_inj.mp c10) (toNat_bool_inj c11)
      (toNat_bool_inj c12) (toNat_bool_inj c13) hdir hbasename hpass hvar huser hen
      hdisab hf1 hf2 hf3 hf4
  exact VariantFields.ext (toUInt64_toNat_inj i1) (toNat_inj.mp i2)
    (toNat_inj.mp i3) (toNat_inj.mp i4) (toUInt32_toNat_inj i5)
    (toNat_inj.mp i6) (toNat_inj.mp i7) (toNat_inj.mp i8)
    (toUInt32_toNat_inj i9) (toUInt32_toNat_inj i10) (toNat_bool_inj i11)
    (toUInt32_toNat_inj i12) (UInt64.toNat_inj.mp i13) (toNat_inj.mp i14)
    (toNat_bool_inj i15) (toUInt32_toNat_inj i16) (Vector.toList_inj.mp hwords)
    (toNat_inj.mp s1) (toNat_bool_inj s2) hglobal hlocal hauth

/-! ## Comparison -/

lemma strings_equal_iff {s t : CString} : strings_equal s t = true ↔ s = t := by
  rw [strings_equal, beq_iff_eq]
  exact ⟨CString.ext_bytes, congrArg CString.bytes⟩

lemma string_arrays_equal_iff {xs ys : List CString} (h : xs.length = ys.length) :
    string_arrays_equal xs ys = true ↔ xs = ys := by
  induction xs generalizing ys with
  | nil =>
    obtain rfl : ys = [] := length_eq_zero_iff.mp h.symm
    simp [string_arrays_equal]
  | cons x xs ih =>
    cases ys with
    | nil => simp at h
    | cons y ys =>
      rw [string_arrays_equal, Bool.and_eq_true, strings_equal_iff, ih (by simpa using h),
        cons.injEq]

lemma fingerprints_equal_iff {x y : VariantKeyFingerprint} (hx : CanonicalFingerprint x)
    (hy : CanonicalFingerprint y) : fingerprints_equal x y = true ↔ x = y := by
  rw [fingerprints_equal, Bool.and_eq_true, beq_iff_eq, Bool.or_eq_true, Bool.not_eq_true',
    beq_iff_eq]
  constructor
  · rintro ⟨hpres, habsent | hbytes⟩
    · have hbytes : x.bytes = y.bytes := by rw [hx habsent, hy (hpres ▸ habsent)]
      cases x
      cases y
      simp_all
    · cases x
      cases y
      simp_all
  · rintro rfl
    exact ⟨rfl, .inr rfl⟩

lemma lengths_and_arrays_iff {xs ys : List CString} :
    xs.length = ys.length ∧ string_arrays_equal xs ys = true ↔ xs = ys := by
  constructor
  · rintro ⟨hlen, heq⟩
    exact (string_arrays_equal_iff hlen).mp heq
  · rintro rfl
    exact ⟨rfl, (string_arrays_equal_iff rfl).mpr rfl⟩

lemma compiler_authority_equal_iff (ha : KeyOk a) (hb : KeyOk b) :
    compiler_authority_equal a.compiler b.compiler = true ↔ a.compiler = b.compiler := by
  unfold compiler_authority_equal
  simp only [Bool.and_eq_true, beq_iff_eq, strings_equal_iff,
    fingerprints_equal_iff ha.compiler_fingerprint hb.compiler_fingerprint,
    fingerprints_equal_iff ha.environment_fingerprint hb.environment_fingerprint,
    fingerprints_equal_iff ha.source_fingerprint hb.source_fingerprint,
    fingerprints_equal_iff ha.request_input_fingerprint hb.request_input_fingerprint]
  constructor
  · rintro ⟨⟨⟨⟨⟨⟨⟨⟨⟨⟨⟨⟨⟨⟨⟨⟨⟨⟨⟨⟨⟨⟨⟨⟨⟨⟨⟨c1, c2⟩, c3⟩, c4⟩, c5⟩, c6⟩, c7⟩, c8⟩, c9⟩, c10⟩, c11⟩,
      c12⟩, c13⟩, c14⟩, c15⟩, c16⟩, l1⟩, l2⟩, l3⟩, l4⟩, k1⟩, k2⟩, k3⟩, k4⟩, f1⟩, f2⟩, f3⟩, f4⟩
    exact VariantCompilerAuthority.ext c1 c2 c3 c4 c5 c6 c7 c8 c9 c10 c11 c12 c13 c14 c15 c16
      (lengths_and_arrays_iff.mp ⟨l1, k1⟩) (lengths_and_arrays_iff.mp ⟨l2, k2⟩)
      (lengths_and_arrays_iff.mp ⟨l3, k3⟩) (lengths_and_arrays_iff.mp ⟨l4, k4⟩) f1 f2 f3 f4
  · intro h
    rw [h]
    simp [string_arrays_equal_iff]

/-- **Keys compare equal exactly when they are equal.** -/
theorem variant_key_equal_iff (ha : KeyOk a) (hb : KeyOk b) :
    variant_key_equal a b = true ↔ a = b := by
  unfold variant_key_equal
  constructor
  · intro h
    split_ifs at h with hflds
    simp only [not_or, not_not] at hflds
    obtain ⟨f1, f2, f3, f4, f5, f6, f7, f8, f9, f10, f11, f12, f13, f14, f15, f16, f17, f18, f19,
      lg, ll, hc⟩ := hflds
    simp only [Bool.and_eq_true, Bool.or_eq_true, decide_eq_true_eq, beq_iff_eq] at h
    have hidxs : ∀ {xs ys : List UInt32}, xs.length = ys.length →
        xs.length = 0 ∨ xs = ys → xs = ys := by
      rintro xs ys hlen (hempty | heq)
      · have hys : ys = [] := length_eq_zero_iff.mp (by omega)
        rw [hys, length_eq_zero_iff.mp hempty]
      · exact heq
    exact VariantFields.ext f1 f2 f3 f4 f5 f6 f7 f8 f9 f10 f11 f12 f13 f14 f15 f16 f17 f18 f19
      (hidxs lg h.1) (hidxs ll h.2) ((compiler_authority_equal_iff ha hb).mp hc)
  · rintro rfl
    simp [(compiler_authority_equal_iff ha ha).mpr rfl]

end Injective

/-! ## Initialisation -/

variable {reject_empty : Bool}

lemma validate_strings_ok {values : List (Option CString)}
    (h : validate_strings reject_empty values = .ok) :
    (values.map copy_string).map some = values ∧
      ∀ s ∈ values.map copy_string, s.bytes.length ≤ VARIANT_KEY_MAX_STRING_BYTES := by
  induction values with
  | nil => exact ⟨rfl, nofun⟩
  | cons value values ih =>
    rw [validate_strings] at h
    cases value with
    | none => exact absurd h (by simp [bounded_string_length])
    | some s =>
      by_cases hlen : s.bytes.length ≤ VARIANT_KEY_MAX_STRING_BYTES
      · simp only [bounded_string_length, hlen, if_true] at h
        split_ifs at h
        obtain ⟨hmap, hrest⟩ := ih h
        refine ⟨?_, ?_⟩
        · rw [map_cons, map_cons, hmap]
          rfl
        · intro s' hs'
          rw [map_cons] at hs'
          rcases mem_cons.mp hs' with rfl | hs'
          · exact hlen
          · exact hrest s' hs'
      · exact absurd h (by simp [bounded_string_length, hlen])

/-- A string array of a key is the array of the descriptor, in the same order. -/
theorem validate_string_array_ok {values : CArray (Option CString)}
    (h : validate_string_array values reject_empty = .ok) :
    StringsOk (copy_string_array values) ∧
      (copy_string_array values).map some = values.values.getD [] := by
  unfold validate_string_array at h
  split_ifs at h with hcnt
  obtain ⟨hmap, hlen⟩ := validate_strings_ok h
  refine ⟨⟨?_, hlen⟩, hmap⟩
  rw [copy_string_array, length_map]
  cases hv : values.values with
  | none => exact Nat.zero_le _
  | some l =>
    rw [getD_some, values.count_eq l hv]
    omega

lemma bounded_string_ok {value : Option CString} (h : bounded_string_length value ≠ none) :
    (copy_string value).bytes.length ≤ VARIANT_KEY_MAX_STRING_BYTES := by
  cases value with
  | none => exact absurd rfl h
  | some s =>
    unfold bounded_string_length at h
    by_contra hlen
    exact h (if_neg hlen)

lemma copy_indices_length_le {indices : CArray UInt32}
    (h : indices.count ≤ VARIANT_KEY_MAX_KEYWORD_INDICES) :
    (copy_indices indices).length ≤ VARIANT_KEY_MAX_KEYWORD_INDICES := by
  unfold copy_indices
  cases hv : indices.values with
  | none => exact Nat.zero_le _
  | some l =>
    rw [getD_some, indices.count_eq l hv]
    exact h

lemma canonicalFingerprint_canonicalize (fingerprint : VariantKeyFingerprint) :
    CanonicalFingerprint (canonicalize_fingerprint fingerprint) := by
  intro habsent
  unfold canonicalize_fingerprint at habsent ⊢
  split_ifs at habsent ⊢ with hpres
  · rw [hpres] at habsent
    exact absurd habsent (by decide)
  · rfl

/-- The keyword lists of a key are those of its descriptor, in the order in which they
were supplied. -/
structure KeepsKeywords (descriptor : VariantKeyDescriptor) (key : VariantKey) : Prop where
  global : key.global_keyword_indices = descriptor.global_keyword_indices.values.getD []
  local_ : key.local_keyword_indices = descriptor.local_keyword_indices.values.getD []
  variant : key.compiler.variant_keywords.map some =
    descriptor.compiler.variant_keywords.values.getD []
  user : key.compiler.user_keywords.map some = descriptor.compiler.user_keywords.values.getD []
  enabled : key.compiler.enabled_platform_keywords.map some =
    descriptor.compiler.enabled_platform_keywords.values.getD []
  disabled : key.compiler.disabled_keywords.map some =
    descriptor.compiler.disabled_keywords.values.getD []

lemma variant_key_init_ok {descriptor : VariantKeyDescriptor}
    (h : variant_key_init descriptor = .ok key) : KeyOk key ∧ KeepsKeywords descriptor key := by
  unfold variant_key_init at h
  by_cases hvalid : validate_descriptor descriptor ≠ .ok
  · rw [if_pos hvalid] at h
    simp at h
  rw [if_neg hvalid] at h
  rw [← Except.ok.inj h]
  rw [not_not] at hvalid
  unfold validate_descriptor at hvalid
  dsimp only at hvalid
  split_ifs at hvalid with hcnt hnull hstring hvar huser hen hdisab
  · exact absurd hvalid hvar
  · exact absurd hvalid huser
  · exact absurd hvalid hen
  · exact absurd hvalid hdisab
  · simp only [not_or, not_not] at hcnt hstring hvar huser hen hdisab
    obtain ⟨hv, hv'⟩ := validate_string_array_ok hvar
    obtain ⟨hu, hu'⟩ := validate_string_array_ok huser
    obtain ⟨he, he'⟩ := validate_string_array_ok hen
    obtain ⟨hd, hd'⟩ := validate_string_array_ok hdisab
    exact ⟨⟨copy_indices_length_le (by omega), copy_indices_length_le (by omega),
      bounded_string_ok hstring.1, bounded_string_ok hstring.2.1, bounded_string_ok hstring.2.2,
      hv, hu, he, hd, canonicalFingerprint_canonicalize _, canonicalFingerprint_canonicalize _,
      canonicalFingerprint_canonicalize _, canonicalFingerprint_canonicalize _⟩,
      ⟨rfl, rfl, hv', hu', he', hd'⟩⟩

lemma slice_keyBytes_size (key : VariantKey) (hsize : size ≤ SIZE_MAX) :
    leValue (slice (keyBytes key size) 12 8) = size := by
  unfold SIZE_MAX at hsize
  rw [keyBytes, variantBytes, identityNumbers, numberBytes, flatMap_cons, flatMap_cons]
  simp only [append_assoc]
  rw [← append_assoc, slice_middle _ (leBytes 8 size) _ (by simp [VARIANT_KEY_MAGIC]; decide)
    (by simp), leValue_leBytes (by omega)]

/-- **Variant keys are canonical.** A key that initialisation produces is serialised, into as
many bytes as computed before and as the size field says. Two keys have the same bytes
exactly when they compare equal. Initialisation reorders no keyword list: the key has them
as they were supplied. -/
theorem variant_key_serialize_canonical : (∀ descriptor key, variant_key_init descriptor = .ok key →
      ∃ bytes, variant_key_serialize key = .ok bytes ∧ serialized_size key = some bytes.length ∧
        leValue (slice bytes 12 8) = bytes.length) ∧
    (∀ descriptor descriptor' a b, variant_key_init descriptor = .ok a →
      variant_key_init descriptor' = .ok b →
      (variant_key_serialize a = variant_key_serialize b ↔ variant_key_equal a b = true)) ∧
    (∀ descriptor key, variant_key_init descriptor = .ok key → KeepsKeywords descriptor key) := by
  refine ⟨fun descriptor key h => ?_, fun descriptor descriptor' a b ha hb => ?_,
    fun descriptor key h => (variant_key_init_ok h).2⟩
  · have hok := (variant_key_init_ok h).1
    refine ⟨_, variant_key_serialize_eq hok, ?_, ?_⟩
    · rw [length_keyBytes, serialized_size_eq hok]
    · rw [length_keyBytes, slice_keyBytes_size key hok.size_le]
  · have ha := (variant_key_init_ok ha).1
    have hb := (variant_key_init_ok hb).1
    rw [variant_key_serialize_eq ha, variant_key_serialize_eq hb, variant_key_equal_iff ha hb]
    constructor
    · intro h
      exact keyBytes_inj ha hb (Except.ok.inj h)
    · rintro rfl
      rfl

/-- A descriptor with no fingerprint and the given global keyword indices. -/
def indexDescriptor (first second : UInt32) : VariantKeyDescriptor where
  shader_path_id := -7
  subshader_index := 0
  pass_index := 1
  stage := 5
  compiler_platform := 4
  archive_platform_index := 0
  hardware_tier_group := 0
  subprogram_index := 2
  parameter_blob_index := -1
  serialized_program_type := 16
  serialized_hardware_tier_present := false
  serialized_hardware_tier := 3
  serialized_requirements := 33
  serialized_program_mask := 6
  player_metadata_present := false
  player_program_type := 0
  player_header_words := Vector.replicate 4 0
  player_source_map := 0
  keyword_scopes_are_explicit := true
  global_keyword_indices := ⟨some [first, second], 2, by simp⟩
  local_keyword_indices := .null
  compiler :=
    { schema_version := 1
      build_platform := 19
      compiler_flags := 0
      language := 0
      shader_type := 1
      request_requirements := 33
      request_program_mask := 6
      program_start := 0
      render_state_length := 0
      valid_apis := 16
      caching_preprocessor := true
      preprocess_only := false
      strip_line_directives := false
      source_directory := some (.ofBytes (asciiBytes "Assets"))
      source_basename := some (.ofBytes (asciiBytes "Lit"))
      pass_name := some default
      variant_keywords := ⟨some [some (.ofBytes (asciiBytes "FOG"))], 1, by simp⟩
      user_keywords := .null
      enabled_platform_keywords := .null
      disabled_keywords := .null
      compiler_fingerprint := ⟨false, Vector.replicate VARIANT_KEY_DIGEST_SIZE 0⟩
      environment_fingerprint := ⟨false, Vector.replicate VARIANT_KEY_DIGEST_SIZE 0⟩
      source_fingerprint := ⟨true, Vector.replicate VARIANT_KEY_DIGEST_SIZE 9⟩
      request_input_fingerprint := ⟨false, Vector.replicate VARIANT_KEY_DIGEST_SIZE 0⟩ }

/-- Two keys whose keyword indices were supplied in different orders. -/
theorem variant_key_serialize_index_order : ∃ a b, variant_key_init (indexDescriptor 3 5) = .ok a ∧
      variant_key_init (indexDescriptor 5 3) = .ok b ∧
      a.global_keyword_indices = [3, 5] ∧ b.global_keyword_indices = [5, 3] ∧
      (∃ bytes, variant_key_serialize a = .ok bytes ∧ serialized_size a = some bytes.length ∧
        leValue (slice bytes 12 8) = bytes.length) ∧
      variant_key_serialize a ≠ variant_key_serialize b := by
  have ha : ∃ a, variant_key_init (indexDescriptor 3 5) = .ok a := ⟨_, if_neg (by decide)⟩
  have hb : ∃ b, variant_key_init (indexDescriptor 5 3) = .ok b := ⟨_, if_neg (by decide)⟩
  obtain ⟨a, ha⟩ := ha
  obtain ⟨b, hb⟩ := hb
  obtain ⟨hsize, hequal, hkeeps⟩ := variant_key_serialize_canonical
  have hga : a.global_keyword_indices = [3, 5] := (hkeeps _ _ ha).global
  have hgb : b.global_keyword_indices = [5, 3] := (hkeeps _ _ hb).global
  refine ⟨a, b, ha, hb, hga, hgb, hsize _ _ ha, ?_⟩
  intro hbytes
  have heq : variant_key_equal a b = true := (hequal _ _ a b ha hb).mp hbytes
  unfold variant_key_equal at heq
  rw [hga, hgb] at heq
  split_ifs at heq
  simp at heq

end DXBCSandbox
