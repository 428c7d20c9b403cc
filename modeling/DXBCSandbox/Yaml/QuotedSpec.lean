/-
The round trip of double-quoted YAML scalars (`src/translation/unity_yaml.c`).

The validation, the sizes of the sequences and the decoding are three readings of the same first
bytes. They agree on every encoding of a character, so the text is made character by character, and
what is written for a character is read back as that character whatever stands behind it. Only U+FFFE
and U+FFFF are not read back: they are copied, and no scalar of YAML 1.1 has them unescaped.
-/
import DXBCSandbox.Yaml.Quoted

namespace DXBCSandbox

open List
open UInt32 (or_assoc le_iff_toNat_le lt_iff_toNat_lt toNat_inj reduceToNat)
open Char (ofNat ext val)
open String (utf8EncodeChar)

namespace UnityYaml

open Utf8

/-! ## Reading a scalar -/

def isLineBreak (c : Char) : Bool :=
  c.val = 0x0a ∨ c.val = 0x0d ∨ c.val = 0x85 ∨ c.val = 0x2028 ∨ c.val = 0x2029

/-- `c-printable` of YAML 1.1, the characters that may stand in a text unescaped. -/
def isPrintable (c : Char) : Bool :=
  c.val = 0x09 ∨ c.val = 0x0a ∨ c.val = 0x0d ∨ (0x20 ≤ c.val ∧ c.val ≤ 0x7e) ∨ c.val = 0x85 ∨
    (0xa0 ≤ c.val ∧ c.val ≤ 0xd7ff) ∨ (0xe000 ≤ c.val ∧ c.val ≤ 0xfffd) ∨
    (0x10000 ≤ c.val ∧ c.val ≤ 0x10ffff)

def simpleEscape (c : Char) : Option Char :=
  if c = '0' then some (ofNat 0x00)
  else if c = 'a' then some (ofNat 0x07)
  else if c = 'b' then some (ofNat 0x08)
  else if c = 't' ∨ c = '\t' then some (ofNat 0x09)
  else if c = 'n' then some (ofNat 0x0a)
  else if c = 'v' then some (ofNat 0x0b)
  else if c = 'f' then some (ofNat 0x0c)
  else if c = 'r' then some (ofNat 0x0d)
  else if c = 'e' then some (ofNat 0x1b)
  else if c = ' ' then some (ofNat 0x20)
  else if c = '"' then some (ofNat 0x22)
  else if c = '\\' then some (ofNat 0x5c)
  else if c = 'N' then some (ofNat 0x85)
  else if c = '_' then some (ofNat 0xa0)
  else if c = 'L' then some (ofNat 0x2028)
  else if c = 'P' then some (ofNat 0x2029)
  else none

def hexDigitValue (c : Char) : Option ℕ :=
  if '0' ≤ c ∧ c ≤ '9' then some (c.toNat - 48)
  else if 'a' ≤ c ∧ c ≤ 'f' then some (c.toNat - 87)
  else if 'A' ≤ c ∧ c ≤ 'F' then some (c.toNat - 55)
  else none

def hexNumber (digits : List Char) : Option ℕ :=
  digits.foldlM (fun value c => (hexDigitValue c).map fun digit => 16 * value + digit) 0

def hexEscape (count : ℕ) (chars : List Char) : Option (Char × List Char) := do
  let value ← hexNumber (chars.take count)
  if count ≤ chars.length ∧ value.isValidChar then
    some (ofNat value, chars.drop count)
  else none

/-- The character that an escape stands for, and the text behind it. -/
def readEscape : List Char → Option (Char × List Char)
  | [] => none
  | c :: rest =>
    if c = 'x' then hexEscape 2 rest
    else if c = 'u' then hexEscape 4 rest
    else if c = 'U' then hexEscape 8 rest
    else (simpleEscape c).map fun character => (character, rest)

/-- The first character of a scalar, and the text behind it. -/
def readCharacter : List Char → Option (Char × List Char)
  | [] => none
  | c :: rest =>
    if c = '\\' then readEscape rest
    else if c = '"' ∨ isLineBreak c = true ∨ isPrintable c = false then none
    else some (c, rest)

/-- The characters up to the closing quote, which ends the text. -/
def readCharacters : (fuel : ℕ) → List Char → Option (List Char)
  | 0, _ => none
  | fuel + 1, chars =>
    if chars = ['"'] then some []
    else do
      let (character, rest) ← readCharacter chars
      let characters ← readCharacters fuel rest
      some (character :: characters)

/-- The content of a double-quoted scalar of YAML 1.1 that stands on one line. Every character takes
text of its own, so the length bounds their number. -/
def readScalar : List Char → Option (List Char)
  | '"' :: chars => readCharacters chars.length chars
  | _ => none

/-! ## Validation -/

variable {first : UInt8}

lemma utf8_is_valid_of_short {rest : Bytes} (hshort : rest.length + 1 < sequenceWidth first)
    : unity_yaml_utf8_is_valid (first :: rest) = false := by
  simp only [sequenceWidth, UInt8.le_iff_toNat_le, UInt8.reduceToNat] at hshort
  rw [unity_yaml_utf8_is_valid.eq_def]
  simp only [UInt8.le_iff_toNat_le, UInt8.reduceToNat]
  rcases rest with _ | ⟨second, _ | ⟨third, _ | ⟨fourth, rest⟩⟩⟩
  · have hfst : 127 < first.toNat := by
      by_contra h
      rw [if_pos (by omega)] at hshort
      exact absurd hshort (by decide)
    rw [if_neg (by omega)]
    simp only [ite_self]
  · have hfst : 223 < first.toNat := by
      simp only [length_cons, length_nil] at hshort
      split_ifs at hshort <;> omega
    rw [if_neg (by omega), if_neg (by omega)]
    simp only [ite_self]
  · have hfst : 239 < first.toNat := by
      simp only [length_cons, length_nil] at hshort
      split_ifs at hshort <;> omega
    rw [if_neg (by omega), if_neg (by omega), if_neg (by omega)]
    simp only [ite_self]
  · simp only [length_cons] at hshort
    split_ifs at hshort <;> omega

def ValidRound (first : UInt8) (rest : Bytes) : Prop :=
  unity_yaml_utf8_is_valid (first :: rest) =
    (isSequence (first :: rest.take (sequenceWidth first - 1)) &&
      unity_yaml_utf8_is_valid (rest.drop (sequenceWidth first - 1)))

lemma validRound_of_short {rest : Bytes} (hshort : rest.length + 1 < sequenceWidth first) :
    ValidRound first rest := by
  rw [ValidRound, utf8_is_valid_of_short hshort, not_isSequence_of_short hshort, Bool.false_and]

variable (rest : Bytes)

lemma validRound_one (h : first.toNat ≤ 127) : ValidRound first rest := by
  rw [ValidRound, sequenceWidth_one h, unity_yaml_utf8_is_valid.eq_def]
  simp only [UInt8.le_iff_toNat_le, UInt8.reduceToNat, isSequence, take_zero, drop_zero,
    Nat.sub_self]
  rw [if_pos h, decide_eq_true h, Bool.true_and]

variable {second : UInt8}

lemma validRound_two (h : 128 ≤ first.toNat ∧ first.toNat ≤ 223) :
    ValidRound first (second :: rest) := by
  rw [ValidRound, sequenceWidth_two h, unity_yaml_utf8_is_valid.eq_def, Bool.eq_iff_iff]
  simp only [UInt8.le_iff_toNat_le, UInt8.lt_iff_toNat_lt, UInt8.reduceToNat, isSequence, isTail,
    take_succ_cons, take_zero, drop_succ_cons, drop_zero, Bool.and_eq_true,
    decide_eq_true_eq, Nat.reduceSub]
  rw [if_neg (by omega)]
  by_cases hfst : 194 ≤ first.toNat
  · rw [if_pos (by omega)]
    by_cases hsnd : 128 ≤ second.toNat ∧ second.toNat ≤ 191
    · rw [if_neg (by omega)]
      simp only [hsnd, hfst, h, and_self, true_and]
    · rw [if_pos (by omega)]
      simp only [hsnd, Bool.false_eq_true, and_false, false_and]
  -- bytes from 0x80 to 0xc1 begin nothing
  · rw [if_neg (by omega), if_neg (by omega), if_neg (by omega)]
    simp only [hfst, Bool.false_eq_true, false_and]

lemma validRound_three {third : UInt8} (h : 224 ≤ first.toNat ∧ first.toNat ≤ 239) :
    ValidRound first (second :: third :: rest) := by
  rw [ValidRound, sequenceWidth_three h, unity_yaml_utf8_is_valid.eq_def, Bool.eq_iff_iff]
  simp only [UInt8.le_iff_toNat_le, UInt8.lt_iff_toNat_lt, UInt8.reduceToNat, isSequence, isTail,
    take_succ_cons, take_zero, drop_succ_cons, drop_zero, Bool.and_eq_true,
    decide_eq_true_eq, Nat.reduceSub, ← UInt8.toNat_inj, ne_eq, Bool.if_false_left]
  rw [if_neg (by omega), if_neg (by omega), if_pos h]
  simp only [Bool.and_eq_true, Bool.not_eq_true', decide_eq_false_iff_not]
  refine and_congr_left' ?_
  omega

lemma validRound_four {third fourth : UInt8} (h : 240 ≤ first.toNat) :
    ValidRound first (second :: third :: fourth :: rest) := by
  rw [ValidRound, sequenceWidth_four h, unity_yaml_utf8_is_valid.eq_def, Bool.eq_iff_iff]
  simp only [UInt8.le_iff_toNat_le, UInt8.lt_iff_toNat_lt, UInt8.reduceToNat, isSequence, isTail,
    take_succ_cons, take_zero, drop_succ_cons, drop_zero, Bool.and_eq_true,
    decide_eq_true_eq, Nat.reduceSub, ← UInt8.toNat_inj, ne_eq, Bool.if_false_left,
    Bool.if_false_right]
  rw [if_neg (by omega), if_neg (by omega), if_neg (by omega)]
  simp only [Bool.and_eq_true, Bool.not_eq_true', decide_eq_false_iff_not, decide_eq_true_eq]
  rw [← and_assoc]
  refine and_congr_left' ?_
  omega

/-- **One round.** The bytes that the first one announces are a sequence, and the rest is valid. -/
theorem utf8_is_valid_cons (first : UInt8) (rest : Bytes) : ValidRound first rest := by
  rcases Nat.lt_or_ge (rest.length + 1) (sequenceWidth first) with hshort | hlong
  · exact validRound_of_short hshort
  -- a string that is long enough has the bytes that its class takes
  rcases Nat.lt_or_ge first.toNat 128 with hone | hone
  · exact validRound_one rest (by omega)
  rcases Nat.lt_or_ge first.toNat 224 with htwo | htwo
  · rw [sequenceWidth_two (by omega)] at hlong
    match rest with
    | [] => exact absurd hlong (by decide)
    | _ :: rest => exact validRound_two rest (by omega)
  rcases Nat.lt_or_ge first.toNat 240 with hthree | hthree
  · rw [sequenceWidth_three (by omega)] at hlong
    match rest with
    | [] => exact absurd hlong (by decide)
    | [_] => simp at hlong
    | _ :: _ :: rest => exact validRound_three rest (by omega)
  · rw [sequenceWidth_four (by omega)] at hlong
    match rest with
    | [] => exact absurd hlong (by decide)
    | [_] => simp at hlong
    | [_, _] => simp at hlong
    | _ :: _ :: _ :: rest => exact validRound_four rest (by omega)

/-! ## Decoding -/

lemma toNat_shiftLeft_or {high low shift : UInt32} {k m : ℕ} (hm : 2 ^ k = m)
    (hshift : shift.toNat = k) (hk : k < 32) (hlow : low.toNat < m)
    (hhigh : high.toNat * m < 2 ^ 32) :
    (high <<< shift ||| low).toNat = high.toNat * m + low.toNat := by
  subst hm
  rw [UInt32.toNat_or, UInt32.toNat_shiftLeft, hshift, Nat.mod_eq_of_lt hk, Nat.shiftLeft_eq,
    Nat.mod_eq_of_lt hhigh, ← Nat.shiftLeft_eq, ← Nat.shiftLeft_add_eq_or_of_lt hlow]

lemma toNat_and_mask (byte : UInt8) (k : ℕ) (hk : k ≤ 7) :
    (byte &&& UInt8.ofNat (2 ^ k - 1)).toUInt32.toNat = byte.toNat % 2 ^ k := by
  have : 2 ^ k ≤ 2 ^ 7 := Nat.pow_le_pow_right (by decide) hk
  rw [UInt8.toNat_toUInt32, UInt8.toNat_and, UInt8.toNat_ofNat', Nat.mod_eq_of_lt (by omega),
    Nat.and_two_pow_sub_one_eq_mod]

lemma toNat_tail (byte : UInt8) : (byte &&& 0x3f).toUInt32.toNat = byte.toNat % 64 :=
  toNat_and_mask byte 6 (by decide)

lemma toNat_two_tails (b c : UInt8) :
    ((b &&& 0x3f).toUInt32 <<< 6 ||| (c &&& 0x3f).toUInt32).toNat =
      b.toNat % 64 * 64 + c.toNat % 64 := by
  have hb := toNat_tail b
  have hc := toNat_tail c
  rw [@toNat_shiftLeft_or _ _ 6 6 64 rfl rfl (by decide) (by omega) (by omega), hb, hc]

lemma toNat_three_tails (b c d : UInt8) : ((b &&& 0x3f).toUInt32 <<< 12 |||
        ((c &&& 0x3f).toUInt32 <<< 6 ||| (d &&& 0x3f).toUInt32)).toNat =
      b.toNat % 64 * 4096 + (c.toNat % 64 * 64 + d.toNat % 64) := by
  have hb := toNat_tail b
  have hcd := toNat_two_tails c d
  rw [@toNat_shiftLeft_or _ _ 12 12 4096 rfl rfl (by decide) (by omega) (by omega), hb, hcd]

/-- A sequence is decoded to the value that it spells, whatever stands behind it. -/
theorem utf8_decode_append {s : Bytes} (h : isSequence s = true) (after : Bytes) :
    (utf8_decode (s ++ after) s.length).toNat = sequenceValue s := by
  match s with
  | [] => nomatch h
  | [a] => rfl
  | [a, b] =>
    have ha : (a &&& 0x1f).toUInt32.toNat = a.toNat % 32 := toNat_and_mask a 5 (by decide)
    have hb := toNat_tail b
    show ((a &&& 0x1f).toUInt32 <<< 6 ||| (b &&& 0x3f).toUInt32).toNat = _
    rw [@toNat_shiftLeft_or _ _ 6 6 64 rfl rfl (by decide) (by omega) (by omega), ha, hb]
    rfl
  | [a, b, c] =>
    have ha : (a &&& 0x0f).toUInt32.toNat = a.toNat % 16 := toNat_and_mask a 4 (by decide)
    have hbc := toNat_two_tails b c
    show ((a &&& 0x0f).toUInt32 <<< 12 ||| (b &&& 0x3f).toUInt32 <<< 6 |||
      (c &&& 0x3f).toUInt32).toNat = _
    rw [UInt32.or_assoc,
      @toNat_shiftLeft_or _ _ 12 12 4096 rfl rfl (by decide) (by omega) (by omega), ha, hbc,
      ← Nat.add_assoc]
    rfl
  | [a, b, c, d] =>
    have ha : (a &&& 0x07).toUInt32.toNat = a.toNat % 8 := toNat_and_mask a 3 (by decide)
    have hbcd := toNat_three_tails b c d
    show ((a &&& 0x07).toUInt32 <<< 18 ||| (b &&& 0x3f).toUInt32 <<< 12 |||
      (c &&& 0x3f).toUInt32 <<< 6 ||| (d &&& 0x3f).toUInt32).toNat = _
    rw [UInt32.or_assoc, UInt32.or_assoc,
      @toNat_shiftLeft_or _ _ 18 18 262144 rfl rfl (by decide) (by omega) (by omega), ha, hbcd,
      ← Nat.add_assoc, ← Nat.add_assoc]
    rfl
  | _ :: _ :: _ :: _ :: _ :: _ => nomatch h

/-! ## The text of one character -/

/-- The bytes are text without control characters and line breaks, and the text is read back as the
character. -/
def Quotes (c : Char) (bytes : Bytes) : Prop :=
  ∃ text : List Char, bytes = text.flatMap utf8EncodeChar ∧
    (∀ d ∈ text, ¬ IsControl d ∧ isLineBreak d = false) ∧
    ∀ rest, readCharacter (text ++ rest) = some (c, rest)

/-- The two characters that are copied and are not printable. -/
def Excluded (c : Char) : Prop := c.val = 0xfffe ∨ c.val = 0xffff

instance (c : Char) : Decidable (Excluded c) := inferInstanceAs (Decidable (_ ∨ _))

variable {c : Char}

lemma quotes_simple {value : UInt32} {bytes : Bytes} (letter d : Char)
    (hbytes : bytes = ['\\', letter].flatMap utf8EncodeChar)
    (hletter : ¬ IsControl letter ∧ isLineBreak letter = false)
    (hread : ∀ rest, readEscape (letter :: rest) = some (d, rest)) (hd : d.val = value)
    (hc : c.val = value) : Quotes c bytes := by
  have heq : d = c := ext (hd.trans hc.symm)
  rw [← heq]
  refine ⟨['\\', letter], hbytes, fun d hd => ?_, hread⟩
  rcases mem_pair.mp hd with rfl | rfl
  · decide
  · exact hletter

def hexChar (n : ℕ) : Char := "0123456789abcdef".toList.getD n '0'

/-- A hexadecimal digit is one character, which has the value of the lowest four bits. -/
theorem hex_digit_spec (value : UInt32) : ∃ d : Char, [hex_digit value] = utf8EncodeChar d ∧
      (¬ IsControl d ∧ isLineBreak d = false) ∧ hexDigitValue d = some (value.toNat % 16) := by
  have hall : ∀ n ∈ range 16,
      [(asciiBytes "0123456789abcdef").getD n 0] = utf8EncodeChar (hexChar n) ∧
        (¬ IsControl (hexChar n) ∧ isLineBreak (hexChar n) = false) ∧
        hexDigitValue (hexChar n) = some n := by
    decide +kernel
  have hnibble : (value &&& 0xf).toNat = value.toNat % 16 := by
    rw [UInt32.toNat_and]
    exact Nat.and_two_pow_sub_one_eq_mod value.toNat 4
  have hlt : value.toNat % 16 < 16 := Nat.mod_lt _ (by decide)
  rw [hex_digit, hnibble]
  exact ⟨hexChar (value.toNat % 16), hall _ (mem_range.mpr hlt)⟩

lemma hex_digits_spec {value : UInt32} (h : value.toNat ≤ 0xffff) :
    ∃ digits : List Char, hex_digits value [12, 8, 4, 0] = digits.flatMap utf8EncodeChar ∧
      (∀ d ∈ digits, ¬ IsControl d ∧ isLineBreak d = false) ∧ digits.length = 4 ∧
      hexNumber digits = some value.toNat := by
  obtain ⟨d₃, hbyte₃, htext₃, hvalue₃⟩ := hex_digit_spec (value >>> 12)
  obtain ⟨d₂, hbyte₂, htext₂, hval₂⟩ := hex_digit_spec (value >>> 8)
  obtain ⟨d₁, hbyte₁, htext₁, hval₁⟩ := hex_digit_spec (value >>> 4)
  obtain ⟨d₀, hbyte₀, htext₀, hvalue₀⟩ := hex_digit_spec (value >>> 0)
  refine ⟨[d₃, d₂, d₁, d₀], ?_, ?_, rfl, ?_⟩
  · simp only [flatMap_cons, flatMap_nil, ← hbyte₃, ← hbyte₂, ← hbyte₁, ← hbyte₀]
    rfl
  · intro d hd
    simp only [mem_cons, not_mem_nil, or_false] at hd
    rcases hd with rfl | rfl | rfl | rfl
    · exact htext₃
    · exact htext₂
    · exact htext₁
    · exact htext₀
  · have hshift (shift : UInt32) (k : ℕ) (hk : shift.toNat % 32 = k) :
        (value >>> shift).toNat = value.toNat / 2 ^ k := by
      rw [UInt32.toNat_shiftRight, hk, Nat.shiftRight_eq_div_pow]
    rw [hshift 12 12 rfl] at hvalue₃
    rw [hshift 8 8 rfl] at hval₂
    rw [hshift 4 4 rfl] at hval₁
    rw [hshift 0 0 rfl] at hvalue₀
    simp only [hexNumber, foldlM_cons, foldlM_nil, hvalue₃, hval₂, hval₁, hvalue₀,
      Option.map_some, Option.bind_eq_bind, Option.bind_some, Option.pure_def, Option.some.injEq]
    omega

lemma quotes_hex (h : c.val.toNat ≤ 0xffff) : Quotes c (append_hex_escape c.val) := by
  obtain ⟨digits, hbytes, htext, hlen, hnumber⟩ := hex_digits_spec h
  have hle : c.val ≤ 0xffff := le_iff_toNat_le.mpr h
  refine ⟨'\\' :: 'u' :: digits, ?_, fun d hd => ?_, fun rest => ?_⟩
  · rw [append_hex_escape, if_pos hle, hbytes]
    rfl
  · rcases mem_cons.mp hd with rfl | hd
    · decide
    rcases mem_cons.mp hd with rfl | hd
    · decide
    exact htext d hd
  · show hexEscape 4 (digits ++ rest) = some (c, rest)
    rw [hexEscape, ← hlen, take_left, hnumber]
    show (if _ ∧ _ then _ else _) = _
    rw [if_pos ⟨by rw [length_append]; omega, c.valid⟩, drop_left]
    exact congrArg (fun d => some (d, rest)) c.ofNat_toNat

lemma quotes_self (hesc : c ≠ '\\') (hquote : c ≠ '"')
    (htext : ¬ IsControl c ∧ isLineBreak c = false) (hprint : isPrintable c = true) :
    Quotes c (utf8EncodeChar c) := by
  refine ⟨[c], (flatMap_singleton _ _).symm, fun d hd => ?_, fun rest => ?_⟩
  · rw [mem_singleton.mp hd]
    exact htext
  · have hne : ¬ (c = '"' ∨ isLineBreak c = true ∨ isPrintable c = false) := by
      simp [hquote, htext.2, hprint]
    show (if c = '\\' then _ else if _ then _ else _) = _
    rw [if_neg hesc, if_neg hne]
    rfl

lemma quotes_ite {p : Prop} [Decidable p] {a b : Bytes} (ha : p → Quotes c a)
    (hb : ¬ p → Quotes c b) : Quotes c (if p then a else b) := by
  by_cases h : p
  · rw [if_pos h]
    exact ha h
  · rw [if_neg h]
    exact hb h

/-- **The escape table.** Whatever the character is but for two, its text is read back as it. -/
theorem quoted_character_quotes (hexcluded : ¬ Excluded c) :
    Quotes c (quoted_character c.val (utf8EncodeChar c)) := by
  unfold quoted_character
  refine quotes_ite (quotes_simple '0' (ofNat 0x00) (by decide) (by decide) (fun _ => rfl) rfl)
    fun _ => ?_
  refine quotes_ite (quotes_simple 'a' (ofNat 0x07) (by decide) (by decide) (fun _ => rfl) rfl)
    fun _ => ?_
  refine quotes_ite (quotes_simple 'b' (ofNat 0x08) (by decide) (by decide) (fun _ => rfl) rfl)
    fun _ => ?_
  refine quotes_ite (quotes_simple 't' (ofNat 0x09) (by decide) (by decide) (fun _ => rfl) rfl)
    fun _ => ?_
  refine quotes_ite (quotes_simple 'n' (ofNat 0x0a) (by decide) (by decide) (fun _ => rfl) rfl)
    fun _ => ?_
  refine quotes_ite (quotes_simple 'v' (ofNat 0x0b) (by decide) (by decide) (fun _ => rfl) rfl)
    fun _ => ?_
  refine quotes_ite (quotes_simple 'f' (ofNat 0x0c) (by decide) (by decide) (fun _ => rfl) rfl)
    fun _ => ?_
  refine quotes_ite (quotes_simple 'r' (ofNat 0x0d) (by decide) (by decide) (fun _ => rfl) rfl)
    fun _ => ?_
  refine quotes_ite (quotes_simple 'e' (ofNat 0x1b) (by decide) (by decide) (fun _ => rfl) rfl)
    fun _ => ?_
  refine quotes_ite (quotes_simple '"' '"' (by decide) (by decide) (fun _ => rfl) rfl)
    fun hquote => ?_
  refine quotes_ite (quotes_simple '\\' '\\' (by decide) (by decide) (fun _ => rfl) rfl)
    fun hesc => ?_
  refine quotes_ite (fun hhex => ?_) fun hhex => ?_
  · refine quotes_hex ?_
    simp only [lt_iff_toNat_lt, le_iff_toNat_le, ← toNat_inj,
      reduceToNat] at hhex
    omega
  · have hplain : ¬ IsControl c ∧ isLineBreak c = false := by
      simp only [lt_iff_toNat_lt, le_iff_toNat_le, ← toNat_inj,
        reduceToNat] at hhex
      simp only [IsControl, isLineBreak, ← toNat_inj, reduceToNat,
        decide_eq_false_iff_not]
      omega
    have hprint : isPrintable c = true := by
      have hvalid : c.val.toNat < 0xd800 ∨ 0xdfff < c.val.toNat ∧ c.val.toNat < 0x110000 := c.valid
      simp only [lt_iff_toNat_lt, le_iff_toNat_le, ← toNat_inj,
        reduceToNat, Excluded] at hhex hexcluded
      simp only [isPrintable, ← toNat_inj, le_iff_toNat_le, reduceToNat,
        decide_eq_true_eq]
      omega
    exact quotes_self (fun h => hesc (congrArg val h))
      (fun h => hquote (congrArg val h)) hplain hprint

/-- The other two are copied, and no scalar goes on with them. -/
theorem quoted_character_excluded (h : Excluded c) :
    quoted_character c.val (utf8EncodeChar c) = utf8EncodeChar c ∧
      (¬ IsControl c ∧ isLineBreak c = false) ∧ ∀ rest, readCharacter (c :: rest) = none := by
  have hc : c = ofNat 0xfffe ∨ c = ofNat 0xffff :=
    h.imp (fun h => ext h) fun h => ext h
  rcases hc with rfl | rfl <;> exact ⟨by decide, by decide, fun _ => rfl⟩

/-- What is written for a character is plain text, and what a reader makes of it. -/
theorem quoted_character_read (c : Char) : ∃ text : List Char,
    quoted_character c.val (utf8EncodeChar c) = text.flatMap utf8EncodeChar ∧
      (∀ d ∈ text, ¬ IsControl d ∧ isLineBreak d = false) ∧
      ∀ rest, readCharacter (text ++ rest) = if Excluded c then none else some (c, rest) := by
  by_cases h : Excluded c
  · obtain ⟨hbytes, hplain, hread⟩ := quoted_character_excluded h
    refine ⟨[c], hbytes.trans (flatMap_singleton _ _).symm, fun d hd => ?_, fun rest => ?_⟩
    · rw [mem_singleton.mp hd]
      exact hplain
    · rw [if_pos h]
      exact hread rest
  · obtain ⟨text, hbytes, hplain, hread⟩ := quoted_character_quotes h
    exact ⟨text, hbytes, hplain, fun rest => by rw [if_neg h, hread]⟩

/-! ## The characters of an input -/

lemma utf8_is_valid_encode_append (c : Char) (after : Bytes) :
    unity_yaml_utf8_is_valid (utf8EncodeChar c ++ after) =
      unity_yaml_utf8_is_valid after := by
  obtain ⟨first, rest, hencode, hwidth⟩ := encode_eq_cons c
  have hseq := isSequence_encode c
  have hcnt : sequenceWidth first - 1 = rest.length := by omega
  rw [hencode] at hseq ⊢
  rw [cons_append, utf8_is_valid_cons, hcnt, take_left, drop_left, hseq, Bool.true_and]

/-- The bytes that the validation accepts are the encodings of characters. -/
theorem exists_characters_of_valid (bytes : Bytes) (h : unity_yaml_utf8_is_valid bytes = true) :
    ∃ content : List Char, bytes = content.flatMap utf8EncodeChar := by
  match bytes with
  | [] => exact ⟨[], rfl⟩
  | first :: rest =>
    rw [utf8_is_valid_cons, Bool.and_eq_true] at h
    obtain ⟨c, hc, -⟩ := encode_of_isSequence h.1
    have : (rest.drop (sequenceWidth first - 1)).length < (first :: rest).length := by
      rw [length_drop, length_cons]
      omega
    obtain ⟨content, hcontent⟩ := exists_characters_of_valid _ h.2
    refine ⟨c :: content, ?_⟩
    rw [flatMap_cons, hc, ← hcontent, cons_append, take_append_drop]
termination_by bytes.length

/-- **Validation.** The accepted byte strings are those of RFC 3629. -/
theorem utf8_is_valid_iff (bytes : Bytes) :
    unity_yaml_utf8_is_valid bytes = true ↔ WellFormed bytes := by
  refine ⟨exists_characters_of_valid bytes, ?_⟩
  rintro ⟨content, rfl⟩
  induction content with
  | nil => rfl
  | cons c content ih => rw [flatMap_cons, utf8_is_valid_encode_append, ih]

lemma utf8_decode_encode_append (c : Char) (after : Bytes) :
    utf8_decode (utf8EncodeChar c ++ after) (utf8EncodeChar c).length = c.val := by
  refine toNat_inj.mp ?_
  rw [utf8_decode_append (isSequence_encode c), sequenceValue_encode]

/-! ## The text of an input -/

section Append

variable {Builder : Type} (sb : StringBuilder Builder)

lemma append_characters_encode_append (fuel : ℕ) (c : Char) (after : Bytes) (output : Builder) :
    append_characters sb (fuel + 1) (utf8EncodeChar c ++ after) output =
      append_characters sb fuel after
        (sb.sb_append_len output (quoted_character c.val (utf8EncodeChar c))) := by
  obtain ⟨first, rest, hencode, hwidth⟩ := encode_eq_cons c
  have hcnt : utf8_sequence_size first = (utf8EncodeChar c).length := by
    rw [hencode, length_cons, hwidth]
    rfl
  have hround : append_characters sb (fuel + 1) (utf8EncodeChar c ++ after) output =
      append_characters sb fuel ((utf8EncodeChar c ++ after).drop (utf8_sequence_size first))
        (sb.sb_append_len output (quoted_character
            (utf8_decode (utf8EncodeChar c ++ after) (utf8_sequence_size first))
            ((utf8EncodeChar c ++ after).take (utf8_sequence_size first)))) := by
    rw [hencode]
    rfl
  rw [hround, hcnt, utf8_decode_encode_append, take_left, drop_left]

/-- What the builder holds after the characters, when it has not failed. -/
theorem append_characters_spec (content : List Char) (fuel : ℕ) (output : Builder)
    (hfuel : content.length ≤ fuel)
    (hok : sb.sb_ok (append_characters sb fuel (content.flatMap utf8EncodeChar) output) =
      true) :
    sb.sb_ok output = true ∧
      sb.text (append_characters sb fuel (content.flatMap utf8EncodeChar) output) =
        sb.text output ++
          content.flatMap fun c => quoted_character c.val (utf8EncodeChar c) := by
  induction content generalizing fuel output with
  | nil =>
    have hnil : append_characters sb fuel [] output = output := by cases fuel <;> rfl
    rw [flatMap_nil, hnil] at hok ⊢
    exact ⟨hok, (append_nil _).symm⟩
  | cons c content ih =>
    rw [length_cons] at hfuel
    obtain ⟨fuel, rfl⟩ : ∃ n, fuel = n + 1 := ⟨fuel - 1, by omega⟩
    rw [flatMap_cons, append_characters_encode_append] at hok ⊢
    obtain ⟨hok', htext⟩ := ih fuel _ (Nat.le_of_succ_le_succ hfuel) hok
    obtain ⟨houtput, happend⟩ := sb.ok_of_append _ _ hok'
    exact ⟨houtput, by rw [htext, happend, flatMap_cons, append_assoc]⟩

/-- What an input that passes the validation leaves in a builder that has not failed. -/
theorem append_quoted_n_of_valid {bytes : Bytes} (output : Builder)
    (hvalid : unity_yaml_utf8_is_valid bytes = true) :
    ∃ status after, unity_yaml_append_quoted_n sb output bytes = (status, after) ∧
      (status = .ok ↔ sb.sb_ok after = true) ∧
      ∀ content : List Char, bytes = content.flatMap utf8EncodeChar →
        sb.sb_ok after = true → sb.text after = sb.text output ++ (asciiBytes "\"" ++
          ((content.flatMap fun c => quoted_character c.val (utf8EncodeChar c)) ++
            asciiBytes "\"")) := by
  have hnot : ¬ unity_yaml_utf8_is_valid bytes = false := by
    rw [hvalid]
    exact Bool.noConfusion
  rw [unity_yaml_append_quoted_n, if_neg hnot]
  refine ⟨_, _, rfl, ?_, ?_⟩
  · split
    · rename_i hok
      exact iff_of_true rfl hok
    · rename_i hok
      exact iff_of_false (nofun) hok
  · rintro content rfl hok
    obtain ⟨hclosed, hclose⟩ := sb.ok_of_append _ _ hok
    obtain ⟨hopened, hbody⟩ := append_characters_spec sb content _ _
      (length_le_length_encode content) hclosed
    obtain ⟨-, hopen⟩ := sb.ok_of_append _ _ hopened
    rw [hclose, hbody, hopen, append_assoc, append_assoc]

end Append

/-! ## Reading the text back -/

lemma readCharacters_of_quotes (content : List Char) : ∃ text : List Char,
      (content.flatMap fun c => quoted_character c.val (utf8EncodeChar c)) =
        text.flatMap utf8EncodeChar ∧
      (∀ d ∈ text, ¬ IsControl d ∧ isLineBreak d = false) ∧ content.length ≤ text.length ∧
      ∀ fuel, content.length < fuel → readCharacters fuel (text ++ ['"']) =
        if content.any (Excluded ·) then none else some content := by
  induction content with
  | nil =>
    refine ⟨[], rfl, fun _ h => (nomatch h), Nat.le_refl _, fun fuel hfuel => ?_⟩
    rw [length_nil] at hfuel
    obtain ⟨fuel, rfl⟩ : ∃ n, fuel = n + 1 := ⟨fuel - 1, by omega⟩
    rw [if_neg (by simp)]
    rfl
  | cons c content ih =>
    obtain ⟨text, hbytes, htext, hlen, hread⟩ := ih
    obtain ⟨front, hfront, hplain, hreadFront⟩ := quoted_character_read c
    have hne : front ≠ [] := by
      rintro rfl
      have hletter : some ('a', []) = if Excluded c then none else some (c, ['a']) :=
        hreadFront ['a']
      split at hletter <;> simp at hletter
    have hpos := length_pos_iff.mpr hne
    refine ⟨front ++ text, ?_, fun d hd => ?_, ?_, fun fuel hfuel => ?_⟩
    · rw [flatMap_cons, hbytes, hfront, flatMap_append]
    · rcases mem_append.mp hd with hd | hd
      · exact hplain d hd
      · exact htext d hd
    · rw [length_cons, length_append]
      omega
    · obtain ⟨fuel, rfl⟩ : ∃ n, fuel = n + 1 := ⟨fuel - 1, by omega⟩
      have hquote : ¬ front ++ text ++ ['"'] = ['"'] := by
        intro h
        have hlength := congrArg length h
        simp only [length_append, length_singleton] at hlength
        omega
      rw [readCharacters, if_neg hquote, append_assoc, hreadFront]
      by_cases hc : Excluded c
      · rw [if_pos hc, if_pos (by simp [hc])]
        rfl
      · rw [if_neg hc]
        show ((readCharacters fuel (text ++ ['"'])).bind fun characters =>
          some (c :: characters)) = _
        rw [hread fuel (Nat.lt_of_succ_lt_succ hfuel)]
        cases hrest : content.any (Excluded ·) <;> simp [hc, hrest]

lemma flatMap_encode_injective {text text' : List Char}
    (h : text.flatMap utf8EncodeChar = text'.flatMap utf8EncodeChar) :
    text = text' := by
  have hencode : text.utf8Encode = text'.utf8Encode := congrArg toByteArray h
  rw [← String.toByteArray_ofList, ← String.toByteArray_ofList, String.toByteArray_inj] at hencode
  exact String.ofList_injective hencode

/-! ## The round trip -/

section RoundTrip

variable {Builder : Type} (sb : StringBuilder Builder) (output : Builder) (bytes : Bytes)

/-- An input that is not UTF-8 leaves the builder alone, and every other input succeeds as long as
the builder does not fail. Then the text that was appended is one line without control characters,
and it is a scalar of YAML 1.1 that spells the input. -/
def RoundTrips : Prop :=
  ((unity_yaml_append_quoted_n sb output bytes).1 = .ok ↔
      WellFormed bytes ∧ sb.sb_ok (unity_yaml_append_quoted_n sb output bytes).2 = true) ∧
    (¬ WellFormed bytes → unity_yaml_append_quoted_n sb output bytes = (.invalidUtf8, output)) ∧
    ((unity_yaml_append_quoted_n sb output bytes).1 = .ok → ∃ text content : List Char,
        sb.text (unity_yaml_append_quoted_n sb output bytes).2 =
          sb.text output ++ text.flatMap utf8EncodeChar ∧
        (∀ d ∈ text, ¬ IsControl d ∧ isLineBreak d = false) ∧
        readScalar text = some content ∧ content.flatMap utf8EncodeChar = bytes)

/-- The text that the bytes spell, if they spell one, has neither U+FFFE nor U+FFFF. -/
def Quotable : Prop :=
  ∀ content : List Char, bytes = content.flatMap utf8EncodeChar → ¬ ∃ c ∈ content, Excluded c

variable {sb output}

/-- What stands in the builder after a success, and what a reader makes of it. -/
theorem appended_text {content : List Char} (h : sb.sb_ok (unity_yaml_append_quoted_n sb output
      (content.flatMap utf8EncodeChar)).2 = true) :
    ∃ text : List Char,
      sb.text (unity_yaml_append_quoted_n sb output (content.flatMap utf8EncodeChar)).2 =
        sb.text output ++ text.flatMap utf8EncodeChar ∧
      (∀ d ∈ text, ¬ IsControl d ∧ isLineBreak d = false) ∧
      readScalar text = if content.any (Excluded ·) then none else some content := by
  obtain ⟨status, after, hrun, hstatus, hok⟩ :=
    append_quoted_n_of_valid sb output ((utf8_is_valid_iff _).mpr ⟨content, rfl⟩)
  rw [hrun] at h ⊢
  obtain ⟨text, hbytes, htext, hlength, hread⟩ := readCharacters_of_quotes content
  refine ⟨'"' :: (text ++ ['"']), ?_, ?_, hread _ ?_⟩
  · have hquotes : ('"' :: (text ++ ['"'])).flatMap utf8EncodeChar =
        asciiBytes "\"" ++ (text.flatMap utf8EncodeChar ++ asciiBytes "\"") := by
      rw [flatMap_cons, flatMap_append]
      rfl
    rw [hok content rfl h, hbytes, hquotes]
  · intro d hd
    rcases mem_cons.mp hd with rfl | hd
    · decide
    rcases mem_append.mp hd with hd | hd
    · exact htext d hd
    · rw [mem_singleton.mp hd]
      decide
  · rw [length_append, length_singleton]
    omega

variable {bytes}

lemma roundTrips_of_quotable (h : Quotable bytes) : RoundTrips sb output bytes := by
  by_cases hformed : WellFormed bytes
  · obtain ⟨status, after, hrun, hstatus, -⟩ :=
      append_quoted_n_of_valid sb output ((utf8_is_valid_iff bytes).mpr hformed)
    obtain ⟨content, rfl⟩ := hformed
    have happended := @appended_text _ sb output content
    rw [if_neg (by simpa using h content rfl)] at happended
    unfold RoundTrips
    rw [hrun] at happended ⊢
    refine ⟨⟨fun h => ⟨⟨content, rfl⟩, hstatus.mp h⟩, fun h => hstatus.mpr h.2⟩,
      fun h => absurd ⟨content, rfl⟩ h, fun h => ?_⟩
    obtain ⟨text, htext, hplain, hread⟩ := happended (hstatus.mp h)
    exact ⟨text, content, htext, hplain, hread, rfl⟩
  · have hvalid : unity_yaml_utf8_is_valid bytes = false :=
      Bool.eq_false_iff.mpr fun h => hformed ((utf8_is_valid_iff bytes).mp h)
    have hrun : unity_yaml_append_quoted_n sb output bytes = (.invalidUtf8, output) := by
      rw [unity_yaml_append_quoted_n, if_pos hvalid]
    unfold RoundTrips
    rw [hrun]
    exact ⟨iff_of_false UnityYamlStatus.noConfusion fun h => hformed h.1, fun _ => rfl,
      fun h => UnityYamlStatus.noConfusion h⟩

/-- A builder that does not fail shows what the input is: its text is unique. -/
theorem quotable_of_roundTrips (hok : sb.sb_ok (unity_yaml_append_quoted_n sb output bytes).2 = true)
    (h : RoundTrips sb output bytes) : Quotable bytes := by
  rintro content rfl hexcluded
  obtain ⟨text, htext, -, hread⟩ := appended_text hok
  obtain ⟨text', content', htext', -, hread', -⟩ := h.2.2 (h.1.mpr ⟨⟨content, rfl⟩, hok⟩)
  have hsame : text = text' := flatMap_encode_injective (append_cancel_left (htext ▸ htext'))
  rw [if_pos (by simpa using hexcluded), hsame, hread'] at hread
  cases hread

end RoundTrip

/-- A builder that is its text. -/
def textBuilder : StringBuilder Bytes where
  sb_append_len text bytes := text ++ bytes
  sb_ok _ := true
  text := id
  ok_of_append _ _ _ := ⟨rfl, rfl⟩

/-- **The round trip.** Whatever the builder does, quoting keeps its promise for an input exactly if
the text of the input has neither U+FFFE nor U+FFFF, which are copied although they are not
printable. Where it does not keep it, every builder that does not fail shows it. -/
theorem yaml_quoted_round_trip_iff (bytes : Bytes) :
    ((∀ {Builder : Type} (sb : StringBuilder Builder) (output : Builder),
        RoundTrips sb output bytes) ↔ Quotable bytes) ∧
      ∀ {Builder : Type} (sb : StringBuilder Builder) (output : Builder),
        sb.sb_ok (unity_yaml_append_quoted_n sb output bytes).2 = true →
          (RoundTrips sb output bytes ↔ Quotable bytes) :=
  ⟨⟨fun h => quotable_of_roundTrips rfl (h textBuilder []), fun h {_} _ _ => roundTrips_of_quotable h⟩,
    fun _ _ hok => ⟨quotable_of_roundTrips hok, roundTrips_of_quotable⟩⟩

theorem noncharacter_is_copied : ¬ RoundTrips textBuilder [] [0xef, 0xbf, 0xbe] := fun h =>
  quotable_of_roundTrips rfl h [ofNat 0xfffe] (by decide) ⟨_, mem_singleton_self _, .inl rfl⟩

/-- A line feed between quotes. -/
example : unity_yaml_append_quoted_n textBuilder [] [0x61, 0x0a] = (.ok, asciiBytes "\"a\\n\"") := by
  decide +kernel

end UnityYaml

end DXBCSandbox
