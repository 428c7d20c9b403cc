/-
The names that `valid_utf8_name` accepts are the UTF-8 encodings of non-empty texts without
a NUL character.

A code point of two to four bytes is decoded with masks and shifts, which on the ranges of bytes
that the tests leave are sums and products. So one round of the loop takes what the validator of
quoted scalars takes, a sequence of RFC 3629, and the two readers agree round by round.
-/
import DXBCSandbox.Words
import DXBCSandbox.Dxbc.Usbd
import DXBCSandbox.Yaml.QuotedSpec

namespace DXBCSandbox

open List Option Utf8
open UInt32 (ofNat toNat_inj reduceToNat)

/-! ## Byte masks -/

lemma byte_masks : ∀ i : Fin 256,
    ((UInt8.ofNat i.val &&& 0xe0 = 0xc0) ↔ 192 ≤ i.val ∧ i.val < 224) ∧
    ((UInt8.ofNat i.val &&& 0xf0 = 0xe0) ↔ 224 ≤ i.val ∧ i.val < 240) ∧
    ((UInt8.ofNat i.val &&& 0xf8 = 0xf0) ↔ 240 ≤ i.val ∧ i.val < 248) ∧
    ((UInt8.ofNat i.val &&& 0xc0 = 0x80) ↔ 128 ≤ i.val ∧ i.val < 192) ∧
    (UInt8.ofNat i.val &&& 0x1f).toNat = i.val % 32 ∧
    (UInt8.ofNat i.val &&& 0x0f).toNat = i.val % 16 ∧
    (UInt8.ofNat i.val &&& 0x07).toNat = i.val % 8 ∧
    (UInt8.ofNat i.val &&& 0x3f).toNat = i.val % 64 := by
  decide +kernel

lemma masks (b : UInt8) : ((b &&& 0xe0 = 0xc0) ↔ 192 ≤ b.toNat ∧ b.toNat < 224) ∧
    ((b &&& 0xf0 = 0xe0) ↔ 224 ≤ b.toNat ∧ b.toNat < 240) ∧
    ((b &&& 0xf8 = 0xf0) ↔ 240 ≤ b.toNat ∧ b.toNat < 248) ∧
    ((b &&& 0xc0 = 0x80) ↔ 128 ≤ b.toNat ∧ b.toNat < 192) ∧
    (b &&& 0x1f).toNat = b.toNat % 32 ∧ (b &&& 0x0f).toNat = b.toNat % 16 ∧
    (b &&& 0x07).toNat = b.toNat % 8 ∧ (b &&& 0x3f).toNat = b.toNat % 64 := by
  have h := byte_masks ⟨b.toNat, b.toNat_lt⟩
  simp only [UInt8.ofNat_toNat] at h
  exact h

lemma toUInt32_eq_ofNat (b : UInt8) {n : ℕ} (h : b.toNat = n) : b.toUInt32 = ofNat n := by
  apply toNat_inj.mp
  have hb := b.toNat_lt
  rw [UInt8.toNat_toUInt32, ofNat_toNat (by omega), h]

lemma utf8_lead_eq (b : UInt8) : utf8_lead b =
    if 192 ≤ b.toNat ∧ b.toNat < 224 then some (1, ofNat (b.toNat % 32), 0x80)
    else if 224 ≤ b.toNat ∧ b.toNat < 240 then some (2, ofNat (b.toNat % 16), 0x800)
    else if 240 ≤ b.toNat ∧ b.toNat < 248 then some (3, ofNat (b.toNat % 8), 0x10000)
    else none := by
  obtain ⟨h2, h3, h4, -, m2, m3, m4, -⟩ := masks b
  unfold utf8_lead
  simp only [h2, h3, h4, toUInt32_eq_ofNat _ m2, toUInt32_eq_ofNat _ m3, toUInt32_eq_ofNat _ m4]

variable {m : ℕ}

/-- A continuation byte adds its six bits. -/
theorem utf8_continuation_cons (hm : m < 2 ^ 20) {k : ℕ} {next : UInt8} {rest : Bytes}
    {P : UInt32 → Bytes → Prop} :
    (∃ v rest', utf8_continuation (k + 1) (ofNat m) (next :: rest) = some (v, rest') ∧
        P v rest') ↔
      (128 ≤ next.toNat ∧ next.toNat < 192) ∧
        ∃ v rest', utf8_continuation k (ofNat (64 * m + next.toNat % 64)) rest =
          some (v, rest') ∧ P v rest' := by
  obtain ⟨-, -, -, hc, -, -, -, m6⟩ := masks next
  rw [utf8_continuation]
  by_cases hnext : 128 ≤ next.toNat ∧ next.toNat < 192
  · have hbits : ofNat m <<< 6 ||| ofNat (next.toNat % 64) =
        ofNat (64 * m + next.toNat % 64) := by
      apply toNat_inj.mp
      have hshift : (ofNat m <<< 6).toNat = m <<< 6 := by
        rw [UInt32.toNat_shiftLeft, ofNat_toNat (by omega)]
        apply Nat.mod_eq_of_lt
        simp only [reduceToNat, Nat.reduceMod, Nat.shiftLeft_eq]
        omega
      rw [UInt32.toNat_or, hshift, ofNat_toNat (by omega), ofNat_toNat (by omega), Nat.or_comm,
        or_shiftLeft_eq_add (by omega)]
      omega
    rw [if_neg (not_not.mpr (hc.mpr hnext)), toUInt32_eq_ofNat _ m6, hbits, and_iff_right hnext]
  · simp [if_pos (hc.not.mpr hnext), hnext]

lemma utf8_continuation_end {v : UInt32} {rest : Bytes} {P : UInt32 → Bytes → Prop} :
    (∃ v' rest', utf8_continuation 0 v rest = some (v', rest') ∧ P v' rest') ↔ P v rest := by
  simp [utf8_continuation]

lemma codepoint_tests (hm : m < 2 ^ 32) {minimum : UInt32} :
    (ofNat m < minimum ∨ 0x10ffff < ofNat m ∨
      (0xd800 ≤ ofNat m ∧ ofNat m ≤ 0xdfff)) ↔
    (m < minimum.toNat ∨ 0x10ffff < m ∨ (0xd800 ≤ m ∧ m ≤ 0xdfff)) := by
  simp only [UInt32.lt_iff_toNat_lt, UInt32.le_iff_toNat_le, ofNat_toNat hm, reduceToNat]

/-! ## One round -/

/-- What a round takes: the sequence that the first byte announces, which begins with no NUL. -/
def NameRound (turns : ℕ) (first : UInt8) (rest : Bytes) : Prop :=
  utf8_loop (turns + 1) (first :: rest) =
    (decide (first ≠ 0) && isSequence (first :: rest.take (sequenceWidth first - 1)) &&
      utf8_loop turns (rest.drop (sequenceWidth first - 1)))

variable {turns : ℕ} {first b c d : UInt8} {rest : Bytes}

lemma nameRound_one (h : first.toNat < 128) : NameRound turns first rest := by
  rw [NameRound, utf8_loop, sequenceWidth_one (by omega)]
  by_cases h0 : first = 0
  · simp [h0]
  · have hascii : first ≤ 0x7f := UInt8.le_iff_toNat_le.mpr (by simpa using Nat.le_of_lt_succ h)
    rw [if_neg h0, if_pos (UInt8.lt_iff_toNat_lt.mpr h)]
    simp [h0, isSequence, hascii]

/-- What a round does with a first byte that is not ASCII. -/
theorem utf8_loop_high (h : 128 ≤ first.toNat) : utf8_loop (turns + 1) (first :: rest) = true ↔
    ∃ k codepoint minimum, utf8_lead first = some (k, codepoint, minimum) ∧ k ≤ rest.length ∧
      ∃ v rest', utf8_continuation k codepoint rest = some (v, rest') ∧
        ¬ (v < minimum ∨ 0x10ffff < v ∨ (0xd800 ≤ v ∧ v ≤ 0xdfff)) ∧
        utf8_loop turns rest' = true := by
  have h0 : first ≠ 0 := by
    rintro rfl
    exact absurd h (by decide)
  have hascii : ¬ first < 0x80 := by
    rw [UInt8.lt_iff_toNat_lt]
    exact Nat.not_lt.mpr h
  rw [utf8_loop, if_neg h0, if_neg hascii]
  constructor
  · intro h
    split at h
    · cases h
    · rename_i k codepoint minimum hlead
      split_ifs at h with hshort
      split at h
      · cases h
      · rename_i v rest' hcont
        split_ifs at h with htest
        exact ⟨k, codepoint, minimum, hlead, Nat.not_lt.mp hshort, v, rest', hcont, htest, h⟩
  · rintro ⟨k, codepoint, minimum, hlead, hlen, v, rest', hcont, htest, h⟩
    simp only [hlead, if_neg (Nat.not_lt.mpr hlen), hcont, if_neg htest, h]

lemma nameRound_of_short (h : rest.length + 1 < sequenceWidth first) :
    NameRound turns first rest := by
  have hfst : 128 ≤ first.toNat := by
    by_contra hlt
    rw [sequenceWidth_one (by omega)] at h
    omega
  have hloop : ¬ utf8_loop (turns + 1) (first :: rest) = true := by
    rw [utf8_loop_high hfst]
    rintro ⟨k, codepoint, minimum, hlead, hlen, -⟩
    rw [utf8_lead_eq] at hlead
    simp only [sequenceWidth, UInt8.le_iff_toNat_le, UInt8.reduceToNat] at h
    split_ifs at hlead h <;> simp only [some.injEq, Prod.mk.injEq] at hlead <;> omega
  rw [NameRound, Bool.eq_false_iff.mpr hloop, not_isSequence_of_short h, Bool.and_false,
    Bool.false_and]

lemma nameRound_high (h : 128 ≤ first.toNat)
    (hround : utf8_loop (turns + 1) (first :: rest) = true ↔
      isSequence (first :: rest.take (sequenceWidth first - 1)) = true ∧
        utf8_loop turns (rest.drop (sequenceWidth first - 1)) = true) :
    NameRound turns first rest := by
  have hne : first ≠ 0 := by
    rintro rfl
    exact absurd h (by decide)
  rw [NameRound, decide_eq_true hne, Bool.true_and, Bool.eq_iff_iff, Bool.and_eq_true, hround]

lemma nameRound_two (h : 128 ≤ first.toNat ∧ first.toNat < 224) :
    NameRound turns first (b :: rest) := by
  refine nameRound_high h.1 ?_
  rw [sequenceWidth_two (by omega), utf8_loop_high h.1, utf8_lead_eq]
  simp only [take_succ_cons, take_zero, drop_succ_cons, drop_zero, Nat.reduceSub, isSequence, isTail,
    decide_eq_true_eq, UInt8.le_iff_toNat_le, UInt8.reduceToNat]
  by_cases hfst : 192 ≤ first.toNat
  · simp (disch := omega) only [hfst, h.2, and_self, if_true, some.injEq, Prod.mk.injEq, and_assoc,
      exists_and_left, exists_eq_left', utf8_continuation_cons, utf8_continuation_end, codepoint_tests,
      length_cons, reduceToNat]
    simp only [← and_assoc]
    refine and_congr_left' ?_
    omega
  -- bytes from 0x80 to 0xbf begin nothing
  · rw [if_neg (by omega), if_neg (by omega), if_neg (by omega)]
    simp only [reduceCtorEq, false_and, exists_const, false_iff]
    omega

lemma nameRound_three (h : 224 ≤ first.toNat ∧ first.toNat < 240) :
    NameRound turns first (b :: c :: rest) := by
  refine nameRound_high (by omega) ?_
  rw [sequenceWidth_three (by omega), utf8_loop_high (by omega), utf8_lead_eq, if_neg (by omega),
    if_pos h]
  simp (disch := omega) only [take_succ_cons, take_zero, drop_succ_cons, drop_zero, Nat.reduceSub,
    isSequence, isTail, decide_eq_true_eq, UInt8.le_iff_toNat_le, UInt8.reduceToNat, ne_eq,
    ← UInt8.toNat_inj, some.injEq, Prod.mk.injEq, and_assoc, exists_and_left, exists_eq_left',
    utf8_continuation_cons, utf8_continuation_end, codepoint_tests, length_cons, reduceToNat]
  simp only [← and_assoc]
  refine and_congr_left' ?_
  omega

lemma nameRound_four (h : 240 ≤ first.toNat) : NameRound turns first (b :: c :: d :: rest) := by
  refine nameRound_high (by omega) ?_
  rw [sequenceWidth_four h, utf8_loop_high (by omega), utf8_lead_eq, if_neg (by omega),
    if_neg (by omega)]
  simp only [take_succ_cons, take_zero, drop_succ_cons, drop_zero, Nat.reduceSub, isSequence,
    isTail, decide_eq_true_eq, UInt8.le_iff_toNat_le, UInt8.reduceToNat, ← UInt8.toNat_inj]
  by_cases hfst : first.toNat < 248
  · simp (disch := omega) only [h, hfst, and_self, if_true, some.injEq, Prod.mk.injEq, and_assoc,
      exists_and_left, exists_eq_left', utf8_continuation_cons, utf8_continuation_end, codepoint_tests,
      length_cons, reduceToNat]
    simp only [← and_assoc]
    refine and_congr_left' ?_
    omega
  · rw [if_neg (by omega)]
    simp only [reduceCtorEq, false_and, exists_const, false_iff]
    omega

/-- **One round** takes a sequence, as a round of the other reader does. -/
theorem utf8_loop_cons (turns : ℕ) (first : UInt8) (rest : Bytes) : NameRound turns first rest := by
  rcases Nat.lt_or_ge (rest.length + 1) (sequenceWidth first) with hshort | hlong
  · exact nameRound_of_short hshort
  rcases Nat.lt_or_ge first.toNat 128 with hone | hone
  · exact nameRound_one hone
  rcases Nat.lt_or_ge first.toNat 224 with htwo | htwo
  · rw [sequenceWidth_two (by omega)] at hlong
    obtain ⟨b, rest, rfl⟩ := exists_cons_of_length_pos (show 0 < rest.length by omega)
    exact nameRound_two ⟨hone, htwo⟩
  rcases Nat.lt_or_ge first.toNat 240 with hthree | hthree
  · rw [sequenceWidth_three (by omega)] at hlong
    obtain ⟨b, rest, rfl⟩ := exists_cons_of_length_pos (show 0 < rest.length by omega)
    obtain ⟨c, rest, rfl⟩ := exists_cons_of_length_pos (show 0 < rest.length by
      rw [length_cons] at hlong; omega)
    exact nameRound_three ⟨htwo, hthree⟩
  · rw [sequenceWidth_four (by omega)] at hlong
    obtain ⟨b, rest, rfl⟩ := exists_cons_of_length_pos (show 0 < rest.length by omega)
    obtain ⟨c, rest, rfl⟩ := exists_cons_of_length_pos (show 0 < rest.length by
      rw [length_cons] at hlong; omega)
    obtain ⟨d, rest, rfl⟩ := exists_cons_of_length_pos (show 0 < rest.length by
      rw [length_cons, length_cons] at hlong; omega)
    exact nameRound_four hthree

/-! ## Names -/

def utf8Bytes (text : List Char) : Bytes := text.flatMap String.utf8EncodeChar

/-- The bytes of a sequence behind the first are not zero. -/
theorem zero_notMem_of_isSequence (h : isSequence (first :: rest) = true) : 0 ∉ rest := by
  rcases rest with _ | ⟨b, _ | ⟨c, _ | ⟨d, _ | ⟨e, rest⟩⟩⟩⟩
  · exact not_mem_nil
  iterate 3
    simp only [isSequence, isTail, decide_eq_true_eq, UInt8.le_iff_toNat_le, UInt8.reduceToNat,
      ← UInt8.toNat_inj] at h
    simp only [mem_cons, not_mem_nil, or_false, ← UInt8.toNat_inj, UInt8.reduceToNat]
    omega
  · cases h

lemma zero_mem_encode (c : Char) : 0 ∈ String.utf8EncodeChar c ↔ c = '\x00' := by
  refine ⟨fun hmem => ?_, by rintro rfl; decide⟩
  obtain ⟨first, rest, hencode, hwidth⟩ := encode_eq_cons c
  have hseq := isSequence_encode c
  rw [hencode] at hmem hseq
  obtain rfl : 0 = first := (mem_cons.mp hmem).resolve_right (zero_notMem_of_isSequence hseq)
  obtain rfl : rest = [] := length_eq_zero_iff.mp (Nat.succ.inj hwidth)
  exact encode_injective hencode

lemma utf8_loop_iff (bytes : Bytes) (hlen : bytes.length ≤ turns) : utf8_loop turns bytes = true ↔
      0 ∉ bytes ∧ UnityYaml.unity_yaml_utf8_is_valid bytes = true := by
  induction turns generalizing bytes with
  | zero =>
    obtain rfl : bytes = [] := length_eq_zero_iff.mp (by omega)
    simp [utf8_loop, UnityYaml.unity_yaml_utf8_is_valid]
  | succ turns ih =>
    cases bytes with
    | nil => simp [utf8_loop, UnityYaml.unity_yaml_utf8_is_valid]
    | cons first rest =>
      rw [length_cons] at hlen
      have hmem : 0 ∈ first :: rest ↔ 0 = first ∨ 0 ∈ rest.take (sequenceWidth first - 1) ∨
          0 ∈ rest.drop (sequenceWidth first - 1) := by
        rw [← mem_append, take_append_drop, mem_cons]
      rw [hmem, utf8_loop_cons turns first rest, UnityYaml.utf8_is_valid_cons first rest]
      simp only [Bool.and_eq_true, decide_eq_true_eq,
        ih _ (show (rest.drop (sequenceWidth first - 1)).length ≤ turns by rw [length_drop]; omega)]
      constructor
      · rintro ⟨⟨hne, hseq⟩, hzero, hvalid⟩
        have htail := zero_notMem_of_isSequence hseq
        refine ⟨fun h => ?_, hseq, hvalid⟩
        rcases h with h | h | h
        · exact hne h.symm
        · exact htail h
        · exact hzero h
      · rintro ⟨hzero, hseq, hvalid⟩
        exact ⟨⟨fun h => hzero (.inl h.symm), hseq⟩, fun h => hzero (.inr (.inr h)), hvalid⟩

lemma valid_utf8_name_eq (bytes : Bytes) : valid_utf8_name bytes = true ↔
    bytes ≠ [] ∧ utf8_loop bytes.length bytes = true := by
  rw [valid_utf8_name, ne_eq, ← length_eq_zero_iff]
  split <;> simp_all

/-- **Names are non-empty UTF-8 texts without NUL.** -/
theorem valid_utf8_name_iff (bytes : Bytes) : valid_utf8_name bytes = true ↔
    ∃ text : List Char, text ≠ [] ∧ '\x00' ∉ text ∧ bytes = utf8Bytes text := by
  have hnul : ∀ text : List Char, 0 ∈ utf8Bytes text ↔ '\x00' ∈ text := by
    simp [utf8Bytes, zero_mem_encode]
  have hnil : ∀ text : List Char, utf8Bytes text = [] ↔ text = [] := fun text => by
    cases text <;> simp [utf8Bytes]
  rw [valid_utf8_name_eq, utf8_loop_iff bytes (Nat.le_refl _), UnityYaml.utf8_is_valid_iff]
  constructor
  · rintro ⟨hne, hzero, text, rfl⟩
    exact ⟨text, (hnil text).not.mp hne, (hnul text).not.mp hzero, rfl⟩
  · rintro ⟨text, hne, hzero, rfl⟩
    exact ⟨(hnil text).not.mpr hne, (hnul text).not.mpr hzero, text, rfl⟩

/-- **Two readers of UTF-8 agree.** A name of a table is what the writer of quoted scalars accepts,
if it is not empty and has no NUL in it. So a builder that does not fail takes every name. -/
theorem valid_utf8_name_iff_utf8_is_valid (bytes : Bytes) : (valid_utf8_name bytes = true ↔
      bytes ≠ [] ∧ 0 ∉ bytes ∧ UnityYaml.unity_yaml_utf8_is_valid bytes = true) ∧
    (valid_utf8_name bytes = true → ∀ {Builder : Type} (sb : StringBuilder Builder) output,
      (UnityYaml.unity_yaml_append_quoted_n sb output bytes).1 = .ok ↔
        sb.sb_ok (UnityYaml.unity_yaml_append_quoted_n sb output bytes).2 = true) := by
  rw [valid_utf8_name_eq, utf8_loop_iff bytes (Nat.le_refl _)]
  refine ⟨Iff.rfl, fun h _ sb output => ?_⟩
  obtain ⟨status, after, hrun, hstatus, -⟩ := UnityYaml.append_quoted_n_of_valid sb output h.2.2
  rw [hrun]
  exact hstatus

end DXBCSandbox
