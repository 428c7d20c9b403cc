/-
UTF-8 byte by byte.

A byte string is well formed when it is the encodings of characters one after another. The bytes of
one encoding are those of the table of RFC 3629 ([`isSequence`]), and the first of them says how
many there are, so a string can be read off from its front.
-/
import Mathlib.Data.List.Basic

namespace DXBCSandbox.Utf8

open List
open UInt8 (reduceToNat)
open UInt8 (le_iff_toNat_le toNat_inj toNat_ofNat')
open String (utf8EncodeChar)

/-! ## Sequences -/

def WellFormed (bytes : List UInt8) : Prop :=
  ∃ chars : List Char, bytes = chars.flatMap utf8EncodeChar

def isTail (byte : UInt8) : Bool := 0x80 ≤ byte ∧ byte ≤ 0xbf

def isSequence : List UInt8 → Bool
  | [a] => a ≤ 0x7f
  | [a, b] => (0xc2 ≤ a ∧ a ≤ 0xdf) ∧ isTail b
  | [a, b, c] =>
    ((a = 0xe0 ∧ 0xa0 ≤ b ∧ b ≤ 0xbf) ∨ (a = 0xed ∧ 0x80 ≤ b ∧ b ≤ 0x9f) ∨
      (0xe1 ≤ a ∧ a ≤ 0xef ∧ a ≠ 0xed ∧ isTail b)) ∧ isTail c
  | [a, b, c, d] =>
    ((a = 0xf0 ∧ 0x90 ≤ b ∧ b ≤ 0xbf) ∨ (a = 0xf4 ∧ 0x80 ≤ b ∧ b ≤ 0x8f) ∨
      (0xf1 ≤ a ∧ a ≤ 0xf3 ∧ isTail b)) ∧ isTail c ∧ isTail d
  | _ => false

def sequenceValue : List UInt8 → ℕ
  | [a] => a.toNat
  | [a, b] => a.toNat % 32 * 64 + b.toNat % 64
  | [a, b, c] => a.toNat % 16 * 4096 + b.toNat % 64 * 64 + c.toNat % 64
  | [a, b, c, d] =>
    a.toNat % 8 * 262144 + b.toNat % 64 * 4096 + c.toNat % 64 * 64 + d.toNat % 64
  | _ => 0

/-- The number of bytes that a first byte announces. -/
def sequenceWidth (first : UInt8) : ℕ :=
  if first ≤ 0x7f then 1 else if first ≤ 0xdf then 2 else if first ≤ 0xef then 3 else 4

lemma exists_char {n : ℕ} (h : n < 0xd800 ∨ 0xdfff < n ∧ n < 0x110000) :
    ∃ c : Char, c.val.toNat = n := by
  have hn : n < UInt32.size := by
    show n < 4294967296
    omega
  refine ⟨⟨UInt32.ofNatLT n hn, ?_⟩, UInt32.toNat_ofNatLT⟩
  rw [UInt32.isValidChar, UInt32.toNat_ofNatLT]
  exact h

lemma ofNat_eq {n : ℕ} {byte : UInt8} (h : n = byte.toNat) : UInt8.ofNat n = byte := by
  rw [h, UInt8.ofNat_toNat]

/-- **Decoding.** A sequence is the encoding of the character that it spells. -/
theorem encode_of_isSequence {s : List UInt8} (h : isSequence s = true) :
    ∃ c : Char, utf8EncodeChar c = s ∧ c.val.toNat = sequenceValue s := by
  match s with
  | [] => nomatch h
  | [a] =>
    simp only [isSequence, decide_eq_true_eq, le_iff_toNat_le, reduceToNat] at h
    obtain ⟨c, hc⟩ := exists_char (n := a.toNat) (.inl (by omega))
    refine ⟨c, ?_, hc⟩
    rw [utf8EncodeChar, hc]
    rw [if_pos (by omega), ofNat_eq rfl]
  | [a, b] =>
    simp only [isSequence, isTail, decide_eq_true_eq, le_iff_toNat_le, reduceToNat] at h
    obtain ⟨c, hc⟩ := exists_char (n := a.toNat % 32 * 64 + b.toNat % 64) (.inl (by omega))
    refine ⟨c, ?_, hc⟩
    rw [utf8EncodeChar, hc]
    rw [if_neg (by omega), if_pos (by omega), @ofNat_eq _ a (by omega), @ofNat_eq _ b (by omega)]
  | [a, b, c] =>
    simp only [isSequence, isTail, decide_eq_true_eq, le_iff_toNat_le, ne_eq,
      ← toNat_inj, reduceToNat] at h
    obtain ⟨ch, hch⟩ := exists_char
      (n := a.toNat % 16 * 4096 + b.toNat % 64 * 64 + c.toNat % 64) (by omega)
    refine ⟨ch, ?_, hch⟩
    rw [utf8EncodeChar, hch]
    rw [if_neg (by omega), if_neg (by omega), if_pos (by omega), @ofNat_eq _ a (by omega),
      @ofNat_eq _ b (by omega), @ofNat_eq _ c (by omega)]
  | [a, b, c, d] =>
    simp only [isSequence, isTail, decide_eq_true_eq, le_iff_toNat_le,
      ← toNat_inj, reduceToNat] at h
    obtain ⟨ch, hch⟩ := exists_char (n := a.toNat % 8 * 262144 + b.toNat % 64 * 4096 +
      c.toNat % 64 * 64 + d.toNat % 64) (by omega)
    refine ⟨ch, ?_, hch⟩
    rw [utf8EncodeChar, hch]
    rw [if_neg (by omega), if_neg (by omega), if_neg (by omega), @ofNat_eq _ a (by omega),
      @ofNat_eq _ b (by omega), @ofNat_eq _ c (by omega),
      @ofNat_eq _ d (by omega)]
  | a :: b :: c :: d :: e :: rest => nomatch h

lemma isSequence_encode (c : Char) : isSequence (utf8EncodeChar c) = true := by
  have hvalid : c.val.toNat < 0xd800 ∨ 0xdfff < c.val.toNat ∧ c.val.toNat < 0x110000 := c.valid
  rw [utf8EncodeChar]
  generalize c.val.toNat = v at hvalid
  split_ifs with h₁ h₂ h₃
  · simp only [isSequence, decide_eq_true_eq, le_iff_toNat_le, toNat_ofNat',
      reduceToNat]
    omega
  · simp only [isSequence, isTail, decide_eq_true_eq, le_iff_toNat_le, toNat_ofNat',
      reduceToNat]
    omega
  · simp only [isSequence, isTail, decide_eq_true_eq, le_iff_toNat_le, ne_eq,
      ← toNat_inj, toNat_ofNat', reduceToNat]
    omega
  · simp only [isSequence, isTail, decide_eq_true_eq, le_iff_toNat_le,
      ← toNat_inj, toNat_ofNat', reduceToNat]
    omega

variable {first : UInt8}

lemma sequenceWidth_one (h : first.toNat ≤ 127) : sequenceWidth first = 1 := by
  simp only [sequenceWidth, le_iff_toNat_le, reduceToNat, if_pos h]

lemma sequenceWidth_two (h : 128 ≤ first.toNat ∧ first.toNat ≤ 223) :
    sequenceWidth first = 2 := by
  simp only [sequenceWidth, le_iff_toNat_le, reduceToNat]
  rw [if_neg (by omega), if_pos (by omega)]

lemma sequenceWidth_three (h : 224 ≤ first.toNat ∧ first.toNat ≤ 239) :
    sequenceWidth first = 3 := by
  simp only [sequenceWidth, le_iff_toNat_le, reduceToNat]
  rw [if_neg (by omega), if_neg (by omega), if_pos (by omega)]

lemma sequenceWidth_four (h : 240 ≤ first.toNat) : sequenceWidth first = 4 := by
  simp only [sequenceWidth, le_iff_toNat_le, reduceToNat]
  rw [if_neg (by omega), if_neg (by omega), if_neg (by omega)]

lemma length_of_isSequence {rest : List UInt8} (h : isSequence (first :: rest) = true) :
    rest.length + 1 = sequenceWidth first := by
  unfold sequenceWidth
  simp only [le_iff_toNat_le, reduceToNat]
  match rest with
  | [] =>
    simp only [isSequence, decide_eq_true_eq, le_iff_toNat_le, reduceToNat] at h
    rw [if_pos h]
    rfl
  | [b] =>
    simp only [isSequence, decide_eq_true_eq, le_iff_toNat_le, reduceToNat] at h
    rw [if_neg (by omega), if_pos (by omega)]
    rfl
  | [b, c] =>
    simp only [isSequence, decide_eq_true_eq, le_iff_toNat_le, ← toNat_inj,
      reduceToNat] at h
    rw [if_neg (by omega), if_neg (by omega), if_pos (by omega)]
    rfl
  | [b, c, d] =>
    simp only [isSequence, decide_eq_true_eq, le_iff_toNat_le, ← toNat_inj,
      reduceToNat] at h
    rw [if_neg (by omega), if_neg (by omega), if_neg (by omega)]
    rfl
  | b :: c :: d :: e :: rest => nomatch h

lemma not_isSequence_of_short {rest : List UInt8} (h : rest.length + 1 < sequenceWidth first) :
    isSequence (first :: rest.take (sequenceWidth first - 1)) = false := by
  refine Bool.eq_false_iff.mpr fun hseq => ?_
  have hlen := length_of_isSequence hseq
  have htake := length_take_le' (sequenceWidth first - 1) rest
  omega

lemma sequenceValue_encode (c : Char) :
    sequenceValue (utf8EncodeChar c) = c.val.toNat := by
  have hvalid : c.val.toNat < 0xd800 ∨ 0xdfff < c.val.toNat ∧ c.val.toNat < 0x110000 := c.valid
  rw [utf8EncodeChar]
  generalize c.val.toNat = v at hvalid
  split_ifs with h₁ h₂ h₃
  · simp only [sequenceValue, toNat_ofNat']
    omega
  · simp only [sequenceValue, toNat_ofNat']
    omega
  · simp only [sequenceValue, toNat_ofNat']
    omega
  · simp only [sequenceValue, toNat_ofNat']
    omega

lemma encode_injective : Function.Injective utf8EncodeChar := by
  intro c d h
  have hval := congrArg sequenceValue h
  rw [sequenceValue_encode, sequenceValue_encode] at hval
  exact Char.ext (UInt32.toNat_inj.mp hval)

/-! ## Strings -/

/-- The bytes are a string of characters that satisfy `P`. -/
def Spells (P : Char → Prop) (bytes : List UInt8) : Prop :=
  ∃ chars : List Char, bytes = chars.flatMap utf8EncodeChar ∧ ∀ c ∈ chars, P c

def IsControl (c : Char) : Prop :=
  c.val.toNat < 0x20 ∨ (0x7f ≤ c.val.toNat ∧ c.val.toNat ≤ 0x9f)

instance (c : Char) : Decidable (IsControl c) := inferInstanceAs (Decidable (_ ∨ _))

lemma wellFormed_iff {bytes : List UInt8} : WellFormed bytes ↔ Spells (fun _ => True) bytes := by
  simp only [WellFormed, Spells, implies_true, and_true]

section Spells

variable {P : Char → Prop}

lemma Spells.wellFormed {bytes : List UInt8} (h : Spells P bytes) : WellFormed bytes := by
  obtain ⟨chars, hchars, -⟩ := h
  exact ⟨chars, hchars⟩

lemma spells_nil : Spells P [] := ⟨[], rfl, nofun⟩

lemma spells_encode {c : Char} (h : P c) : Spells P (utf8EncodeChar c) := by
  refine ⟨[c], by rw [flatMap_singleton], fun d hd => ?_⟩
  rw [mem_singleton.mp hd]
  exact h

lemma Spells.append {a b : List UInt8} (ha : Spells P a) (hb : Spells P b) :
    Spells P (a ++ b) := by
  obtain ⟨cs, rfl, hcs⟩ := ha
  obtain ⟨ds, rfl, hds⟩ := hb
  refine ⟨cs ++ ds, by rw [flatMap_append], fun c hc => ?_⟩
  rcases mem_append.mp hc with hc | hc
  · exact hcs c hc
  · exact hds c hc

lemma Spells.split {bytes : List UInt8} (h : Spells P bytes) (hne : bytes ≠ []) :
    ∃ c after, bytes = utf8EncodeChar c ++ after ∧ P c ∧ Spells P after := by
  obtain ⟨chars, hchars, hall⟩ := h
  cases chars with
  | nil => exact absurd hchars hne
  | cons c chars =>
    rw [flatMap_cons] at hchars
    exact ⟨c, _, hchars, hall c mem_cons_self, chars, rfl,
      fun d hd => hall d (mem_cons_of_mem c hd)⟩

lemma encode_ne_nil (c : Char) : utf8EncodeChar c ≠ [] := by
  intro h
  have hseq := isSequence_encode c
  rw [h] at hseq
  nomatch hseq

/-- The first byte of a character's encoding announces the rest of it. -/
theorem encode_eq_cons (c : Char) : ∃ first rest, utf8EncodeChar c = first :: rest ∧
    rest.length + 1 = sequenceWidth first := by
  cases hencode : utf8EncodeChar c with
  | nil => exact absurd hencode (encode_ne_nil c)
  | cons first rest =>
    have hseq := isSequence_encode c
    rw [hencode] at hseq
    exact ⟨first, rest, rfl, length_of_isSequence hseq⟩

lemma length_le_length_encode (chars : List Char) :
    chars.length ≤ (chars.flatMap utf8EncodeChar).length := by
  induction chars with
  | nil => exact Nat.le_refl _
  | cons c chars ih =>
    have hpos := length_pos_iff.mpr (encode_ne_nil c)
    rw [flatMap_cons, length_append, length_cons]
    omega

/-- **Reading from the front.** As many bytes as the first one announces are a character. -/
theorem spells_cons_append_iff {first : UInt8} {rest after : List UInt8}
    (hwidth : rest.length + 1 = sequenceWidth first) :
    Spells P (first :: (rest ++ after)) ↔
      (∃ c, utf8EncodeChar c = first :: rest ∧ P c) ∧ Spells P after := by
  constructor
  · intro h
    obtain ⟨c, after', hspl, hc, hafter⟩ := h.split (cons_ne_nil _ _)
    obtain ⟨b, rest', hencode, hwidth'⟩ := encode_eq_cons c
    rw [hencode] at hspl
    obtain ⟨rfl, hrest⟩ := List.cons.inj hspl
    obtain ⟨rfl, rfl⟩ := append_inj hrest (by omega)
    exact ⟨⟨c, hencode, hc⟩, hafter⟩
  · rintro ⟨⟨c, hencode, hc⟩, hafter⟩
    have happend := (spells_encode hc).append hafter
    rwa [hencode] at happend

end Spells

end DXBCSandbox.Utf8
