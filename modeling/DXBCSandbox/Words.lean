/-
Words in byte strings.

The decoders read a word from four bytes with shifts, and the encoders take it apart with
shifts. Both are the little-endian bytes of its value.
-/
import DXBCSandbox.Lib.LittleEndian
import DXBCSandbox.Dxbc.Hash

namespace DXBCSandbox

open List

lemma or_shiftLeft_eq_add {a b i : ℕ} (h : b < 2 ^ i) : b ||| a <<< i = b + 2 ^ i * a := by
  rw [Nat.or_comm, ← Nat.shiftLeft_add_eq_or_of_lt h, Nat.shiftLeft_eq]
  rw [Nat.mul_comm, Nat.add_comm]

/-- The word that a decoder builds from four bytes has their little-endian value. -/
lemma le32_toNat (b0 b1 b2 b3 : UInt8) : (le32 b0 b1 b2 b3).toNat = leValue [b0, b1, b2, b3] := by
  have h0 := b0.toNat_lt
  have h1 := b1.toNat_lt
  have h2 := b2.toNat_lt
  have h3 := b3.toNat_lt
  simp only [le32, leValue, UInt32.toNat_or, UInt32.toNat_shiftLeft, UInt8.toNat_toUInt32,
    UInt32.reduceToNat, Nat.reduceMod]
  have hsmall : ∀ b s, b < 256 → s ≤ 24 → b <<< s % 2 ^ 32 = b <<< s := by
    intro b s hb hs
    apply Nat.mod_eq_of_lt
    rw [Nat.shiftLeft_eq]
    calc b * 2 ^ s < 256 * 2 ^ s := Nat.mul_lt_mul_of_pos_right hb (Nat.two_pow_pos s)
      _ ≤ 256 * 2 ^ 24 := Nat.mul_le_mul_left _ (Nat.pow_le_pow_right (by decide) hs)
      _ = 2 ^ 32 := by decide
  rw [hsmall _ 8 h1 (by decide), hsmall _ 16 h2 (by decide), hsmall _ 24 h3 (by decide)]
  -- The bytes do not overlap, so the disjunctions are sums.
  have e1 : b0.toNat ||| b1.toNat <<< 8 = b0.toNat + 2 ^ 8 * b1.toNat :=
    or_shiftLeft_eq_add (by omega)
  have e2 : b0.toNat + 2 ^ 8 * b1.toNat ||| b2.toNat <<< 16 =
      b0.toNat + 2 ^ 8 * b1.toNat + 2 ^ 16 * b2.toNat := or_shiftLeft_eq_add (by omega)
  rw [e1, e2, or_shiftLeft_eq_add (by omega)]
  omega

variable (data : Bytes)

lemma slice_four {pos : ℕ} (h : pos + 4 ≤ data.length) :
    slice data pos 4 = [byteAt data pos, byteAt data (pos + 1), byteAt data (pos + 2),
      byteAt data (pos + 3)] := by
  have hget : ∀ i, i < data.length → data[i]? = some (byteAt data i) := by
    intro i hi
    rw [byteAt, getD_eq_getElem?_getD, getElem?_eq_getElem hi]
    rfl
  apply ext_getElem?
  intro i
  rw [slice, getElem?_take]
  split_ifs with hi
  · rw [getElem?_drop, hget _ (by omega)]
    rcases i with _ | _ | _ | _ | i
    · rfl
    · rfl
    · rfl
    · rfl
    · omega
  · rw [getElem?_eq_none]
    simp only [length_cons, length_nil]
    omega

lemma wordAt_toNat {data : Bytes} {pos : ℕ} (h : pos + 4 ≤ data.length) :
    (wordAt data pos).toNat = leValue (slice data pos 4) := by
  rw [wordAt, le32_toNat, slice_four data h]

/-- A word of the data, taken apart again, is the four bytes it was read from. -/
lemma leBytes_wordAt (pos : ℕ) (h : pos + 4 ≤ data.length) :
    leBytes 4 (wordAt data pos).toNat = slice data pos 4 := by
  have hround := leBytes_leValue (slice data pos 4)
  rw [length_slice h] at hround
  rw [wordAt_toNat h, hround]

lemma byteAt_slice (offset : ℕ) {size i : ℕ} (h : i < size) :
    byteAt (slice data offset size) i = byteAt data (offset + i) := by
  rw [byteAt, byteAt, slice, getD_eq_getElem?_getD, getD_eq_getElem?_getD,
    getElem?_take_of_lt h, getElem?_drop]

lemma wordAt_slice (offset : ℕ) {size pos : ℕ} (h : pos + 4 ≤ size) :
    wordAt (slice data offset size) pos = wordAt data (offset + pos) := by
  simp only [wordAt, byteAt_slice data offset (show pos < size by omega),
    byteAt_slice data offset (show pos + 1 < size by omega),
    byteAt_slice data offset (show pos + 2 < size by omega),
    byteAt_slice data offset (show pos + 3 < size by omega), Nat.add_assoc]

lemma take_slice (offset : ℕ) {size n : ℕ} (h : n ≤ size) :
    (slice data offset size).take n = slice data offset n := by
  rw [slice, slice, take_take, Nat.min_eq_left h]

/-- A word is read back where it was put. -/
lemma wordAt_append (a c : Bytes) {n : ℕ} (h : n < 2 ^ 32) {pos : ℕ}
    (hpos : pos = a.length) : (wordAt (a ++ (leBytes 4 n ++ c)) pos).toNat = n := by
  rw [wordAt_toNat (by simp [hpos]), slice_middle a _ c hpos (length_leBytes 4 n).symm,
    leValue_leBytes (by simpa using h)]

/-! ## Writing -/

lemma ofNat_toNat {n : ℕ} (h : n < 2 ^ 32) : (UInt32.ofNat n).toNat = n :=
  UInt32.toNat_ofNat_of_lt' h

/-- The shifts of an encoder give the little-endian bytes. -/
lemma le32Bytes_eq (w : UInt32) : le32Bytes w = leBytes 4 w.toNat := by
  have hbyte : ∀ s, s < 32 → (w >>> UInt32.ofNat s).toUInt8 = UInt8.ofNat (w.toNat / 2 ^ s) := by
    intro s hs
    apply UInt8.toNat_inj.mp
    rw [UInt32.toNat_toUInt8, UInt32.toNat_shiftRight, ofNat_toNat (by omega),
      UInt8.toNat_ofNat', Nat.mod_eq_of_lt hs, Nat.shiftRight_eq_div_pow]
  have h0 : w.toUInt8 = UInt8.ofNat w.toNat := by
    apply UInt8.toNat_inj.mp
    rw [UInt32.toNat_toUInt8, UInt8.toNat_ofNat']
  have h8 := hbyte 8 (by decide)
  have h16 := hbyte 16 (by decide)
  have h24 := hbyte 24 (by decide)
  simp only [leBytes, Nat.div_div_eq_div_mul]
  exact congrArg₂ _ h0 (congrArg₂ _ h8 (congrArg₂ _ h16 (congrArg₂ _ h24 rfl)))

lemma le64Bytes_eq (w : UInt64) :
    (List.range 8).map (fun i => (w >>> UInt64.ofNat (i * 8)).toUInt8) = leBytes 8 w.toNat := by
  have hbyte : ∀ s, s < 64 → (w >>> UInt64.ofNat s).toUInt8 = UInt8.ofNat (w.toNat / 2 ^ s) := by
    intro s hs
    apply UInt8.toNat_inj.mp
    rw [UInt64.toNat_toUInt8, UInt64.toNat_shiftRight,
      UInt64.toNat_ofNat_of_lt' (by rw [UInt64.size]; omega), UInt8.toNat_ofNat',
      Nat.mod_eq_of_lt hs, Nat.shiftRight_eq_div_pow]
  simp only [range, range.loop, map_cons, map_nil, leBytes, Nat.div_div_eq_div_mul]
  rw [hbyte _ (by decide), hbyte _ (by decide), hbyte _ (by decide), hbyte _ (by decide),
    hbyte _ (by decide), hbyte _ (by decide), hbyte _ (by decide), hbyte _ (by decide)]
  simp only [Nat.zero_mul, Nat.pow_zero, Nat.div_one, Nat.reduceMul, Nat.reducePow]

end DXBCSandbox
