/-
Numbers as bytes in increasing significance, and parts of byte strings.

A fixed-width field that is written as `leBytes k n` is read back by `leValue`, and the
bytes of a field are the bytes of its value. A reader that works with offsets sees the
parts of a concatenation through `slice`.
-/
import Mathlib.Algebra.Order.Ring.Int
import Mathlib.Data.List.Basic

namespace DXBCSandbox

open List

/-! ## Numbers -/

/-- The `k` lowest bytes of a number, the lowest first. -/
def leBytes : ℕ → ℕ → List UInt8
  | 0, _ => []
  | k + 1, n => UInt8.ofNat n :: leBytes k (n / 256)

/-- The number that bytes spell, the lowest first. -/
def leValue : List UInt8 → ℕ
  | [] => 0
  | b :: bs => b.toNat + 256 * leValue bs

@[simp] lemma length_leBytes (k n : ℕ) : (leBytes k n).length = k := by
  induction k generalizing n with
  | zero => rfl
  | succ k ih => rw [leBytes, length_cons, ih]

variable (bs : List UInt8)

lemma leValue_lt : leValue bs < 256 ^ bs.length := by
  induction bs with
  | nil => exact Nat.one_pos
  | cons b bs ih =>
    have hb := b.toNat_lt
    rw [leValue, length_cons, Nat.pow_succ]
    omega

lemma leValue_leBytes {k n : ℕ} (h : n < 256 ^ k) : leValue (leBytes k n) = n := by
  induction k generalizing n with
  | zero =>
    rw [Nat.pow_zero] at h
    rw [leBytes, leValue]
    omega
  | succ k ih =>
    rw [Nat.pow_succ] at h
    rw [leBytes, leValue, ih (by omega), UInt8.toNat_ofNat']
    omega

lemma leBytes_leValue : leBytes bs.length (leValue bs) = bs := by
  induction bs with
  | nil => rfl
  | cons b bs ih =>
    have hb := b.toNat_lt
    rw [leValue, length_cons, leBytes, show (b.toNat + 256 * leValue bs) / 256 = leValue bs
      by omega, ih]
    congr 1
    apply UInt8.toNat_inj.mp
    rw [UInt8.toNat_ofNat']
    omega

lemma leValue_concat (b : UInt8) :
    leValue (bs ++ [b]) = leValue bs + 256 ^ bs.length * b.toNat := by
  induction bs with
  | nil => simp [leValue]
  | cons a bs ih =>
    rw [cons_append, leValue, ih, leValue, length_cons, Nat.pow_succ, Nat.mul_add,
      Nat.mul_comm (256 ^ bs.length) 256, Nat.mul_assoc, Nat.add_assoc]

/-! ## Parts of byte strings -/

variable {α : Type*} (data : List α)

/-- The `size` elements from `offset` on. -/
def slice (offset size : ℕ) : List α := (data.drop offset).take size

variable {offset size : ℕ}

lemma length_slice {data : List α} (h : offset + size ≤ data.length) :
    (slice data offset size).length = size := by
  rw [slice, length_take, length_drop]
  omega

variable (a b : List α)

lemma slice_append_right (h : a.length ≤ offset) :
    slice (a ++ b) offset size = slice b (offset - a.length) size := by
  rw [slice, slice, drop_append, drop_eq_nil_of_le h, nil_append]

lemma slice_append_left (h : offset + size ≤ a.length) :
    slice (a ++ b) offset size = slice a offset size := by
  rw [slice, slice, drop_append_of_le_length (by omega),
    take_append_of_le_length (by rw [length_drop]; omega)]

@[simp] lemma slice_zero_length (a : List α) : slice a 0 a.length = a := by
  rw [slice, drop_zero, take_length]

lemma slice_append_self : slice (a ++ b) 0 a.length = a := by
  rw [slice_append_left a b (by omega), slice_zero_length]

lemma slice_middle (a b c : List α) (ho : offset = a.length) (hs : size = b.length) :
    slice (a ++ (b ++ c)) offset size = b := by
  subst ho hs
  rw [slice_append_right a _ (Nat.le_refl _), Nat.sub_self, slice_append_self]

lemma slice_add (offset m n : ℕ) :
    slice data offset (m + n) = slice data offset m ++ slice data (offset + m) n := by
  rw [slice, slice, slice, take_add, drop_drop]

lemma slice_slice {o s : ℕ} (h : o + s ≤ size) :
    slice (slice data offset size) o s = slice data (offset + o) s := by
  rw [slice, slice, slice, drop_take, take_take, drop_drop, Nat.min_eq_left (by omega)]

lemma drop_eq_slice_append (offset size : ℕ) :
    data.drop offset = slice data offset size ++ data.drop (offset + size) := by
  rw [slice, ← drop_drop, take_append_drop]

end DXBCSandbox
