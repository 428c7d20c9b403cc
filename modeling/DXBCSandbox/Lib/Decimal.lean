/-
Decimal numbers as bytes.

A number is written with the digits that it has and no others. So digits without a leading zero are
those of the number that they spell.
-/
import DXBCSandbox.Runtime
import Mathlib.Data.List.Induction
import Mathlib.Tactic.IntervalCases

namespace DXBCSandbox

open List

/-! ## Written numbers -/

lemma digitChar_toNat {d : ℕ} (h : d < 10) :
    (Nat.digitChar d).toNat.toUInt8 = UInt8.ofNat (48 + d) := by
  interval_cases d <;> rfl

lemma decimalBytes_of_lt {n : ℕ} (h : n < 10) : decimalBytes n = [UInt8.ofNat (48 + n)] := by
  rw [decimalBytes, Nat.toDigits_of_lt_base h, map_singleton, digitChar_toNat h]

lemma decimalBytes_of_le {n : ℕ} (h : 10 ≤ n) :
    decimalBytes n = decimalBytes (n / 10) ++ [UInt8.ofNat (48 + n % 10)] := by
  rw [decimalBytes, Nat.toDigits_of_base_le (by omega) h, map_append, map_singleton,
    digitChar_toNat (Nat.mod_lt n (by omega))]
  rfl

lemma decimalBytes_ne_nil (n : ℕ) : decimalBytes n ≠ [] := by
  rw [decimalBytes]
  exact fun hnil => Nat.toDigits_ne_nil (map_eq_nil_iff.mp hnil)

lemma mem_decimalBytes {n : ℕ} {byte : UInt8} (h : byte ∈ decimalBytes n) :
    48 ≤ byte ∧ byte ≤ 57 := by
  obtain ⟨c, hc, rfl⟩ := mem_map.mp h
  have hdigit := Nat.isDigit_of_mem_toDigits (by decide) (by decide) hc
  rw [Char.isDigit, Bool.and_eq_true, decide_eq_true_iff, decide_eq_true_iff] at hdigit
  have hzero : '0'.val.toNat = 48 := rfl
  have hnine : '9'.val.toNat = 57 := rfl
  simp only [ge_iff_le, UInt32.le_iff_toNat_le, hzero, hnine] at hdigit
  have hval : c.toNat.toUInt8.toNat = c.val.toNat := by
    show (UInt8.ofNat c.val.toNat).toNat = c.val.toNat
    rw [UInt8.toNat_ofNat']
    omega
  simp only [UInt8.le_iff_toNat_le, UInt8.reduceToNat, hval]
  omega

/-- A positive number has no leading zero. -/
lemma decimalBytes_head {n : ℕ} (h : 0 < n) :
    ∃ first digits, decimalBytes n = first :: digits ∧ ¬ (first < 49 ∨ 57 < first) := by
  induction n using Nat.strong_induction_on with
  | h n ih =>
    by_cases hlt : n < 10
    · refine ⟨_, [], decimalBytes_of_lt hlt, ?_⟩
      interval_cases n <;> decide
    · obtain ⟨first, digits, hdigits, hfst⟩ := ih (n / 10) (by omega) (by omega)
      refine ⟨first, digits ++ [UInt8.ofNat (48 + n % 10)], ?_, hfst⟩
      rw [decimalBytes_of_le (by omega), hdigits, cons_append]

lemma length_decimalBytes_le {n k : ℕ} (hk : 0 < k) (h : n < 10 ^ k) :
    (decimalBytes n).length ≤ k := by
  rw [decimalBytes, length_map]
  exact (Nat.length_toDigits_le_iff (by omega) hk).mpr h

/-! ## Read numbers -/

/-- The number that decimal digits spell. -/
def decimalValue (digits : Bytes) : ℕ :=
  digits.foldl (fun n c => n * 10 + (c.toNat - 48)) 0

lemma decimalValue_concat (digits : Bytes) (c : UInt8) :
    decimalValue (digits ++ [c]) = decimalValue digits * 10 + (c.toNat - 48) := by
  rw [decimalValue, foldl_append]
  rfl

lemma toNat_digit {d : ℕ} (h : d < 10) : (UInt8.ofNat (48 + d)).toNat - 48 = d := by
  rw [UInt8.toNat_ofNat']
  omega

lemma decimalValue_decimalBytes (n : ℕ) : decimalValue (decimalBytes n) = n := by
  induction n using Nat.strong_induction_on with
  | h n ih =>
    by_cases hlt : n < 10
    · rw [decimalBytes_of_lt hlt]
      show 0 * 10 + _ = n
      rw [toNat_digit hlt]
      omega
    · rw [decimalBytes_of_le (by omega), decimalValue_concat, ih (n / 10) (by omega),
        toNat_digit (Nat.mod_lt n (by omega))]
      omega

/-- **Canonical digits.** Digits without a leading zero are those of their number. -/
theorem decimalBytes_decimalValue {digits : Bytes} (hne : digits ≠ [])
    (hdigits : ∀ c ∈ digits, 48 ≤ c ∧ c ≤ 57)
    (hzero : digits.head? = some 48 → digits = [48]) :
    decimalBytes (decimalValue digits) = digits := by
  induction digits using reverseRecOn with
  | nil => exact absurd rfl hne
  | append_singleton digits c ih =>
    have hc := hdigits c (mem_append_right _ (mem_singleton_self c))
    simp only [UInt8.le_iff_toNat_le, UInt8.reduceToNat] at hc
    have hbyte : UInt8.ofNat (48 + (c.toNat - 48)) = c := by
      rw [show 48 + (c.toNat - 48) = c.toNat by omega, UInt8.ofNat_toNat]
    rw [decimalValue_concat]
    by_cases hnil : digits = []
    · subst hnil
      rw [show decimalValue [] * 10 + (c.toNat - 48) = c.toNat - 48 by
        show 0 * 10 + _ = _
        omega, decimalBytes_of_lt (by omega), hbyte]
      rfl
    · have hhead : (digits ++ [c]).head? = digits.head? := by
        rw [head?_append, head?_eq_some_head hnil]
        rfl
      have hfst : digits.head? ≠ some 48 := by
        intro hsome
        -- only a single digit may be zero
        have hone := congrArg length (hzero (hhead.trans hsome))
        rw [length_append, length_singleton, length_singleton] at hone
        exact hnil (length_eq_zero_iff.mp (by omega))
      have hrest := ih hnil (forall_mem_append.mp hdigits).1
        fun hsome => absurd hsome hfst
      have hpos : 0 < decimalValue digits := by
        by_contra hnot
        rw [show decimalValue digits = 0 by omega] at hrest
        exact hfst (by rw [← hrest]; rfl)
      have hdiv : (decimalValue digits * 10 + (c.toNat - 48)) / 10 = decimalValue digits := by omega
      have hmod : (decimalValue digits * 10 + (c.toNat - 48)) % 10 = c.toNat - 48 := by omega
      rw [decimalBytes_of_le (by omega), hdiv, hmod, hrest, hbyte]

end DXBCSandbox
