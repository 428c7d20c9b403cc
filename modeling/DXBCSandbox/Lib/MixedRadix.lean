/-
Mixed radix.

A number below the product of the radices is one digit for each radix, the last one varying
fastest. A digit is read off as the code reads it, `n / stride % radix` with the stride of its
place, without reducing the number first. The low digits are the same with the first digit varying
fastest.
-/
import Mathlib.Algebra.BigOperators.Group.List.Basic

namespace DXBCSandbox

open List

namespace MixedRadix

/-- The digits of a number, the last one varying fastest. -/
def digits : List ℕ → ℕ → List ℕ
  | [], _ => []
  | r :: rs, n => n / rs.prod % r :: digits rs n

/-- The number that digits spell. -/
def value : List ℕ → List ℕ → ℕ
  | _ :: rs, d :: ds => d * rs.prod + value rs ds
  | _, _ => 0

abbrev Within (rs ds : List ℕ) : Prop := List.Forall₂ (fun r d => d < r) rs ds

variable {rs : List ℕ}

lemma prod_pos (h : ∀ r ∈ rs, 0 < r) : 0 < rs.prod := by
  induction rs with
  | nil => exact Nat.one_pos
  | cons r rs ih =>
    rw [prod_cons]
    exact Nat.mul_pos (h r mem_cons_self) (ih (forall_mem_cons.mp h).2)

lemma within_digits (h : ∀ r ∈ rs, 0 < r) (n : ℕ) : Within rs (digits rs n) := by
  induction rs with
  | nil => exact .nil
  | cons r rs ih =>
    exact .cons (Nat.mod_lt _ (h r mem_cons_self)) (ih (forall_mem_cons.mp h).2)

lemma digits_add_mul (rs : List ℕ) (n k : ℕ) (h : ∀ r ∈ rs, 0 < r) :
    digits rs (n + k * rs.prod) = digits rs n := by
  induction rs generalizing k with
  | nil => rfl
  | cons r rs ih =>
    have hrest : ∀ x ∈ rs, 0 < x := (forall_mem_cons.mp h).2
    have hspl : n + k * (r * rs.prod) = n + k * r * rs.prod := by rw [Nat.mul_assoc]
    rw [digits, digits, prod_cons, hspl, ih (k * r) hrest,
      Nat.add_mul_div_right n (k * r) (prod_pos hrest), Nat.add_mul_mod_self_right]

lemma digits_mod (rs : List ℕ) (n : ℕ) (h : ∀ r ∈ rs, 0 < r) :
    digits rs (n % rs.prod) = digits rs n := by
  have hdiv := Nat.mod_add_div n rs.prod
  rw [Nat.mul_comm] at hdiv
  calc digits rs (n % rs.prod) = digits rs (n % rs.prod + n / rs.prod * rs.prod) :=
        (digits_add_mul rs _ _ h).symm
    _ = digits rs n := by rw [hdiv]

variable {ds : List ℕ}

lemma value_lt (h : Within rs ds) : value rs ds < rs.prod := by
  induction h with
  | nil => exact Nat.one_pos
  | @cons r d rs ds hd hds ih =>
    have hle : (d + 1) * rs.prod ≤ r * rs.prod := Nat.mul_le_mul_right _ hd
    rw [Nat.add_mul, Nat.one_mul] at hle
    rw [value, prod_cons]
    omega

lemma digits_value (h : Within rs ds) (hpos : ∀ r ∈ rs, 0 < r) :
    digits rs (value rs ds) = ds := by
  induction h with
  | nil => rfl
  | @cons r d rs ds hd hds ih =>
    have hrest : ∀ x ∈ rs, 0 < x := (forall_mem_cons.mp hpos).2
    have hlt := value_lt hds
    rw [digits, value, Nat.add_comm, Nat.add_mul_div_right _ _ (prod_pos hrest),
      Nat.div_eq_of_lt hlt, Nat.zero_add, Nat.mod_eq_of_lt hd, digits_add_mul rs _ _ hrest,
      ih hrest]

lemma value_digits (hpos : ∀ r ∈ rs, 0 < r) {n : ℕ} (h : n < rs.prod) :
    value rs (digits rs n) = n := by
  induction rs generalizing n with
  | nil =>
    rw [prod_nil] at h
    rw [digits, value]
    · omega
    · simp
  | cons r rs ih =>
    have hrest : ∀ x ∈ rs, 0 < x := (forall_mem_cons.mp hpos).2
    have hprod := prod_pos hrest
    rw [prod_cons] at h
    have hdigit : n / rs.prod < r := (Nat.div_lt_iff_lt_mul hprod).mpr h
    have htail := ih hrest (Nat.mod_lt n hprod)
    rw [digits_mod rs n hrest] at htail
    rw [digits, value, Nat.mod_eq_of_lt hdigit, htail, Nat.mul_comm]
    exact Nat.div_add_mod n rs.prod

/-- Numbers are ordered as their digits are. -/
lemma value_lt_value {ds' : List ℕ} (h : Within rs ds) (h' : Within rs ds')
    (hlt : List.Lex (· < ·) ds ds') : value rs ds < value rs ds' := by
  induction h generalizing ds' with
  | nil =>
    cases h'
    cases hlt
  | @cons r d rs ds hd hds ih =>
    obtain ⟨d', ds'', hd', hds'', rfl⟩ := forall₂_cons_left_iff.mp h'
    rw [value, value]
    have hsmall := value_lt hds
    cases hlt with
    | rel hdd =>
      have hle : (d + 1) * rs.prod ≤ d' * rs.prod := Nat.mul_le_mul_right _ hdd
      rw [Nat.add_mul, Nat.one_mul] at hle
      omega
    | cons hrest =>
      have := ih hds'' hrest
      omega

/-! ## First digit fastest -/

/-- The digits of a number, the first one varying fastest. -/
def lowDigits : List ℕ → ℕ → List ℕ
  | [], _ => []
  | r :: rs, n => n % r :: lowDigits rs (n / r)

end MixedRadix

end DXBCSandbox
