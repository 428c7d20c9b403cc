/-
The decimal text of a 32-bit float is exact (`src/translation/unity_yaml.c`).

The limbs hold the significand times a power of two or of five, which never needs more than thirteen
of them. The digits spell that number, the dropped zeros are paid for by places, and the point puts
the power of ten back, so the text is a decimal of exactly the pattern's value. Sign and value give
the bits back, and with that no two patterns share a text.
-/
import DXBCSandbox.Yaml.Float32
import Mathlib.Data.List.TakeWhile
import Mathlib.Data.Nat.Bitwise
import Mathlib.Data.Nat.Digits.Defs
import Mathlib.Tactic.FieldSimp

namespace DXBCSandbox

open List Option

namespace UnityYaml

/-! ## The big integer -/

/-- What limbs in base 10⁹ are worth. -/
def limbsValue (limbs : List UInt32) : ℕ := Nat.ofDigits (10 ^ 9) (limbs.map UInt32.toNat)

lemma limbsValue_cons (limb : UInt32) (limbs : List UInt32) :
    limbsValue (limb :: limbs) = limb.toNat + 10 ^ 9 * limbsValue limbs := rfl

lemma limbsValue_append (a b : List UInt32) :
    limbsValue (a ++ b) = limbsValue a + (10 ^ 9) ^ a.length * limbsValue b := by
  simp only [limbsValue, map_append, Nat.ofDigits_append, length_map]

/-- The limbs of a number, without more limbs than it takes. -/
structure Holds (value : BigDecimalInteger) (n : ℕ) : Prop where
  limb_lt : ∀ limb ∈ value.limb, limb.toNat < 10 ^ 9
  value_eq : limbsValue value.limb = n
  nonempty : value.limb ≠ []
  least : (10 ^ 9) ^ (value.limb.length - 1) ≤ n

variable {factor : UInt32}

lemma product_toNat {limb : UInt32} {carry : UInt64} (hlimb : limb.toNat < 10 ^ 9)
    (hfactor : factor.toNat ≤ 10) (hcarry : carry.toNat < factor.toNat) :
    (limb.toUInt64 * factor.toUInt64 + carry).toNat = limb.toNat * factor.toNat + carry.toNat := by
  have hproduct : limb.toNat * factor.toNat ≤ 10 ^ 9 * 10 := Nat.mul_le_mul hlimb.le hfactor
  rw [UInt64.toNat_add, UInt64.toNat_mul, UInt32.toNat_toUInt64, UInt32.toNat_toUInt64]
  rw [Nat.mod_eq_of_lt (by omega : limb.toNat * factor.toNat < 2 ^ 64), Nat.mod_eq_of_lt (by omega)]

/-- The digit of a column and the columns above it, with what is carried into them. -/
theorem carry_step {b p l f c carry v a k : ℕ} (habove : a + k * c = v * f + p / b)
    (hp : p = l * f + carry) : p % b + b * a + k * b * c = (l + b * v) * f + carry := by
  calc p % b + b * a + k * b * c = p % b + b * (a + k * c) := by ring
    _ = p % b + b * (p / b) + b * v * f := by rw [habove]; ring
    _ = p + b * v * f := by rw [Nat.mod_add_div]
    _ = (l + b * v) * f + carry := by rw [hp]; ring

/-- **The limbs of a product.** They and the last carry are the product, and the carry is below the
factor. -/
theorem multiplyLimbs_spec (hfactor : factor.toNat ≤ 10) (limbs : List UInt32) (carry : UInt64)
    (hlimbs : ∀ limb ∈ limbs, limb.toNat < 10 ^ 9) (hcarry : carry.toNat < factor.toNat) :
    limbsValue (multiplyLimbs factor carry limbs).1 +
        (10 ^ 9) ^ limbs.length * (multiplyLimbs factor carry limbs).2.toNat =
      limbsValue limbs * factor.toNat + carry.toNat ∧
    (multiplyLimbs factor carry limbs).2.toNat < factor.toNat ∧
    (multiplyLimbs factor carry limbs).1.length = limbs.length ∧
    ∀ limb ∈ (multiplyLimbs factor carry limbs).1, limb.toNat < 10 ^ 9 := by
  induction limbs generalizing carry with
  | nil => simp [multiplyLimbs, limbsValue, hcarry]
  | cons limb limbs ih =>
    have hlimb := hlimbs limb mem_cons_self
    have hproduct := product_toNat hlimb hfactor hcarry
    have hbase : BIG_DECIMAL_BASE.toNat = 10 ^ 9 := rfl
    rw [multiplyLimbs]
    generalize limb.toUInt64 * factor.toUInt64 + carry = product at hproduct
    have hquot : (product / BIG_DECIMAL_BASE).toNat = product.toNat / 10 ^ 9 := by
      rw [UInt64.toNat_div, hbase]
    have hrest : (product % BIG_DECIMAL_BASE).toUInt32.toNat = product.toNat % 10 ^ 9 := by
      rw [UInt64.toNat_toUInt32, UInt64.toNat_mod, hbase]
      omega
    have hmul : (limb.toNat + 1) * factor.toNat ≤ 10 ^ 9 * factor.toNat :=
      Nat.mul_le_mul_right _ hlimb
    rw [Nat.add_mul, Nat.one_mul] at hmul
    obtain ⟨hval, hlast, hlen, hall⟩ := ih (product / BIG_DECIMAL_BASE)
      (forall_mem_cons.mp hlimbs).2 (by omega)
    refine ⟨?_, hlast, by simp only [length_cons, hlen], fun l hl => ?_⟩
    · rw [hquot] at hval
      have hstep := carry_step hval hproduct
      rwa [← hrest, ← limbsValue_cons, ← limbsValue_cons, ← Nat.pow_succ] at hstep
    · rcases mem_cons.mp hl with rfl | hl
      · rw [hrest]
        exact Nat.mod_lt _ (by decide)
      · exact hall l hl

lemma big_decimal_multiply_spec {value : BigDecimalInteger} {n : ℕ} (h : Holds value n)
    (hfactor : 0 < factor.toNat ∧ factor.toNat ≤ 10)
    (hfits : n * factor.toNat < (10 ^ 9) ^ BIG_DECIMAL_LIMBS) :
    ∃ product, big_decimal_multiply value factor = some product ∧
      Holds product (n * factor.toNat) := by
  obtain ⟨hval, hcarry, hlen, hall⟩ :=
    multiplyLimbs_spec hfactor.2 value.limb 0 h.limb_lt hfactor.1
  have hzero : (0 : UInt64).toNat = 0 := rfl
  rw [h.value_eq, hzero, Nat.add_zero] at hval
  have hpos := length_pos_iff.mpr h.nonempty
  have hle : n ≤ n * factor.toNat := Nat.le_mul_of_pos_right n hfactor.1
  unfold big_decimal_multiply
  generalize multiplyLimbs factor 0 value.limb = result at hval hcarry hlen hall
  obtain ⟨limbs, carry⟩ := result
  simp only at hval hcarry hlen hall ⊢
  by_cases hc : carry = 0
  · -- the limbs are as many as before
    rw [if_neg (not_not.mpr hc)]
    rw [hc, hzero, Nat.mul_zero, Nat.add_zero] at hval
    refine ⟨⟨limbs⟩, rfl, hall, hval, ?_, ?_⟩
    · refine length_pos_iff.mp ?_
      show 0 < limbs.length
      omega
    · show (10 ^ 9) ^ (limbs.length - 1) ≤ _
      rw [hlen]
      exact h.least.trans hle
  · -- the carry is a limb of its own, and there is room for it
    have hcpos : 1 ≤ carry.toNat := by
      refine Nat.one_le_iff_ne_zero.mpr fun hzero' => hc ?_
      exact UInt64.toNat_inj.mp hzero'
    have hbnd : (10 ^ 9) ^ value.limb.length ≤ n * factor.toNat := by
      calc (10 ^ 9) ^ value.limb.length ≤ (10 ^ 9) ^ value.limb.length * carry.toNat :=
            Nat.le_mul_of_pos_right _ hcpos
        _ ≤ n * factor.toNat := by rw [← hval]; exact Nat.le_add_left _ _
    have hroom : value.limb.length ≠ BIG_DECIMAL_LIMBS := by
      intro heq
      rw [heq] at hbnd
      omega
    have hword : carry.toUInt32.toNat = carry.toNat := by
      rw [UInt64.toNat_toUInt32]
      omega
    rw [if_pos hc, if_neg hroom]
    refine ⟨⟨limbs ++ [carry.toUInt32]⟩, rfl, fun limb hlimb => ?_, ?_, ?_, ?_⟩
    · rcases mem_append.mp hlimb with hlimb | hlimb
      · exact hall limb hlimb
      · rw [mem_singleton.mp hlimb, hword]
        omega
    · rw [limbsValue_append, hlen, limbsValue_cons, hword]
      exact hval
    · exact append_ne_nil_of_right_ne_nil _ (cons_ne_nil _ _)
    · show (10 ^ 9) ^ ((limbs ++ [carry.toUInt32]).length - 1) ≤ _
      rw [length_append, length_singleton, Nat.add_sub_cancel, hlen]
      exact hbnd

/-- **A power.** As many multiplications as the power has factors, as long as the result fits. -/
theorem multiplyTimes_spec (hfactor : 0 < factor.toNat ∧ factor.toNat ≤ 10) (count : ℕ)
    {value : BigDecimalInteger} {n : ℕ} (h : Holds value n)
    (hfits : n * factor.toNat ^ count < (10 ^ 9) ^ BIG_DECIMAL_LIMBS) :
    ∃ product, multiplyTimes factor count value = some product ∧
      Holds product (n * factor.toNat ^ count) := by
  induction count generalizing value n with
  | zero => exact ⟨value, rfl, by rwa [Nat.pow_zero, Nat.mul_one]⟩
  | succ count ih =>
    have hpower : n * factor.toNat ^ (count + 1) = n * factor.toNat * factor.toNat ^ count := by
      ring
    rw [hpower] at hfits ⊢
    have hone : 1 ≤ factor.toNat ^ count := Nat.one_le_pow _ _ hfactor.1
    obtain ⟨product, hproduct, hholds⟩ := big_decimal_multiply_spec h hfactor
      (lt_of_le_of_lt (Nat.le_mul_of_pos_right _ hone) hfits)
    obtain ⟨power, hpower', hres⟩ := ih hholds hfits
    exact ⟨power, by rw [multiplyTimes, hproduct]; exact hpower', hres⟩

/-! ## Digits -/

def isDigit (c : UInt8) : Bool := 0x30 ≤ c ∧ c ≤ 0x39

/-- The number that digits spell, the highest first. -/
def digitsValue (digits : Bytes) : ℕ :=
  Nat.ofDigits 10 (digits.reverse.map fun c => c.toNat - 48)

lemma digitsValue_append (a b : Bytes) :
    digitsValue (a ++ b) = digitsValue a * 10 ^ b.length + digitsValue b := by
  simp only [digitsValue, reverse_append, map_append, Nat.ofDigits_append,
    length_map, length_reverse]
  ring

lemma digitsValue_zeros (count : ℕ) : digitsValue (List.replicate count 0x30) = 0 := by
  induction count with
  | zero => rfl
  | succ count ih =>
    rw [replicate_succ', digitsValue_append, ih]
    rfl

lemma digit_spec (value : UInt32) : isDigit (0x30 + (value % 10).toUInt8) = true ∧
      (0x30 + (value % 10).toUInt8).toNat = 48 + value.toNat % 10 := by
  have hdigit : (value % 10).toUInt8.toNat = value.toNat % 10 := by
    rw [UInt32.toNat_toUInt8, UInt32.toNat_mod]
    simp only [UInt32.reduceToNat]
    omega
  have hbyte : (0x30 + (value % 10).toUInt8).toNat = 48 + value.toNat % 10 := by
    rw [UInt8.toNat_add, hdigit]
    simp only [UInt8.reduceToNat]
    omega
  refine ⟨?_, hbyte⟩
  simp only [isDigit, decide_eq_true_eq, UInt8.le_iff_toNat_le, hbyte, UInt8.reduceToNat]
  omega

lemma reverseDigits_spec (k room : ℕ) (value : UInt32) (h : value.toNat < 10 ^ (k + 1))
    (hroom : k ≤ room) :
    digitsValue (reverseDigits (room + 1) value).reverse = value.toNat ∧
      (∀ c ∈ reverseDigits (room + 1) value, isDigit c = true) ∧
      (reverseDigits (room + 1) value).length ≤ k + 1 ∧
      0 < (reverseDigits (room + 1) value).length := by
  obtain ⟨hdigit, hbyte⟩ := digit_spec value
  have hone : digitsValue [0x30 + (value % 10).toUInt8] = value.toNat % 10 := by
    simp only [digitsValue, reverse_singleton, map_cons, map_nil, Nat.ofDigits_singleton, hbyte]
    omega
  have hquot : (value / 10).toNat = value.toNat / 10 := UInt32.toNat_div _ _
  rw [reverseDigits]
  by_cases hmore : value / 10 ≠ 0
  · rw [if_pos hmore]
    have hpos : value.toNat / 10 ≠ 0 := by
      intro hzero
      exact hmore (UInt32.toNat_inj.mp (hquot.trans hzero))
    obtain ⟨k, rfl⟩ : ∃ n, k = n + 1 := by
      refine ⟨k - 1, ?_⟩
      by_contra hne
      have hk : k = 0 := by omega
      rw [hk] at h
      omega
    obtain ⟨room, rfl⟩ : ∃ n, room = n + 1 := ⟨room - 1, by omega⟩
    obtain ⟨hval, hall, hlen, -⟩ :=
      reverseDigits_spec k room (value / 10) (by rw [hquot, Nat.pow_succ] at *; omega) (by omega)
    refine ⟨?_, fun c hc => ?_, by rw [length_cons]; omega, Nat.succ_pos _⟩
    · rw [reverse_cons, digitsValue_append, hval, hone, hquot, length_singleton]
      omega
    · rcases mem_cons.mp hc with rfl | hc
      · exact hdigit
      · exact hall c hc
  · rw [if_neg hmore]
    have hzero : value.toNat / 10 = 0 := by
      rw [← hquot, not_not.mp hmore]
      rfl
    refine ⟨?_, fun c hc => ?_, Nat.le_add_left _ _, Nat.succ_pos _⟩
    · rw [reverse_singleton, hone]
      omega
    · rw [mem_singleton.mp hc]
      exact hdigit

lemma limbDigits_spec {value : UInt32} (h : value.toNat < 10 ^ 9) (minimum_digits : ℕ)
    (hminimum : minimum_digits ≤ 9) :
    digitsValue (limbDigits value minimum_digits) = value.toNat ∧
      (∀ c ∈ limbDigits value minimum_digits, isDigit c = true) ∧
      minimum_digits ≤ (limbDigits value minimum_digits).length ∧
      0 < (limbDigits value minimum_digits).length ∧
      (limbDigits value minimum_digits).length ≤ 9 := by
  have hspec := reverseDigits_spec 8 9 value h (by decide)
  simp only [Nat.reduceAdd] at hspec
  obtain ⟨hval, hall, hlen, hpos⟩ := hspec
  have hcnt : (limbDigits value minimum_digits).length =
      (reverseDigits 10 value).length + (minimum_digits - (reverseDigits 10 value).length) := by
    simp only [limbDigits, length_reverse, length_append, length_replicate]
  refine ⟨?_, fun c hc => ?_, by omega, by omega, by omega⟩
  · rw [limbDigits, reverse_append, reverse_replicate, digitsValue_append,
      digitsValue_zeros, hval, Nat.zero_mul, Nat.zero_add]
  · rw [limbDigits, mem_reverse, mem_append] at hc
    rcases hc with hc | hc
    · exact hall c hc
    · rw [eq_of_mem_replicate hc]
      decide

lemma foldlM_append_limb_spec {capacity : ℕ} (limbs : List UInt32) (output : Bytes)
    (hlimbs : ∀ limb ∈ limbs, limb.toNat < 10 ^ 9)
    (hfits : output.length + 9 * limbs.length < capacity) :
    ∃ digits, limbs.foldlM (fun output limb => append_decimal_limb capacity output limb 9)
        output = some (output ++ digits) ∧
      digitsValue digits = limbsValue limbs.reverse ∧ (∀ c ∈ digits, isDigit c = true) ∧
      digits.length = 9 * limbs.length := by
  induction limbs generalizing output with
  | nil => exact ⟨[], by rw [append_nil]; rfl, rfl, fun _ h => (nomatch h), rfl⟩
  | cons limb limbs ih =>
    obtain ⟨hval, hall, hleast, -, hmost⟩ :=
      limbDigits_spec (hlimbs limb mem_cons_self) 9 (by decide)
    have hnine : (limbDigits limb 9).length = 9 := by omega
    rw [length_cons] at hfits
    have hstep : append_decimal_limb capacity output limb 9 =
        some (output ++ limbDigits limb 9) := by
      simp only [append_decimal_limb]
      rw [if_neg (by omega)]
    obtain ⟨digits, hrun, hrest, hdigits, hlen⟩ := ih (output ++ limbDigits limb 9)
      (forall_mem_cons.mp hlimbs).2
      (by rw [length_append, hnine]; omega)
    refine ⟨limbDigits limb 9 ++ digits, ?_, ?_, fun c hc => ?_, ?_⟩
    · rw [foldlM_cons, hstep]
      show limbs.foldlM _ (output ++ limbDigits limb 9) = _
      rw [hrun, append_assoc]
    · rw [digitsValue_append, hval, hrest, hlen, reverse_cons, limbsValue_append,
        length_reverse, ← pow_mul, limbsValue_cons]
      show _ = _ + _ * (limb.toNat + 10 ^ 9 * 0)
      ring
    · rcases mem_append.mp hc with hc | hc
      · exact hall c hc
      · exact hdigits c hc
    · rw [length_append, hnine, hlen, length_cons]
      omega

/-- **The digits of the big integer.** They are its decimal digits, and there are no more than nine
for each limb. -/
theorem big_decimal_to_digits_spec {value : BigDecimalInteger} {n capacity : ℕ}
    (h : Holds value n) (hfits : 9 * value.limb.length < capacity) :
    ∃ digits, big_decimal_to_digits value capacity = some digits ∧ digitsValue digits = n ∧
      (∀ c ∈ digits, isDigit c = true) ∧ digits ≠ [] ∧
      digits.length ≤ 9 * value.limb.length := by
  have hlen := @length_reverse _ value.limb
  have hmem : ∀ limb ∈ value.limb.reverse, limb.toNat < 10 ^ 9 :=
    fun limb hlimb => h.limb_lt limb (mem_reverse.mp hlimb)
  have hsum : limbsValue value.limb.reverse.reverse = n := by
    rw [reverse_reverse]
    exact h.value_eq
  unfold big_decimal_to_digits
  cases hreverse : value.limb.reverse with
  | nil => exact absurd (reverse_eq_nil_iff.mp hreverse) h.nonempty
  | cons top below =>
    rw [hreverse] at hlen hmem hsum
    rw [length_cons] at hlen
    obtain ⟨hval, hall, -, hpos, hmost⟩ :=
      limbDigits_spec (hmem top mem_cons_self) 1 (by decide)
    have hstep : append_decimal_limb capacity [] top 1 = some (limbDigits top 1) := by
      simp only [append_decimal_limb, nil_append, length_nil]
      rw [if_neg (by omega)]
    obtain ⟨digits, hrun, hrest, hdigits, hcnt⟩ := @foldlM_append_limb_spec capacity below
      (limbDigits top 1) (forall_mem_cons.mp hmem).2 (by omega)
    refine ⟨limbDigits top 1 ++ digits, ?_, ?_, fun c hc => ?_, ?_, ?_⟩
    · simp only
      rw [if_neg (by omega), hstep]
      exact hrun
    · rw [← hsum, digitsValue_append, hval, hrest, hcnt, reverse_cons, limbsValue_append,
        length_reverse, ← pow_mul, limbsValue_cons]
      show _ = _ + _ * (top.toNat + 10 ^ 9 * 0)
      ring
    · rcases mem_append.mp hc with hc | hc
      · exact hall c hc
      · exact hdigits c hc
    · exact append_ne_nil_of_left_ne_nil (length_pos_iff.mp hpos) _
    · rw [length_append, hcnt]
      omega

/-! ## The decimal point -/

/-- **Dropped zeros.** The number only loses factors of ten, one for each place. -/
theorem trimZeros_spec (decimal_places : ℕ) (digits : Bytes)
    (hdigits : ∀ c ∈ digits, isDigit c = true) (hpos : digitsValue digits ≠ 0) :
    digitsValue digits * 10 ^ (trimZeros decimal_places digits).2 =
        digitsValue (trimZeros decimal_places digits).1 * 10 ^ decimal_places ∧
      (∀ c ∈ (trimZeros decimal_places digits).1, isDigit c = true) ∧
      (trimZeros decimal_places digits).1 ≠ [] ∧
      (trimZeros decimal_places digits).1.length ≤ digits.length ∧
      (trimZeros decimal_places digits).2 ≤ decimal_places ∧
      ((trimZeros decimal_places digits).2 ≠ 0 →
        (trimZeros decimal_places digits).1.getLast? ≠ some 0x30) := by
  have hne : digits ≠ [] := by
    rintro rfl
    exact hpos rfl
  induction decimal_places generalizing digits with
  | zero => exact ⟨rfl, hdigits, hne, le_rfl, le_rfl, fun h => absurd rfl h⟩
  | succ decimal_places ih =>
    rw [trimZeros]
    by_cases hlast : digits.getLast? = some 0x30
    · rw [if_pos hlast]
      have hspl : digits.dropLast ++ [0x30] = digits :=
        dropLast_append_getLast? _ hlast
      have hval : digitsValue digits = digitsValue digits.dropLast * 10 := by
        rw [← hspl, digitsValue_append, dropLast_concat]
        rfl
      have hpos' : digitsValue digits.dropLast ≠ 0 := by
        intro hzero
        rw [hval, hzero] at hpos
        exact hpos rfl
      have hne' : digits.dropLast ≠ [] := by
        intro hnil
        rw [hnil] at hpos'
        exact hpos' rfl
      obtain ⟨heq, hall, hne0, hlen, hplaces, hno⟩ :=
        ih digits.dropLast (fun c hc => hdigits c (dropLast_subset _ hc)) hpos' hne'
      have hshorter : digits.dropLast.length ≤ digits.length := by
        rw [length_dropLast]
        omega
      refine ⟨?_, hall, hne0, hlen.trans hshorter, by omega, hno⟩
      rw [hval, Nat.mul_right_comm, heq]
      ring
    · rw [if_neg hlast]
      exact ⟨rfl, hdigits, hne, le_rfl, le_rfl, fun _ => hlast⟩

/-! ## Reading a decimal -/

variable (text : Bytes)

/-- The number of a text without sign: digits, or digits on both sides of a point. -/
def readMagnitude : Option ℚ :=
  let integer := text.takeWhile isDigit
  match text.dropWhile isDigit with
  | [] => if integer = [] then none else some (digitsValue integer : ℚ)
  | point :: fraction =>
    if point = 0x2e ∧ integer ≠ [] ∧ fraction ≠ [] ∧ fraction.all isDigit = true then
      some ((digitsValue (integer ++ fraction) : ℚ) / 10 ^ fraction.length)
    else none

def readDecimal : Option (Bool × ℚ) :=
  match text with
  | 0x2d :: text => (readMagnitude text).map fun magnitude => (true, magnitude)
  | text => (readMagnitude text).map fun magnitude => (false, magnitude)

variable {digits : Bytes}

lemma readMagnitude_digits (h : ∀ c ∈ digits, isDigit c = true) (hne : digits ≠ []) :
    readMagnitude digits = some (digitsValue digits : ℚ) := by
  have htake : digits.takeWhile isDigit = digits := takeWhile_eq_self_iff.mpr h
  have hdrop : digits.dropWhile isDigit = [] := dropWhile_eq_nil_iff.mpr h
  rw [readMagnitude, hdrop, htake]
  exact if_neg hne

lemma readMagnitude_point {integer fraction : Bytes}
    (hinteger : ∀ c ∈ integer, isDigit c = true) (hi : integer ≠ [])
    (hfrac : ∀ c ∈ fraction, isDigit c = true) (hf : fraction ≠ []) :
    readMagnitude (integer ++ 0x2e :: fraction) =
      some ((digitsValue (integer ++ fraction) : ℚ) / 10 ^ fraction.length) := by
  have hpoint : ¬ isDigit 0x2e = true := by decide
  have htake : (integer ++ 0x2e :: fraction).takeWhile isDigit = integer := by
    rw [takeWhile_append_of_pos hinteger, takeWhile_cons_of_neg hpoint, append_nil]
  have hdrop : (integer ++ 0x2e :: fraction).dropWhile isDigit = 0x2e :: fraction := by
    rw [dropWhile_append_of_pos hinteger, dropWhile_cons_of_neg hpoint]
  rw [readMagnitude, hdrop, htake]
  exact if_pos ⟨rfl, hi, hf, all_eq_true.mpr hfrac⟩

def NoTrailingZero : Prop := 0x2e ∈ text → text.getLast? ≠ some 0x30

variable (sign : Bool)

lemma readDecimal_sign {first : UInt8} {rest : Bytes} (hfst : isDigit first = true) :
    readDecimal ((if sign then asciiBytes "-" else []) ++ first :: rest) =
      (readMagnitude (first :: rest)).map fun magnitude => (sign, magnitude) := by
  cases sign with
  | true => rfl
  | false =>
    have hne : first ≠ 0x2d := by
      rintro rfl
      exact absurd hfst (by decide)
    show readDecimal (first :: rest) = _
    unfold readDecimal
    split
    · rename_i heq
      exact absurd (cons.inj heq).1 hne
    · rfl

lemma length_sign : (if sign then asciiBytes "-" else []).length = if sign then 1 else 0 := by
  cases sign <;> rfl

lemma noTrailingZero_of_digits (hdigits : ∀ c ∈ digits, isDigit c = true) :
    NoTrailingZero ((if sign then asciiBytes "-" else []) ++ digits) := by
  intro hpoint
  have hsign : (0x2e : UInt8) ∉ (if sign then asciiBytes "-" else []) := by
    cases sign <;> decide
  rcases mem_append.mp hpoint with hpoint | hpoint
  · exact absurd hpoint hsign
  · exact absurd (hdigits _ hpoint) (by decide)

lemma noTrailingZero_append {front : Bytes} (hne : digits ≠ [])
    (hlast : digits.getLast? ≠ some 0x30) : NoTrailingZero (front ++ digits) := by
  intro _
  rwa [getLast?_append_of_ne_nil _ hne]

/-- **The layout.** With the sign in front, the text is read back as the digits with the point put
back by their places. -/
theorem layoutDigits_spec {decimal_places : ℕ} (hdigits : ∀ c ∈ digits, isDigit c = true)
    (hne : digits ≠ []) (hlast : decimal_places ≠ 0 → digits.getLast? ≠ some 0x30)
    (hfits : digits.length + 2 < UNITY_YAML_FLOAT32_TEXT_CAPACITY)
    (hplaces : decimal_places + 3 < UNITY_YAML_FLOAT32_TEXT_CAPACITY) :
    ∃ text, layoutDigits sign digits decimal_places = some text ∧
      text.length < UNITY_YAML_FLOAT32_TEXT_CAPACITY ∧
      readDecimal text = some (sign, (digitsValue digits : ℚ) / 10 ^ decimal_places) ∧
      NoTrailingZero text := by
  have hsign : (if sign then 1 else 0) ≤ 1 := by cases sign <;> decide
  have hzero : isDigit 0x30 = true := by decide
  unfold layoutDigits
  simp only
  by_cases hnone : decimal_places = 0
  · -- an integer
    rw [hnone, if_pos rfl, if_neg (by omega), if_pos rfl]
    obtain ⟨first, rest, hcons⟩ := exists_cons_of_ne_nil hne
    refine ⟨_, rfl, by rw [length_append, length_sign]; omega, ?_,
      noTrailingZero_of_digits sign hdigits⟩
    have hread := readMagnitude_digits hdigits hne
    rw [hcons] at hread ⊢
    rw [readDecimal_sign sign (hdigits first (hcons ▸ mem_cons_self)), hread, pow_zero, div_one]
    rfl
  have hlast := hlast hnone
  rw [if_neg hnone, if_neg hnone]
  by_cases hsmall : digits.length ≤ decimal_places
  · -- a number below one, with zeros between the point and the digits
    rw [if_pos hsmall, if_neg (by omega), if_pos hsmall]
    have hbody : (if sign then asciiBytes "-" else []) ++ asciiBytes "0." ++
        replicate (decimal_places - digits.length) 0x30 ++ digits =
        (if sign then asciiBytes "-" else []) ++ 0x30 :: ([] ++ 0x2e ::
          (replicate (decimal_places - digits.length) 0x30 ++ digits)) := by
      rw [append_assoc, append_assoc]
      rfl
    have hfrac : ∀ c ∈ replicate (decimal_places - digits.length) 0x30 ++ digits,
        isDigit c = true := by
      intro c hc
      rcases mem_append.mp hc with hc | hc
      · rw [eq_of_mem_replicate hc]
        exact hzero
      · exact hdigits c hc
    have hlen : (replicate (decimal_places - digits.length) 0x30 ++ digits).length =
        decimal_places := by
      rw [length_append, length_replicate]
      omega
    have hread := @readMagnitude_point [0x30] _ (fun c hc => mem_singleton.mp hc ▸ hzero)
      (cons_ne_nil _ _) hfrac (append_ne_nil_of_right_ne_nil _ hne)
    refine ⟨_, rfl, ?_, ?_, noTrailingZero_append hne hlast⟩
    · simp only [length_append, length_replicate, length_sign]
      have htwo : (asciiBytes "0.").length = 2 := rfl
      omega
    · rw [hbody, readDecimal_sign sign hzero]
      show Option.map _ (readMagnitude ([0x30] ++ 0x2e ::
        (replicate (decimal_places - digits.length) 0x30 ++ digits))) = _
      rw [hread, hlen, digitsValue_append, digitsValue_append, digitsValue_zeros,
        Nat.zero_mul, Nat.zero_add]
      have hfront : digitsValue [0x30] = 0 := rfl
      rw [hfront, Nat.zero_mul, Nat.zero_add]
      rfl
  · -- digits on both sides of the point
    rw [if_neg hsmall, if_neg (by omega), if_neg hsmall]
    have hcnt : (digits.drop (digits.length - decimal_places)).length = decimal_places := by
      rw [length_drop]
      omega
    have htake : (digits.drop (digits.length - decimal_places)).take decimal_places =
        digits.drop (digits.length - decimal_places) := take_of_length_le (by omega)
    have hinteger : digits.take (digits.length - decimal_places) ≠ [] := by
      refine length_pos_iff.mp ?_
      rw [length_take]
      omega
    have hfrac : digits.drop (digits.length - decimal_places) ≠ [] := by
      refine length_pos_iff.mp ?_
      omega
    have hread := readMagnitude_point (fun c hc => hdigits c (mem_of_mem_take hc)) hinteger
      (fun c hc => hdigits c (mem_of_mem_drop hc)) hfrac
    rw [take_append_drop, hcnt] at hread
    obtain ⟨first, rest, hcons⟩ := exists_cons_of_ne_nil hinteger
    have hfst : isDigit first = true := by
      have hmem : first ∈ digits.take (digits.length - decimal_places) := by
        rw [hcons]
        exact mem_cons_self
      exact hdigits first (mem_of_mem_take hmem)
    rw [htake]
    refine ⟨_, rfl, ?_, ?_, noTrailingZero_append hfrac ?_⟩
    · simp only [length_append, length_take, hcnt, length_sign]
      have hone : (asciiBytes ".").length = 1 := rfl
      omega
    · have hbody : (if sign then asciiBytes "-" else []) ++
          digits.take (digits.length - decimal_places) ++ asciiBytes "." ++
          digits.drop (digits.length - decimal_places) =
          (if sign then asciiBytes "-" else []) ++
            (digits.take (digits.length - decimal_places) ++ 0x2e ::
              digits.drop (digits.length - decimal_places)) := by
        rw [append_assoc, append_assoc]
        rfl
      rw [hbody]
      rw [hcons] at hread ⊢
      rw [cons_append] at hread ⊢
      rw [readDecimal_sign sign hfst, hread]
      rfl
    · have hsuff := getLast?_append_of_ne_nil (digits.take (digits.length - decimal_places)) hfrac
      rw [take_append_drop] at hsuff
      rwa [← hsuff]

/-! ## The fields of a pattern -/

variable (bits : UInt32)

lemma exponent_toNat : (exponent bits).toNat = bits.toNat / 2 ^ 23 % 256 := by
  rw [exponent, UInt32.toNat_and, UInt32.toNat_shiftRight]
  exact (Nat.and_two_pow_sub_one_eq_mod _ 8).trans (by rw [Nat.shiftRight_eq_div_pow]; rfl)

lemma fraction_toNat : (fraction bits).toNat = bits.toNat % 2 ^ 23 := by
  rw [fraction, UInt32.toNat_and]
  exact Nat.and_two_pow_sub_one_eq_mod _ 23

lemma negative_iff : negative bits = true ↔ 2 ^ 31 ≤ bits.toNat := by
  have hlt := bits.toNat_lt
  have hand : (bits &&& 0x80000000).toNat = (bits.toNat.testBit 31).toNat * 2 ^ 31 := by
    rw [UInt32.toNat_and]
    exact Nat.and_two_pow _ 31
  have hbit : bits.toNat.testBit 31 = decide (bits.toNat / 2 ^ 31 % 2 = 1) :=
    Nat.testBit_eq_decide_div_mod_eq
  rw [negative, decide_eq_true_eq, ne_eq, ← UInt32.toNat_inj, hand, hbit]
  by_cases hhigh : bits.toNat / 2 ^ 31 % 2 = 1
  · rw [decide_eq_true hhigh]
    exact iff_of_true (by decide) (by omega)
  · rw [decide_eq_false hhigh]
    exact iff_of_false (by decide) (by omega)

lemma significand_toNat : (significand bits).toNat =
      (if exponent bits = 0 then 0 else 2 ^ 23) + (fraction bits).toNat := by
  have hlt : (fraction bits).toNat < 2 ^ 23 := by
    rw [fraction_toNat]
    exact Nat.mod_lt _ (by decide)
  unfold significand
  split
  · rw [Nat.zero_add]
  · rw [UInt32.toNat_or]
    have hor := Nat.two_pow_add_eq_or_of_lt hlt 1
    rw [Nat.mul_one] at hor
    exact hor.symm

lemma exponent_zero_iff : exponent bits = 0 ↔ (exponent bits).toNat = 0 := by
  rw [← UInt32.toNat_inj]
  rfl

/-! ## The value of a pattern -/

def IsFinite : Prop := exponent bits ≠ 0xff

/-- A significand times a power of two. -/
def magnitude : ℚ := (significand bits).toNat * 2 ^ exponent_two bits

/-- The magnitude in units of the least subnormal. -/
def scaled : ℕ := (significand bits).toNat * 2 ^ ((exponent bits).toNat - 1)

lemma magnitude_eq : magnitude bits = scaled bits / 2 ^ 149 := by
  have hexpo : exponent_two bits = ((exponent bits).toNat - 1 : ℕ) - (149 : ℕ) := by
    unfold exponent_two
    split
    · rename_i hzero
      rw [hzero]
      rfl
    · rename_i hne
      have hpos : (exponent bits).toNat ≠ 0 := fun h => hne ((exponent_zero_iff bits).mpr h)
      omega
  rw [magnitude, hexpo, zpow_sub₀ two_ne_zero, zpow_natCast, zpow_natCast, scaled]
  push_cast
  ring

/-- Larger exponents have larger magnitudes, and the fraction orders those of one exponent. -/
theorem scaled_lt {bits other : UInt32} (h : (exponent bits).toNat < (exponent other).toNat) :
    scaled bits < scaled other := by
  have hf : (fraction bits).toNat < 2 ^ 23 := by
    rw [fraction_toNat]
    exact Nat.mod_lt _ (by decide)
  have hother : ¬ exponent other = 0 := by
    rw [exponent_zero_iff]
    omega
  have hpow : 2 ^ (exponent bits).toNat ≤ 2 ^ ((exponent other).toNat - 1) :=
    Nat.pow_le_pow_right (by decide) (by omega)
  have hbelow : scaled bits < 2 ^ 23 * 2 ^ (exponent bits).toNat := by
    rw [scaled, significand_toNat]
    by_cases hzero : exponent bits = 0
    · rw [if_pos hzero, (exponent_zero_iff bits).mp hzero]
      omega
    · rw [if_neg hzero]
      have hpos : (exponent bits).toNat ≠ 0 := fun h => hzero ((exponent_zero_iff bits).mpr h)
      obtain ⟨e, he⟩ : ∃ e, (exponent bits).toNat = e + 1 :=
        ⟨(exponent bits).toNat - 1, by omega⟩
      have hstep : 2 ^ 23 * 2 ^ (e + 1) = 2 ^ 24 * 2 ^ e := by ring
      rw [he, hstep, Nat.add_sub_cancel]
      exact Nat.mul_lt_mul_of_pos_right (by omega) (Nat.two_pow_pos e)
  calc scaled bits < 2 ^ 23 * 2 ^ (exponent bits).toNat := hbelow
    _ ≤ 2 ^ 23 * 2 ^ ((exponent other).toNat - 1) := Nat.mul_le_mul_left _ hpow
    _ ≤ scaled other := by
      rw [scaled, significand_toNat, if_neg hother]
      exact Nat.mul_le_mul_right _ (Nat.le_add_right _ _)

/-- **The value is the pattern.** Its sign and its magnitude give the bits back. -/
theorem eq_of_magnitude_eq {bits other : UInt32} (hsign : negative bits = negative other)
    (hmag : magnitude bits = magnitude other) : bits = other := by
  have hscaled : scaled bits = scaled other := by
    rw [magnitude_eq, magnitude_eq, div_left_inj' (by positivity)] at hmag
    exact_mod_cast hmag
  have hexpo : (exponent bits).toNat = (exponent other).toNat := by
    rcases Nat.lt_trichotomy (exponent bits).toNat (exponent other).toNat with h | h | h
    · exact absurd hscaled (scaled_lt h).ne
    · exact h
    · exact absurd hscaled (scaled_lt h).ne'
  have hzero : exponent bits = 0 ↔ exponent other = 0 := by
    rw [exponent_zero_iff, exponent_zero_iff, hexpo]
  have hfrac : (fraction bits).toNat = (fraction other).toNat := by
    rw [scaled, scaled, hexpo] at hscaled
    have hsig := Nat.eq_of_mul_eq_mul_right (Nat.two_pow_pos _) hscaled
    rw [significand_toNat, significand_toNat] at hsig
    simp only [hzero] at hsig
    omega
  rw [exponent_toNat, exponent_toNat] at hexpo
  rw [fraction_toNat, fraction_toNat] at hfrac
  have hhigh : 2 ^ 31 ≤ bits.toNat ↔ 2 ^ 31 ≤ other.toNat := by
    rw [← negative_iff, ← negative_iff, hsign]
  have hlt := bits.toNat_lt
  have hlt' := other.toNat_lt
  refine UInt32.toNat_inj.mp ?_
  omega

/-! ## The text of a pattern -/

/-- A number below a power of the base takes no more limbs than the power. -/
theorem Holds.length_le {value : BigDecimalInteger} {n k : ℕ} (h : Holds value n)
    (hn : n < (10 ^ 9) ^ k) : value.limb.length ≤ k := by
  have hlt := (Nat.pow_lt_pow_iff_right (by decide)).mp (lt_of_le_of_lt h.least hn)
  omega

lemma significand_lt : (significand bits).toNat < 2 ^ 24 := by
  have hf := fraction_toNat bits
  rw [significand_toNat]
  split
  · omega
  · omega

lemma holds_significand {bits : UInt32} (h : (significand bits).toNat ≠ 0) :
    Holds ⟨[significand bits]⟩ (significand bits).toNat where
  limb_lt limb hlimb := by
    have hlt := significand_lt bits
    rw [mem_singleton.mp hlimb]
    omega
  value_eq := by
    rw [limbsValue_cons]
    show _ + 10 ^ 9 * 0 = _
    omega
  nonempty := cons_ne_nil _ _
  least := Nat.one_le_iff_ne_zero.mpr h

lemma exponent_two_bounds {bits : UInt32} (hfinite : IsFinite bits) :
    -149 ≤ exponent_two bits ∧ exponent_two bits ≤ 104 := by
  have hmax : (exponent bits).toNat ≠ 255 := fun h => hfinite (UInt32.toNat_inj.mp h)
  have hlt : (exponent bits).toNat < 256 := by
    rw [exponent_toNat]
    exact Nat.mod_lt _ (by decide)
  unfold exponent_two
  split
  · omega
  · rename_i hzero
    have hpos : (exponent bits).toNat ≠ 0 := fun h => hzero ((exponent_zero_iff bits).mpr h)
    omega

/-- The number whose digits are written, and its decimal places: thirteen limbs are enough. -/
theorem integer_of_significand {bits : UInt32} (hfinite : IsFinite bits)
    (hne : (significand bits).toNat ≠ 0) :
    ∃ integer n, scaledInteger bits = some integer ∧ Holds integer n ∧ n < (10 ^ 9) ^ 13 ∧
      n ≠ 0 ∧ (n : ℚ) / 10 ^ decimalPlaces bits = magnitude bits := by
  have hholds := holds_significand hne
  have hsig := significand_lt bits
  have hbnds := exponent_two_bounds hfinite
  have hcap : (10 ^ 9) ^ 13 ≤ (10 ^ 9) ^ BIG_DECIMAL_LIMBS :=
    Nat.pow_le_pow_right (by decide) (by decide)
  unfold scaledInteger decimalPlaces
  by_cases hsign : 0 ≤ exponent_two bits
  · rw [if_pos hsign]
    obtain ⟨e, he⟩ := Int.eq_ofNat_of_zero_le hsign
    have hpower : 2 ^ e ≤ 2 ^ 104 := Nat.pow_le_pow_right (by decide) (by omega)
    have hfits : (significand bits).toNat * 2 ^ e < (10 ^ 9) ^ 13 := by
      calc (significand bits).toNat * 2 ^ e ≤ 2 ^ 24 * 2 ^ 104 :=
            Nat.mul_le_mul hsig.le hpower
        _ < (10 ^ 9) ^ 13 := by norm_num
    obtain ⟨integer, hrun, hres⟩ :=
      @multiplyTimes_spec 2 (by decide) e _ _ hholds (lt_of_lt_of_le hfits hcap)
    refine ⟨integer, _, ?_, hres, hfits, ?_, ?_⟩
    · rw [he]
      exact hrun
    · exact Nat.mul_ne_zero hne (Nat.two_pow_pos e).ne'
    · have hplaces : (-exponent_two bits).toNat = 0 := by omega
      have htwo : (2 : UInt32).toNat = 2 := rfl
      rw [hplaces, pow_zero, div_one, magnitude, he, htwo]
      push_cast
      rw [zpow_natCast]
  · rw [if_neg hsign]
    obtain ⟨k, hk⟩ : ∃ k : ℕ, exponent_two bits = -(k : ℤ) :=
      ⟨(-exponent_two bits).toNat, by omega⟩
    have hpower : 5 ^ k ≤ 5 ^ 149 := Nat.pow_le_pow_right (by decide) (by omega)
    have hfits : (significand bits).toNat * 5 ^ k < (10 ^ 9) ^ 13 := by
      calc (significand bits).toNat * 5 ^ k ≤ 2 ^ 24 * 5 ^ 149 :=
            Nat.mul_le_mul hsig.le hpower
        _ < (10 ^ 9) ^ 13 := by norm_num
    have hplaces : (-exponent_two bits).toNat = k := by omega
    obtain ⟨integer, hrun, hres⟩ :=
      @multiplyTimes_spec 5 (by decide) k _ _ hholds (lt_of_lt_of_le hfits hcap)
    refine ⟨integer, _, ?_, hres, hfits, ?_, ?_⟩
    · rw [hplaces]
      exact hrun
    · exact Nat.mul_ne_zero hne (Nat.pow_pos (by decide)).ne'
    · -- five to the places over ten to the places is what the point takes off
      have hfive : (5 : UInt32).toNat = 5 := rfl
      have hten : (10 : ℚ) ^ k = 2 ^ k * 5 ^ k := by
        rw [← mul_pow]
        norm_num
      rw [hplaces, magnitude, hk, hfive, zpow_neg, zpow_natCast, hten]
      push_cast
      field_simp

lemma format_float32_zero {bits : UInt32} (h : exponent bits = 0 ∧ fraction bits = 0) :
    ∃ text, unity_yaml_format_float32 bits = some text ∧
      text.length < UNITY_YAML_FLOAT32_TEXT_CAPACITY ∧
      readDecimal text = some (negative bits, magnitude bits) ∧ NoTrailingZero text := by
  have hmag : magnitude bits = 0 := by
    rw [magnitude, significand, if_pos h.1, h.2]
    norm_num
  rw [hmag, unity_yaml_format_float32, if_neg (by rw [h.1]; decide), if_pos h]
  cases negative bits with
  | true => exact ⟨_, rfl, by decide, by decide, by unfold NoTrailingZero; decide⟩
  | false => exact ⟨_, rfl, by decide, by decide, by unfold NoTrailingZero; decide⟩

lemma format_float32_nonzero {bits : UInt32} (hfinite : IsFinite bits)
    (h : ¬ (exponent bits = 0 ∧ fraction bits = 0)) :
    ∃ text, unity_yaml_format_float32 bits = some text ∧
      text.length < UNITY_YAML_FLOAT32_TEXT_CAPACITY ∧
      readDecimal text = some (negative bits, magnitude bits) ∧ NoTrailingZero text := by
  have hne : (significand bits).toNat ≠ 0 := by
    intro hzero
    rw [significand_toNat] at hzero
    split at hzero
    · rename_i hexpo
      refine h ⟨hexpo, UInt32.toNat_inj.mp ?_⟩
      show (fraction bits).toNat = 0
      omega
    · omega
  obtain ⟨integer, n, hrun, hholds, hlt, hn, hval⟩ := integer_of_significand hfinite hne
  have hlen := hholds.length_le hlt
  have hcap : UNITY_YAML_FLOAT32_TEXT_CAPACITY = 192 := rfl
  obtain ⟨digits, hdigits, hspell, hall, -, hcnt⟩ :=
    @big_decimal_to_digits_spec integer n UNITY_YAML_FLOAT32_TEXT_CAPACITY hholds (by omega)
  have hpos : digitsValue digits ≠ 0 := by rwa [hspell]
  obtain ⟨htrim, hall', hne', hcnt', hplaces, hlast⟩ :=
    trimZeros_spec (decimalPlaces bits) digits hall hpos
  have hleast : decimalPlaces bits ≤ 149 := by
    have hbnds := exponent_two_bounds hfinite
    unfold decimalPlaces
    omega
  obtain ⟨text, htext, hsize, hread, hzeros⟩ := layoutDigits_spec (negative bits) hall' hne' hlast
    (by omega) (by omega)
  refine ⟨text, ?_, hsize, ?_, hzeros⟩
  · rw [unity_yaml_format_float32, if_neg hfinite, if_neg h]
    show (scaledInteger bits).bind _ = _
    rw [hrun]
    show (big_decimal_to_digits integer UNITY_YAML_FLOAT32_TEXT_CAPACITY).bind _ = _
    rw [hdigits]
    exact htext
  · rw [hread, ← hval, ← hspell]
    refine congrArg (fun value => some (negative bits, value)) ?_
    rw [div_eq_div_iff (by positivity) (by positivity)]
    exact_mod_cast htrim.symm

/-- **Exact text.** Every finite pattern has a text that fits, reads back as exactly its sign and
its magnitude, and has no fraction that ends in a zero. The text and the value are those of no other
finite pattern. -/
theorem float32_text_exact (bits : UInt32) (hfinite : IsFinite bits) :
    ∃ text, unity_yaml_format_float32 bits = some text ∧
      text.length < UNITY_YAML_FLOAT32_TEXT_CAPACITY ∧
      readDecimal text = some (negative bits, magnitude bits) ∧ NoTrailingZero text ∧
      (∀ other, IsFinite other → unity_yaml_format_float32 other = some text → other = bits) ∧
      ∀ other, IsFinite other → readDecimal text = some (negative other, magnitude other) →
        other = bits := by
  have hformat (other : UInt32) (hother : IsFinite other) :
      ∃ text, unity_yaml_format_float32 other = some text ∧
        text.length < UNITY_YAML_FLOAT32_TEXT_CAPACITY ∧
        readDecimal text = some (negative other, magnitude other) ∧ NoTrailingZero text := by
    by_cases hzero : exponent other = 0 ∧ fraction other = 0
    · exact format_float32_zero hzero
    · exact format_float32_nonzero hother hzero
  obtain ⟨text, htext, hsize, hread, hzeros⟩ := hformat bits hfinite
  have hvalue (other : UInt32)
      (hother : readDecimal text = some (negative other, magnitude other)) : other = bits := by
    rw [hread] at hother
    obtain ⟨hsign, hmagnitude⟩ := Prod.mk.inj (some.inj hother)
    exact eq_of_magnitude_eq hsign.symm hmagnitude.symm
  refine ⟨text, htext, hsize, hread, hzeros, fun other hother hsame => ?_,
    fun other _ hsame => hvalue other hsame⟩
  obtain ⟨text', htext', -, hread', -⟩ := hformat other hother
  rw [hsame] at htext'
  rw [← some.inj htext'] at hread'
  exact hvalue other hread'

/-- An eighth, whose text is that of no other pattern. -/
theorem float32_text_exact_eighth :
    unity_yaml_format_float32 0x3e000000 = some (asciiBytes "0.125") ∧ ∀ other, IsFinite other →
        unity_yaml_format_float32 other = some (asciiBytes "0.125") → other = 0x3e000000 := by
  obtain ⟨text, htext, -, -, -, hother, -⟩ :=
    float32_text_exact 0x3e000000 (by unfold IsFinite; decide)
  have hrun : unity_yaml_format_float32 0x3e000000 = some (asciiBytes "0.125") := by
    decide +kernel
  rw [← some.inj (htext.symm.trans hrun)]
  exact ⟨htext, hother⟩

end UnityYaml

end DXBCSandbox
