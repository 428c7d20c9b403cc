/-
The text of a reflection record is canonical (`src/compiler/unity_compiler_client.c`).

Each part of a text is determined by what it says: a number by its digits, since none is leading
zero or sign, and the record by its prefix, its name and its values. What is accepted is what is
written again.
-/
import DXBCSandbox.Common.VariantKeyCodec
import DXBCSandbox.Compiler.ReflectionRecord
import DXBCSandbox.Lib.Decimal
import DXBCSandbox.Lib.KeyedList

namespace DXBCSandbox

open List Option Prod

open CompileAuthority (isspace)

namespace ReflectionRecord

/-! ## Digits -/

variable {c : UInt8}

lemma isdigit_iff : isdigit c = true ↔ 48 ≤ c.toNat ∧ c.toNat ≤ 57 := by
  simp only [isdigit, decide_eq_true_eq, UInt8.le_iff_toNat_le, UInt8.reduceToNat]

/-- The limits of a signed 32-bit number. -/
def IsLimit (limit : UInt64) : Prop := limit = 2147483647 ∨ limit = 2147483648

variable {limit : UInt64}

lemma IsLimit.bounds (h : IsLimit limit) :
    2147483647 ≤ limit.toNat ∧ limit.toNat ≤ 2147483648 := by
  rcases h with rfl | rfl <;> decide

/-- **One digit.** It is taken exactly when the number stays within the limit, and then nothing has
wrapped around. -/
theorem push_digit_spec {magnitude : UInt64} (hlimit : IsLimit limit) (hc : isdigit c = true)
    (hle : magnitude.toNat ≤ limit.toNat) :
    (magnitude.toNat * 10 + (c.toNat - 48) ≤ limit.toNat ∧ ∃ next,
        push_digit limit magnitude c = some next ∧
        next.toNat = magnitude.toNat * 10 + (c.toNat - 48)) ∨
      (limit.toNat < magnitude.toNat * 10 + (c.toNat - 48) ∧
        push_digit limit magnitude c = none) := by
  obtain ⟨hlow, hhigh⟩ := hlimit.bounds
  rw [isdigit_iff] at hc
  have hdigit : (c - 48).toUInt64.toNat = c.toNat - 48 := by
    rw [UInt8.toNat_toUInt64, UInt8.toNat_sub_of_le _ _ (by
      rw [UInt8.le_iff_toNat_le]
      exact hc.1)]
    rfl
  have hsub : (limit - (c - 48).toUInt64).toNat = limit.toNat - (c.toNat - 48) := by
    rw [UInt64.toNat_sub_of_le _ _ (by
      rw [UInt64.le_iff_toNat_le, hdigit]
      omega), hdigit]
  have hquot : ((limit - (c - 48).toUInt64) / 10).toNat = (limit.toNat - (c.toNat - 48)) / 10 := by
    rw [UInt64.toNat_div, hsub]
    rfl
  unfold push_digit
  dsimp only
  by_cases hroom : magnitude.toNat * 10 + (c.toNat - 48) ≤ limit.toNat
  · refine .inl ⟨hroom, _, if_neg ?_, ?_⟩
    · rw [UInt64.lt_iff_toNat_lt, hquot]
      omega
    · rw [UInt64.toNat_add, UInt64.toNat_mul, hdigit]
      simp only [UInt64.reduceToNat]
      omega
  · refine .inr ⟨by omega, if_pos ?_⟩
    rw [UInt64.lt_iff_toNat_lt, hquot]
    omega

def appendDigits (n : ℕ) (digits : Bytes) : ℕ :=
  digits.foldl (fun n c => n * 10 + (c.toNat - 48)) n

lemma le_appendDigits (n : ℕ) (digits : Bytes) : n ≤ appendDigits n digits := by
  induction digits generalizing n with
  | nil => exact Nat.le_refl n
  | cons c digits ih =>
    have hrest := ih (n * 10 + (c.toNat - 48))
    show n ≤ appendDigits (n * 10 + (c.toNat - 48)) digits
    omega

/-- **The loop over the digits.** It reads all of them when the number stays within the limit. -/
theorem scan_digits_spec (hlimit : IsLimit limit) (text : Bytes) {magnitude : UInt64}
    (hle : magnitude.toNat ≤ limit.toNat) :
    (appendDigits magnitude.toNat (text.takeWhile isdigit) ≤ limit.toNat ∧ ∃ number,
        scan_digits limit text magnitude = some (number, text.dropWhile isdigit) ∧
        number.toNat = appendDigits magnitude.toNat (text.takeWhile isdigit)) ∨
      (limit.toNat < appendDigits magnitude.toNat (text.takeWhile isdigit) ∧
        scan_digits limit text magnitude = none) := by
  induction text generalizing magnitude with
  | nil => exact .inl ⟨hle, magnitude, rfl, rfl⟩
  | cons c text ih =>
    rw [scan_digits]
    by_cases hc : isdigit c = true
    · rw [if_neg (not_not.mpr hc), takeWhile_cons_of_pos hc, dropWhile_cons_of_pos hc]
      rcases push_digit_spec hlimit hc hle with ⟨hroom, next, hnext, hval⟩ | ⟨hover, hnone⟩
      · rw [hnext]
        have hrest := @ih next (by omega)
        rw [hval] at hrest
        exact hrest
      · refine .inr ⟨hover.trans_le (le_appendDigits _ _), ?_⟩
        rw [hnone]
        rfl
    · rw [if_pos hc, takeWhile_cons_of_neg hc, dropWhile_cons_of_neg hc]
      exact .inl ⟨hle, magnitude, rfl, rfl⟩

/-! ## Numbers -/

variable (value : Int32)

def i32Bytes : Bytes :=
  if value.toInt < 0 then 45 :: decimalBytes value.toInt.natAbs
  else decimalBytes value.toInt.natAbs

variable (text : Bytes)

def NoDigit : Prop := text.head?.any isdigit = false

lemma isdigit_of_mem_decimalBytes {n : ℕ} (h : c ∈ decimalBytes n) :
    isdigit c = true := decide_eq_true (mem_decimalBytes h)

variable {rest : Bytes}

lemma takeWhile_digits {digits : Bytes} (hdigits : ∀ c ∈ digits, isdigit c = true)
    (hrest : NoDigit rest) :
    (digits ++ rest).takeWhile isdigit = digits ∧ (digits ++ rest).dropWhile isdigit = rest := by
  have hstop : rest.takeWhile isdigit = [] ∧ rest.dropWhile isdigit = rest := by
    cases rest with
    | nil => exact ⟨rfl, rfl⟩
    | cons c rest =>
      have hc : ¬ isdigit c = true := by
        rw [NoDigit, head?_cons, any_some] at hrest
        rw [hrest]
        decide
      exact ⟨takeWhile_cons_of_neg hc, dropWhile_cons_of_neg hc⟩
  rw [takeWhile_append_of_pos hdigits, dropWhile_append_of_pos hdigits, hstop.1, hstop.2,
    append_nil]
  exact ⟨rfl, rfl⟩

lemma noDigit_dropWhile : NoDigit (text.dropWhile isdigit) := by
  have hnot := head?_dropWhile_not isdigit text
  unfold NoDigit
  cases hhead : (text.dropWhile isdigit).head? with
  | none => rfl
  | some c =>
    rw [hhead] at hnot
    exact hnot

def StartsNumber : Prop :=
  ∃ c rest, text = c :: rest ∧ isdigit c = true ∧ ¬ (c = 48 ∧ rest.head?.any isdigit = true)

lemma startsNumber_decimalBytes (n : ℕ) (hrest : NoDigit rest) :
    StartsNumber (decimalBytes n ++ rest) := by
  by_cases hn : n = 0
  · subst hn
    refine ⟨48, rest, rfl, rfl, fun h => ?_⟩
    rw [NoDigit] at hrest
    rw [hrest] at h
    exact Bool.false_ne_true h.2
  · obtain ⟨first, digits, hdigits, hfst⟩ := decimalBytes_head (Nat.pos_of_ne_zero hn)
    refine ⟨first, digits ++ rest, by rw [hdigits, cons_append], ?_, fun h => hfst ?_⟩
    · exact isdigit_of_mem_decimalBytes (n := n) (by rw [hdigits]; exact mem_cons_self)
    · rw [h.1]
      decide

variable {text : Bytes}

lemma StartsNumber.takeWhile (h : StartsNumber text) :
    decimalBytes (decimalValue (text.takeWhile isdigit)) = text.takeWhile isdigit := by
  obtain ⟨c, rest, rfl, hc, hzero⟩ := h
  have htake : (c :: rest).takeWhile isdigit = c :: rest.takeWhile isdigit :=
    takeWhile_cons_of_pos hc
  refine decimalBytes_decimalValue (by rw [htake]; exact cons_ne_nil _ _)
    (fun d hd => of_decide_eq_true (p := 48 ≤ d ∧ d ≤ 57)
      (mem_takeWhile_imp (p := isdigit) hd)) fun hhead => ?_
  rw [htake, head?_cons, some_inj] at hhead
  -- behind a zero there is no digit
  have hnext : rest.takeWhile isdigit = [] := by
    cases rest with
    | nil => rfl
    | cons d rest =>
      exact takeWhile_cons_of_neg fun hd => hzero ⟨hhead, by
        rw [head?_cons, any_some, hd]⟩
  rw [htake, hnext, hhead]

/-- **The digits of a number.** The loop accepts the digits of a number within the limit. -/
theorem scan_digits_iff (hlimit : IsLimit limit) (hstart : StartsNumber text) {number : UInt64} :
    scan_digits limit text 0 = some (number, rest) ↔
      text = decimalBytes number.toNat ++ rest ∧ NoDigit rest ∧ number.toNat ≤ limit.toNat := by
  have hval : appendDigits (0 : UInt64).toNat (text.takeWhile isdigit) =
      decimalValue (text.takeWhile isdigit) := rfl
  have hscan := @scan_digits_spec limit hlimit text 0 (Nat.zero_le _)
  rw [hval] at hscan
  constructor
  · intro h
    rcases hscan with ⟨hle, number', hsome, hnumber⟩ | ⟨-, hnone⟩
    · rw [hsome, some_inj, mk.injEq] at h
      obtain ⟨rfl, rfl⟩ := h
      refine ⟨?_, noDigit_dropWhile text, by omega⟩
      rw [hnumber, hstart.takeWhile, takeWhile_append_dropWhile]
    · rw [hnone] at h
      simp at h
  · rintro ⟨htext, hrest, hle⟩
    obtain ⟨htake, hdrop⟩ := takeWhile_digits
      (fun c => isdigit_of_mem_decimalBytes (n := number.toNat) (c := c)) hrest
    rw [← htext] at htake hdrop
    rw [htake, decimalValue_decimalBytes, hdrop] at hscan
    rcases hscan with ⟨-, number', hsome, hnumber⟩ | ⟨hlt, -⟩
    · rw [hsome, UInt64.toNat_inj.mp hnumber]
    · omega

lemma toInt_of_magnitude {magnitude : ℕ} {value : Int32} (h : magnitude < 2147483648) :
    Int32.ofNat magnitude = value ↔ 0 ≤ value.toInt ∧ value.toInt.natAbs = magnitude := by
  rw [← Int32.toInt_inj, Int32.toInt_ofNat_of_lt h]
  omega

lemma neg_toInt_of_magnitude {magnitude : UInt64} {value : Int32}
    (h : magnitude.toNat ≤ 2147483648) (hpos : 0 < magnitude.toNat) :
    (if magnitude = 2147483648 then Int32.minValue else -Int32.ofNat magnitude.toNat) = value ↔
      value.toInt < 0 ∧ value.toInt.natAbs = magnitude.toNat := by
  split_ifs with hmin
  · subst hmin
    rw [← Int32.toInt_inj, Int32.toInt_minValue]
    simp only [UInt64.reduceToNat]
    omega
  · have hne : magnitude.toNat ≠ 2147483648 := fun heq => hmin (UInt64.toNat_inj.mp heq)
    have hneg : (-Int32.ofNat magnitude.toNat).toInt = -(magnitude.toNat : ℤ) := by
      rw [← Int32.ofInt_eq_ofNat, ← Int32.ofInt_neg, Int32.toInt_ofInt_of_le (by omega) (by omega)]
    rw [← Int32.toInt_inj, hneg]
    omega

lemma not_isdigit_minus : ¬ isdigit 45 = true := by decide

lemma parse_canonical_i32_of_nonneg (hsign : text.head? ≠ some 45) {value : Int32} :
    parse_canonical_i32 text = some (value, rest) ↔
      StartsNumber text ∧ ∃ number, scan_digits 2147483647 text 0 = some (number, rest) ∧
        Int32.ofNat number.toNat = value := by
  unfold parse_canonical_i32
  simp only [hsign, decide_false, Bool.false_eq_true, if_false, false_or]
  cases text with
  | nil => simp [StartsNumber]
  | cons c text =>
    dsimp only
    by_cases hc : isdigit c = true
    · by_cases hzero : c = 48 ∧ text.head?.any isdigit = true
      · rw [if_neg (not_not.mpr hc), if_pos hzero]
        refine iff_of_false (by simp) fun h => ?_
        obtain ⟨⟨d, rest', heq, -, hnot⟩, -⟩ := h
        obtain ⟨rfl, rfl⟩ := cons_eq_cons.mp heq
        exact hnot hzero
      · have hstart : StartsNumber (c :: text) := ⟨c, text, rfl, hc, hzero⟩
        rw [if_neg (not_not.mpr hc), if_neg hzero, iff_true_intro hstart, true_and]
        cases hscan : scan_digits 2147483647 (c :: text) 0 with
        | none => simp
        | some found => simp [Prod.ext_iff, and_comm, eq_comm]
    · rw [if_pos hc]
      refine iff_of_false (by simp) fun h => ?_
      obtain ⟨⟨d, rest', heq, hd, -⟩, -⟩ := h
      obtain ⟨rfl, rfl⟩ := cons_eq_cons.mp heq
      exact hc hd

lemma parse_canonical_i32_of_neg {value : Int32} :
    parse_canonical_i32 (45 :: text) = some (value, rest) ↔
      StartsNumber text ∧ text.head? ≠ some 48 ∧
        ∃ number, scan_digits 2147483648 text 0 = some (number, rest) ∧
          (if number = 2147483648 then Int32.minValue else -Int32.ofNat number.toNat) = value := by
  unfold parse_canonical_i32
  simp only [head?_cons, decide_true, if_true, tail_cons, true_or, and_true]
  cases text with
  | nil => simp [StartsNumber]
  | cons c text =>
    dsimp only
    by_cases hc : isdigit c = true
    · by_cases hzero : c = 48
      · rw [if_neg (not_not.mpr hc), if_pos hzero]
        exact iff_of_false (by simp) fun h => h.2.1 (by rw [hzero, head?_cons])
      · have hstart : StartsNumber (c :: text) := ⟨c, text, rfl, hc, fun h => hzero h.1⟩
        have hhead : (c :: text).head? ≠ some 48 := fun h => hzero (some_inj.mp h)
        rw [if_neg (not_not.mpr hc), if_neg hzero, iff_true_intro hstart, iff_true_intro hhead,
          true_and, true_and]
        cases hscan : scan_digits 2147483648 (c :: text) 0 with
        | none => simp
        | some found => simp [Prod.ext_iff, and_comm, eq_comm]
    · rw [if_pos hc]
      refine iff_of_false (by simp) fun h => ?_
      obtain ⟨⟨d, rest', heq, hd, -⟩, -⟩ := h
      obtain ⟨rfl, rfl⟩ := cons_eq_cons.mp heq
      exact hc hd

lemma i32Bytes_head (rest : Bytes) :
    (i32Bytes value ++ rest).head? = some 45 ↔ value.toInt < 0 := by
  unfold i32Bytes
  by_cases hneg : value.toInt < 0
  · rw [if_pos hneg, cons_append, head?_cons]
    exact iff_of_true rfl hneg
  · rw [if_neg hneg]
    refine iff_of_false (fun hhead => ?_) hneg
    rw [head?_append, head?_eq_some_head (decimalBytes_ne_nil _), some_or, some_inj] at hhead
    exact not_isdigit_minus (hhead ▸ isdigit_of_mem_decimalBytes
      (head_mem (decimalBytes_ne_nil value.toInt.natAbs)))

/-- **A number.** What is accepted is the shortest spelling of a signed 32-bit number, up to where
its digits end. -/
theorem parse_canonical_i32_iff {value : Int32} :
    parse_canonical_i32 text = some (value, rest) ↔ text = i32Bytes value ++ rest ∧ NoDigit rest := by
  have hmin := value.le_toInt
  have hmax := value.toInt_lt
  by_cases hsign : text.head? = some 45
  · obtain ⟨text, rfl⟩ : ∃ tail, text = 45 :: tail := by
      cases text with
      | nil => simp at hsign
      | cons c text => exact ⟨text, by rw [head?_cons, some_inj] at hsign; rw [hsign]⟩
    rw [parse_canonical_i32_of_neg]
    constructor
    · rintro ⟨hstart, hzero, number, hscan, hval⟩
      obtain ⟨htext, hrest, hle⟩ := (scan_digits_iff (.inr rfl) hstart).mp hscan
      have hpos : 0 < number.toNat := by
        refine Nat.pos_of_ne_zero fun hnumber => hzero ?_
        rw [htext, hnumber]
        rfl
      obtain ⟨hneg, habs⟩ := (neg_toInt_of_magnitude hle hpos).mp hval
      rw [i32Bytes, if_pos hneg, habs, htext]
      exact ⟨rfl, hrest⟩
    · rintro ⟨htext, hrest⟩
      have hneg : value.toInt < 0 := (i32Bytes_head value rest).mp (htext ▸ hsign)
      rw [i32Bytes, if_pos hneg, cons_append, cons_eq_cons] at htext
      have habs : (UInt64.ofNat value.toInt.natAbs).toNat = value.toInt.natAbs := by
        rw [UInt64.toNat_ofNat']
        omega
      obtain ⟨first, digits, hdigits, hfst⟩ :=
        decimalBytes_head (n := value.toInt.natAbs) (by omega)
      have hstart : StartsNumber text := htext.2 ▸ startsNumber_decimalBytes _ hrest
      refine ⟨hstart, fun hzero => hfst ?_, UInt64.ofNat value.toInt.natAbs, ?_, ?_⟩
      · rw [htext.2, hdigits, cons_append, head?_cons, some_inj] at hzero
        rw [hzero]
        decide
      · rw [scan_digits_iff (.inr rfl) hstart, habs]
        exact ⟨htext.2, hrest, by simp only [UInt64.reduceToNat]; omega⟩
      · exact (neg_toInt_of_magnitude (by omega) (by omega)).mpr ⟨hneg, habs.symm⟩
  · rw [parse_canonical_i32_of_nonneg hsign]
    constructor
    · rintro ⟨hstart, number, hscan, hval⟩
      obtain ⟨htext, hrest, hle⟩ := (scan_digits_iff (.inl rfl) hstart).mp hscan
      simp only [UInt64.reduceToNat] at hle
      obtain ⟨hnn, habs⟩ := (toInt_of_magnitude (by omega)).mp hval
      rw [i32Bytes, if_neg (by omega), habs]
      exact ⟨htext, hrest⟩
    · rintro ⟨htext, hrest⟩
      have hnn : ¬ value.toInt < 0 := fun hneg =>
        hsign (htext ▸ (i32Bytes_head value rest).mpr hneg)
      rw [i32Bytes, if_neg hnn] at htext
      have habs : (UInt64.ofNat value.toInt.natAbs).toNat = value.toInt.natAbs := by
        rw [UInt64.toNat_ofNat']
        omega
      have hstart : StartsNumber text := htext ▸ startsNumber_decimalBytes _ hrest
      refine ⟨hstart, UInt64.ofNat value.toInt.natAbs, ?_, ?_⟩
      · rw [scan_digits_iff (.inl rfl) hstart, habs]
        exact ⟨htext, hrest, by simp only [UInt64.reduceToNat]; omega⟩
      · exact (toInt_of_magnitude (by omega)).mpr ⟨by omega, habs.symm⟩

/-! ## The accumulator -/

/-- The states of the loop over the digits of a text, before each round. -/
inductive DigitLoop (limit : UInt64) (text : Bytes) : UInt64 → Bytes → Prop where
  | start : DigitLoop limit text 0 text
  | round {magnitude next : UInt64} {c : UInt8} {rest : Bytes} :
      DigitLoop limit text magnitude (c :: rest) → isdigit c = true →
      push_digit limit magnitude c = some next → DigitLoop limit text next rest

/-- **No overflow.** In every round the accumulator is the number that the digits so far spell, and
it is within the limit. -/
theorem DigitLoop.exact (hlimit : IsLimit limit) {magnitude : UInt64}
    (h : DigitLoop limit text magnitude rest) :
    ∃ digits, text = digits ++ rest ∧ (∀ c ∈ digits, isdigit c = true) ∧
      magnitude.toNat = decimalValue digits ∧ magnitude.toNat ≤ limit.toNat := by
  induction h with
  | start => exact ⟨[], rfl, nofun, rfl, Nat.zero_le _⟩
  | @round magnitude next c rest _ hc hpush ih =>
    obtain ⟨digits, htext, hdigits, hval, hle⟩ := ih
    rcases push_digit_spec hlimit hc hle with ⟨hroom, next', hnext, hex⟩ | ⟨-, hnone⟩
    · rw [hnext, some_inj] at hpush
      subst hpush
      refine ⟨digits ++ [c], by rw [htext, append_assoc, singleton_append], ?_, ?_, ?_⟩
      · simpa [or_imp, forall_and, hc] using hdigits
      · rw [hex, hval, decimalValue_concat]
      · rw [hex]
        exact hroom
    · rw [hnone] at hpush
      simp at hpush

/-! ## Values -/

def valuesBytes (values : List Int32) : Bytes :=
  values.flatMap fun value => 32 :: i32Bytes value

lemma valuesBytes_cons (values : List Int32) :
    valuesBytes (value :: values) = 32 :: (i32Bytes value ++ valuesBytes values) := rfl

lemma noDigit_valuesBytes {values : List Int32} (h : values = [] → NoDigit rest) :
    NoDigit (valuesBytes values ++ rest) := by
  cases values with
  | nil => exact h rfl
  | cons value values => rfl

variable {value_count : ℕ} {values : { values : List Int32 // values.length = value_count }}

lemma parse_values_iff : parse_values value_count text = some (values, rest) ↔
      text = valuesBytes values.val ++ rest ∧ (values.val ≠ [] → NoDigit rest) := by
  induction value_count generalizing text with
  | zero =>
    have hnil : values.val = [] := length_eq_zero_iff.mp values.property
    rw [parse_values, some_inj, mk.injEq, Subtype.ext_iff, hnil]
    simp [valuesBytes]
  | succ value_count ih =>
    obtain ⟨value, tail, hvals⟩ := exists_cons_of_length_eq_add_one values.property
    cases text with
    | nil =>
      rw [hvals, valuesBytes_cons]
      simp [parse_values]
    | cons c cursor =>
      rw [parse_values, hvals, valuesBytes_cons, cons_append, cons_eq_cons]
      by_cases hc : c = 32
      · rw [if_neg (not_not.mpr hc)]
        have htail : tail.length = value_count := by
          have hlen := values.property
          rw [hvals] at hlen
          exact Nat.succ.inj hlen
        constructor
        · intro h
          obtain ⟨⟨first, after⟩, hfst, h⟩ := bind_eq_some_iff.mp h
          obtain ⟨⟨others, last⟩, hothers, h⟩ := bind_eq_some_iff.mp h
          rw [some_inj, mk.injEq, Subtype.ext_iff, hvals, cons_eq_cons] at h
          obtain ⟨⟨rfl, hval⟩, rfl⟩ := h
          obtain ⟨hcursor, hafter⟩ := parse_canonical_i32_iff.mp hfst
          obtain ⟨htext, hlast⟩ := ih.mp hothers
          rw [hval] at htext hlast
          refine ⟨⟨hc, by rw [hcursor, htext, append_assoc]⟩, fun _ => ?_⟩
          by_cases hnil : tail = []
          · rw [htext, hnil] at hafter
            exact hafter
          · exact hlast hnil
        · rintro ⟨⟨-, hcursor⟩, hlast⟩
          have hafter : NoDigit (valuesBytes tail ++ rest) :=
            noDigit_valuesBytes fun _ => hlast (cons_ne_nil _ _)
          have hfst := parse_canonical_i32_iff.mpr ⟨hcursor.trans (append_assoc _ _ _), hafter⟩
          have hothers : parse_values value_count (valuesBytes tail ++ rest) =
              some (⟨tail, htail⟩, rest) :=
            ih.mpr ⟨rfl, fun _ => hlast (cons_ne_nil _ _)⟩
          simp only [hfst, hothers, bind_eq_bind, bind_some, some_inj,
            mk.injEq, Subtype.ext_iff, hvals, and_self]
      · rw [if_pos hc]
        exact iff_of_false (by simp) fun h => hc h.1.1

/-- **All values.** They are accepted exactly as they are written, with nothing behind them. -/
theorem parse_exact_values_iff :
    parse_exact_values value_count text = some values ↔ text = valuesBytes values.val := by
  have hiff : parse_exact_values value_count text = some values ↔
      parse_values value_count text = some (values, []) := by
    unfold parse_exact_values
    constructor
    · intro h
      split at h
      · rename_i found hfound
        rw [hfound, some_inj.mp h]
      · simp at h
    · intro h
      rw [h]
  rw [hiff, parse_values_iff, append_nil]
  exact and_iff_left fun _ => rfl

/-! ## Records -/

def IsName (name : CString) : Prop := name.bytes ≠ [] ∧ ∀ c ∈ name.bytes, isspace c = false

/-- What the record of a shape holds: a name if the shape has one, and its number of values. -/
structure Fits (shape : ReflectionRecordShape) (record : UnityCompilerReflectionRecord) :
    Prop where
  kind : record.kind = shape.kind
  named : record.name.isSome = shape.named
  name : ∀ name ∈ record.name, IsName name
  value_count : record.values.length = shape.value_count

/-- The name behind a space, when there is one. -/
def nameBytes : Option CString → Bytes
  | none => []
  | some name => 32 :: name.bytes

/-- The text of a record: the prefix of its kind, its name and its values. -/
def formatRecord (record : UnityCompilerReflectionRecord) : Bytes :=
  let shape := kReflectionRecordShapes.find? fun shape => shape.kind = record.kind
  (shape.map fun shape => shape.prefix_bytes).getD [] ++ nameBytes record.name ++
    valuesBytes record.values

lemma shape_of_kind_text : ∀ left ∈ kReflectionRecordShapes, ∀ right ∈ kReflectionRecordShapes,
    left.prefix_bytes.isPrefixOf right.prefix_bytes = true → left = right := by
  decide +kernel

lemma shape_of_kind : ∀ left ∈ kReflectionRecordShapes, ∀ right ∈ kReflectionRecordShapes,
    left.kind = right.kind → left = right := by
  decide +kernel

lemma value_count_pos : ∀ shape ∈ kReflectionRecordShapes, 0 < shape.value_count := by
  decide

variable {shape : ReflectionRecordShape}

lemma formatRecord_eq (hshape : shape ∈ kReflectionRecordShapes)
    {record : UnityCompilerReflectionRecord} (hkind : record.kind = shape.kind) :
    formatRecord record =
      shape.prefix_bytes ++ nameBytes record.name ++ valuesBytes record.values := by
  have hfind : kReflectionRecordShapes.find? (fun shape => shape.kind = record.kind) = some shape :=
    find?_eq_some_of_unique hshape (decide_eq_true hkind.symm) fun other hother htest =>
      shape_of_kind other hother shape hshape ((of_decide_eq_true htest).trans hkind)
  rw [formatRecord, hfind]
  rfl

lemma find?_shape :
    (kReflectionRecordShapes.find? fun shape => shape.prefix_bytes.isPrefixOf text) = some shape ↔
      shape ∈ kReflectionRecordShapes ∧ shape.prefix_bytes <+: text := by
  constructor
  · intro h
    exact ⟨mem_of_find?_eq_some h, isPrefixOf_iff_prefix.mp
      (find?_some (p := fun shape : ReflectionRecordShape =>
        shape.prefix_bytes.isPrefixOf text) h)⟩
  · rintro ⟨hshape, hpre⟩
    refine find?_eq_some_of_unique hshape ( isPrefixOf_iff_prefix.mpr hpre) ?_
    intro other hother htest
    -- of two prefixes of one text, one is a prefix of the other
    rcases prefix_or_prefix_of_prefix ( isPrefixOf_iff_prefix.mp htest) hpre with h | h
    · exact shape_of_kind_text other hother shape hshape ( isPrefixOf_iff_prefix.mpr h)
    · exact (shape_of_kind_text shape hshape other hother ( isPrefixOf_iff_prefix.mpr h)).symm

lemma takeWhile_name {name : Bytes} (hname : ∀ c ∈ name, isspace c = false)
    {values : List Int32} (hvals : values ≠ []) :
    (name ++ valuesBytes values).takeWhile (fun c => ! isspace c) = name ∧
      (name ++ valuesBytes values).dropWhile (fun c => ! isspace c) = valuesBytes values := by
  obtain ⟨value, values, rfl⟩ := exists_cons_of_ne_nil hvals
  have hall : ∀ c ∈ name, (! isspace c) = true := fun c hc => by rw [hname c hc]; rfl
  have hspace : ¬ (! isspace 32) = true := by decide
  rw [valuesBytes_cons, takeWhile_append_of_pos hall, dropWhile_append_of_pos hall,
    takeWhile_cons_of_neg (p := fun c => ! isspace c) hspace,
    dropWhile_cons_of_neg (p := fun c => ! isspace c) hspace, append_nil]
  exact ⟨rfl, rfl⟩

lemma nameOf_append {text : CString} {shape_bytes : Bytes}
    (htext : text.bytes = shape_bytes ++ 32 :: rest) :
    (nameOf text shape_bytes.length).bytes = rest.takeWhile fun c => ! isspace c := by
  show ((text.bytes.drop shape_bytes.length).drop 1).takeWhile (fun c => ! isspace c) = _
  rw [htext, drop_left, drop_one, tail_cons]

lemma parse_shape_of_unnamed (hnamed : shape.named = false) {text : CString}
    (htext : shape.prefix_bytes ++ rest = text.bytes) {record : ReflectionRecordText} :
    parse_shape text shape = some record ↔
      record.record = text ∧ Fits shape record.toUnityCompilerReflectionRecord ∧
        rest = nameBytes record.name ++ valuesBytes record.values := by
  unfold parse_shape
  dsimp only
  rw [hnamed, if_pos (by decide), ← htext, drop_left]
  constructor
  · intro h
    obtain ⟨values, hvals, h⟩ := bind_eq_some_iff.mp h
    rw [parse_exact_values_iff] at hvals
    rw [← some_inj.mp h]
    exact ⟨rfl, ⟨rfl, hnamed.symm, fun name hname => absurd hname (by simp), values.property⟩,
      hvals⟩
  · rintro ⟨rfl, hfits, hrest⟩
    have hname : record.name = none := isNone_iff_eq_none.mp (by
      rw [← not_isSome, hfits.named, hnamed]
      rfl)
    rw [hname] at hrest
    have hvals : parse_exact_values shape.value_count rest =
        some ⟨record.values, hfits.value_count⟩ := parse_exact_values_iff.mpr hrest
    rw [hvals]
    obtain ⟨⟨kind, name, values, hle⟩, bytes⟩ := record
    obtain rfl : kind = shape.kind := hfits.kind
    obtain rfl : name = none := hname
    rfl

lemma parse_shape_of_named (hshape : shape ∈ kReflectionRecordShapes)
    (hnamed : shape.named = true) {text : CString} (htext : shape.prefix_bytes ++ rest = text.bytes)
    {record : ReflectionRecordText} :
    parse_shape text shape = some record ↔
      record.record = text ∧ Fits shape record.toUnityCompilerReflectionRecord ∧
        rest = nameBytes record.name ++ valuesBytes record.values := by
  have hpos := value_count_pos shape hshape
  unfold parse_shape
  dsimp only
  rw [hnamed, if_neg (by decide), show text.bytes.drop shape.prefix_bytes.length = rest by
    rw [← htext, drop_left]]
  by_cases hspace : rest.head? = some 32
  · obtain ⟨rest, rfl⟩ : ∃ tail, rest = 32 :: tail := by
      cases rest with
      | nil => simp at hspace
      | cons c rest =>
        exact ⟨rest, by rw [head?_cons, some_inj] at hspace; rw [hspace]⟩
    have hbytes := nameOf_append htext.symm
    rw [if_neg (not_not.mpr hspace), drop_one, tail_cons]
    constructor
    · intro h
      split_ifs at h with hempty
      obtain ⟨values, hvals, h⟩ := bind_eq_some_iff.mp h
      rw [parse_exact_values_iff] at hvals
      rw [← some_inj.mp h]
      refine ⟨rfl, ⟨rfl, hnamed.symm, ?_, values.property⟩, ?_⟩
      · intro name hname
        rw [mem_some_iff] at hname
        subst hname
        refine ⟨hempty, fun c hc => ?_⟩
        rw [hbytes] at hc
        simpa using mem_takeWhile_imp hc
      · show 32 :: rest = 32 :: (nameOf text _).bytes ++ valuesBytes values.val
        rw [hbytes, ← hvals, cons_append, takeWhile_append_dropWhile]
    · rintro ⟨rfl, hfits, hrest⟩
      obtain ⟨name, hname⟩ := isSome_iff_exists.mp (hfits.named.trans hnamed)
      obtain ⟨hne, hall⟩ := hfits.name name hname
      rw [hname, nameBytes, cons_append, cons_eq_cons] at hrest
      have hvalues_ne : record.values ≠ [] := by
        intro hnil
        have hlen := hfits.value_count
        rw [hnil, length_nil] at hlen
        omega
      obtain ⟨htake, hdrop⟩ := takeWhile_name hall hvalues_ne
      rw [← hrest.2] at htake hdrop
      have hsame : nameOf record.record shape.prefix_bytes.length = name :=
        CString.ext_bytes (hbytes.trans htake)
      have hvals : parse_exact_values shape.value_count (rest.dropWhile fun c => ! isspace c) =
          some ⟨record.values, hfits.value_count⟩ := parse_exact_values_iff.mpr hdrop
      rw [hsame, if_neg hne, hvals]
      obtain ⟨⟨kind, name', values, hle⟩, bytes⟩ := record
      obtain rfl : kind = shape.kind := hfits.kind
      obtain rfl : name' = some name := hname
      rfl
  · rw [if_pos hspace]
    refine iff_of_false (by simp) fun h => hspace ?_
    obtain ⟨name, hname⟩ := isSome_iff_exists.mp (h.2.1.named.trans hnamed)
    rw [h.2.2, hname, nameBytes, cons_append, head?_cons]

/-- **One shape.** A text with its prefix is accepted exactly when a name and values that fit it
follow. -/
theorem parse_shape_iff (hshape : shape ∈ kReflectionRecordShapes) {text : CString}
    (hpre : shape.prefix_bytes <+: text.bytes) {record : ReflectionRecordText} :
    parse_shape text shape = some record ↔
      record.record = text ∧ Fits shape record.toUnityCompilerReflectionRecord ∧ text.bytes =
          shape.prefix_bytes ++ nameBytes record.name ++ valuesBytes record.values := by
  obtain ⟨rest, hrest⟩ := hpre
  rw [← hrest, append_assoc, append_cancel_left_eq]
  cases hnamed : shape.named with
  | false => exact parse_shape_of_unnamed hnamed hrest
  | true => exact parse_shape_of_named hshape hnamed hrest

end ReflectionRecord

open ReflectionRecord

/-- **Reflection records.** A text is accepted exactly when it is what its record is written as. -/
theorem unity_compiler_reflection_record_parse_iff {text : CString}
    {record : ReflectionRecordText} :
    unity_compiler_reflection_record_parse text = some record ↔ record.record = text ∧
        (∃ shape ∈ kReflectionRecordShapes, Fits shape record.toUnityCompilerReflectionRecord) ∧
        text.bytes = formatRecord record.toUnityCompilerReflectionRecord := by
  unfold unity_compiler_reflection_record_parse
  constructor
  · intro h
    split at h
    · simp at h
    · rename_i shape hfind
      obtain ⟨hshape, hpre⟩ := find?_shape.mp hfind
      obtain ⟨htext, hfits, hbytes⟩ := (parse_shape_iff hshape hpre).mp h
      exact ⟨htext, ⟨shape, hshape, hfits⟩, by rw [formatRecord_eq hshape hfits.kind, hbytes]⟩
  · rintro ⟨htext, ⟨shape, hshape, hfits⟩, hbytes⟩
    rw [formatRecord_eq hshape hfits.kind] at hbytes
    have hpre : shape.prefix_bytes <+: text.bytes := by
      rw [hbytes, append_assoc]
      exact prefix_append _ _
    rw [find?_shape.mpr ⟨hshape, hpre⟩]
    exact (parse_shape_iff hshape hpre).mpr ⟨htext, hfits, hbytes⟩

/-- The nine shapes of texts: a prefix, a name for the named kinds, and the values of the kind. -/
def IsRecordText (text : Bytes) : Prop :=
  ∃ shape ∈ kReflectionRecordShapes, ∃ (name : Option CString) (values : List Int32),
    name.isSome = shape.named ∧ (∀ piece ∈ name, IsName piece) ∧ values.length = shape.value_count ∧
      text = shape.prefix_bytes ++ nameBytes name ++ valuesBytes values

lemma isSome_parse_iff {text : CString} :
    (unity_compiler_reflection_record_parse text).isSome = true ↔ IsRecordText text.bytes := by
  rw [isSome_iff_exists]
  constructor
  · rintro ⟨record, h⟩
    obtain ⟨-, ⟨shape, hshape, hfits⟩, hbytes⟩ := unity_compiler_reflection_record_parse_iff.mp h
    rw [formatRecord_eq hshape hfits.kind] at hbytes
    exact ⟨shape, hshape, record.name, record.values, hfits.named, hfits.name, hfits.value_count,
      hbytes⟩
  · rintro ⟨shape, hshape, name, values, hnamed, hname, hcnt, hbytes⟩
    let record : UnityCompilerReflectionRecord :=
      ⟨shape.kind, name, values, hcnt.trans_le shape.value_count_le⟩
    have hfits : Fits shape record := ⟨rfl, hnamed, hname, hcnt⟩
    refine ⟨⟨record, text⟩, unity_compiler_reflection_record_parse_iff.mpr
      ⟨rfl, ⟨shape, hshape, hfits⟩, ?_⟩⟩
    rw [hbytes, formatRecord_eq hshape hfits.kind]

lemma formatRecord_of_parse {text : CString} {record : ReflectionRecordText}
    (h : unity_compiler_reflection_record_parse text = some record) :
    record.record = text ∧ formatRecord record.toUnityCompilerReflectionRecord = text.bytes := by
  obtain ⟨htext, -, hbytes⟩ := unity_compiler_reflection_record_parse_iff.mp h
  exact ⟨htext, hbytes.symm⟩

lemma content_eq_iff {left_text right_text : CString} {left right : ReflectionRecordText}
    (hleft : unity_compiler_reflection_record_parse left_text = some left)
    (hright : unity_compiler_reflection_record_parse right_text = some right) :
    left.toUnityCompilerReflectionRecord = right.toUnityCompilerReflectionRecord ↔
      left_text = right_text := by
  constructor
  · intro hsame
    refine CString.ext_bytes ?_
    rw [← (formatRecord_of_parse hleft).2, hsame, (formatRecord_of_parse hright).2]
  · rintro rfl
    rw [hleft, some_inj] at hright
    rw [hright]

lemma records_equal_iff {left right : List ReflectionRecordText} (hprs : ∀ record ∈ left ++ right,
      unity_compiler_reflection_record_parse record.record = some record) :
    unity_compiler_reflection_records_equal left right = true ↔
      left.map (fun record => record.toUnityCompilerReflectionRecord) =
        right.map fun record => record.toUnityCompilerReflectionRecord := by
  rw [unity_compiler_reflection_records_equal, decide_eq_true_iff]
  induction left generalizing right with
  | nil => cases right <;> simp
  | cons record left ih =>
    cases right with
    | nil => simp
    | cons record' right =>
      have hrest := @ih right fun other hother => hprs other (by
        rcases mem_append.mp hother with h | h
        · exact mem_append_left _ (mem_cons_of_mem _ h)
        · exact mem_append_right _ (mem_cons_of_mem _ h))
      have hhead := content_eq_iff (hprs record (by simp)) (hprs record' (by simp))
      rw [map_cons, map_cons, map_cons, map_cons, cons_eq_cons, cons_eq_cons, hhead]
      exact and_congr_right' hrest

/-- **Canonical texts.** The accepted texts are those of the nine shapes, with the shortest decimal
spellings and nothing else. Writing a parsed record again gives its text, so records are equal
exactly when their texts are, one by one and in lists. The loop over digits never wraps around. -/
theorem reflection_record_text_canonical :
    (∀ text : CString, (unity_compiler_reflection_record_parse text).isSome = true ↔
      IsRecordText text.bytes) ∧
    (∀ text record, unity_compiler_reflection_record_parse text = some record →
      record.record = text ∧ formatRecord record.toUnityCompilerReflectionRecord = text.bytes) ∧
    (∀ left_text right_text left right,
      unity_compiler_reflection_record_parse left_text = some left →
      unity_compiler_reflection_record_parse right_text = some right →
      (left.toUnityCompilerReflectionRecord = right.toUnityCompilerReflectionRecord ↔
        left_text = right_text)) ∧
    (∀ left right : List ReflectionRecordText, (∀ record ∈ left ++ right,
        unity_compiler_reflection_record_parse record.record = some record) →
      (unity_compiler_reflection_records_equal left right = true ↔
        left.map (fun record => record.toUnityCompilerReflectionRecord) =
          right.map fun record => record.toUnityCompilerReflectionRecord)) ∧
    ∀ limit, IsLimit limit → ∀ text magnitude rest, DigitLoop limit text magnitude rest →
      ∃ digits, text = digits ++ rest ∧ (∀ c ∈ digits, isdigit c = true) ∧
        magnitude.toNat = decimalValue digits ∧ magnitude.toNat ≤ limit.toNat :=
  ⟨fun _ => isSome_parse_iff, fun _ _ h => formatRecord_of_parse h,
    fun _ _ _ _ hleft hright => content_eq_iff hleft hright,
    fun _ _ hparsed => records_equal_iff hparsed, fun _ hlimit _ _ _ h => h.exact hlimit⟩

/-- A record with a name and with the least value. -/
theorem reflection_record_text_canonical_sample : unity_compiler_reflection_record_parse
        ⟨asciiBytes "cbbind: Globals -2147483648", by decide +kernel⟩ ≠ none ∧
      ∀ record, unity_compiler_reflection_record_parse
          ⟨asciiBytes "cbbind: Globals -2147483648", by decide +kernel⟩ = some record →
        formatRecord record.toUnityCompilerReflectionRecord =
          asciiBytes "cbbind: Globals -2147483648" :=
  ⟨by decide +kernel, fun record h => (reflection_record_text_canonical.2.1 _ record h).2⟩

end DXBCSandbox
