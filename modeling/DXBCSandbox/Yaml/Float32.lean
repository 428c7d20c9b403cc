/-
The decimal text of a 32-bit float (`src/translation/unity_yaml.c`).

A float is a significand times a power of two. The power is multiplied into an integer of limbs
below 10⁹: by twos, or by fives with the decimal point moved once for each. The digits of the
integer are written limb by limb, zeros behind the point are dropped, and the point is put in.
-/
import DXBCSandbox.Runtime

namespace DXBCSandbox.UnityYaml

def BIG_DECIMAL_BASE : UInt64 := 1000000000

def BIG_DECIMAL_LIMBS : ℕ := 24

def UNITY_YAML_FLOAT32_TEXT_CAPACITY : ℕ := 192

/-- The limbs that are in use, the lowest first. -/
structure BigDecimalInteger where
  limb : List UInt32

/-- The loop over the limbs: the new limbs and the last carry. -/
def multiplyLimbs (factor : UInt32) : UInt64 → List UInt32 → List UInt32 × UInt64
  | carry, [] => ([], carry)
  | carry, limb :: limbs =>
    let product := limb.toUInt64 * factor.toUInt64 + carry
    let above := multiplyLimbs factor (product / BIG_DECIMAL_BASE) limbs
    ((product % BIG_DECIMAL_BASE).toUInt32 :: above.1, above.2)

def big_decimal_multiply (value : BigDecimalInteger) (factor : UInt32) : Option BigDecimalInteger :=
  let (limbs, carry) := multiplyLimbs factor 0 value.limb
  if carry ≠ 0 then
    if value.limb.length = BIG_DECIMAL_LIMBS then none else some ⟨limbs ++ [carry.toUInt32]⟩
  else some ⟨limbs⟩

def multiplyTimes (factor : UInt32) : ℕ → BigDecimalInteger → Option BigDecimalInteger
  | 0, value => some value
  | count + 1, value => (big_decimal_multiply value factor).bind (multiplyTimes factor count)

/-- The digits of a limb, the lowest first. The buffer has room for the ten digits that a word can
have. -/
def reverseDigits : (room : ℕ) → UInt32 → Bytes
  | 0, _ => []
  | room + 1, value =>
    (0x30 + (value % 10).toUInt8) ::
      if value / 10 ≠ 0 then reverseDigits room (value / 10) else []

def limbDigits (value : UInt32) (minimum_digits : ℕ) : Bytes :=
  let reverse := reverseDigits 10 value
  (reverse ++ List.replicate (minimum_digits - reverse.length) 0x30).reverse

/-- The text never fills the buffer, whose last byte ends the string. -/
def append_decimal_limb (capacity : ℕ) (output : Bytes) (value : UInt32)
    (minimum_digits : ℕ) : Option Bytes :=
  let digits := limbDigits value minimum_digits
  if digits.length > capacity - output.length - 1 then none else some (output ++ digits)

def big_decimal_to_digits (value : BigDecimalInteger) (capacity : ℕ) : Option Bytes :=
  match value.limb.reverse with
  | [] => none
  | top :: below =>
    if capacity = 0 then none
    else
      (append_decimal_limb capacity [] top 1).bind fun output =>
        below.foldlM (fun output limb => append_decimal_limb capacity output limb 9) output

def copy_float_text (text : Bytes) : Option Bytes :=
  if text.length ≥ UNITY_YAML_FLOAT32_TEXT_CAPACITY then none else some text

/-- Zeros behind the decimal point are dropped, as long as there are places behind it. -/
def trimZeros : (decimal_places : ℕ) → (digits : Bytes) → Bytes × ℕ
  | 0, digits => (digits, 0)
  | decimal_places + 1, digits =>
    if digits.getLast? = some 0x30 then trimZeros decimal_places digits.dropLast
    else (digits, decimal_places + 1)

variable (bits : UInt32)

def negative : Bool := bits &&& 0x80000000 ≠ 0

def exponent : UInt32 := (bits >>> 23) &&& 0xff

def fraction : UInt32 := bits &&& 0x7fffff

def significand : UInt32 :=
  if exponent bits = 0 then fraction bits else 0x800000 ||| fraction bits

def exponent_two : ℤ :=
  if exponent bits = 0 then -149 else (exponent bits).toNat - 127 - 23

/-- A negative power of two moves the decimal point by as many places. -/
def decimalPlaces : ℕ := (-exponent_two bits).toNat

def scaledInteger : Option BigDecimalInteger :=
  if 0 ≤ exponent_two bits then multiplyTimes 2 (exponent_two bits).toNat ⟨[significand bits]⟩
  else multiplyTimes 5 (decimalPlaces bits) ⟨[significand bits]⟩

def layoutDigits (sign : Bool) (digits : Bytes) (decimal_places : ℕ) : Option Bytes :=
  let needed := (if sign then 1 else 0) +
    (if decimal_places = 0 then digits.length
      else if digits.length ≤ decimal_places then 2 + decimal_places
      else digits.length + 1)
  if needed ≥ UNITY_YAML_FLOAT32_TEXT_CAPACITY then none
  else
    let output := if sign then asciiBytes "-" else []
    if decimal_places = 0 then some (output ++ digits)
    else if digits.length ≤ decimal_places then
      some (output ++ asciiBytes "0." ++
        List.replicate (decimal_places - digits.length) 0x30 ++ digits)
    else
      let integer_digits := digits.length - decimal_places
      some (output ++ digits.take integer_digits ++ asciiBytes "." ++
        (digits.drop integer_digits).take decimal_places)

def unity_yaml_format_float32 : Option Bytes :=
  if exponent bits = 0xff then
    if fraction bits ≠ 0 then copy_float_text (asciiBytes "NaN")
    else copy_float_text (if negative bits then asciiBytes "-Infinity" else asciiBytes "Infinity")
  else if exponent bits = 0 ∧ fraction bits = 0 then
    copy_float_text (if negative bits then asciiBytes "-0" else asciiBytes "0")
  else do
    let integer ← scaledInteger bits
    let digits ← big_decimal_to_digits integer UNITY_YAML_FLOAT32_TEXT_CAPACITY
    let (digits, decimal_places) := trimZeros (decimalPlaces bits) digits
    layoutDigits (negative bits) digits decimal_places

end DXBCSandbox.UnityYaml
