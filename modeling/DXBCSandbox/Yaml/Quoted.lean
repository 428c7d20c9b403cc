/-
Double-quoted YAML scalars (`src/translation/unity_yaml.c`).

The input is validated before anything is written. Behind that, the size of a sequence is read off
its first byte, and its character is escaped or copied. What the string builder does with what is
appended comes from outside.
-/
import DXBCSandbox.Runtime
import DXBCSandbox.Lib.Utf8

namespace DXBCSandbox

inductive UnityYamlStatus where
  | ok | invalidArgument | invalidUtf8 | outputFailed
  deriving DecidableEq

/-- A string builder keeps what is appended to it, or it fails for good. -/
structure StringBuilder (Builder : Type) where
  sb_append_len : Builder → Bytes → Builder
  sb_ok : Builder → Bool
  text : Builder → Bytes
  ok_of_append : ∀ builder bytes, sb_ok (sb_append_len builder bytes) = true →
    sb_ok builder = true ∧ text (sb_append_len builder bytes) = text builder ++ bytes

namespace UnityYaml

def unity_yaml_utf8_is_valid : (bytes : Bytes) → Bool
  | [] => true
  | first :: rest =>
    if first ≤ 0x7f then unity_yaml_utf8_is_valid rest
    else if 0xc2 ≤ first ∧ first ≤ 0xdf then
      match rest with
      | second :: rest =>
        if second < 0x80 ∨ 0xbf < second then false else unity_yaml_utf8_is_valid rest
      | [] => false
    else if 0xe0 ≤ first ∧ first ≤ 0xef then
      match rest with
      | second :: third :: rest =>
        if third < 0x80 ∨ 0xbf < third ∨
            (first = 0xe0 ∧ (second < 0xa0 ∨ 0xbf < second)) ∨
            (first = 0xed ∧ (second < 0x80 ∨ 0x9f < second)) ∨
            (first ≠ 0xe0 ∧ first ≠ 0xed ∧ (second < 0x80 ∨ 0xbf < second)) then false
        else unity_yaml_utf8_is_valid rest
      | _ => false
    else if 0xf0 ≤ first ∧ first ≤ 0xf4 then
      match rest with
      | second :: third :: fourth :: rest =>
        if third < 0x80 ∨ 0xbf < third ∨ fourth < 0x80 ∨ 0xbf < fourth ∨
            (first = 0xf0 ∧ (second < 0x90 ∨ 0xbf < second)) ∨
            (first = 0xf4 ∧ (second < 0x80 ∨ 0x8f < second)) ∨
            (first ≠ 0xf0 ∧ first ≠ 0xf4 ∧ (second < 0x80 ∨ 0xbf < second)) then false
        else unity_yaml_utf8_is_valid rest
      | _ => false
    else false

def utf8_sequence_size (first : UInt8) : ℕ :=
  if first ≤ 0x7f then 1 else if first ≤ 0xdf then 2 else if first ≤ 0xef then 3 else 4

/-- The byte at an index. A sequence that ends early is read as zeros, which a valid input never
shows. -/
def sequenceByte (bytes : Bytes) (index : ℕ) : UInt8 := bytes.getD index 0

def utf8_decode (bytes : Bytes) (count : ℕ) : UInt32 :=
  let byte := sequenceByte bytes
  if count = 1 then (byte 0).toUInt32
  else if count = 2 then
    ((byte 0 &&& 0x1f).toUInt32 <<< 6) ||| (byte 1 &&& 0x3f).toUInt32
  else if count = 3 then
    ((byte 0 &&& 0x0f).toUInt32 <<< 12) ||| ((byte 1 &&& 0x3f).toUInt32 <<< 6) |||
      (byte 2 &&& 0x3f).toUInt32
  else
    ((byte 0 &&& 0x07).toUInt32 <<< 18) ||| ((byte 1 &&& 0x3f).toUInt32 <<< 12) |||
      ((byte 2 &&& 0x3f).toUInt32 <<< 6) ||| (byte 3 &&& 0x3f).toUInt32

def hex_digit (value : UInt32) : UInt8 :=
  (asciiBytes "0123456789abcdef").getD (value &&& 0xf).toNat 0

variable (codepoint : UInt32)

def hex_digits (shifts : List UInt32) : Bytes :=
  shifts.map fun shift => hex_digit (codepoint >>> shift)

def append_hex_escape : Bytes :=
  if codepoint ≤ 0xffff then asciiBytes "\\u" ++ hex_digits codepoint [12, 8, 4, 0]
  else asciiBytes "\\U" ++ hex_digits codepoint [28, 24, 20, 16, 12, 8, 4, 0]

def quoted_character (sequence : Bytes) : Bytes :=
  if codepoint = 0x00 then asciiBytes "\\0"
  else if codepoint = 0x07 then asciiBytes "\\a"
  else if codepoint = 0x08 then asciiBytes "\\b"
  else if codepoint = 0x09 then asciiBytes "\\t"
  else if codepoint = 0x0a then asciiBytes "\\n"
  else if codepoint = 0x0b then asciiBytes "\\v"
  else if codepoint = 0x0c then asciiBytes "\\f"
  else if codepoint = 0x0d then asciiBytes "\\r"
  else if codepoint = 0x1b then asciiBytes "\\e"
  else if codepoint = 0x22 then asciiBytes "\\\""
  else if codepoint = 0x5c then asciiBytes "\\\\"
  else if codepoint < 0x20 ∨ (0x7f ≤ codepoint ∧ codepoint ≤ 0x9f) ∨ codepoint = 0x2028 ∨
      codepoint = 0x2029 then append_hex_escape codepoint
  else sequence

section Append

variable {Builder : Type} (sb : StringBuilder Builder)

/-- The loop over the sequences. Every round takes at least one byte. -/
def append_characters : (fuel : ℕ) → (bytes : Bytes) → Builder → Builder
  | 0, _, output => output
  | fuel + 1, bytes, output =>
    match bytes with
    | [] => output
    | first :: _ =>
      let count := utf8_sequence_size first
      append_characters fuel (bytes.drop count) (sb.sb_append_len output
          (quoted_character (utf8_decode bytes count) (bytes.take count)))

def unity_yaml_append_quoted_n (output : Builder) (bytes : Bytes) : UnityYamlStatus × Builder :=
  if unity_yaml_utf8_is_valid bytes = false then (.invalidUtf8, output)
  else
    let output := sb.sb_append_len output (asciiBytes "\"")
    let output := append_characters sb bytes.length bytes output
    let output := sb.sb_append_len output (asciiBytes "\"")
    (if sb.sb_ok output then .ok else .outputFailed, output)

end Append

end UnityYaml

end DXBCSandbox
