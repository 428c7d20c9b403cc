/-
File names of flat shader artifacts (`src/common/shader_artifact.c`).

The shader name is copied piece by piece, a byte or what `valid_utf8_width` takes for a character.
A piece that does not fit into the limit ends the copy, and what was copied is trimmed and escaped.
`valid_utf8_width` only looks at the shape of the bytes, so it also takes bytes for a character that
are none.
-/
import DXBCSandbox.Common.VariantKey
import Mathlib.Data.FinEnum
import Mathlib.Data.List.DropRight

namespace DXBCSandbox

namespace ShaderArtifact

def lowercase_hex_string (value : CString) : Bool :=
  value.bytes ≠ [] ∧ ∀ byte ∈ value.bytes, (48 ≤ byte ∧ byte ≤ 57) ∨ (97 ≤ byte ∧ byte ≤ 102)

def ascii_lower (value : UInt8) : UInt8 := if 65 ≤ value ∧ value ≤ 90 then value + 32 else value

def ascii_word_equal_ignore_case (value expected : Bytes) : Bool :=
  value.map ascii_lower = expected.map ascii_lower

def windows_device_basename (value : Bytes) : Bool :=
  let base := value.takeWhile (· ≠ 46)
  if ascii_word_equal_ignore_case base (asciiBytes "con") ∨
      ascii_word_equal_ignore_case base (asciiBytes "prn") ∨
      ascii_word_equal_ignore_case base (asciiBytes "aux") ∨
      ascii_word_equal_ignore_case base (asciiBytes "nul") ∨
      ascii_word_equal_ignore_case base (asciiBytes "clock$") then true
  else
    base.length = 4 ∧ (ascii_word_equal_ignore_case (value.take 3) (asciiBytes "com") ∨
        ascii_word_equal_ignore_case (value.take 3) (asciiBytes "lpt")) ∧
      49 ≤ value.getD 3 0 ∧ value.getD 3 0 ≤ 57

/-- The byte at an index of a string, its NUL behind the last one. -/
def byteAt (cursor : Bytes) (index : ℕ) : UInt8 := cursor.getD index 0

def valid_utf8_width (cursor : Bytes) : ℕ :=
  let value := byteAt cursor 0
  let width := if 0xf0 ≤ value then 4 else if 0xe0 ≤ value then 3 else if 0xc2 ≤ value then 2 else 0
  if width = 0 then 0
  else if (List.range' 1 (width - 1)).all fun index =>
      byteAt cursor index ≠ 0 ∧ byteAt cursor index &&& 0xc0 = 0x80 then width
  else 0

def MAX_FLAT_NAME_BYTES : ℕ := 144

def invalid (value : UInt8) : Bool :=
  value < 0x20 ∨ value ∈ asciiBytes "<>:\"/\\|?*"

/-- The loop over the shader name. Every round takes at least one byte. -/
def copy_safe_name : (fuel : ℕ) → (cursor safe_name : Bytes) → Bytes
  | 0, _, safe_name => safe_name
  | _ + 1, [], safe_name => safe_name
  | fuel + 1, value :: rest, safe_name =>
    if MAX_FLAT_NAME_BYTES ≤ safe_name.length then safe_name
    else if 0x80 ≤ value then
      let width := valid_utf8_width (value :: rest)
      if width = 0 then copy_safe_name fuel rest (safe_name ++ asciiBytes "_")
      else if MAX_FLAT_NAME_BYTES < safe_name.length + width then safe_name
      else
        copy_safe_name fuel ((value :: rest).drop width) (safe_name ++ (value :: rest).take width)
    else
      copy_safe_name fuel rest (safe_name ++ (if invalid value then asciiBytes "_" else [value]))

def isTrimmed (value : UInt8) : Bool := value = 46 ∨ value = 32

def flat_safe_name (shader_name : Bytes) : Bytes :=
  let copied := copy_safe_name shader_name.length shader_name []
  let trimmed := copied.rdropWhile isTrimmed
  let safe_name := if trimmed = [] then asciiBytes "_" else trimmed
  if safe_name = asciiBytes "." ∨ safe_name = asciiBytes ".." ∨
      windows_device_basename safe_name then asciiBytes "_" ++ safe_name
  else safe_name

def signedBytes (value : Int64) : Bytes :=
  if value.toInt < 0 then asciiBytes "-" ++ decimalBytes value.toInt.natAbs
  else decimalBytes value.toInt.natAbs

end ShaderArtifact

open ShaderArtifact in
/-- The name, if it fits into the buffer. -/
def shader_flat_artifact_filename (out_size : ℕ) (shader_name : CString)
    (identity_tag : Option CString) (path_id : Int64) : Option Bytes :=
  if out_size = 0 ∨ shader_name.bytes = [] ∨
      identity_tag.any (fun tag => ! lowercase_hex_string tag) then none
  else
    let safe_name := flat_safe_name shader_name.bytes
    let written := match identity_tag with
      | some tag => safe_name ++ asciiBytes "__" ++ tag.bytes ++ asciiBytes "_" ++
          signedBytes path_id ++ asciiBytes ".shader"
      | none => safe_name ++ asciiBytes ".shader"
    -- `snprintf` returns a negative number where the length is no `int`.
    if written.length ≤ INT_MAX ∧ written.length < out_size then some written else none

end DXBCSandbox
