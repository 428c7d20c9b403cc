/-
Texts of reflection records (`src/compiler/unity_compiler_client.c`).

The compiler reports its reflection as lines. A line has a prefix, for most kinds a name, and a
fixed number of values. Records are compared by their texts, so a text must be the only one for what
it says.
-/
import DXBCSandbox.Compiler.CompileAuthority
import DXBCSandbox.Compiler.ReflectionExpected

namespace DXBCSandbox

open CompileAuthority (isspace)

namespace ReflectionRecord

/-! ## Numbers -/

def isdigit (c : UInt8) : Bool := 48 ≤ c ∧ c ≤ 57

/-- One digit behind the ones before, if the number stays within the limit. -/
def push_digit (limit magnitude : UInt64) (c : UInt8) : Option UInt64 :=
  let digit := (c - 48).toUInt64
  if (limit - digit) / 10 < magnitude then none else some (magnitude * 10 + digit)

def scan_digits (limit : UInt64) : Bytes → (magnitude : UInt64) → Option (UInt64 × Bytes)
  | [], magnitude => some (magnitude, [])
  | c :: text, magnitude =>
    if ¬ isdigit c then some (magnitude, c :: text)
    else do
      let magnitude ← push_digit limit magnitude c
      scan_digits limit text magnitude

def parse_canonical_i32 (cursor : Bytes) : Option (Int32 × Bytes) :=
  let negative : Bool := cursor.head? = some 45
  let text := if negative then cursor.tail else cursor
  match text with
  | [] => none
  | c :: rest =>
    if ¬ isdigit c then none
    else if c = 48 ∧ (negative ∨ rest.head?.any isdigit) then none
    else do
      let (magnitude, text) ← scan_digits (if negative then 2147483648 else 2147483647)
        (c :: rest) 0
      let value := if negative then
          (if magnitude = 2147483648 then Int32.minValue else -Int32.ofNat magnitude.toNat)
        else Int32.ofNat magnitude.toNat
      some (value, text)

/-- The loop over the values, each behind a space. -/
def parse_values : (value_count : ℕ) → Bytes →
    Option ({ values : List Int32 // values.length = value_count } × Bytes)
  | 0, cursor => some (⟨[], rfl⟩, cursor)
  | _ + 1, [] => none
  | value_count + 1, c :: cursor =>
    if c ≠ 32 then none
    else do
      let (value, cursor) ← parse_canonical_i32 cursor
      let (values, cursor) ← parse_values value_count cursor
      some (⟨value :: values.val, congrArg Nat.succ values.property⟩, cursor)

def parse_exact_values (value_count : ℕ) (cursor : Bytes) :
    Option { values : List Int32 // values.length = value_count } :=
  match parse_values value_count cursor with
  | some (values, []) => some values
  | _ => none

/-! ## Records -/

structure ReflectionRecordShape where
  kind : UnityCompilerReflectionKind
  prefix_bytes : Bytes
  value_count : ℕ
  named : Bool
  value_count_le : value_count ≤ UNITY_COMPILER_REFLECTION_MAX_VALUES
  deriving DecidableEq

def kReflectionRecordShapes : List ReflectionRecordShape :=
  [⟨.input, asciiBytes "input:", 2, false, by decide⟩,
    ⟨.constantBuffer, asciiBytes "cb:", 2, true, by decide⟩,
    ⟨.constant, asciiBytes "const:", 6, true, by decide⟩,
    ⟨.constantBufferBinding, asciiBytes "cbbind:", 1, true, by decide⟩,
    ⟨.textureBinding, asciiBytes "texbind:", 4, true, by decide⟩,
    ⟨.sampler, asciiBytes "sampler:", 2, false, by decide⟩,
    ⟨.bufferBinding, asciiBytes "bufferbind:", 2, true, by decide⟩,
    ⟨.uavBinding, asciiBytes "uavbind:", 2, true, by decide⟩,
    ⟨.stats, asciiBytes "stats:", 4, false, by decide⟩]

structure ReflectionRecordText extends UnityCompilerReflectionRecord where
  record : CString

/-- The name in a text: what follows the prefix and a space, up to the next white space. -/
def nameOf (text : CString) (prefix_size : ℕ) : CString where
  bytes := ((text.bytes.drop prefix_size).drop 1).takeWhile fun c => ! isspace c
  no_nul h := text.no_nul
    (List.mem_of_mem_drop (List.mem_of_mem_drop (( List.takeWhile_prefix _).mem h)))

def parse_shape (text : CString) (shape : ReflectionRecordShape) : Option ReflectionRecordText :=
  let rest := text.bytes.drop shape.prefix_bytes.length
  if ¬ shape.named then do
    let values ← parse_exact_values shape.value_count rest
    some ⟨⟨shape.kind, none, values.val, values.property.trans_le shape.value_count_le⟩, text⟩
  else if rest.head? ≠ some 32 then none
  else
    let name := nameOf text shape.prefix_bytes.length
    if name.bytes = [] then none
    else do
      let values ← parse_exact_values shape.value_count
        ((rest.drop 1).dropWhile fun c => ! isspace c)
      some ⟨⟨shape.kind, some name, values.val, values.property.trans_le shape.value_count_le⟩,
        text⟩

end ReflectionRecord

open ReflectionRecord

def unity_compiler_reflection_record_parse (text : CString) : Option ReflectionRecordText :=
  match kReflectionRecordShapes.find? fun shape => shape.prefix_bytes.isPrefixOf text.bytes with
  | none => none
  | some shape => parse_shape text shape

def unity_compiler_reflection_records_equal (left right : List ReflectionRecordText) : Bool :=
  left.map (fun record => record.record) = right.map fun record => record.record

end DXBCSandbox
