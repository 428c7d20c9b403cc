/-
The include scanner of the compile cache (`src/compiler/unity_include_scan.c`).

A source is first made logical: lines are spliced, line ends are newlines, and comments are one
space each. The second half of this works in one buffer, which it reads and overwrites. The
directives of the logical text are then read line by line, and each include path is passed to a
visitor, which may refuse it.

The text is its bytes up to the terminator. The source and the visitor are not null, and
allocation succeeds. The visitor's context is a state that each call may change.
-/
import DXBCSandbox.Lib.InPlace
import Mathlib.Algebra.Ring.Nat

namespace DXBCSandbox

open InPlace

namespace IncludeScan

inductive UscIncludeScanStatus where
  | ok | unsupported | visitorFailed
  deriving DecidableEq

def byte (c : Char) : UInt8 := c.toNat.toUInt8

def bytes (s : String) : List UInt8 := s.toList.map byte

def newline : UInt8 := byte '\n'

def SIZE_MAX : ℕ := 2 ^ 64 - 1

def horizontal_space (c : UInt8) : Bool :=
  c == byte ' ' || c == byte '\t' || c == byte '\r' || c == 0x0b || c == 0x0c

def identifier_char (c : UInt8) : Bool :=
  (byte 'a' ≤ c && c ≤ byte 'z') || (byte 'A' ≤ c && c ≤ byte 'Z') ||
    (byte '0' ≤ c && c ≤ byte '9') || c == byte '_'

def include_name (name : List UInt8) : Bool :=
  name == bytes "include" || name == bytes "include_with_pragmas"

variable (line : List UInt8)

/-- The prefix already emitted on this logical line is an include directive up to its operand. -/
def awaiting_header : Bool :=
  match line.dropWhile horizontal_space with
  | [] => false
  | c :: rest =>
    if c ≠ byte '#' then false
    else
      let rest := rest.dropWhile horizontal_space
      let name := rest.takeWhile identifier_char
      if !include_name name then false
      else ((rest.drop name.length).dropWhile horizontal_space).isEmpty

/-! ## The logical source -/

def bom : List UInt8 := [0xef, 0xbb, 0xbf]

variable (source : List UInt8)

/-- Bytes that no supported source has at the position `source` starts at. -/
def unsupportedAt : Bool :=
  source.head? == some 0 || (bytes "??/").isPrefixOf source || bom.isPrefixOf source

/-- The first loop: lines are spliced, and every line end becomes a newline. -/
def splice_lines : List UInt8 → Option (List UInt8)
  | [] => some []
  | c :: rest =>
    if unsupportedAt (c :: rest) then none
    else
      match rest with
      | [] => some [if c = byte '\r' then newline else c]
      | d :: rest' =>
        if c = byte '\\' ∧ d = newline then splice_lines rest'
        else if c = byte '\\' ∧ d = byte '\r' then
          match rest' with
          | [] => some []
          | e :: rest'' =>
            if e = newline then splice_lines rest'' else splice_lines (e :: rest'')
        else if c = byte '\r' then
          if d = newline then (splice_lines rest').map (newline :: ·)
          else (splice_lines (d :: rest')).map (newline :: ·)
        else (splice_lines (d :: rest')).map (c :: ·)

/-- The bytes of an angle header name, up to its end. -/
def header_tail : ℕ → Buffer UInt8 → Buffer UInt8
  | 0, b => b
  | fuel + 1, b =>
    match b.peek 0 with
    | some c => if c ≠ newline ∧ c ≠ byte '>' then header_tail fuel b.copy else b
    | none => b

/-- The bytes of a literal, and whether its closing quote was met. -/
def literal_tail (quote : UInt8) : ℕ → Buffer UInt8 → Buffer UInt8 × Bool
  | 0, b => (b, false)
  | fuel + 1, b =>
    match b.peek 0 with
    | some c =>
      if c = newline then (b, false)
      else if c = quote then (b.copy, true)
      else if c = byte '\\' ∧ (b.copy.peek 0).isSome then literal_tail quote fuel b.copy.copy
      else literal_tail quote fuel b.copy
    | none => (b, false)

def line_comment_tail : ℕ → Buffer UInt8 → Buffer UInt8
  | 0, b => b
  | fuel + 1, b =>
    match b.peek 0 with
    | some c => if c ≠ newline then line_comment_tail fuel (b.skip 1) else b
    | none => b

/-- A block comment is passed over up to its closing delimiter. -/
def block_comment_tail : ℕ → Buffer UInt8 → Buffer UInt8
  | 0, b => b
  | fuel + 1, b =>
    match b.peek 0, b.peek 1 with
    | some c, some d =>
      if c ≠ byte '*' ∨ d ≠ byte '/' then block_comment_tail fuel (b.skip 1) else b
    | _, _ => b

/-- The second loop: comments become one space, and literals and angle header names stay. -/
def strip_comments : ℕ → Buffer UInt8 → ℕ → Option (List UInt8)
  | 0, _, _ => none
  | fuel + 1, b, line_start =>
    match b.peek 0 with
    | none => some b.kept
    | some c =>
      if c = byte '<' ∧ awaiting_header (b.kept.drop line_start) then
        let b := header_tail b.text.length b.copy
        if b.peek 0 = some (byte '>') then strip_comments fuel b.copy line_start else none
      else if c = byte '"' ∨ c = byte '\'' then
        let (b, closed) := literal_tail c b.text.length b.copy
        if closed then strip_comments fuel b line_start else none
      else if c = byte '/' ∧ b.peek 1 = some (byte '/') then
        strip_comments fuel (line_comment_tail b.text.length ((b.put (byte ' ')).skip 2)) line_start
      else if c = byte '/' ∧ b.peek 1 = some (byte '*') then
        let b := block_comment_tail b.text.length ((b.put (byte ' ')).skip 2)
        if (b.peek 1).isNone then none else strip_comments fuel (b.skip 2) line_start
      else
        strip_comments fuel b.copy (if c = newline then b.copy.written else line_start)

def hasTrigraph : List UInt8 → Bool
  | a :: b :: c :: rest =>
    (a == byte '?' && b == byte '?' && (bytes "=/'()!<>-").contains c) ||
      hasTrigraph (b :: c :: rest)
  | _ => false

def logical_source : Option (List UInt8) :=
  if source.length = SIZE_MAX then none
  else do
    let text ← splice_lines (if bom.isPrefixOf source then source.drop 3 else source)
    let text ← strip_comments (text.length + 1) ⟨text, 0, 0⟩ 0
    if hasTrigraph text then none else some text

/-! ## Directives -/

/-- What the visitor makes of a path: its answer, and its context afterwards. -/
abbrev Visitor (σ : Type) := σ → List UInt8 → Bool × σ

def unsupportedPragma : Bool :=
  let pragma := (line.dropWhile horizontal_space).takeWhile identifier_char
  pragma == bytes "surface" || (bytes "include").isPrefixOf pragma

def scan_include {σ : Type} (visit : Visitor σ) (context : σ) : UscIncludeScanStatus × σ :=
  match line.dropWhile horizontal_space with
  | [] => (.unsupported, context)
  | c :: line =>
    if c ≠ byte '"' ∧ c ≠ byte '<' then (.unsupported, context)
    else
      let close := if c = byte '"' then byte '"' else byte '>'
      let path := line.takeWhile (· != close)
      match line.drop path.length with
      | [] => (.unsupported, context)
      | _ :: rest =>
        if path = [] ∨ path.getLast? = some (byte '\\') then (.unsupported, context)
        else if rest.dropWhile horizontal_space ≠ [] then (.unsupported, context)
        else
          match visit context path with
          | (true, context) => (.ok, context)
          | (false, context) => (.visitorFailed, context)

def scan_directive {σ : Type} (visit : Visitor σ) (context : σ) : UscIncludeScanStatus × σ :=
  let line := line.dropWhile horizontal_space
  if (bytes "%:").isPrefixOf line then (.unsupported, context)
  else
    match line with
    | [] => (.ok, context)
    | c :: line =>
      if c ≠ byte '#' then (.ok, context)
      else
        let line := line.dropWhile horizontal_space
        let name := line.takeWhile identifier_char
        let line := line.drop name.length
        if include_name name then scan_include line visit context
        else if name = bytes "pragma" ∧ unsupportedPragma line then (.unsupported, context)
        else if (bytes "include").isPrefixOf name ∨ name = bytes "import" then
          (.unsupported, context)
        else (.ok, context)

/-- The lines of the logical text, up to the first that is not read. -/
def scan_lines {σ : Type} (visit : Visitor σ) : ℕ → List UInt8 → σ → UscIncludeScanStatus × σ
  | 0, _, context => (.unsupported, context)
  | fuel + 1, text, context =>
    let line := text.takeWhile (· != newline)
    match scan_directive line visit context with
    | (.ok, context) =>
      match text.drop line.length with
      | [] => (.ok, context)
      | _ :: next => scan_lines visit fuel next context
    | failed => failed

def usc_include_scan {σ : Type} (visit : Visitor σ) (context : σ) : UscIncludeScanStatus × σ :=
  match logical_source source with
  | none => (.unsupported, context)
  | some text => scan_lines visit (text.length + 1) text context

end IncludeScan

end DXBCSandbox
