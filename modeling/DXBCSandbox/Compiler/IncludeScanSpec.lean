/-
What the include scanner visits, against a reference lexer.

The reference reads a source in phases: the mark of the encoding goes, line ends become newlines,
each backslash before a newline splices once, and an automaton that sees one byte and the next
removes comments and knows literals and angle header names. It stops with a fault where a literal,
a header name or a comment is left open. The include paths are then the header names of the lines.

The scanner agrees with the reference on every source but one kind. Inside a literal it takes the
byte after a backslash without looking at it, and splicing once can leave a backslash before a
line end: such a literal goes on in the next line, where the reference stops. A source that the
first loop refuses never gets there.
-/
import DXBCSandbox.Compiler.IncludeScan
import Mathlib.Data.List.TakeDrop
import Mathlib.Data.List.TakeWhile

namespace DXBCSandbox

open List Option InPlace

namespace IncludeScan

/-! ## The reference lexer -/

/-- A carriage return, alone or before a newline, ends a line as a newline does. -/
def unifyLineEnds : List UInt8 → List UInt8
  | [] => []
  | c :: rest =>
    if c = byte '\r' then
      if rest.head? = some newline then unifyLineEnds rest else newline :: unifyLineEnds rest
    else c :: unifyLineEnds rest

/-- Each backslash before a newline is deleted with it; what this brings together is not read
again. -/
def spliceOnce : List UInt8 → List UInt8
  | c :: d :: rest =>
    if c = byte '\\' ∧ d = newline then spliceOnce rest else c :: spliceOnce (d :: rest)
  | rest => rest

def directive (line : List UInt8) : Option (List UInt8 × List UInt8) :=
  match line.dropWhile horizontal_space with
  | [] => none
  | c :: rest =>
    if c = byte '#' then some ((rest.dropWhile horizontal_space).span identifier_char) else none

/-- The line so far is an include directive without its operand. -/
def awaitsHeader (line : List UInt8) : Bool :=
  match directive line with
  | some (name, operand) => include_name name && operand.all horizontal_space
  | none => false

inductive Fault where
  | openLiteral | escapedLineEnd | openHeader | openComment
  deriving DecidableEq

inductive Mode where
  | text | header | literal (quote : UInt8) | escape (quote : UInt8)
  | lineComment | blockOpen | block | blockClose

def Mode.atEnd : Mode → Except Fault (List UInt8)
  | .text | .lineComment => .ok []
  | .header => .error .openHeader
  | .literal _ | .escape _ => .error .openLiteral
  | .blockOpen | .block | .blockClose => .error .openComment

/-- The mode that a byte of the text starts, `rest` being what follows it. -/
def Mode.after (line : List UInt8) (c : UInt8) (rest : List UInt8) : Mode :=
  if c = byte '<' ∧ awaitsHeader line then .header
  else if c = byte '"' ∨ c = byte '\'' then .literal c
  else if c = byte '/' ∧ rest.head? = some (byte '/') then .lineComment
  else if c = byte '/' ∧ rest.head? = some (byte '*') then .blockOpen
  else .text

def Mode.leaves (c : UInt8) : Mode → UInt8
  | .lineComment | .blockOpen => byte ' '
  | _ => c

/-- A logical text without its comments. `line` is what is left of the line so far. -/
def lex : Mode → List UInt8 → List UInt8 → Except Fault (List UInt8)
  | mode, _, [] => mode.atEnd
  | .text, line, c :: rest =>
    if c = newline then (newline :: ·) <$> lex .text [] rest
    else
      ((Mode.after line c rest).leaves c :: ·) <$>
        lex (.after line c rest) (line ++ [(Mode.after line c rest).leaves c]) rest
  | .header, line, c :: rest =>
    if c = newline then .error .openHeader
    else (c :: ·) <$> lex (if c = byte '>' then .text else .header) (line ++ [c]) rest
  | .literal quote, line, c :: rest =>
    if c = newline then .error .openLiteral
    else
      (c :: ·) <$> lex (if c = quote then .text
        else if c = byte '\\' then .escape quote else .literal quote) (line ++ [c]) rest
  | .escape quote, line, c :: rest =>
    if c = newline then .error .escapedLineEnd
    else (c :: ·) <$> lex (.literal quote) (line ++ [c]) rest
  | .lineComment, line, c :: rest =>
    if c = newline then (newline :: ·) <$> lex .text [] rest else lex .lineComment line rest
  | .blockOpen, line, _ :: rest => lex .block line rest
  | .block, line, c :: rest =>
    lex (if c = byte '*' ∧ rest.head? = some (byte '/') then .blockClose else .block) line rest
  | .blockClose, line, _ :: rest => lex .text line rest

/-- What stands before the first closing byte. -/
def upTo (close : UInt8) (rest : List UInt8) : Option (List UInt8) :=
  if close ∈ rest then some (rest.takeWhile (· != close)) else none

def operandName (operand : List UInt8) : Option (List UInt8) :=
  match operand.dropWhile horizontal_space with
  | [] => none
  | c :: rest =>
    if c = byte '"' then upTo (byte '"') rest
    else if c = byte '<' then upTo (byte '>') rest else none

def headerName (line : List UInt8) : Option (List UInt8) :=
  match directive line with
  | some (name, operand) => if include_name name then operandName operand else none
  | none => none

variable (source : List UInt8)

/-- The bytes after a mark of the encoding at the start. -/
def afterMark : List UInt8 := if bom.isPrefixOf source then source.drop 3 else source

def referenceText : Except Fault (List UInt8) :=
  lex .text [] (spliceOnce (unifyLineEnds (afterMark source)))

/-- The source is too long, or has a NUL byte, `??/` or a second mark of the encoding: it is refused
before a literal is read. -/
def refusedAtOnce : Bool :=
  source.length == SIZE_MAX || (afterMark source).tails.any unsupportedAt

/-- The header names of a source's include directives, in order. -/
def referenceIncludes : Except Fault (List (List UInt8)) :=
  (fun text => (text.splitOn newline).filterMap headerName) <$> referenceText source

/-- The visitor takes each of the paths, one after the other. -/
def visitAll {σ : Type} (visit : Visitor σ) : σ → List (List UInt8) → Option σ
  | context, [] => some context
  | context, path :: paths =>
    match visit context path with
    | (true, context) => visitAll visit context paths
    | (false, _) => none

/-- The scan of a source is the reference's: where it succeeds, the visitor was called with the
reference's header names and took them all; where the reference finds something left open, it
reports the source as unsupported, and no visitor was called. -/
def ScanExact {σ : Type} (visit : Visitor σ) (context : σ) : Prop :=
  (∀ context', usc_include_scan source visit context = (.ok, context') →
    ∃ paths, referenceIncludes source = .ok paths ∧ visitAll visit context paths = some context') ∧
  ∀ fault, referenceIncludes source = .error fault →
    usc_include_scan source visit context = (.unsupported, context)

/-! ## Splicing -/

attribute [local simp] spliceOnce unifyLineEnds

variable {c : UInt8}

lemma spliceOnce_cons (h : c ≠ byte '\\') (rest : List UInt8) :
    spliceOnce (c :: rest) = c :: spliceOnce rest := by
  cases rest with
  | nil => rfl
  | cons d rest => simp [h]

variable {rest : List UInt8}

lemma spliceOnce_cons_of_head (h : c = byte '\\' → rest.head? ≠ some newline) :
    spliceOnce (c :: rest) = c :: spliceOnce rest := by
  cases rest with
  | nil => rfl
  | cons d rest => rw [spliceOnce, if_neg (fun hc => h hc.1 (congrArg some hc.2))]

lemma spliceOnce_backslash (rest : List UInt8) :
    spliceOnce (byte '\\' :: newline :: rest) = spliceOnce rest := by
  simp

lemma unifyLineEnds_cons (h : c ≠ byte '\r') (rest : List UInt8) :
    unifyLineEnds (c :: rest) = c :: unifyLineEnds rest := by
  simp [h]

lemma unifyLineEnds_return_newline (rest : List UInt8) :
    unifyLineEnds (byte '\r' :: newline :: rest) = newline :: unifyLineEnds rest := by
  rw [unifyLineEnds, if_pos rfl, head?_cons, if_pos rfl, unifyLineEnds_cons (by decide)]

lemma unifyLineEnds_return (h : rest.head? ≠ some newline) :
    unifyLineEnds (byte '\r' :: rest) = newline :: unifyLineEnds rest := by
  simp [h]

variable {source text : List UInt8}

lemma splice_lines_eq (h : splice_lines source = some text) :
    text = spliceOnce (unifyLineEnds source) := by
  fun_induction splice_lines source generalizing text with
  | case1 => exact (some.inj h).symm
  | case2 c rest _ => simp at h
  | case3 c _ =>
    rw [← some.inj h]
    by_cases hc : c = byte '\r'
    · rw [if_pos hc, hc]
      rfl
    · rw [if_neg hc, unifyLineEnds_cons hc]
      rfl
  | case4 c d rest hcd _ ih =>
    rw [hcd.1, hcd.2, unifyLineEnds_cons (by decide), unifyLineEnds_cons (by decide),
      spliceOnce_backslash]
    exact ih h
  | case5 c d _ hcd _ =>
    rw [← some.inj h, hcd.1, hcd.2]
    rfl
  | case6 c d _ hcd rest _ ih =>
    rw [hcd.1, hcd.2, unifyLineEnds_cons (by decide), unifyLineEnds_return_newline,
      spliceOnce_backslash]
    exact ih h
  | case7 c d _ hcd e rest he _ ih =>
    rw [hcd.1, hcd.2, unifyLineEnds_cons (by decide),
      unifyLineEnds_return (by rwa [head?_cons, ne_eq, some_inj]),
      spliceOnce_backslash]
    exact ih h
  | case8 rest _ _ _ ih =>
    obtain ⟨text', htext, rfl⟩ := map_eq_some_iff.mp h
    rw [unifyLineEnds_return_newline, spliceOnce_cons (by decide), ih htext]
  | case9 d rest hd _ _ _ ih =>
    obtain ⟨text', htext, rfl⟩ := map_eq_some_iff.mp h
    rw [unifyLineEnds_return (by rwa [head?_cons, ne_eq, some_inj]),
      spliceOnce_cons (by decide), ih htext]
  | case10 c d rest hnl hreturn hc _ ih =>
    obtain ⟨text', htext, rfl⟩ := map_eq_some_iff.mp h
    have hhead : c = byte '\\' → (unifyLineEnds (d :: rest)).head? ≠ some newline := by
      intro hback
      rw [unifyLineEnds_cons (fun hd => hreturn ⟨hback, hd⟩)]
      exact fun hd => hnl ⟨hback, some.inj hd⟩
    rw [unifyLineEnds_cons hc, spliceOnce_cons_of_head hhead, ih htext]

lemma any_tails (h : ¬ unsupportedAt (c :: rest) = true) :
    (c :: rest).tails.any unsupportedAt = rest.tails.any unsupportedAt := by
  rw [tails, any_cons, Bool.eq_false_iff.mpr h, Bool.false_or]

lemma unsupportedAt_lineEnd (h : c = newline ∨ c = byte '\r') (rest : List UInt8) :
    ¬ unsupportedAt (c :: rest) = true := by
  rcases h with rfl | rfl <;> rw [Bool.not_eq_true] <;> rfl

/-- The first loop refuses what it skips as well: a line end is not refused at its bytes. -/
theorem splice_lines_none (h : source.tails.any unsupportedAt = true) :
    splice_lines source = none := by
  fun_induction splice_lines source with
  | case1 => cases h
  | case2 c rest _ => rfl
  | case3 c hc =>
    rw [any_tails hc] at h
    cases h
  | case4 c d rest hcd hc ih =>
    rw [any_tails hc, any_tails (unsupportedAt_lineEnd (.inl hcd.2) rest)] at h
    exact ih h
  | case5 c d hnl hcd hc =>
    rw [any_tails hc, any_tails (unsupportedAt_lineEnd (.inr hcd.2) [])] at h
    cases h
  | case6 c d hnl hcd rest hc ih =>
    rw [any_tails hc, any_tails (unsupportedAt_lineEnd (.inr hcd.2) _),
      any_tails (unsupportedAt_lineEnd (.inl rfl) rest)] at h
    exact ih h
  | case7 c d hnl hcd e rest he hc ih =>
    rw [any_tails hc, any_tails (unsupportedAt_lineEnd (.inr hcd.2) _)] at h
    exact ih h
  | case8 rest hnl hreturn hc ih =>
    rw [any_tails hc, any_tails (unsupportedAt_lineEnd (.inl rfl) rest)] at h
    rw [ih h, map_none]
  | case9 d rest hd hnl hreturn hc ih =>
    rw [any_tails hc] at h
    rw [ih h, map_none]
  | case10 c d rest hnl hreturn hend hc ih =>
    rw [any_tails hc] at h
    rw [ih h, map_none]

/-! ## Directives of the line so far -/

lemma isEmpty_dropWhile (p : UInt8 → Bool) (l : List UInt8) :
    (l.dropWhile p).isEmpty = l.all p := by
  induction l with
  | nil => rfl
  | cons c l ih =>
    by_cases hc : p c = true
    · rw [dropWhile_cons_of_pos hc, ih, all_cons, hc, Bool.true_and]
    · rw [dropWhile_cons_of_neg hc, all_cons, Bool.eq_false_iff.mpr hc]
      rfl

lemma drop_takeWhile_length (p : UInt8 → Bool) (l : List UInt8) :
    l.drop (l.takeWhile p).length = l.dropWhile p := by
  have h : (l.takeWhile p ++ l.dropWhile p).drop (l.takeWhile p).length = l.dropWhile p :=
    drop_left
  rwa [takeWhile_append_dropWhile] at h

lemma awaiting_header_eq (line : List UInt8) : awaiting_header line = awaitsHeader line := by
  unfold awaiting_header awaitsHeader directive
  cases line.dropWhile horizontal_space with
  | nil => rfl
  | cons c rest =>
    by_cases hc : c = byte '#'
    · dsimp only
      rw [if_neg (not_not_intro hc), if_pos hc, span_eq_takeWhile_dropWhile,
        drop_takeWhile_length, isEmpty_dropWhile]
      dsimp only
      cases include_name ((rest.dropWhile horizontal_space).takeWhile identifier_char) <;> rfl
    · dsimp only
      rw [if_pos hc, if_neg hc]

/-! ## The inner loops -/

/-- A byte that does not end an angle header name. -/
def inHeader (c : UInt8) : Bool := c != newline && c != byte '>'

variable {b : Buffer UInt8} {out : List UInt8} {fuel : ℕ}

lemma header_tail_spec (h : Shows b out rest) (hfuel : rest.length < fuel) :
    Shows (header_tail fuel b) (out ++ rest.takeWhile inHeader) (rest.dropWhile inHeader) := by
  induction fuel generalizing b out rest with
  | zero => omega
  | succ fuel ih =>
    rw [header_tail, h.peek 0]
    cases rest with
    | nil => simpa using h
    | cons c rest =>
      dsimp only [getElem?_cons_zero]
      by_cases hc : c ≠ newline ∧ c ≠ byte '>'
      · have hin : inHeader c = true := by simp [inHeader, hc.1, hc.2]
        rw [if_pos hc, takeWhile_cons_of_pos hin, dropWhile_cons_of_pos hin,
          ← singleton_append, ← append_assoc]
        exact ih h.copy (by simpa using hfuel)
      · have hin : ¬ inHeader c = true := by simpa [inHeader] using hc
        rw [if_neg hc, takeWhile_cons_of_neg hin, dropWhile_cons_of_neg hin, append_nil]
        exact h

/-- Inside a header name the automaton keeps every byte up to the end. -/
theorem lex_header (line rest : List UInt8) : lex .header line rest =
      (rest.takeWhile inHeader ++ ·) <$>
        lex .header (line ++ rest.takeWhile inHeader) (rest.dropWhile inHeader) := by
  induction rest generalizing line with
  | nil => rfl
  | cons c rest ih =>
    by_cases hin : inHeader c = true
    · have hc : c ≠ newline ∧ c ≠ byte '>' := by simpa [inHeader] using hin
      rw [takeWhile_cons_of_pos hin, dropWhile_cons_of_pos hin, lex, if_neg hc.1,
        if_neg hc.2, ih, append_assoc, singleton_append]
      cases lex .header (line ++ c :: rest.takeWhile inHeader) (rest.dropWhile inHeader) <;> rfl
    · rw [takeWhile_cons_of_neg hin, dropWhile_cons_of_neg hin, append_nil]
      cases lex .header line (c :: rest) <;> rfl

lemma line_comment_tail_spec (h : Shows b out rest) (hfuel : rest.length < fuel) :
    Shows (line_comment_tail fuel b) out (rest.dropWhile (· != newline)) := by
  induction fuel generalizing b rest with
  | zero => omega
  | succ fuel ih =>
    rw [line_comment_tail, h.peek 0]
    cases rest with
    | nil => simpa using h
    | cons c rest =>
      dsimp only [getElem?_cons_zero]
      by_cases hc : c ≠ newline
      · rw [if_pos hc, dropWhile_cons_of_pos (by simpa using hc)]
        exact ih (h.skip (n := 1) (by simp)) (by simpa using hfuel)
      · rw [if_neg hc, dropWhile_cons_of_neg (by simpa using hc)]
        exact h

lemma lex_lineComment (line rest : List UInt8) :
    lex .lineComment line rest = lex .text line (rest.dropWhile (· != newline)) := by
  induction rest with
  | nil => rfl
  | cons c rest ih =>
    by_cases hc : c = newline
    · rw [dropWhile_cons_of_neg (by simpa using hc), lex, lex, if_pos hc, if_pos hc]
    · rw [dropWhile_cons_of_pos (by simpa using hc), lex, if_neg hc, ih]

/-- A block comment is passed over up to its closing delimiter, which the automaton passes over
as well, or there is none. -/
theorem block_comment_tail_spec (h : Shows b out rest) (hfuel : rest.length < fuel)
    (line : List UInt8) :
    ∃ rest', Shows (block_comment_tail fuel b) out rest' ∧ rest'.length ≤ rest.length ∧
      (rest'.length ≤ 1 ∧ lex .block line rest = .error .openComment ∨
        1 < rest'.length ∧ lex .block line rest = lex .text line (rest'.drop 2)) := by
  induction fuel generalizing b rest with
  | zero => omega
  | succ fuel ih =>
    rw [block_comment_tail, h.peek 0, h.peek 1]
    match rest with
    | [] => exact ⟨[], h, Nat.le_refl _, .inl ⟨Nat.zero_le 1, rfl⟩⟩
    | [c] =>
      refine ⟨[c], h, Nat.le_refl _, .inl ⟨Nat.le_refl 1, ?_⟩⟩
      rw [lex, if_neg (nofun)]
      rfl
    | c :: d :: rest =>
      dsimp only [getElem?_cons_zero, getElem?_cons_succ]
      by_cases hcd : c = byte '*' ∧ d = byte '/'
      · rw [if_neg (by simp [hcd.1, hcd.2])]
        refine ⟨c :: d :: rest, h, Nat.le_refl _, .inr ⟨by simp, ?_⟩⟩
        rw [lex, if_pos ⟨hcd.1, congrArg some hcd.2⟩, lex]
        rfl
      · rw [if_pos (by
          rw [← not_and_or]
          exact hcd)]
        obtain ⟨rest', hshows, hlen, hlex⟩ :=
          ih (h.skip (n := 1) (by simp)) (by simpa using hfuel)
        refine ⟨rest', hshows, Nat.le_succ_of_le hlen, ?_⟩
        rw [lex, if_neg (fun hc => hcd ⟨hc.1, some.inj hc.2⟩)]
        exact hlex

/-- What the loop over a literal has read, `lexed` being what the automaton makes of the same
bytes: where the loop meets the closing quote, the automaton has kept the same bytes, unless it
stopped at an escaped line end; where the loop does not, the automaton stopped too. -/
def LiteralRead (read : Buffer UInt8 × Bool) (out line : List UInt8) (size : ℕ)
    (lexed : Except Fault (List UInt8)) : Prop :=
  (read.2 = false ∧ ∃ fault, lexed = .error fault) ∨
  (read.2 = true ∧ ∃ body rest, rest.length < size ∧ Shows read.1 (out ++ body) rest ∧
    (lexed = .error .escapedLineEnd ∨ lexed = (body ++ ·) <$> lex .text (line ++ body) rest))

lemma map_append_map (u v : List UInt8) (e : Except Fault (List UInt8)) :
    (u ++ ·) <$> ((v ++ ·) <$> e) = ((u ++ v) ++ ·) <$> e := by
  cases e with
  | error fault => rfl
  | ok text => exact congrArg Except.ok (append_assoc u v text).symm

variable {u : List UInt8}

namespace LiteralRead

variable {read : Buffer UInt8 × Bool} {out line : List UInt8} {n m : ℕ}
  {lexed : Except Fault (List UInt8)}

lemma cons (h : LiteralRead read (out ++ [c]) (line ++ [c]) n lexed) (hnm : n ≤ m) :
    LiteralRead read out line m ((c :: ·) <$> lexed) := by
  rcases h with ⟨hopen, fault, hlexed⟩ | ⟨hclosed, body, rest, hlen, hshows, hlexed⟩
  · exact .inl ⟨hopen, fault, by rw [hlexed]; rfl⟩
  · rw [append_assoc, singleton_append] at hshows
    refine .inr ⟨hclosed, c :: body, rest, Nat.lt_of_lt_of_le hlen hnm, hshows, ?_⟩
    rcases hlexed with hesc | hkept
    · exact .inl (by rw [hesc]; rfl)
    · rw [append_assoc, singleton_append] at hkept
      exact .inr (by rw [hkept]; exact map_append_map [c] body _)

/-- Behind an escaped line end it does not matter what the loop goes on to read. -/
theorem escaped {line' : List UInt8} (h : LiteralRead read (out ++ u) line n lexed) (hnm : n ≤ m) :
    LiteralRead read out line' m (.error .escapedLineEnd) := by
  rcases h with ⟨hopen, -⟩ | ⟨hclosed, body, rest, hlen, hshows, -⟩
  · exact .inl ⟨hopen, .escapedLineEnd, rfl⟩
  · rw [append_assoc] at hshows
    exact .inr ⟨hclosed, u ++ body, rest, Nat.lt_of_lt_of_le hlen hnm, hshows, .inl rfl⟩

end LiteralRead

lemma literal_tail_spec (h : Shows b out rest) (hfuel : rest.length < fuel) (quote : UInt8)
    (line : List UInt8) :
    LiteralRead (literal_tail quote fuel b) out line rest.length
      (lex (.literal quote) line rest) := by
  induction fuel generalizing b out rest line with
  | zero => omega
  | succ fuel ih =>
    rw [literal_tail, h.peek 0]
    cases rest with
    | nil => exact .inl ⟨rfl, .openLiteral, rfl⟩
    | cons c rest =>
      have hcopy := h.copy
      dsimp only [getElem?_cons_zero]
      rw [lex, hcopy.peek 0]
      by_cases hnl : c = newline
      · rw [if_pos hnl, if_pos hnl]
        exact .inl ⟨rfl, .openLiteral, rfl⟩
      rw [if_neg hnl, if_neg hnl]
      by_cases hquote : c = quote
      · rw [if_pos hquote, if_pos hquote]
        exact .inr ⟨rfl, [c], rest, Nat.lt_succ_self _, hcopy, .inr rfl⟩
      rw [if_neg hquote, if_neg hquote]
      by_cases hback : c = byte '\\'
      · rw [if_pos hback]
        cases rest with
        | nil =>
          -- the source ends behind the backslash, so there is no closing quote to meet
          rw [if_neg (nofun)]
          apply LiteralRead.cons (n := 0) _ (Nat.zero_le _)
          exact ih hcopy (by simpa using hfuel) (line ++ [c])
        | cons d rest =>
          rw [if_pos ⟨hback, rfl⟩, lex]
          have hrest := ih hcopy.copy (by simp at hfuel; omega) ((line ++ [c]) ++ [d])
          by_cases hline : d = newline
          · rw [if_pos hline]
            rw [append_assoc] at hrest
            exact hrest.escaped (Nat.le_add_right _ 2)
          · rw [if_neg hline]
            exact (hrest.cons (Nat.le_succ _)).cons (Nat.le_succ _)
      · rw [if_neg hback, if_neg (fun hc => hback hc.1)]
        exact (ih hcopy (by simpa using hfuel) (line ++ [c])).cons (Nat.le_succ _)

/-! ## The second loop -/

/-- What the second loop keeps behind `out` is what the automaton keeps, and it gives up where the
automaton stops, but for an escaped line end. -/
def Agrees (kept : Option (List UInt8)) (out : List UInt8) : Except Fault (List UInt8) → Prop
  | .ok text => kept = some (out ++ text)
  | .error fault => fault ≠ .escapedLineEnd → kept = none

lemma Agrees.append {kept : Option (List UInt8)} {lexed : Except Fault (List UInt8)}
    (h : Agrees kept (out ++ u) lexed) :
    Agrees kept out ((u ++ ·) <$> lexed) := by
  cases lexed with
  | error fault => exact h
  | ok text =>
    show kept = some (out ++ (u ++ text))
    rw [← append_assoc]
    exact h

lemma Agrees.none (out : List UInt8) (fault : Fault) : Agrees none out (.error fault) :=
  fun _ => rfl

lemma drop_append_of_le {n : ℕ} (h : n ≤ out.length) :
    (out ++ u).drop n = out.drop n ++ u := drop_append_of_le_length h

variable {line : List UInt8}

/-- A byte of the text starts the mode the tests of the loop give it. -/
theorem lex_text_cons {mode : Mode} (hc : c ≠ newline) (hmode : Mode.after line c rest = mode) :
    lex .text line (c :: rest) =
      ([mode.leaves c] ++ ·) <$> lex mode (line ++ [mode.leaves c]) rest := by
  rw [lex, if_neg hc, hmode]
  rfl

/-- The second loop agrees with the automaton as long as its fuel lasts. -/
def LoopAgrees (fuel : ℕ) : Prop :=
  ∀ {b : Buffer UInt8} {out rest : List UInt8} {line_start : ℕ}, Shows b out rest →
    rest.length < fuel → line_start ≤ out.length →
    Agrees (strip_comments fuel b line_start) out (lex .text (out.drop line_start) rest)

section Branches

variable {fuel line_start : ℕ} {b : Buffer UInt8} {out rest : List UInt8} {c : UInt8}

lemma LoopAgrees.behind {b' : Buffer UInt8} {rest' : List UInt8} (ih : LoopAgrees fuel)
    (h : Shows b' (out ++ u) rest') (hfuel : rest'.length < fuel)
    (hline : line_start ≤ out.length) :
    Agrees (strip_comments fuel b' line_start) out
      ((u ++ ·) <$> lex .text (out.drop line_start ++ u) rest') := by
  apply Agrees.append
  rw [← drop_append_of_le hline]
  apply ih h hfuel
  rw [length_append]
  omega

section Branches

variable (ih : LoopAgrees fuel) (h : Shows b out (c :: rest)) (hfuel : rest.length < fuel)
  (hline : line_start ≤ out.length)

include ih h hfuel hline

lemma header_agrees :
    Agrees
      (if (header_tail b.text.length b.copy).peek 0 = some (byte '>') then
        strip_comments fuel (header_tail b.text.length b.copy).copy line_start
      else none)
      out (([c] ++ ·) <$> lex .header (out.drop line_start ++ [c]) rest) := by
  have htail : Shows (header_tail b.text.length b.copy) _ _ :=
    header_tail_spec h.copy (h.rest_lt)
  have hlen : (rest.dropWhile inHeader).length ≤ rest.length :=
    (dropWhile_suffix inHeader).length_le
  have hend : ∀ d ∈ (rest.dropWhile inHeader).head?, ¬ inHeader d = true := by
    intro d hd
    have hnot := head?_dropWhile_not inHeader rest
    rw [mem_def.mp hd] at hnot
    simpa using hnot
  rw [lex_header, map_append_map, htail.peek 0]
  rw [append_assoc] at htail
  -- the name ends at the end of the source, of the line, or at its own end
  match hrest : rest.dropWhile inHeader with
  | [] => exact Agrees.append (Agrees.none _ _)
  | d :: rest' =>
    rw [hrest] at htail hlen hend
    rw [getElem?_cons_zero, lex]
    by_cases hnl : d = newline
    · rw [if_neg (by rw [hnl]; decide), if_pos hnl]
      exact Agrees.append (Agrees.none _ _)
    · have hd : d = byte '>' := by
        have hd := hend d rfl
        simpa [inHeader, hnl] using hd
      rw [if_pos (congrArg some hd), if_neg hnl, if_pos hd]
      have hcopy := htail.copy
      rw [append_assoc] at hcopy
      have hbehind := ih.behind hcopy (by rw [length_cons] at hlen; omega) hline
      show Agrees _ out ((_ ++ ·) <$> (([d] ++ ·) <$> _))
      rw [map_append_map]
      simp only [append_assoc] at hbehind ⊢
      exact hbehind

lemma literal_agrees (quote : UInt8) :
    Agrees
      (if (literal_tail quote b.text.length b.copy).2 then
        strip_comments fuel (literal_tail quote b.text.length b.copy).1 line_start
      else none)
      out (([c] ++ ·) <$> lex (.literal quote) (out.drop line_start ++ [c]) rest) := by
  have htail : LiteralRead (literal_tail quote b.text.length b.copy) _ _ _ _ :=
    literal_tail_spec h.copy (h.rest_lt) quote (out.drop line_start ++ [c])
  rcases htail with ⟨hopen, fault, hlex⟩ | ⟨hclosed, body, rest', hlen, hshows, hlex⟩
  · rw [hopen, hlex]
    exact Agrees.none _ _
  · rw [if_pos hclosed]
    rw [append_assoc] at hshows
    rcases hlex with hesc | hkept
    · rw [hesc]
      exact fun hfault => absurd rfl hfault
    · rw [hkept, map_append_map, append_assoc]
      exact ih.behind hshows (by omega) hline

lemma line_comment_agrees (hslash : rest.head? = some (byte '/')) :
    Agrees (strip_comments fuel
        (line_comment_tail b.text.length ((b.put (byte ' ')).skip 2)) line_start)
      out (([byte ' '] ++ ·) <$> lex .lineComment (out.drop line_start ++ [byte ' ']) rest) := by
  match rest with
  | [] => nomatch hslash
  | d :: rest =>
    have hd : d = byte '/' := some.inj hslash
    have hput : Shows ((b.put (byte ' ')).skip 2) (out ++ [byte ' ']) rest :=
      h.put_skip (n := 1) (by simp) (byte ' ')
    have htail : Shows (line_comment_tail b.text.length ((b.put (byte ' ')).skip 2)) _ _ :=
      line_comment_tail_spec hput (Nat.lt_of_succ_lt (h.rest_lt))
    have hlen : (rest.dropWhile (· != newline)).length ≤ rest.length :=
      (dropWhile_suffix _).length_le
    rw [lex_lineComment, dropWhile_cons_of_pos (by rw [hd]; decide)]
    exact ih.behind htail (by rw [length_cons] at hfuel; omega) hline

lemma block_comment_agrees (hstar : rest.head? = some (byte '*')) :
    Agrees
      (if ((block_comment_tail b.text.length ((b.put (byte ' ')).skip 2)).peek 1).isNone then none
      else
        strip_comments fuel
          ((block_comment_tail b.text.length ((b.put (byte ' ')).skip 2)).skip 2) line_start)
      out (([byte ' '] ++ ·) <$> lex .blockOpen (out.drop line_start ++ [byte ' ']) rest) := by
  match rest with
  | [] => nomatch hstar
  | d :: rest =>
    have hput : Shows ((b.put (byte ' ')).skip 2) (out ++ [byte ' ']) rest :=
      h.put_skip (n := 1) (by simp) (byte ' ')
    obtain ⟨rest', htail, hlen, hend⟩ :=
      block_comment_tail_spec hput (Nat.lt_of_succ_lt (h.rest_lt))
        (out.drop line_start ++ [byte ' '])
    rw [htail.peek 1, lex]
    rcases hend with ⟨hopen, hlex⟩ | ⟨hclosed, hlex⟩
    · rw [getElem?_eq_none hopen, hlex]
      exact Agrees.none _ _
    · rw [getElem?_eq_getElem hclosed, hlex]
      apply ih.behind (htail.skip hclosed) _ hline
      rw [length_drop]
      rw [length_cons] at hfuel
      omega

end Branches

end Branches

/-- **The second loop keeps what the automaton keeps.** One round of the loop is one token, so the
induction is on the fuel and each token is a branch of its own; only a newline moves the start of
the line, which is where the automaton forgets the line so far. -/
theorem strip_comments_spec (fuel : ℕ) : LoopAgrees fuel := by
  induction fuel with
  | zero =>
    intro b out rest line_start _ hfuel _
    omega
  | succ fuel ih =>
    intro b out rest line_start h hfuel hline
    rw [strip_comments, h.peek 0]
    cases rest with
    | nil =>
      show some b.kept = some (out ++ [])
      rw [h.kept, append_nil]
    | cons c rest =>
      have hlen : rest.length < fuel := by simpa using hfuel
      dsimp only [getElem?_cons_zero]
      rw [h.kept, awaiting_header_eq, h.peek 1, getElem?_cons_succ, ← head?_eq_getElem?]
      by_cases hhdr : c = byte '<' ∧ awaitsHeader (out.drop line_start) = true
      · have hmode : Mode.after (out.drop line_start) c rest = .header := if_pos hhdr
        rw [if_pos hhdr, lex_text_cons (by rw [hhdr.1]; decide) hmode]
        exact header_agrees ih h hlen hline
      rw [if_neg hhdr]
      by_cases hquote : c = byte '"' ∨ c = byte '\''
      · have hmode : Mode.after (out.drop line_start) c rest = .literal c := by
          rw [Mode.after, if_neg hhdr, if_pos hquote]
        have hc : c ≠ newline := by
          rcases hquote with hc | hc <;> rw [hc] <;> decide
        rw [if_pos hquote, lex_text_cons hc hmode]
        exact literal_agrees ih h hlen hline c
      rw [if_neg hquote]
      by_cases hslash : c = byte '/' ∧ rest.head? = some (byte '/')
      · have hmode : Mode.after (out.drop line_start) c rest = .lineComment := by
          rw [Mode.after, if_neg hhdr, if_neg hquote, if_pos hslash]
        rw [if_pos hslash, lex_text_cons (by rw [hslash.1]; decide) hmode]
        exact line_comment_agrees ih h hlen hline hslash.2
      rw [if_neg hslash]
      by_cases hstar : c = byte '/' ∧ rest.head? = some (byte '*')
      · have hmode : Mode.after (out.drop line_start) c rest = .blockOpen := by
          rw [Mode.after, if_neg hhdr, if_neg hquote, if_neg hslash, if_pos hstar]
        rw [if_pos hstar, lex_text_cons (by rw [hstar.1]; decide) hmode]
        exact block_comment_agrees ih h hlen hline hstar.2
      rw [if_neg hstar]
      by_cases hnl : c = newline
      · subst hnl
        rw [if_pos rfl, lex, if_pos rfl, h.copy.written_eq]
        have hagrees := ih h.copy hlen (Nat.le_refl _)
        rw [drop_length] at hagrees
        exact hagrees.append
      · have hmode : Mode.after (out.drop line_start) c rest = .text := by
          rw [Mode.after, if_neg hhdr, if_neg hquote, if_neg hslash, if_neg hstar]
        rw [if_neg hnl, lex_text_cons hnl hmode]
        exact ih.behind h.copy hlen hline

/-! ## Directives -/

section Directives

variable {σ : Type} {visit : Visitor σ} {context context' : σ}

lemma upTo_of_dropWhile {close d : UInt8} (h : line.dropWhile (· != close) = d :: rest) :
    upTo close line = some (line.takeWhile (· != close)) := by
  have hd : d = close := by
    have hnot := head?_dropWhile_not (· != close) line
    rw [h] at hnot
    simpa using hnot
  have hmem : d ∈ line := (dropWhile_suffix _).mem (by rw [h]; exact mem_cons_self)
  rw [upTo, if_pos (hd ▸ hmem)]

/-- The closing byte that the opening byte of a header name asks for. -/
def closing (c : UInt8) : UInt8 := if c = byte '"' then byte '"' else byte '>'

variable {operand : List UInt8}

lemma operandName_eq (h : operand.dropWhile horizontal_space = c :: line)
    (hc : c = byte '"' ∨ c = byte '<') :
    operandName operand = upTo (closing c) line := by
  unfold operandName closing
  rw [h]
  rcases hc with hc | hc <;> rw [hc] <;> rfl

/-- An include directive that is read has a header name, and the visitor took it. -/
theorem scan_include_spec (h : scan_include operand visit context = (.ok, context')) :
    ∃ path, operandName operand = some path ∧ visit context path = (true, context') := by
  unfold scan_include at h
  cases hopnd : operand.dropWhile horizontal_space with
  | nil =>
    rw [hopnd] at h
    nomatch h
  | cons c line =>
    rw [hopnd] at h
    dsimp only at h
    by_cases hc : c ≠ byte '"' ∧ c ≠ byte '<'
    · rw [if_pos hc] at h
      nomatch h
    rw [if_neg hc, ← closing, drop_takeWhile_length] at h
    have hopening : c = byte '"' ∨ c = byte '<' := by
      by_contra hcontra
      exact hc (not_or.mp hcontra)
    rw [operandName_eq hopnd hopening]
    cases hrest : line.dropWhile (· != closing c) with
    | nil =>
      rw [hrest] at h
      nomatch h
    | cons d rest =>
      rw [hrest] at h
      dsimp only at h
      refine ⟨_, upTo_of_dropWhile hrest, ?_⟩
      split at h
      · nomatch h
      split at h
      · nomatch h
      split at h
      next next_context hvisit =>
        rw [hvisit, (Prod.mk.inj h).2]
      next => nomatch h

/-- A line that is read: the visitor took its header name, if it has one. -/
theorem scan_directive_spec (h : scan_directive line visit context = (.ok, context')) :
    visitAll visit context (headerName line).toList = some context' := by
  unfold scan_directive at h
  unfold headerName directive
  dsimp only at h
  split at h
  · nomatch h
  cases hline : line.dropWhile horizontal_space with
  | nil =>
    rw [hline] at h
    exact congrArg some (Prod.mk.inj h).2
  | cons c rest =>
    rw [hline] at h
    dsimp only at h ⊢
    by_cases hc : c = byte '#'
    · rw [if_neg (not_not_intro hc), drop_takeWhile_length] at h
      rw [if_pos hc, span_eq_takeWhile_dropWhile]
      dsimp only
      by_cases hname : include_name
          ((rest.dropWhile horizontal_space).takeWhile identifier_char) = true
      · rw [if_pos hname] at h ⊢
        obtain ⟨path, hpath, hvisit⟩ := scan_include_spec h
        rw [hpath]
        simp only [toList_some, visitAll, hvisit]
      · rw [if_neg hname] at h ⊢
        split at h
        · nomatch h
        split at h
        · nomatch h
        exact congrArg some (Prod.mk.inj h).2
    · rw [if_pos hc] at h
      rw [if_neg hc]
      exact congrArg some (Prod.mk.inj h).2

lemma visitAll_append (paths paths' : List (List UInt8)) :
    visitAll visit context (paths ++ paths') =
      (visitAll visit context paths).bind (visitAll visit · paths') := by
  induction paths generalizing context with
  | nil => rfl
  | cons path paths ih =>
    rw [cons_append, visitAll, visitAll]
    split
    · exact ih
    · rfl

/-- The directives of the lines, up to the first that is not read. -/
def scanEach (visit : Visitor σ) : List (List UInt8) → σ → UscIncludeScanStatus × σ
  | [], context => (.ok, context)
  | line :: lines, context =>
    match scan_directive line visit context with
    | (.ok, context) => scanEach visit lines context
    | failed => failed

lemma scan_lines_eq (hfuel : text.length < fuel) :
    scan_lines visit fuel text context = scanEach visit (text.splitOn newline) context := by
  induction fuel generalizing text context with
  | zero => omega
  | succ fuel ih =>
    have hmem : newline ∉ text.takeWhile (· != newline) :=
      fun hmem => by simpa using mem_takeWhile_imp hmem
    rw [scan_lines, drop_takeWhile_length]
    have htext := takeWhile_append_dropWhile (p := (· != newline)) (l := text)
    cases hrest : text.dropWhile (· != newline) with
    | nil =>
      rw [hrest, append_nil] at htext
      rw [htext] at hmem ⊢
      rw [splitOn_eq_singleton hmem, scanEach]
      obtain ⟨status, next_context⟩ := scan_directive text visit context
      cases status <;> rfl
    | cons d next =>
      have hd : d = newline := by
        have hnot := head?_dropWhile_not (· != newline) text
        rw [hrest] at hnot
        simpa using hnot
      have hnext : next.length < fuel := by
        have hlen := (dropWhile_suffix (l := text) (· != newline)).length_le
        rw [hrest, length_cons] at hlen
        omega
      rw [hrest, hd] at htext
      conv_rhs => rw [← htext, splitOn_append_cons_self_of_not_mem hmem, scanEach]
      obtain ⟨status, next_context⟩ :=
        scan_directive (text.takeWhile (· != newline)) visit context
      cases status with
      | ok => exact ih hnext
      | unsupported => rfl
      | visitorFailed => rfl

lemma scanEach_spec {lines : List (List UInt8)}
    (h : scanEach visit lines context = (.ok, context')) :
    visitAll visit context (lines.filterMap headerName) = some context' := by
  induction lines generalizing context with
  | nil => exact congrArg some (Prod.mk.inj h).2
  | cons line lines ih =>
    rw [scanEach] at h
    split at h
    next next_context hline =>
      rw [filterMap_eq_flatMap_toList, flatMap_cons, visitAll_append,
        scan_directive_spec hline, ← filterMap_eq_flatMap_toList]
      exact ih h
    next failed hfail =>
      exact absurd h (hfail context')

end Directives

/-! ## The scan -/

lemma logical_source_none (h : refusedAtOnce source = true) : logical_source source = none := by
  unfold logical_source
  by_cases hsize : source.length = SIZE_MAX
  · rw [if_pos hsize]
  · rw [refusedAtOnce, beq_eq_false_iff_ne.mpr hsize, Bool.false_or] at h
    rw [if_neg hsize, ← afterMark, splice_lines_none h]
    rfl

/-- A text that the scanner goes on with is the reference's, and where the reference stops there
is none, but for an escaped line end. -/
theorem logical_source_spec (hesc : referenceText source ≠ .error .escapedLineEnd) :
    (∀ text, logical_source source = some text → referenceText source = .ok text) ∧
      ∀ fault, referenceText source = .error fault → logical_source source = none := by
  unfold referenceText at hesc ⊢
  unfold logical_source
  by_cases hsize : source.length = SIZE_MAX
  · rw [if_pos hsize]
    exact ⟨fun text h => (nomatch h), fun _ _ => rfl⟩
  rw [if_neg hsize]
  cases hsplice : splice_lines (if bom.isPrefixOf source then source.drop 3 else source) with
  | none => exact ⟨fun text h => (nomatch h), fun _ _ => rfl⟩
  | some spliced =>
    have hstrip := strip_comments_spec (spliced.length + 1) (Shows.start spliced)
      (Nat.lt_succ_self _) (Nat.le_refl 0)
    rw [← afterMark] at hsplice
    rw [← splice_lines_eq hsplice] at hesc ⊢
    rw [drop_nil] at hstrip
    rw [bind_eq_bind, bind_some]
    cases hlex : lex .text [] spliced with
    | error fault =>
      rw [hlex] at hstrip hesc
      have hnone := hstrip (fun hfault => hesc (by rw [hfault]))
      rw [hnone]
      exact ⟨fun text h => (nomatch h), fun _ _ => rfl⟩
    | ok kept =>
      rw [hlex] at hstrip
      have hsome : strip_comments (spliced.length + 1) ⟨spliced, 0, 0⟩ 0 = some kept := hstrip
      rw [hsome, bind_some]
      refine ⟨fun text h => ?_, nofun⟩
      split at h
      · nomatch h
      · rw [some.inj h]

/-- **The scan is exact unless a literal escapes a line end.** For every visitor: where the scan
succeeds, the visitor was called with the header names that the reference lexer sees, in their
order, and took them all; where a literal, a header name or a comment is left open, the source is
unsupported and no path was visited. The sources that are left out are those that the first loop
goes through and in which a logical line ends with the backslash of an escape of a literal. -/
theorem usc_include_scan_exact_unless_escaped {σ : Type} (visit : Visitor σ) (context : σ)
    (source : List UInt8)
    (hescaped : refusedAtOnce source = true ∨ referenceText source ≠ .error .escapedLineEnd) :
    ScanExact source visit context := by
  have hlogical : (∀ text, logical_source source = some text → referenceText source = .ok text) ∧
      ∀ fault, referenceText source = .error fault → logical_source source = none := by
    rcases hescaped with hrefused | hescaped
    · simp [logical_source_none hrefused]
    · exact logical_source_spec hescaped
  obtain ⟨htext, hfault⟩ := hlogical
  unfold ScanExact referenceIncludes usc_include_scan
  constructor
  · intro context' h
    cases hlogical : logical_source source with
    | none =>
      rw [hlogical] at h
      nomatch h
    | some text =>
      rw [hlogical] at h
      rw [htext text hlogical]
      dsimp only at h
      rw [scan_lines_eq (Nat.lt_succ_self _)] at h
      exact ⟨_, rfl, scanEach_spec h⟩
  · intro fault h
    cases hreference : referenceText source with
    | error fault' => rw [hfault fault' hreference]
    | ok text =>
      rw [hreference] at h
      nomatch h

/-- A visitor that takes every path and writes it down. -/
def recorder : Visitor (List (List UInt8)) := fun visited path => (true, visited ++ [path])

/-- An include behind a comment that spans lines, a path with the delimiters of comments, and a
literal with an escaped quote; and a source that is refused before its escaped line end. -/
theorem usc_include_scan_exact_unless_escaped_sample :
    usc_include_scan (bytes "#/*\n*/include <a//b> // c\r\n'\\''\n#inc\\\nlude \"d\"") recorder [] =
        (.ok, [bytes "a//b", bytes "d"]) ∧
      ScanExact (bytes "#/*\n*/include <a//b> // c\r\n'\\''\n#inc\\\nlude \"d\"") recorder [] ∧
      ScanExact (bytes "??/'\\\\\n\n") recorder [] :=
  ⟨by decide +kernel, usc_include_scan_exact_unless_escaped recorder [] _ (.inr (by decide +kernel)),
    usc_include_scan_exact_unless_escaped recorder [] _ (.inl (by decide +kernel))⟩

/-- The literal of the first line is left open: splicing takes the second of its two backslashes
with the first line end, and the other stands before the second line end. The scan takes that line
end into the literal, closes it inside the path of the next line, and visits the path. -/
theorem escaped_line_end_visits : ¬ ScanExact (bytes "'\\\\\n\n#include <a'b>\n") recorder [] := by
  intro h
  have hscan : usc_include_scan (bytes "'\\\\\n\n#include <a'b>\n") recorder [] =
      (.ok, [bytes "a'b"]) := by decide +kernel
  have hreference : referenceIncludes (bytes "'\\\\\n\n#include <a'b>\n") =
      .error .escapedLineEnd := by rfl
  rw [h.2 _ hreference] at hscan
  nomatch hscan

end IncludeScan

end DXBCSandbox
