/-
A fragment of the C preprocessor, over bytes.

Conditions are conjunctions of `defined(NAME)` and `!defined(NAME)`, or a single name that is
read as a number. Directives open, switch and close conditional sections, define and undefine
macros, and raise errors. Texts are read by the evaluators, not built from a syntax tree, so
that a program that prints such a text is judged by what it prints; for printers there are the
texts of literals and directives, and the theorems that these are read back.
-/
import Mathlib.Tactic.Common

namespace DXBCSandbox

open List Option

namespace Preprocessor

abbrev Text := List UInt8

def text (s : String) : Text := s.toList.map fun c => c.toNat.toUInt8

lemma text_ofList (cs : List Char) :
    text (String.ofList cs) = cs.map fun c => c.toNat.toUInt8 := by
  simp [text]

lemma text_append (s t : String) : text (s ++ t) = text s ++ text t := by
  simp [text]

def isIdentifierByte (b : UInt8) : Bool :=
  (65 ≤ b ∧ b ≤ 90) ∨ (97 ≤ b ∧ b ≤ 122) ∨ (48 ≤ b ∧ b ≤ 57) ∨ b = 95

def IsIdentifier (name : Text) : Prop := name ≠ [] ∧ ∀ b ∈ name, isIdentifierByte b = true

/-! ## Reading -/

def expect : Text → Text → Option Text
  | [], t => some t
  | a :: p, b :: t => if a = b then expect p t else none
  | _ :: _, [] => none

@[simp] lemma expect_append (p t : Text) : expect p (p ++ t) = some t := by
  induction p with
  | nil => rfl
  | cons a p ih => rw [cons_append, expect, if_pos rfl, ih]

def readName (t : Text) : Option (Text × Text) :=
  let name := t.takeWhile isIdentifierByte
  if name = [] then none else some (name, t.drop name.length)

lemma takeWhile_name {name : Text} (h : ∀ b ∈ name, isIdentifierByte b = true) {t : Text}
    (ht : ∀ b ∈ t.head?, isIdentifierByte b = false) :
    (name ++ t).takeWhile isIdentifierByte = name := by
  rw [takeWhile_append_of_pos h]
  cases t with
  | nil => simp
  | cons b t => rw [takeWhile_cons_of_neg (by simp [ht b rfl]), append_nil]

lemma readName_append {name : Text} (h : IsIdentifier name) {t : Text}
    (ht : ∀ b ∈ t.head?, isIdentifierByte b = false) :
    readName (name ++ t) = some (name, t) := by
  unfold readName
  dsimp only
  rw [takeWhile_name h.2 ht, if_neg h.1, drop_left]

/-! ## Conditions -/

structure Literal where
  positive : Bool
  name : Text

def Literal.text (l : Literal) : Text :=
  (if l.positive then [] else Preprocessor.text "!") ++
    (Preprocessor.text "defined(" ++ (l.name ++ Preprocessor.text ")"))

def Literal.holds (defined : Text → Bool) (l : Literal) : Bool := defined l.name == l.positive

def conjunctionText : List Literal → Text
  | [] => []
  | [l] => l.text
  | l :: ls => l.text ++ (Preprocessor.text " && " ++ conjunctionText ls)

/-- One literal behind the literals so far, if any, as a printer appends it. -/
def appendLiteral (s : Text × Bool) (l : Literal) : Text × Bool :=
  ((if s.2 then s.1 ++ Preprocessor.text " && " else s.1) ++ l.text, true)

lemma conjunctionText_cons_cons (l l' : Literal) (ls : List Literal) :
    conjunctionText (l :: l' :: ls) =
      l.text ++ (Preprocessor.text " && " ++ conjunctionText (l' :: ls)) := by
  rw [conjunctionText]
  simp

lemma foldl_appendLiteral_true (ls : List Literal) (output : Text) :
    (ls.foldl appendLiteral (output, true)) =
      (if ls = [] then output
        else output ++ (Preprocessor.text " && " ++ conjunctionText ls), true) := by
  induction ls generalizing output with
  | nil => rfl
  | cons l ls ih =>
    rw [foldl_cons, appendLiteral, ih, if_neg (cons_ne_nil l ls)]
    cases ls with
    | nil => simp [conjunctionText]
    | cons l' ls =>
      rw [if_neg (cons_ne_nil l' ls), conjunctionText_cons_cons]
      simp only [if_true, append_assoc]

lemma foldl_appendLiteral (ls : List Literal) (output : Text) :
    ls.foldl appendLiteral (output, false) = (output ++ conjunctionText ls, decide (ls ≠ [])) := by
  cases ls with
  | nil => simp [conjunctionText]
  | cons l ls =>
    rw [foldl_cons, appendLiteral, foldl_appendLiteral_true]
    cases ls with
    | nil => simp [conjunctionText]
    | cons l' ls =>
      rw [if_neg (cons_ne_nil l' ls), conjunctionText_cons_cons]
      simp

section Condition

variable (defined : Text → Bool)

def readDefined (t : Text) : Option (Bool × Text) := do
  let t ← expect (text "defined(") t
  let (name, t) ← readName t
  let t ← expect (text ")") t
  some (defined name, t)

def readLiteral (t : Text) : Option (Bool × Text) :=
  match expect (text "!") t with
  | some t => (readDefined defined t).map fun r => (!r.1, r.2)
  | none => readDefined defined t

/-- The value of a conjunction; `n` bounds the number of its literals. -/
def readConjunction : ℕ → Text → Option Bool
  | 0, _ => none
  | n + 1, t => do
    let (value, t) ← readLiteral defined t
    if t = [] then some value
    else
      let t ← expect (text " && ") t
      let rest ← readConjunction n t
      some (value && rest)

/-- The value of a condition, or nothing where the text is not one. -/
def evaluateCondition (t : Text) : Option Bool := readConjunction defined t.length t

lemma readDefined_append {name : Text} (h : IsIdentifier name) (t : Text) :
    readDefined defined (text "defined(" ++ (name ++ (text ")" ++ t))) =
      some (defined name, t) := by
  have hname : readName (name ++ (text ")" ++ t)) = some (name, text ")" ++ t) :=
    readName_append h fun b hb => by rw [← some.inj hb]; decide
  unfold readDefined
  rw [expect_append]
  dsimp only [bind, Option.bind]
  rw [hname]
  dsimp only
  rw [expect_append]

lemma readLiteral_append {l : Literal} (h : IsIdentifier l.name) (t : Text) :
    readLiteral defined (l.text ++ t) = some (l.holds defined, t) := by
  unfold readLiteral Literal.text Literal.holds
  cases l.positive with
  | true =>
    simp only [if_true, nil_append, append_assoc]
    rw [show expect (text "!") (text "defined(" ++ (l.name ++ (text ")" ++ t))) = none from rfl]
    dsimp only
    rw [readDefined_append defined h]
    simp
  | false =>
    simp only [Bool.false_eq_true, if_false, append_assoc]
    rw [expect_append]
    dsimp only
    rw [readDefined_append defined h]
    simp

lemma Literal.text_ne_nil (l : Literal) : l.text ≠ [] := by
  unfold Literal.text
  cases l.positive <;> simp [Preprocessor.text]

lemma readConjunction_text {ls : List Literal} (hne : ls ≠ [])
    (h : ∀ l ∈ ls, IsIdentifier l.name) {n : ℕ} (hn : ls.length ≤ n) :
    readConjunction defined n (conjunctionText ls) = some (ls.all (·.holds defined)) := by
  induction ls generalizing n with
  | nil => exact absurd rfl hne
  | cons l ls ih =>
    obtain ⟨n, rfl⟩ : ∃ m, n = m + 1 := ⟨n - 1, by rw [length_cons] at hn; omega⟩
    have hl := h l (by simp)
    cases ls with
    | nil =>
      have hread := readLiteral_append defined hl []
      rw [append_nil] at hread
      simp [readConjunction, conjunctionText, hread]
    | cons l' ls =>
      have hrest := ih (by simp) (forall_mem_cons.mp h).2 (n := n)
        (by rw [length_cons] at hn; omega)
      have hmore : text " && " ++ conjunctionText (l' :: ls) ≠ [] := by simp [text]
      rw [conjunctionText, readConjunction, readLiteral_append defined hl]
      dsimp only [bind, Option.bind]
      rw [if_neg hmore, expect_append]
      dsimp only
      rw [hrest]
      rfl
      simp

lemma length_le_conjunctionText (ls : List Literal) :
    ls.length ≤ (conjunctionText ls).length := by
  induction ls with
  | nil => exact Nat.zero_le _
  | cons l ls ih =>
    have hpos := length_pos_iff.mpr l.text_ne_nil
    cases ls with
    | nil => exact hpos
    | cons l' ls =>
      rw [conjunctionText, length_append, length_append, length_cons]
      · omega
      · simp

/-- **A printed conjunction is read back.** -/
theorem evaluateCondition_text {ls : List Literal} (hne : ls ≠ [])
    (h : ∀ l ∈ ls, IsIdentifier l.name) :
    evaluateCondition defined (conjunctionText ls) = some (ls.all (·.holds defined)) :=
  readConjunction_text defined hne h (length_le_conjunctionText ls)

end Condition

end Preprocessor

end DXBCSandbox
