/-
Rewriting a buffer in place.

A pass reads a buffer from left to right and writes what it keeps over the cells it has read. The
two positions are all the pass needs as long as the write position never overtakes the read
position: what is written is then a function of what was read, and `Shows` says so. A pass that
copies, replaces and skips is reasoned about with the two lists of a `Shows`, not with cells.
-/
import Mathlib.Data.List.Basic

namespace DXBCSandbox

open List

namespace InPlace

variable {α : Type}

structure Buffer (α : Type) where
  text : List α
  i : ℕ
  written : ℕ

namespace Buffer

/-- The `k`-th cell that is not read yet. -/
def peek (b : Buffer α) (k : ℕ) : Option α := b.text[b.i + k]?

def kept (b : Buffer α) : List α := b.text.take b.written

def put (b : Buffer α) (c : α) : Buffer α :=
  { b with text := b.text.set b.written c, written := b.written + 1 }

def skip (b : Buffer α) (n : ℕ) : Buffer α := { b with i := b.i + n }

/-- `text[written++] = text[i++]`, where there is a cell to read. -/
def copy (b : Buffer α) : Buffer α :=
  match b.peek 0 with
  | some c => (b.put c).skip 1
  | none => b

end Buffer

/-- The buffer has kept `out`, and `rest` is still to be read. -/
structure Shows (b : Buffer α) (out rest : List α) : Prop where
  kept : b.kept = out
  unread : b.text.drop b.i = rest
  written_le : b.written ≤ b.i
  i_le : b.i ≤ b.text.length

lemma Shows.start (text : List α) : Shows ⟨text, 0, 0⟩ [] text where
  kept := take_zero
  unread := drop_zero
  written_le := Nat.le_refl 0
  i_le := Nat.zero_le _

namespace Shows

variable {b : Buffer α} {out rest : List α} {c : α}

lemma written_eq (h : Shows b out rest) : b.written = out.length := by
  have hle := h.written_le
  have hi := h.i_le
  rw [← h.kept, Buffer.kept, length_take]
  omega

lemma length_eq (h : Shows b out rest) : b.text.length = b.i + rest.length := by
  have hi := h.i_le
  rw [← h.unread, length_drop]
  omega

lemma rest_lt (h : Shows b out (c :: rest)) : rest.length < b.text.length := by
  rw [h.length_eq, length_cons]
  omega

lemma peek (h : Shows b out rest) (k : ℕ) : b.peek k = rest[k]? := by
  rw [Buffer.peek, ← h.unread, List.getElem?_drop]

lemma skip {n : ℕ} (h : Shows b out rest) (hn : n ≤ rest.length) :
    Shows (b.skip n) out (rest.drop n) where
  kept := h.kept
  unread := by
    show b.text.drop (b.i + n) = _
    rw [← h.unread, drop_drop]
  written_le := Nat.le_trans h.written_le (Nat.le_add_right _ _)
  i_le := by
    show b.i + n ≤ b.text.length
    rw [h.length_eq]
    omega

/-- **A cell that is written stands before every cell that is still read**: the write position may
have reached the read position, so at least one cell has to be passed over with the write. -/
theorem put_skip {n : ℕ} (h : Shows b out rest) (hn : n < rest.length) (c : α) :
    Shows ((b.put c).skip (n + 1)) (out ++ [c]) (rest.drop (n + 1)) := by
  have hlen := h.length_eq
  have hw := h.written_le
  refine ⟨?_, ?_, ?_, ?_⟩
  · show (b.text.set b.written c).take (b.written + 1) = _
    rw [take_add_one, take_set_of_le (Nat.le_refl _), ← h.kept, Buffer.kept,
      List.getElem?_set_self (by omega)]
    rfl
  · show (b.text.set b.written c).drop (b.i + (n + 1)) = _
    rw [drop_set_of_lt (by omega), ← h.unread, drop_drop]
  · show b.written + 1 ≤ b.i + (n + 1)
    omega
  · show b.i + (n + 1) ≤ (b.text.set b.written c).length
    rw [length_set]
    omega

lemma copy (h : Shows b out (c :: rest)) : Shows b.copy (out ++ [c]) rest := by
  have hc : b.peek 0 = some c := h.peek 0
  have hput := h.put_skip (Nat.succ_pos rest.length) c
  rw [Buffer.copy, hc]
  exact hput

end Shows

end InPlace

end DXBCSandbox
