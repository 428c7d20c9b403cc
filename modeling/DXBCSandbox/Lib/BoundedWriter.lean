/-
Writers that append to an output of bounded size.

A writer appends symbols or fails, and it fails for good. [`Appends`] says when it succeeds and what
it has then appended: the condition is its own, and the symbols have to fit. It composes along the
`do` block of a writer and along the loop over a list.
-/
import DXBCSandbox.Lib.StepParser
import Mathlib.Data.List.Basic

namespace DXBCSandbox

open List StepParser

variable {τ α : Type}

/-- Under its condition the writer appends these symbols, if the limit allows. -/
def Appends (limit : ℕ) (p : StateT (List τ) Option Unit) (P : Prop) (w : List τ) : Prop :=
  ∀ ⦃s⦄, s.length ≤ limit → ∀ s', p.run s = some ((), s') ↔
    P ∧ s.length + w.length ≤ limit ∧ s' = s ++ w

def writeEach (item : α → StateT (List τ) Option Unit) : List α → StateT (List τ) Option Unit
  | [] => pure ()
  | x :: xs => do
    item x
    writeEach item xs

namespace Appends

variable {limit : ℕ} {p q : StateT (List τ) Option Unit} {P Q : Prop} {u v w : List τ}

lemma congr (h : Appends limit p P w) (hP : P ↔ Q) : Appends limit p Q w := by
  intro s hs s'
  rw [h hs s', hP]

lemma nil : Appends limit (pure () : StateT (List τ) Option Unit) True [] := by
  intro s hs s'
  rw [run_pure_eq_some, Prod.mk.injEq]
  simp only [append_nil, length_nil, Nat.add_zero, true_and]
  exact ⟨fun h => ⟨hs, h⟩, fun h => h.2⟩

lemma bind (hp : Appends limit p P u) (hq : Appends limit q Q v) :
    Appends limit (do p; q) (P ∧ Q) (u ++ v) := by
  intro s hs s''
  rw [run_bind_eq_some, length_append]
  constructor
  · rintro ⟨⟨⟩, s', hfst, hsnd⟩
    obtain ⟨hP, hfit, rfl⟩ := (hp hs s').mp hfst
    obtain ⟨hQ, hfit', rfl⟩ := (hq (by rw [length_append]; exact hfit) s'').mp hsnd
    rw [length_append] at hfit'
    exact ⟨⟨hP, hQ⟩, by omega, by rw [append_assoc]⟩
  · rintro ⟨⟨hP, hQ⟩, hfit, rfl⟩
    refine ⟨(), s ++ u, (hp hs _).mpr ⟨hP, by omega, rfl⟩, ?_⟩
    refine (hq (by rw [length_append]; omega) _).mpr ⟨hQ, ?_, by rw [append_assoc]⟩
    rw [length_append]
    omega

lemma guard {c : Prop} [Decidable c] (hp : Appends limit p P w) :
    Appends limit (do guard c; p) (c ∧ P) w := by
  intro s hs s'
  rw [run_guard_bind_eq_some, hp hs s', and_assoc]

lemma each {item : α → StateT (List τ) Option Unit} {R : α → Prop} {enc : α → List τ}
    (hitem : ∀ x, Appends limit (item x) (R x) (enc x)) (xs : List α) :
    Appends limit (writeEach item xs) (∀ x ∈ xs, R x) (xs.flatMap enc) := by
  induction xs with
  | nil => exact nil.congr (by simp)
  | cons x xs ih =>
    rw [flatMap_cons]
    exact ((hitem x).bind ih).congr (by simp)

end Appends

end DXBCSandbox
