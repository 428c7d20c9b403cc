/-
Rules for counting loops.

A `for` loop over a range of indices is a fold over `List.range'`. The rules carry an
invariant from one index to the next: one for loops that always finish and one for loops
whose body may fail.
-/
import Mathlib.Data.List.Range

namespace DXBCSandbox

open List

variable {σ : Type*} {s : σ}

lemma foldl_range'_inv {f : σ → ℕ → σ} (start n : ℕ) (P : ℕ → σ → Prop) (hstart : P start s)
    (hstep : ∀ i s, start ≤ i → i < start + n → P i s → P (i + 1) (f s i)) :
    P (start + n) ((List.range' start n).foldl f s) := by
  induction n with
  | zero => exact hstart
  | succ n ih =>
    rw [range'_1_concat, foldl_append, ← Nat.add_assoc]
    apply hstep
    · exact Nat.le_add_right start n
    · omega
    · exact ih fun i s h1 h2 hp => hstep i s h1 (by omega) hp

/-- The rule of a loop whose body may fail, for the case that it never does. -/
theorem foldlM_range'_inv {f : σ → ℕ → Option σ} (start n : ℕ) (P : ℕ → σ → Prop)
    (hstart : P start s)
    (hstep : ∀ i s, start ≤ i → i < start + n → P i s → ∃ s', f s i = some s' ∧ P (i + 1) s') :
    ∃ s', (List.range' start n).foldlM f s = some s' ∧ P (start + n) s' := by
  induction n with
  | zero => exact ⟨s, rfl, hstart⟩
  | succ n ih =>
    obtain ⟨s₁, hrun, hp⟩ := ih fun i s h1 h2 hp => hstep i s h1 (by omega) hp
    obtain ⟨s₂, hlast, hp'⟩ := hstep (start + n) s₁ (by omega) (by omega) hp
    refine ⟨s₂, ?_, hp'⟩
    rw [range'_1_concat, foldlM_append, hrun]
    simp [hlast]

lemma foldlM_reverse_range'_inv {f : σ → ℕ → Option σ} (n : ℕ) (P : ℕ → σ → Prop) (hstart : P n s)
    (hstep : ∀ i s, i < n → P (i + 1) s → ∃ s', f s i = some s' ∧ P i s') :
    ∃ s', (List.range' 0 n).reverse.foldlM f s = some s' ∧ P 0 s' := by
  induction n generalizing s with
  | zero => exact ⟨s, rfl, hstart⟩
  | succ n ih =>
    obtain ⟨s₁, hfst, hp⟩ := hstep n s (Nat.lt_succ_self n) hstart
    obtain ⟨s₂, hrun, hp'⟩ := ih hp fun i s hi hp => hstep i s (by omega) hp
    refine ⟨s₂, ?_, hp'⟩
    rw [range'_1_concat, reverse_append, reverse_singleton,
      singleton_append, foldlM_cons, Nat.zero_add, hfst]
    exact hrun

/-- The rule of a loop over a list whose body may fail. The invariant sees the part of the
list that is done. -/
theorem foldlM_list_inv {α : Type*} {f : σ → α → Option σ} (xs : List α) (P : List α → σ → Prop)
    (hstart : P [] s) (hstep : ∀ done x rest s, xs = done ++ x :: rest → P done s →
      ∃ s', f s x = some s' ∧ P (done ++ [x]) s') : ∃ s', xs.foldlM f s = some s' ∧ P xs s' := by
  induction xs using reverseRecOn with
  | nil => exact ⟨s, rfl, hstart⟩
  | append_singleton xs x ih =>
    obtain ⟨s₁, hrun, hp⟩ := ih fun done y rest s h hp =>
      hstep done y (rest ++ [x]) s (by rw [h]; simp) hp
    obtain ⟨s₂, hlast, hp'⟩ := hstep xs x [] s₁ rfl hp
    refine ⟨s₂, ?_, hp'⟩
    rw [foldlM_append, hrun]
    simp [hlast]

end DXBCSandbox
