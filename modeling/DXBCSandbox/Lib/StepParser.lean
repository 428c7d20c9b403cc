/-
Step parsers: `StateT σ Option`, read as "consume some of the state or fail".

Every decoder of this development is written in that monad, so the two facts
below are stated once and every proof about a decoder peels its `do` block apart
with them instead of unfolding `StateT`. Nothing here knows what the state is.
-/
import Mathlib.Tactic.Common

namespace DXBCSandbox.StepParser

variable {σ α β : Type} {s : σ} {r : β × σ}

/-- The successful runs of a sequence are the successful runs of its parts. -/
theorem run_bind_eq_some {p : StateT σ Option α} {f : α → StateT σ Option β} :
    (p >>= f).run s = some r ↔ ∃ a s', p.run s = some (a, s') ∧ (f a).run s' = some r := by
  simp only [StateT.run_bind, Option.bind_eq_bind, Option.bind_eq_some_iff, Prod.exists]

/-- A successful `pure` returns its argument and leaves the state alone. -/
theorem run_pure_eq_some {a : α} {r : α × σ} :
    (pure a : StateT σ Option α).run s = some r ↔ r = (a, s) := by
  simp only [StateT.run_pure, Option.pure_def, Option.some.injEq]
  exact eq_comm

lemma run_failure_eq_some {r : α × σ} : (failure : StateT σ Option α).run s = some r ↔ False := by
  constructor
  · intro h
    cases h
  · exact False.elim

lemma run_lift_bind_eq_some {o : Option α} {f : α → StateT σ Option β} :
    (do let a ← o; f a : StateT σ Option β).run s = some r ↔
      ∃ a, o = some a ∧ (f a).run s = some r := by
  rw [run_bind_eq_some]
  cases o with
  | none =>
    constructor
    · rintro ⟨a, s', h, -⟩
      cases h
    · rintro ⟨a, h, -⟩
      cases h
  | some a =>
    constructor
    · rintro ⟨a', s', h, hrest⟩
      cases h
      exact ⟨a, rfl, hrest⟩
    · rintro ⟨a', h, hrest⟩
      cases h
      exact ⟨a, s, rfl, hrest⟩

lemma run_get_bind_eq_some {f : σ → StateT σ Option β} :
    (do let t ← get; f t : StateT σ Option β).run s = some r ↔ (f s).run s = some r := by
  rw [run_bind_eq_some]
  constructor
  · rintro ⟨a, s', h, hrest⟩
    cases h
    exact hrest
  · intro h
    exact ⟨s, s, rfl, h⟩

/-- A guarded continuation succeeds exactly when the guard holds and it does. -/
theorem run_guard_bind_eq_some {c : Prop} [Decidable c] {p : StateT σ Option α} {r : α × σ} :
    (do guard c; p).run s = some r ↔ c ∧ p.run s = some r := by
  by_cases hc : c
  · simp only [guard, hc, if_true, pure_bind, true_and]
  · simp only [guard, hc, if_false, false_and, iff_false]
    intro h
    obtain ⟨_, _, h1, _⟩ := run_bind_eq_some.mp h
    exact run_failure_eq_some.mp h1

lemma guard_bind_eq_some {c : Prop} [Decidable c] {p : Option α} {r : α} :
    (do guard c; p) = some r ↔ c ∧ p = some r := by
  by_cases hc : c
  · simp only [guard, hc, if_true, true_and, Option.pure_def, Option.bind_eq_bind, Option.bind_some]
  · simp only [guard, hc, if_false, false_and, iff_false]
    intro h
    cases h

end DXBCSandbox.StepParser
