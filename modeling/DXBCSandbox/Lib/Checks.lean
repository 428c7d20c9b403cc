/-
Fallible code in `Except ε`, read as a list of checks in front of a result.

A C function that validates its input is a sequence of `if (bad) return fail(..)`.
[`failWhen`] is one such line, and the lemmas here turn a successful run into the
list of the checks it passed.
-/
import Mathlib.Tactic.Common

namespace DXBCSandbox.Checks

variable {ε α β : Type}

def failWhen (bad : Prop) [Decidable bad] (e : ε) : Except ε Unit :=
  if bad then .error e else .ok ()

lemma bind_eq_ok {x : Except ε α} {f : α → Except ε β} {b : β} :
    (x >>= f) = .ok b ↔ ∃ a, x = .ok a ∧ f a = .ok b := by
  cases x with
  | error e =>
    constructor
    · intro h
      cases h
    · rintro ⟨a, h, -⟩
      cases h
  | ok a =>
    constructor
    · intro h
      exact ⟨a, rfl, h⟩
    · rintro ⟨a', h, h'⟩
      cases h
      exact h'

lemma pure_eq_ok {a b : α} : (pure a : Except ε α) = .ok b ↔ a = b := by
  constructor
  · intro h
    exact Except.ok.inj h
  · rintro rfl
    rfl

/-- Past a check, a run succeeds exactly when the check did not fail and the rest does. -/
theorem failWhen_bind_eq_ok {bad : Prop} [Decidable bad] {e : ε} {p : Except ε α} {r : α} :
    (do failWhen bad e; p) = .ok r ↔ ¬bad ∧ p = .ok r := by
  by_cases hbad : bad
  · simp only [failWhen, hbad, if_true, not_true_eq_false, false_and, iff_false]
    intro h
    obtain ⟨_, h, -⟩ := bind_eq_ok.mp h
    cases h
  · simp only [failWhen, hbad, if_false, not_false_eq_true, true_and]
    rfl

lemma ite_error_eq_ok {bad : Prop} [Decidable bad] {e : ε} {x : Except ε α} {a : α} :
    (if bad then .error e else x) = .ok a ↔ ¬ bad ∧ x = .ok a := by
  split_ifs with h
  · constructor
    · intro h
      simp at h
    · exact fun h' => absurd h h'.1
  · exact ⟨fun hx => ⟨h, hx⟩, fun hx => hx.2⟩

end DXBCSandbox.Checks
