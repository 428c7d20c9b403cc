/-
Nodes that no maximal walk avoids.

A walk may stop where the graph is left and has to stop where nothing follows; otherwise it goes on
for ever. `t` is inevitable from `a` when every such walk from `a` visits `t`. That is a least fixed
point (`Proven`): `t` itself, and every node that no walk stops at and whose successors are all in.
Seeding with `t` only is what keeps cycles out that avoid `t`.
-/
import DXBCSandbox.Lib.FlowGraph
import Mathlib.Data.Nat.Find
import Mathlib.Logic.Function.Iterate

namespace DXBCSandbox

variable {V : Type*} {E : V → V → Prop} {exits : V → Prop}

def Stops (E : V → V → Prop) (exits : V → Prop) (b : V) : Prop := exits b ∨ ∀ c, ¬ E b c

/-- Every maximal walk from `a` visits `t`, whether it ends or not. -/
structure Inevitable (E : V → V → Prop) (exits : V → Prop) (t a : V) : Prop where
  finite : ∀ p b, Walk E a p b → Stops E exits b → t ∈ p
  infinite : ∀ w : ℕ → V, w 0 = a → (∀ n, E (w n) (w (n + 1))) → ∃ n, w n = t

/-- The nodes that lead to `t` by all their edges. -/
inductive Proven (E : V → V → Prop) (exits : V → Prop) (t : V) : V → Prop
  | target : Proven E exits t t
  | step {b : V} : ¬ Stops E exits b → (∀ c, E b c → Proven E exits t c) → Proven E exits t b

lemma Walk.cases_first {a b : V} {p : List V} (h : Walk E a p b) :
    p = [a] ∧ b = a ∨ ∃ c q, E a c ∧ Walk E c q b ∧ p = a :: q := by
  induction h with
  | single => exact Or.inl ⟨rfl, rfl⟩
  | @snoc b c p hw he ih =>
    right
    rcases ih with ⟨rfl, rfl⟩ | ⟨first, q, hfst, hq, rfl⟩
    · exact ⟨c, [c], he, .single c, rfl⟩
    · exact ⟨first, q ++ [c], hfst, hq.snoc he, rfl⟩

lemma Reachable.walk {r a b : V} {p : List V}
    (h : Reachable E r a) (hp : Walk E a p b) : Reachable E r b := by
  induction hp with
  | single => exact h
  | snoc _ hedge ih => exact ih.step hedge

lemma walk_of_sequence {w : ℕ → V} {n : ℕ} (h : ∀ i < n, E (w i) (w (i + 1))) :
    Walk E (w 0) ((List.range (n + 1)).map w) (w n) := by
  induction n with
  | zero => exact .single _
  | succ n ih =>
    rw [List.range_succ, List.map_append]
    exact (ih fun i hi => h i (by omega)).snoc (h n (by omega))

lemma Proven.inevitable {t a : V} (h : Proven E exits t a) : Inevitable E exits t a := by
  induction h with
  | target => exact ⟨fun p b hp _ => hp.first_mem, fun w hw _ => ⟨0, hw⟩⟩
  | @step b hstop hnext ih =>
    constructor
    · intro p c hp hc
      rcases hp.cases_first with ⟨-, rfl⟩ | ⟨first, q, hfst, hq, rfl⟩
      · exact absurd hc hstop
      · exact List.mem_cons_of_mem _ ((ih first hfst).finite q c hq hc)
    · intro w hw hedges
      have hfst : E b (w 1) := hw ▸ hedges 0
      obtain ⟨n, hn⟩ := (ih (w 1) hfst).infinite (fun n => w (n + 1)) rfl fun n => hedges (n + 1)
      exact ⟨n + 1, hn⟩

section Avoid

variable (E exits)

open Classical in
/-- From a node that is not proven, on to one that is not proven either, if there is one. -/
noncomputable def avoid (t b : V) : V :=
  if h : ∃ c, E b c ∧ ¬ Proven E exits t c then h.choose else b

variable {E exits}

lemma avoid_spec {t b : V} (h : ¬ Proven E exits t b) (hstop : ¬ Stops E exits b) :
    E b (avoid E exits t b) := by
  have hnext : ∃ c, E b c ∧ ¬ Proven E exits t c := by
    by_contra hall
    push Not at hall
    exact h (.step hstop hall)
  rw [avoid, dif_pos hnext]
  exact hnext.choose_spec.1

lemma not_proven_avoid {t b : V} (h : ¬ Proven E exits t b) :
    ¬ Proven E exits t (avoid E exits t b) := by
  unfold avoid
  split
  next hnext => exact hnext.choose_spec.2
  next => exact h

end Avoid

/-- A node from which every maximal walk visits the target is proven: from any other node a walk
leads through nodes that are not proven until it may stop, or for ever. -/
theorem Inevitable.proven {t a : V} (h : Inevitable E exits t a) : Proven E exits t a := by
  by_contra ha
  let w : ℕ → V := fun n => (avoid E exits t)^[n] a
  have hw : ∀ n, ¬ Proven E exits t (w n) := by
    intro n
    induction n with
    | zero => exact ha
    | succ n ih =>
      show ¬ Proven E exits t ((avoid E exits t)^[n + 1] a)
      rw [Function.iterate_succ_apply']
      exact not_proven_avoid ih
  have hne : ∀ n, w n ≠ t := fun n heq => hw n (heq ▸ .target)
  have hedge : ∀ n, ¬ Stops E exits (w n) → E (w n) (w (n + 1)) := by
    intro n hstop
    show E _ ((avoid E exits t)^[n + 1] a)
    rw [Function.iterate_succ_apply']
    exact avoid_spec (hw n) hstop
  by_cases hend : ∃ n, Stops E exits (w n)
  · classical
    have hwalk := walk_of_sequence fun i hi => hedge i (Nat.find_min hend hi)
    have hmem := h.finite _ _ hwalk (Nat.find_spec hend)
    obtain ⟨n, -, hn⟩ := List.mem_map.mp hmem
    exact hne n hn
  · push Not at hend
    obtain ⟨n, hn⟩ := h.infinite w rfl fun n => hedge n (hend n)
    exact hne n hn

/-- **Inevitability is the least fixed point.** -/
theorem inevitable_iff_proven {t a : V} : Inevitable E exits t a ↔ Proven E exits t a :=
  ⟨Inevitable.proven, Proven.inevitable⟩

end DXBCSandbox
