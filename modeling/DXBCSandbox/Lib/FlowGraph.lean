/-
Walks and dominance in a directed graph with a root.

`d` dominates `b` when every walk from the root to `b` visits `d`. The immediate
dominator of `b` is its closest dominator other than itself.
-/
import Mathlib.Data.List.Basic
import Mathlib.Logic.Relation

namespace DXBCSandbox

open List

variable {V : Type*} {E : V → V → Prop} {r : V}

/-- The list of the nodes of a walk, from its first to its last node. -/
inductive Walk (E : V → V → Prop) : V → List V → V → Prop
  | single (a : V) : Walk E a [a] a
  | snoc {a b c : V} {p : List V} : Walk E a p b → E b c → Walk E a (p ++ [c]) c

/-- Some walk from the root ends in `b`. -/
def Reachable (E : V → V → Prop) (r b : V) : Prop := ∃ p, Walk E r p b

/-- Every walk from the root to `b` visits `d`. -/
def Dominates (E : V → V → Prop) (r d b : V) : Prop := ∀ p, Walk E r p b → d ∈ p

/-- `a` is the closest dominator of `b` other than `b`. -/
structure ImmediatelyDominates (E : V → V → Prop) (r a b : V) : Prop where
  ne : a ≠ b
  dominates : Dominates E r a b
  closest : ∀ d, Dominates E r d b → d ≠ b → Dominates E r d a

variable {a b : V} {p : List V}

lemma Walk.last_mem (h : Walk E a p b) : b ∈ p := by
  cases h with
  | single => exact mem_singleton.mpr rfl
  | snoc _ _ => exact mem_append_right _ (mem_singleton.mpr rfl)

lemma reachable_root : Reachable E r r := ⟨[r], .single r⟩

variable {c : V}

lemma Reachable.step (h : Reachable E r b) (he : E b c) : Reachable E r c := by
  obtain ⟨p, hp⟩ := h
  exact ⟨p ++ [c], hp.snoc he⟩

/-- A property of the root that edges carry on holds wherever the root leads. -/
theorem Reachable.induction {P : V → Prop} (h : Reachable E r b) (hroot : P r)
    (hstep : ∀ b c, Reachable E r b → P b → E b c → P c) : P b := by
  obtain ⟨p, hp⟩ := h
  induction hp with
  | single => exact hroot
  | snoc hw he ih => exact hstep _ _ ⟨_, hw⟩ ih he

lemma dominates_self (b : V) : Dominates E r b b := fun _ hp => hp.last_mem

lemma Walk.first_mem (h : Walk E a p b) : a ∈ p := by
  induction h with
  | single => exact mem_singleton.mpr rfl
  | snoc _ _ ih => exact mem_append_left _ ih

lemma dominates_root : Dominates E r r b := fun _ hp => hp.first_mem

lemma eq_root_of_dominates {d : V} (h : Dominates E r d r) : d = r :=
  mem_singleton.mp (h [r] (.single r))

/-- A dominator of a node other than the node itself dominates what comes before it. -/
theorem Dominates.of_edge {d : V} (h : Dominates E r d c) (hne : d ≠ c) (he : E b c) :
    Dominates E r d b := by
  intro p hp
  have hmem := h _ (hp.snoc he)
  rcases mem_append.mp hmem with hd | hd
  · exact hd
  · exact absurd (mem_singleton.mp hd) hne

/-- A walk visits its nodes no later than it ends, and all but its last earlier. -/
theorem Walk.exists_shorter {x : V} (hp : Walk E a p c) (hx : x ∈ p) :
    ∃ q, Walk E a q x ∧ q.length ≤ p.length ∧ (x ≠ c → q.length < p.length) := by
  induction hp with
  | single =>
    obtain rfl := mem_singleton.mp hx
    exact ⟨[_], .single _, Nat.le_refl _, fun h => absurd rfl h⟩
  | snoc hw he ih =>
    rcases mem_append.mp hx with hx | hx
    · obtain ⟨q, hq, hle, -⟩ := ih hx
      refine ⟨q, hq, ?_, fun _ => ?_⟩ <;> rw [length_append, length_singleton] <;> omega
    · obtain rfl := mem_singleton.mp hx
      exact ⟨_, hw.snoc he, Nat.le_refl _, fun h => absurd rfl h⟩

lemma Dominates.antisymm (hab : Dominates E r a b) (hba : Dominates E r b a)
    (ha : Reachable E r a) : a = b := by
  by_contra hne
  -- A walk to `a` visits `b` before it ends, and on the way to `b` visits `a`.
  have hno : ∀ n (p : List V), p.length ≤ n → ¬ Walk E r p a := by
    intro n
    induction n with
    | zero =>
      intro p hlen hp
      have := length_pos_of_mem hp.last_mem
      omega
    | succ n ih =>
      intro p hlen hp
      obtain ⟨q, hq, -, hlt⟩ := hp.exists_shorter (hba p hp)
      obtain ⟨q', hq', hle, -⟩ := hq.exists_shorter (hab q hq)
      have := hlt (Ne.symm hne)
      exact ih q' (by omega) hq'
  obtain ⟨p, hp⟩ := ha
  exact hno p.length p (Nat.le_refl _) hp

lemma ImmediatelyDominates.unique {a' : V} (h : ImmediatelyDominates E r a b)
    (h' : ImmediatelyDominates E r a' b) (ha : Reachable E r a) : a = a' := by
  apply Dominates.antisymm _ _ ha
  · exact h'.closest a h.dominates h.ne
  · exact h.closest a' h'.dominates h'.ne

/-! ## Facts that hold on every walk -/

section Must

variable {F : Type*} {before made : V → F → Prop}

/-- The facts before a node: none at the root, and past an edge only those that held before its
source or that the source makes. -/
structure MustFacts (E : V → V → Prop) (r : V) (made before : V → F → Prop) : Prop where
  root : ∀ f, ¬ before r f
  edge : ∀ a b, E a b → ∀ f, before b f → before a f ∨ made a f

/-- **A fact before a node is made on every walk to it.** -/
theorem MustFacts.exists_made (h : MustFacts E r made before) {p : List V} {b : V} {f : F}
    (hp : Walk E r p b) (hf : before b f) : ∃ a ∈ p.dropLast, made a f := by
  induction hp with
  | single => exact absurd hf (h.root f)
  | @snoc b c p hp he ih =>
    rw [dropLast_concat]
    rcases h.edge b c he f hf with hbefore | hmade
    · obtain ⟨a, ha, hmade⟩ := ih hbefore
      exact ⟨a, dropLast_subset p ha, hmade⟩
    · exact ⟨b, hp.last_mem, hmade⟩

end Must

end DXBCSandbox
