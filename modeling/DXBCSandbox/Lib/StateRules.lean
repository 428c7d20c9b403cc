/-
Rules for computations with a state.

A triple says what holds behind a computation that starts where its precondition holds. The
postcondition sees the result too, so a check that passed can be used by what comes next. A
computation that keeps a predicate is the triple with it on both sides.
-/

namespace DXBCSandbox

variable {σ α β : Type} {P P' : σ → Prop} {Q Q' : α → σ → Prop} {R : β → σ → Prop}

def Triple (P : σ → Prop) (m : StateM σ α) (Q : α → σ → Prop) : Prop :=
  ∀ s, P s → Q (m s).1 (m s).2

def Maintains (P : σ → Prop) (m : StateM σ α) : Prop := Triple P m fun _ => P

/-- `&&` of C: the second check is made only if the first one passes. -/
def andAlso (m m' : StateM σ Bool) : StateM σ Bool := do
  if ← m then m' else pure false

variable {m : StateM σ α} {f : α → StateM σ β} {c : Prop}

namespace Triple

theorem bind (hm : Triple P m Q) (hf : ∀ a, Triple (Q a) (f a) R) : Triple P (m >>= f) R := by
  intro s hs
  exact hf _ _ (hm s hs)

theorem ite [Decidable c] {m' : StateM σ α} (hm : c → Triple P m Q) (hm' : ¬ c → Triple P m' Q) :
    Triple P (if c then m else m') Q := by
  by_cases hc : c
  · rw [if_pos hc]
    exact hm hc
  · rw [if_neg hc]
    exact hm' hc

theorem mono (hm : Triple P m Q) (hpre : ∀ s, P' s → P s) (hpost : ∀ a s, Q a s → Q' a s) :
    Triple P' m Q' := by
  intro s hs
  exact hpost _ _ (hm s (hpre s hs))

theorem andAlso {m m' : StateM σ Bool} {Q Q' : Bool → σ → Prop} (hm : Triple P m Q)
    (hm' : Triple (Q true) m' Q') (hfalse : ∀ s, Q false s → Q' false s) :
    Triple P (andAlso m m') Q' := by
  have hnext : ∀ b, Triple (Q b) (if b = true then m' else Pure.pure false : StateM σ Bool) Q' := by
    intro b
    cases b with
    | true => exact hm'
    | false => exact hfalse
  exact Triple.bind hm hnext

end Triple

namespace Maintains

theorem pure (a : α) : Maintains P (pure a : StateM σ α) := fun _ h => h

theorem bind (hm : Maintains P m) (hf : ∀ a, Maintains P (f a)) : Maintains P (m >>= f) := Triple.bind hm hf

theorem ite [Decidable c] {m' : StateM σ α} (hm : Maintains P m) (hm' : Maintains P m') :
    Maintains P (if c then m else m') := Triple.ite (fun _ => hm) fun _ => hm'

/-- An early return. -/
theorem guarded [Decidable c] {a : α} (hm : Maintains P m) :
    Maintains P (if c then Pure.pure a else m) := ite (pure a) hm

theorem returning {f : α → β} (hm : Maintains P m) :
    Maintains P (do Pure.pure (f (← m))) := bind hm fun _ => pure _

theorem map {f : α → β} (hm : Maintains P m) : Maintains P (f <$> m) := hm

theorem andAlso {m m' : StateM σ Bool} (hm : Maintains P m) (hm' : Maintains P m') :
    Maintains P (andAlso m m') := Triple.andAlso hm hm' fun _ h => h

theorem foldl_run {ι : Type} {op : ι → StateM σ α} (hop : ∀ i, Maintains P (op i)) (is : List ι)
    (s : σ) (hs : P s) : P (is.foldl (fun s i => (op i s).2) s) := by
  induction is generalizing s with
  | nil => exact hs
  | cons i is ih => exact ih _ (hop i s hs)

end Maintains

end DXBCSandbox
