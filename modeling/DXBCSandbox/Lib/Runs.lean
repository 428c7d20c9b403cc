/-
Runs of calls that may fail.

A run is a fold in `Except`. The rules are for runs that succeed: an invariant holds at the
end, and calls that commute up to a relation may be made in any order.
-/
import DXBCSandbox.Lib.Checks
import Mathlib.Data.List.Induction
import Mathlib.Data.List.Perm.Basic

namespace DXBCSandbox

open List Checks

variable {σ α ε : Type} {f : σ → α → Except ε σ} {inv : σ → Prop} {rel : σ → σ → Prop}
  {as : List α} {s s' : σ}

lemma foldlM_cons_eq_ok {a : α} :
    (a :: as).foldlM f s = .ok s' ↔ ∃ t, f s a = .ok t ∧ as.foldlM f t = .ok s' := by
  rw [foldlM_cons, bind_eq_ok]

/-- An invariant of the steps holds behind a run. -/
lemma foldlM_ok_inv (hstep : ∀ s a s', inv s → f s a = .ok s' → inv s') (hs : inv s)
    (h : as.foldlM f s = .ok s') : inv s' := by
  induction as generalizing s with
  | nil =>
    rw [← Except.ok.inj h]
    exact hs
  | cons a as ih =>
    obtain ⟨t, hfst, hrest⟩ := foldlM_cons_eq_ok.mp h
    exact ih (hstep s a t hs hfst) hrest

/-- Related states run to related states. -/
lemma foldlM_ok_congr (hstep : ∀ s a s', inv s → f s a = .ok s' → inv s')
    (hcongr : ∀ s t a s', inv s → inv t → rel s t → f s a = .ok s' →
      ∃ t', f t a = .ok t' ∧ rel s' t') {t : σ} (hs : inv s) (ht : inv t) (hrel : rel s t)
    (h : as.foldlM f s = .ok s') : ∃ t', as.foldlM f t = .ok t' ∧ rel s' t' := by
  induction as generalizing s t with
  | nil =>
    rw [← Except.ok.inj h]
    exact ⟨t, rfl, hrel⟩
  | cons a as ih =>
    obtain ⟨s₁, hfst, hrest⟩ := foldlM_cons_eq_ok.mp h
    obtain ⟨t₁, hfst', hrel₁⟩ := hcongr s t a s₁ hs ht hrel hfst
    obtain ⟨t', hrest', hrel'⟩ :=
      ih (hstep s a s₁ hs hfst) (hstep t a t₁ ht hfst') hrel₁ hrest
    exact ⟨t', foldlM_cons_eq_ok.mpr ⟨t₁, hfst', hrest'⟩, hrel'⟩

/-- Where any two steps commute up to `rel`, so do the steps of a run in any order. -/
lemma foldlM_ok_perm (hstep : ∀ s a s', inv s → f s a = .ok s' → inv s') (hrefl : ∀ s, rel s s)
    (htrans : ∀ r s t, rel r s → rel s t → rel r t)
    (hcongr : ∀ s t a s', inv s → inv t → rel s t → f s a = .ok s' →
      ∃ t', f t a = .ok t' ∧ rel s' t')
    (hswap : ∀ s a b s₁ s₂, inv s → f s a = .ok s₁ → f s₁ b = .ok s₂ →
      ∃ t₁ t₂, f s b = .ok t₁ ∧ f t₁ a = .ok t₂ ∧ rel s₂ t₂) {bs : List α} (hperm : as.Perm bs)
    (hs : inv s) (h : as.foldlM f s = .ok s') : ∃ t', bs.foldlM f s = .ok t' ∧ rel s' t' := by
  induction hperm generalizing s s' with
  | nil => exact ⟨s', h, hrefl s'⟩
  | cons a _ ih =>
    obtain ⟨s₁, hfst, hrest⟩ := foldlM_cons_eq_ok.mp h
    obtain ⟨t', hrest', hrel⟩ := ih (hstep s a s₁ hs hfst) hrest
    exact ⟨t', foldlM_cons_eq_ok.mpr ⟨s₁, hfst, hrest'⟩, hrel⟩
  | swap b a as =>
    obtain ⟨s₁, hfst, h⟩ := foldlM_cons_eq_ok.mp h
    obtain ⟨s₂, hsnd, hrest⟩ := foldlM_cons_eq_ok.mp h
    obtain ⟨t₁, t₂, hfst', hsnd', hrel⟩ := hswap s a b s₁ s₂ hs hfst hsnd
    have hs₂ := hstep s₁ b s₂ (hstep s a s₁ hs hfst) hsnd
    have ht₂ := hstep t₁ a t₂ (hstep s b t₁ hs hfst') hsnd'
    obtain ⟨t', hrest', hrel'⟩ := foldlM_ok_congr hstep hcongr hs₂ ht₂ hrel hrest
    exact ⟨t', foldlM_cons_eq_ok.mpr ⟨t₁, hfst', foldlM_cons_eq_ok.mpr ⟨t₂, hsnd', hrest'⟩⟩, hrel'⟩
  | trans _ _ ih ih' =>
    obtain ⟨t', hrun, hrel⟩ := ih hs h
    obtain ⟨t'', hrun', hrel'⟩ := ih' hs hrun
    exact ⟨t'', hrun', htrans _ _ _ hrel hrel'⟩

lemma mapM_range_exists {β : Type} {g : ℕ → Except ε α} {R : α → β → Prop} (items : List β)
    (h : ∀ i (hi : i < items.length), ∃ a, g i = .ok a ∧ R a items[i]) :
    ∃ as, (List.range items.length).mapM g = .ok as ∧ List.Forall₂ R as items := by
  induction items using List.reverseRecOn with
  | nil => exact ⟨[], rfl, .nil⟩
  | append_singleton items b ih =>
    have hinit : ∀ i (hi : i < items.length), ∃ a, g i = .ok a ∧ R a items[i] := by
      intro i hi
      have hi' : i < (items ++ [b]).length := by
        rw [length_append]
        omega
      obtain ⟨a, ha, hR⟩ := h i hi'
      rw [getElem_append_left hi] at hR
      exact ⟨a, ha, hR⟩
    obtain ⟨as, has, hall⟩ := ih hinit
    obtain ⟨a, ha, hR⟩ := h items.length (by simp)
    rw [getElem_concat_length rfl] at hR
    refine ⟨as ++ [a], ?_, rel_append hall (.cons hR .nil)⟩
    rw [length_append, length_singleton, range_succ, mapM_append, has]
    apply bind_eq_ok.mpr
    refine ⟨as, rfl, bind_eq_ok.mpr ⟨[a], ?_, rfl⟩⟩
    rw [mapM_cons, ha]
    rfl

end DXBCSandbox
