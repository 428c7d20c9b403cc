/-
Lists sorted by a key.

Elements are compared by a key, and no two of them have the same key. Such a list is the
only one of its elements that is sorted, whatever sorted it.
-/
import Mathlib.Data.List.Sort

namespace DXBCSandbox

variable {α κ : Type} [Ord κ] [Std.TransOrd κ] [Std.LawfulEqOrd κ] (key : α → κ)

def SortedBy (items : List α) : Prop :=
  items.Pairwise fun a b => compare (key a) (key b) = .lt

def sortBy (items : List α) : List α :=
  items.insertionSort fun a b => compare (key a) (key b) ≠ .gt

omit [Std.LawfulEqOrd κ] in
lemma compare_ne_gt_total (a b : κ) : compare a b ≠ .gt ∨ compare b a ≠ .gt := by
  rcases h : compare a b with _ | _ | _
  · exact .inl (by simp)
  · exact .inl (by simp)
  · refine .inr ?_
    rw [Std.OrientedOrd.eq_swap, h]
    decide

omit [Std.LawfulEqOrd κ] in
lemma compare_lt_trans {a b c : κ} (hab : compare a b = .lt) (hbc : compare b c = .lt) :
    compare a c = .lt := Std.TransCmp.lt_trans hab hbc

omit [Std.LawfulEqOrd κ] in
lemma isTrans_compare_ne_gt : IsTrans α fun a b => compare (key a) (key b) ≠ .gt where
  trans a b c hab hbc := by
    exact Ordering.isLE_iff_ne_gt.mp (Std.TransOrd.isLE_trans
      (Ordering.isLE_iff_ne_gt.mpr hab) (Ordering.isLE_iff_ne_gt.mpr hbc))

omit [Std.LawfulEqOrd κ] in
lemma total_compare_ne_gt : Std.Total fun a b : α => compare (key a) (key b) ≠ .gt where
  total a b := compare_ne_gt_total (key a) (key b)

omit [Std.TransOrd κ] [Std.LawfulEqOrd κ] in
lemma perm_sortBy (items : List α) : (sortBy key items).Perm items :=
  List.perm_insertionSort _ items

omit [Std.LawfulEqOrd κ] in
lemma pairwise_sortBy (items : List α) :
    (sortBy key items).Pairwise fun a b => compare (key a) (key b) ≠ .gt := by
  have := isTrans_compare_ne_gt key
  have := total_compare_ne_gt key
  exact List.pairwise_insertionSort _ items

variable {key} {items items' : List α}

omit [Std.LawfulEqOrd κ] in
/-- A list is sorted when each element has a smaller key than the next. -/
theorem sortedBy_iff_isChain :
    SortedBy key items ↔ items.IsChain fun a b => compare (key a) (key b) = .lt := by
  have : IsTrans α fun a b => compare (key a) (key b) = .lt :=
    ⟨fun _ _ _ => compare_lt_trans⟩
  exact List.isChain_iff_pairwise.symm

lemma SortedBy.eq_of_perm (h : SortedBy key items) (h' : SortedBy key items')
    (hperm : items.Perm items') : items = items' := by
  apply hperm.eq_of_pairwise _ h h'
  intro a b _ _ hab hba
  have := compare_lt_trans hab hba
  rw [Std.ReflOrd.compare_self] at this
  exact absurd this (by decide)

omit [Std.LawfulEqOrd κ] in
lemma SortedBy.nodup (h : SortedBy key items) : (items.map key).Nodup := by
  rw [List.Nodup, List.pairwise_map]
  apply List.Pairwise.imp _ h
  intro a b hab heq
  rw [heq, Std.ReflOrd.compare_self] at hab
  exact absurd hab (by decide)

lemma sortedBy_sortBy (h : (items.map key).Nodup) : SortedBy key (sortBy key items) := by
  have hnodup : ((sortBy key items).map key).Nodup :=
    ((perm_sortBy key items).map key).nodup_iff.mpr h
  rw [List.Nodup, List.pairwise_map] at hnodup
  refine (pairwise_sortBy key items).imp₂ ?_ hnodup
  intro a b hle hne
  rcases hab : compare (key a) (key b) with _ | _ | _
  · rfl
  · exact absurd (Std.LawfulEqOrd.eq_of_compare hab) hne
  · exact absurd hab hle

lemma SortedBy.sortBy_eq (h : SortedBy key items) : sortBy key items = items :=
  (sortedBy_sortBy h.nodup).eq_of_perm h (perm_sortBy key items)

lemma sortBy_perm (h : (items.map key).Nodup) (hperm : items.Perm items') :
    sortBy key items = sortBy key items' := by
  have h' : (items'.map key).Nodup := (hperm.map key).nodup_iff.mp h
  apply (sortedBy_sortBy h).eq_of_perm (sortedBy_sortBy h')
  exact (perm_sortBy key items).trans (hperm.trans (perm_sortBy key items').symm)

/-- With a key for each element, two lists sort to the same list exactly when they have the same
elements, however often each. -/
theorem sortBy_eq_iff_perm (hkey : Function.Injective key) :
    sortBy key items = sortBy key items' ↔ items.Perm items' := by
  constructor
  · intro h
    exact (perm_sortBy key items).symm.trans (h ▸ perm_sortBy key items')
  · intro hperm
    have hsorted := (perm_sortBy key items).trans (hperm.trans (perm_sortBy key items').symm)
    apply hsorted.eq_of_pairwise _ (pairwise_sortBy key items) (pairwise_sortBy key items')
    intro a b _ _ hab hba
    apply hkey
    apply Std.LawfulEqOrd.eq_of_compare
    rcases h : compare (key a) (key b) with _ | _ | _
    · rw [Std.OrientedOrd.eq_swap, h] at hba
      exact absurd rfl hba
    · rfl
    · exact absurd h hab

end DXBCSandbox
