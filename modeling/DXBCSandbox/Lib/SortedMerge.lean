/-
Sets as sorted lists.

Two lists that grow strictly are walked together: the smaller head moves on, and equal heads move
on at once. One walk keeps the elements of both lists, the other those of either.
-/
import Mathlib.Data.Finset.Card

namespace DXBCSandbox.SortedMerge

open List

variable {α : Type*} [LinearOrder α]

abbrev Increasing (xs : List α) : Prop := xs.Pairwise (· < ·)

/-- The elements of both lists, found in one walk. -/
def inter : List α → List α → List α
  | [], _ => []
  | _ :: _, [] => []
  | x :: xs, y :: ys =>
    if x < y then inter xs (y :: ys)
    else if y < x then inter (x :: xs) ys
    else x :: inter xs ys
  termination_by xs ys => xs.length + ys.length

/-- The elements of either list, each once, found in one walk. -/
def union : List α → List α → List α
  | [], ys => ys
  | x :: xs, [] => x :: xs
  | x :: xs, y :: ys =>
    if x < y then x :: union xs (y :: ys)
    else if y < x then y :: union (x :: xs) ys
    else x :: union xs ys
  termination_by xs ys => xs.length + ys.length

variable {xs ys : List α} {a : α}

@[simp] lemma inter_nil_left (ys : List α) : inter [] ys = [] := by rw [inter]

@[simp] lemma inter_nil_right (xs : List α) : inter xs [] = [] := by
  cases xs with
  | nil => rw [inter]
  | cons x xs => rw [inter]

@[simp] lemma union_nil_left (ys : List α) : union [] ys = ys := by rw [union]

@[simp] lemma union_nil_right (xs : List α) : union xs [] = xs := by
  cases xs with
  | nil => rw [union]
  | cons x xs => rw [union]

/-! ## One step -/

section Step

variable {x y : α}

lemma inter_of_lt (h : x < y) : inter (x :: xs) (y :: ys) = inter xs (y :: ys) := by
  rw [inter, if_pos h]

lemma inter_of_gt (h : y < x) : inter (x :: xs) (y :: ys) = inter (x :: xs) ys := by
  rw [inter, if_neg h.asymm, if_pos h]

lemma inter_of_eq : inter (x :: xs) (x :: ys) = x :: inter xs ys := by
  rw [inter, if_neg (lt_irrefl x), if_neg (lt_irrefl x)]

lemma union_of_lt (h : x < y) : union (x :: xs) (y :: ys) = x :: union xs (y :: ys) := by
  rw [union, if_pos h]

lemma union_of_gt (h : y < x) : union (x :: xs) (y :: ys) = y :: union (x :: xs) ys := by
  rw [union, if_neg h.asymm, if_pos h]

lemma union_of_eq : union (x :: xs) (x :: ys) = x :: union xs ys := by
  rw [union, if_neg (lt_irrefl x), if_neg (lt_irrefl x)]

lemma not_mem_of_lt_head (hy : Increasing (y :: ys)) (h : x < y) : x ∉ y :: ys := by
  intro hmem
  rcases mem_cons.mp hmem with rfl | hmem
  · exact lt_irrefl x h
  · exact lt_asymm h (rel_of_pairwise_cons hy hmem)

end Step

/-- The cases of a walk: a list has ended, or its head is less, greater or equal. -/
lemma walk_induction {P : List α → List α → Prop} (nil_left : ∀ ys, P [] ys)
    (nil_right : ∀ xs, P xs [])
    (lt : ∀ x xs y ys, x < y → P xs (y :: ys) → P (x :: xs) (y :: ys))
    (gt : ∀ x xs y ys, y < x → P (x :: xs) ys → P (x :: xs) (y :: ys))
    (eq : ∀ x xs ys, P xs ys → P (x :: xs) (x :: ys)) (xs ys : List α) : P xs ys := by
  induction xs generalizing ys with
  | nil => exact nil_left ys
  | cons x xs ihx =>
    induction ys with
    | nil => exact nil_right (x :: xs)
    | cons y ys ihy =>
      rcases lt_trichotomy x y with h | rfl | h
      · exact lt x xs y ys h (ihx (y :: ys))
      · exact eq x xs ys (ihx ys)
      · exact gt x xs y ys h ihy

/-! ## The walks -/

lemma mem_inter (hx : Increasing xs) (hy : Increasing ys) :
    a ∈ inter xs ys ↔ a ∈ xs ∧ a ∈ ys := by
  induction xs, ys using walk_induction with
  | nil_left ys => simp
  | nil_right xs => simp
  | lt x xs y ys h ih =>
    rw [inter_of_lt h, ih hx.of_cons hy, mem_cons (l := xs)]
    constructor
    · exact fun hmem => ⟨Or.inr hmem.1, hmem.2⟩
    · rintro ⟨rfl | hmem, hmem'⟩
      · exact absurd hmem' (not_mem_of_lt_head hy h)
      · exact ⟨hmem, hmem'⟩
  | gt x xs y ys h ih =>
    rw [inter_of_gt h, ih hx hy.of_cons, mem_cons (l := ys)]
    constructor
    · exact fun hmem => ⟨hmem.1, Or.inr hmem.2⟩
    · rintro ⟨hmem, rfl | hmem'⟩
      · exact absurd hmem (not_mem_of_lt_head hx h)
      · exact ⟨hmem, hmem'⟩
  | eq x xs ys ih =>
    have hx' : x ∉ xs := fun hmem => lt_irrefl x (rel_of_pairwise_cons hx hmem)
    rw [inter_of_eq, mem_cons, ih hx.of_cons hy.of_cons, mem_cons, mem_cons]
    by_cases ha : a = x
    · simp [ha]
    · simp [ha]

lemma mem_union : a ∈ union xs ys ↔ a ∈ xs ∨ a ∈ ys := by
  induction xs, ys using walk_induction with
  | nil_left ys => simp
  | nil_right xs => simp
  | lt x xs y ys h ih => rw [union_of_lt h, mem_cons, ih, mem_cons (l := xs), or_assoc]
  | gt x xs y ys h ih =>
    rw [union_of_gt h, mem_cons, ih, mem_cons (l := ys), or_left_comm]
  | eq x xs ys ih =>
    rw [union_of_eq, mem_cons, ih, mem_cons, mem_cons]
    by_cases ha : a = x
    · simp [ha]
    · simp [ha]

lemma inter_sublist : (inter xs ys).Sublist xs := by
  induction xs, ys using walk_induction with
  | nil_left ys => simp
  | nil_right xs => simp
  | lt x xs y ys h ih =>
    rw [inter_of_lt h]
    exact ih.cons x
  | gt x xs y ys h ih =>
    rw [inter_of_gt h]
    exact ih
  | eq x xs ys ih =>
    rw [inter_of_eq]
    exact ih.cons_cons x

lemma increasing_inter (hx : Increasing xs) : Increasing (inter xs ys) := hx.sublist inter_sublist

lemma increasing_union (hx : Increasing xs) (hy : Increasing ys) : Increasing (union xs ys) := by
  induction xs, ys using walk_induction with
  | nil_left ys => simpa using hy
  | nil_right xs => simpa using hx
  | lt x xs y ys h ih =>
    rw [union_of_lt h, Increasing, pairwise_cons]
    refine ⟨?_, ih hx.of_cons hy⟩
    intro a ha
    rcases mem_union.mp ha with ha | ha
    · exact rel_of_pairwise_cons hx ha
    · rcases mem_cons.mp ha with rfl | ha
      · exact h
      · exact h.trans (rel_of_pairwise_cons hy ha)
  | gt x xs y ys h ih =>
    rw [union_of_gt h, Increasing, pairwise_cons]
    refine ⟨?_, ih hx hy.of_cons⟩
    intro a ha
    rcases mem_union.mp ha with ha | ha
    · rcases mem_cons.mp ha with rfl | ha
      · exact h
      · exact h.trans (rel_of_pairwise_cons hx ha)
    · exact rel_of_pairwise_cons hy ha
  | eq x xs ys ih =>
    rw [union_of_eq, Increasing, pairwise_cons]
    refine ⟨?_, ih hx.of_cons hy.of_cons⟩
    intro a ha
    rcases mem_union.mp ha with ha | ha
    · exact rel_of_pairwise_cons hx ha
    · exact rel_of_pairwise_cons hy ha

/-! ## As sets -/

lemma Increasing.nodup (hx : Increasing xs) : xs.Nodup := hx.imp ne_of_lt

/-- An increasing list is determined by its elements. -/
lemma Increasing.eq_of_mem_iff (hx : Increasing xs) (hy : Increasing ys)
    (h : ∀ a, a ∈ xs ↔ a ∈ ys) : xs = ys := by
  apply List.Perm.eq_of_pairwise _ hx hy
  · exact (perm_ext_iff_of_nodup hx.nodup hy.nodup).mpr h
  · intro a b _ _ hab hba
    exact absurd hab hba.asymm

lemma toFinset_inter (hx : Increasing xs) (hy : Increasing ys) :
    (inter xs ys).toFinset = xs.toFinset ∩ ys.toFinset := by
  ext a
  rw [mem_toFinset, Finset.mem_inter, mem_toFinset, mem_toFinset, mem_inter hx hy]

lemma length_inter (hx : Increasing xs) (hy : Increasing ys) :
    (inter xs ys).length = (xs.toFinset ∩ ys.toFinset).card := by
  rw [← toFinset_inter hx hy, toFinset_card_of_nodup (increasing_inter hx).nodup]

end DXBCSandbox.SortedMerge
