/-
Lists whose entries have keys.

When no key occurs twice, the first entry of a key is the only one. Two such lists are merged by
taking the entries of the second list whose key is new. When the lists agree on the keys that they
share, the merged list has the entries of both.
-/
import Mathlib.Data.List.Nodup

namespace DXBCSandbox

open List

/-- The only member of a list that passes a test is the one that is found. -/
theorem find?_eq_some_of_unique {α : Type} {test : α → Bool} {l : List α} {a : α} (ha : a ∈ l)
    (htest : test a = true) (hunique : ∀ b ∈ l, test b = true → b = a) :
    l.find? test = some a := by
  cases hfind : l.find? test with
  | none => exact absurd htest (List.find?_eq_none.mp hfind a ha)
  | some b => rw [hunique b (mem_of_find?_eq_some hfind) (List.find?_some hfind)]

section Keys

variable {α κ : Type} [DecidableEq κ] {key : α → κ} {xs ys : List α}

lemma find?_key (hnodup : (xs.map key).Nodup) {a : α} (ha : a ∈ xs) :
    xs.find? (fun b => key b = key a) = some a :=
  find?_eq_some_of_unique ha (decide_eq_true rfl) fun _ hb htest =>
    inj_on_of_nodup_map hnodup hb ha (of_decide_eq_true htest)

/-- The entries of the second list whose key is new. -/
def newOnes (key : α → κ) (xs ys : List α) : List α := ys.filter fun y => key y ∉ xs.map key

lemma mem_newOnes {a : α} : a ∈ newOnes key xs ys ↔ a ∈ ys ∧ key a ∉ xs.map key := by
  rw [newOnes, mem_filter, decide_eq_true_iff]

lemma nodup_append_newOnes (hxs : (xs.map key).Nodup) (hys : (ys.map key).Nodup) :
    ((xs ++ newOnes key xs ys).map key).Nodup := by
  rw [map_append, nodup_append]
  refine ⟨hxs, hys.sublist (filter_sublist.map key), ?_⟩
  rintro k hk k' hk' rfl
  obtain ⟨a, ha, rfl⟩ := mem_map.mp hk'
  exact (mem_newOnes.mp ha).2 hk

/-- **Merged lists.** They have the entries of both, if these agree on shared keys. -/
theorem mem_append_newOnes (hagree : ∀ y ∈ ys, ∀ x ∈ xs, key y = key x → y = x) {a : α} :
    a ∈ xs ++ newOnes key xs ys ↔ a ∈ xs ∨ a ∈ ys := by
  rw [mem_append, mem_newOnes]
  constructor
  · exact Or.imp_right And.left
  · rintro (ha | ha)
    · exact .inl ha
    · by_cases hold : key a ∈ xs.map key
      · obtain ⟨x, hx, hkey⟩ := mem_map.mp hold
        rw [hagree a ha x hx hkey.symm]
        exact .inl hx
      · exact .inr ⟨ha, hold⟩

end Keys

end DXBCSandbox
