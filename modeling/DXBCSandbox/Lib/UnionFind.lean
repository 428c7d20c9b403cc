/-
Union-find on a list of parents, with path compression and without ranks.

A root is its own parent. `find` climbs to the root and then points every node of the path at it.
Compression keeps the root of every node, so it keeps the classes; joining two roots merges two
classes and no others. A path never visits a node twice, so it is shorter than the list.
-/
import Mathlib.Data.Fintype.Card

namespace DXBCSandbox.UnionFind

open List Option

/-- The root above a node, by at most `n` steps. -/
def climb (parents : List ℕ) : (n i : ℕ) → ℕ
  | 0, i => i
  | n + 1, i =>
    let next := parents.getD i i
    if next = i then i else climb parents n next

/-- Points the nodes of a path at its root. -/
def compress (root : ℕ) : (n : ℕ) → List ℕ → ℕ → List ℕ
  | 0, parents, _ => parents
  | n + 1, parents, i =>
    let next := parents.getD i i
    if next = i then parents else compress root n (parents.set i root) next

/-- The compressed parents, and the root of the node. -/
def find (parents : List ℕ) (i : ℕ) : List ℕ × ℕ :=
  let root := climb parents parents.length i
  (compress root parents.length parents i, root)

def unite (parents : List ℕ) (i j : ℕ) : List ℕ :=
  let left := find parents i
  let right := find left.1 j
  if left.2 ≠ right.2 then right.1.set right.2 left.2 else right.1

/-! ## Roots -/

/-- `r` is the root above `i`, at the given number of steps. -/
inductive RootIn (parents : List ℕ) : ℕ → ℕ → ℕ → Prop
  | root {r : ℕ} : parents[r]? = some r → RootIn parents 0 r r
  | step {k i p r : ℕ} : parents[i]? = some p → p ≠ i → RootIn parents k p r →
      RootIn parents (k + 1) i r

/-- Following the parents ends at `r`. -/
def Root (parents : List ℕ) (i r : ℕ) : Prop := ∃ k, RootIn parents k i r

def Forest (parents : List ℕ) : Prop := ∀ i < parents.length, ∃ r, Root parents i r

def Linked (parents : List ℕ) (i j : ℕ) : Prop := ∃ r, Root parents i r ∧ Root parents j r

variable {parents : List ℕ} {i j k r : ℕ} (h : RootIn parents k i r)

include h

lemma RootIn.isRoot : parents[r]? = some r := by
  induction h with
  | root h => exact h
  | step _ _ _ ih => exact ih

lemma RootIn.lt : i < parents.length := by
  cases h with
  | root h => exact (List.getElem?_eq_some_iff.mp h).1
  | step h _ _ => exact (List.getElem?_eq_some_iff.mp h).1

lemma RootIn.unique {k' r' : ℕ} (h' : RootIn parents k' i r') : k = k' ∧ r = r' := by
  induction h generalizing k' with
  | root hroot =>
    cases h' with
    | root _ => exact ⟨rfl, rfl⟩
    | step hp hne _ => exact absurd (some.inj (hp.symm.trans hroot)) hne
  | step hp hne _ ih =>
    cases h' with
    | root hroot => exact absurd (some.inj (hp.symm.trans hroot)) hne
    | step hp' _ hrest =>
      obtain rfl := some.inj (hp.symm.trans hp')
      obtain ⟨rfl, rfl⟩ := ih hrest
      exact ⟨rfl, rfl⟩

omit h

lemma Root.unique {r' : ℕ} (h : Root parents i r) (h' : Root parents i r') : r = r' := by
  obtain ⟨k, h⟩ := h
  obtain ⟨k', h'⟩ := h'
  exact (h.unique h').2

lemma Root.isRoot (h : Root parents i r) : parents[r]? = some r := by
  obtain ⟨k, h⟩ := h
  exact h.isRoot

lemma Root.lt (h : Root parents i r) : i < parents.length := by
  obtain ⟨k, h⟩ := h
  exact h.lt

lemma root_of_isRoot (h : parents[r]? = some r) : Root parents r r := ⟨0, .root h⟩

variable {p : ℕ}

lemma Root.parent (h : Root parents i r) (hp : parents[i]? = some p) : Root parents p r := by
  obtain ⟨k, h⟩ := h
  cases h with
  | root hroot =>
    obtain rfl := some.inj (hp.symm.trans hroot)
    exact root_of_isRoot hroot
  | step hp' _ hrest =>
    obtain rfl := some.inj (hp.symm.trans hp')
    exact ⟨_, hrest⟩

include h

lemma RootIn.exists_at {m : ℕ} (hm : m ≤ k) : ∃ x, RootIn parents m x r := by
  induction h with
  | root hroot =>
    obtain rfl : m = 0 := Nat.le_zero.mp hm
    exact ⟨_, .root hroot⟩
  | step hp hne hrest ih =>
    rcases Nat.lt_or_ge m (_ + 1) with hlt | hge
    · exact ih (Nat.lt_succ_iff.mp hlt)
    · obtain rfl := le_antisymm hm hge
      exact ⟨_, .step hp hne hrest⟩

lemma RootIn.steps_lt : k < parents.length := by
  choose node hnode using fun m : Fin (k + 1) => h.exists_at (Nat.lt_succ_iff.mp m.isLt)
  have hinjective : Function.Injective fun m => (⟨node m, (hnode m).lt⟩ : Fin parents.length) := by
    intro m m' heq
    have hsame := hnode m
    rw [Fin.mk.injEq] at heq
    rw [heq] at hsame
    exact Fin.ext (hsame.unique (hnode m')).1
  have hcard := Fintype.card_le_of_injective _ hinjective
  rw [Fintype.card_fin, Fintype.card_fin] at hcard
  omega

variable {n : ℕ}

lemma climb_eq (hn : k ≤ n) : climb parents n i = r := by
  induction n generalizing k i with
  | zero =>
    obtain rfl : k = 0 := Nat.le_zero.mp hn
    cases h
    rfl
  | succ n ih =>
    rw [climb, getD_eq_getElem?_getD]
    cases h with
    | root hroot =>
      rw [hroot]
      exact if_pos rfl
    | step hp hne hrest =>
      rw [hp]
      exact (if_neg hne).trans (ih hrest (Nat.le_of_succ_le_succ hn))

omit h

/-! ## Compression -/

structure SameRoots (parents parents' : List ℕ) : Prop where
  length_eq : parents'.length = parents.length
  root : ∀ {i r}, Root parents i r → Root parents' i r

lemma SameRoots.refl (parents : List ℕ) : SameRoots parents parents := ⟨rfl, fun h => h⟩

variable {parents' : List ℕ}

lemma SameRoots.trans {parents'' : List ℕ} (h : SameRoots parents parents')
    (h' : SameRoots parents' parents'') : SameRoots parents parents'' :=
  ⟨h'.length_eq.trans h.length_eq, fun hroot => h'.root (h.root hroot)⟩

lemma SameRoots.forest (h : SameRoots parents parents') (hforest : Forest parents) :
    Forest parents' := by
  intro i hi
  obtain ⟨r, hr⟩ := hforest i (h.length_eq ▸ hi)
  exact ⟨r, h.root hr⟩

lemma SameRoots.root_iff (h : SameRoots parents parents') (hforest : Forest parents) :
    Root parents' i r ↔ Root parents i r := by
  refine ⟨fun hroot => ?_, h.root⟩
  obtain ⟨r', hr'⟩ := hforest i (h.length_eq ▸ hroot.lt)
  rwa [hroot.unique (h.root hr')]

lemma SameRoots.linked_iff (h : SameRoots parents parents') (hforest : Forest parents) :
    Linked parents' i j ↔ Linked parents i j := by
  unfold Linked
  simp only [h.root_iff hforest]

lemma sameRoots_set (hp : parents[i]? = some p) (hne : p ≠ i) (hi : Root parents i r) :
    SameRoots parents (parents.set i r) := by
  have hri : r ≠ i := by
    rintro rfl
    exact hne (some.inj (hp.symm.trans hi.isRoot))
  refine ⟨length_set, ?_⟩
  rintro x s ⟨k, h⟩
  induction h with
  | @root s hroot =>
    have hsi : s ≠ i := by
      rintro rfl
      exact hne (some.inj (hp.symm.trans hroot))
    apply root_of_isRoot
    rwa [getElem?_set_ne hsi.symm]
  | @step k x q s hq hqne hrest ih =>
    by_cases hx : x = i
    · obtain rfl : s = r := Root.unique ⟨k + 1, .step hq hqne hrest⟩ (hx ▸ hi)
      refine ⟨1, .step ?_ (fun h => hri (h.trans hx)) (.root ?_)⟩
      · rw [hx, getElem?_set_self hi.lt]
      · rw [getElem?_set_ne hri.symm]
        exact hi.isRoot
    · obtain ⟨k', hk'⟩ := ih
      refine ⟨k' + 1, .step ?_ hqne hk'⟩
      rwa [getElem?_set_ne (Ne.symm hx)]

lemma compress_eq {root : ℕ} (hp : parents[i]? = some p) : compress root (n + 1) parents i =
      if p = i then parents else compress root n (parents.set i root) p := by
  rw [compress, getD_eq_getElem?_getD, hp]
  rfl

lemma sameRoots_compress (n : ℕ) (h : Root parents i r) :
    SameRoots parents (compress r n parents i) := by
  induction n generalizing parents i with
  | zero => exact .refl parents
  | succ n ih =>
    obtain ⟨p, hp⟩ : ∃ p, parents[i]? = some p := ⟨_, getElem?_eq_getElem h.lt⟩
    rw [compress_eq hp]
    by_cases hne : p = i
    · rw [if_pos hne]
      exact .refl parents
    · rw [if_neg hne]
      have hset := sameRoots_set hp hne h
      exact hset.trans (ih (hset.root (h.parent hp)))

/-- **Find.** It returns the root and keeps the roots. -/
theorem find_spec (hforest : Forest parents) (hi : i < parents.length) :
    Root parents i (find parents i).2 ∧ SameRoots parents (find parents i).1 := by
  obtain ⟨r, k, hk⟩ := hforest i hi
  have hclimb : climb parents parents.length i = r := climb_eq hk hk.steps_lt.le
  unfold find
  rw [hclimb]
  exact ⟨⟨k, hk⟩, sameRoots_compress _ ⟨k, hk⟩⟩

/-! ## Joining -/

lemma Linked.symm (h : Linked parents i j) : Linked parents j i := by
  obtain ⟨r, hi, hj⟩ := h
  exact ⟨r, hj, hi⟩

lemma Linked.trans {l : ℕ} (h : Linked parents i j) (h' : Linked parents j l) :
    Linked parents i l := by
  obtain ⟨r, hi, hj⟩ := h
  obtain ⟨r', hj', hl⟩ := h'
  obtain rfl := hj.unique hj'
  exact ⟨r, hi, hl⟩

lemma linked_refl (hforest : Forest parents) (hi : i < parents.length) : Linked parents i i := by
  obtain ⟨r, hr⟩ := hforest i hi
  exact ⟨r, hr, hr⟩

lemma root_set_root {left right : ℕ} (hleft : parents[left]? = some left)
    (hright : parents[right]? = some right) (hne : left ≠ right) (h : Root parents i r) :
    Root (parents.set right left) i (if r = right then left else r) := by
  have hleft' : (parents.set right left)[left]? = some left := by
    rwa [List.getElem?_set_ne hne.symm]
  obtain ⟨k, h⟩ := h
  induction h with
  | @root r hroot =>
    by_cases hr : r = right
    · rw [if_pos hr, hr]
      refine ⟨1, .step ?_ hne (.root hleft')⟩
      exact List.getElem?_set_self (List.getElem?_eq_some_iff.mp hright).1
    · rw [if_neg hr]
      apply root_of_isRoot
      rwa [List.getElem?_set_ne (Ne.symm hr)]
  | @step k x q r hq hqne hrest ih =>
    obtain ⟨k', hk'⟩ := ih
    refine ⟨k' + 1, .step ?_ hqne hk'⟩
    rw [List.getElem?_set_ne]
    · exact hq
    · rintro rfl
      exact hqne (some.inj (hq.symm.trans hright))

/-- The classes after a change: the old ones are kept, `i` and `j` are in one, and every
equivalence that holds on the old classes and between `i` and `j` holds on the new ones. -/
structure Joined (parents parents' : List ℕ) (i j : ℕ) : Prop where
  forest : Forest parents'
  length_eq : parents'.length = parents.length
  linked : ∀ {x y}, Linked parents x y → Linked parents' x y
  joined : Linked parents' i j
  least : ∀ {S : ℕ → ℕ → Prop}, (∀ {x y}, S x y → S y x) → (∀ {x y z}, S x y → S y z → S x z) →
    (∀ {x y}, Linked parents x y → S x y) → S i j → ∀ {x y}, Linked parents' x y → S x y

/-- **Unite.** It joins the classes of two nodes and no others. -/
theorem joined_unite (hforest : Forest parents) (hi : i < parents.length)
    (hj : j < parents.length) : Joined parents (unite parents i j) i j := by
  obtain ⟨hleft, hsame⟩ := find_spec hforest hi
  have hforest₁ := hsame.forest hforest
  obtain ⟨hright, hsame'⟩ := find_spec hforest₁ (hsame.length_eq.symm ▸ hj)
  have hboth := hsame.trans hsame'
  have hforest₂ := hboth.forest hforest
  have hleft₂ := hboth.root hleft
  have hright₂ := hsame'.root hright
  unfold unite
  dsimp only
  generalize (find parents i).2 = left at hleft hleft₂
  generalize (find (find parents i).1 j).2 = right at hright hright₂
  generalize (find (find parents i).1 j).1 = parents₂ at hboth hforest₂ hleft₂ hright₂
  by_cases hne : left ≠ right
  · rw [if_pos hne]
    have hroot : ∀ {x r}, Root parents₂ x r →
        Root (parents₂.set right left) x (if r = right then left else r) :=
      root_set_root hleft₂.isRoot hright₂.isRoot hne
    refine ⟨?_, ?_, ?_, ?_, ?_⟩
    · intro x hx
      rw [length_set] at hx
      obtain ⟨r, hr⟩ := hforest₂ x hx
      exact ⟨_, hroot hr⟩
    · rw [length_set, hboth.length_eq]
    · rintro x y ⟨r, hx, hy⟩
      exact ⟨_, hroot (hboth.root hx), hroot (hboth.root hy)⟩
    · refine ⟨left, ?_, ?_⟩
      · have := hroot hleft₂
        rwa [if_neg hne] at this
      · have := hroot hright₂
        rwa [if_pos rfl] at this
    · rintro S hsymm htrans hold hij x y ⟨s, hx, hy⟩
      -- The old roots of `x` and `y` are equal, or they are the two that were joined.
      have hxlt := hx.lt
      have hylt := hy.lt
      rw [length_set] at hxlt hylt
      obtain ⟨rx, hrx⟩ := hforest₂ x hxlt
      obtain ⟨ry, hry⟩ := hforest₂ y hylt
      have hxs := hx.unique (hroot hrx)
      have hys := hy.unique (hroot hry)
      have hlink : ∀ {a b r}, Root parents₂ a r → Root parents₂ b r → S a b :=
        fun ha hb => hold ((hboth.linked_iff hforest).mp ⟨_, ha, hb⟩)
      rw [hxs] at hys
      split_ifs at hys with hxr hyr hyr
      · exact hlink hrx (hxr.trans hyr.symm ▸ hry)
      · exact htrans (hlink (hxr ▸ hrx) hright₂) (htrans (hsymm hij) (hlink hleft₂ (hys ▸ hry)))
      · exact htrans (hlink (hys ▸ hrx) hleft₂) (htrans hij (hlink hright₂ (hyr ▸ hry)))
      · exact hlink hrx (hys ▸ hry)
  · rw [if_neg hne]
    obtain rfl := not_not.mp hne
    have hlinked : ∀ {x y}, Linked parents₂ x y ↔ Linked parents x y := hboth.linked_iff hforest
    exact ⟨hforest₂, hboth.length_eq, hlinked.mpr, ⟨left, hleft₂, hright₂⟩,
      fun _ _ hold _ => fun {_ _} h => hold (hlinked.mp h)⟩

/-! ## Singletons -/

lemma root_range (hi : i < n) : Root (List.range n) i i :=
  root_of_isRoot (getElem?_range hi)

lemma forest_range (n : ℕ) : Forest (List.range n) := by
  intro i hi
  rw [length_range] at hi
  exact ⟨i, root_range hi⟩

lemma eq_of_linked_range (h : Linked (List.range n) i j) : i = j := by
  obtain ⟨r, hi, hj⟩ := h
  have hilt := hi.lt
  have hjlt := hj.lt
  rw [length_range] at hilt hjlt
  exact ((root_range hilt).unique hi).trans (hj.unique (root_range hjlt))

end DXBCSandbox.UnionFind
