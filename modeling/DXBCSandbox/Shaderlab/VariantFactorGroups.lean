/-
The groups that the union-find makes of the keywords.

Two keywords that never occur in one state are in one group, and the groups are the finest with
this property. Which keyword is the root of its group does not matter: a group is the list of its
keywords in the order of the table.
-/
import DXBCSandbox.Lib.SortedMerge
import DXBCSandbox.Shaderlab.VariantFactor

namespace DXBCSandbox

open List SortedMerge UnionFind VariantPlan

namespace VariantFactor

/-! ## States -/

variable {state : List KeywordIndex} {n : ℕ} {keyword : KeywordIndex}

lemma state_contains_between_iff (h : Increasing state) {low high : ℕ}
    (hhigh : high ≤ state.length) (hn : high - low < n) :
    state_contains_between state keyword n low high = true ↔
      ∃ m, low ≤ m ∧ m < high ∧ state[m]? = some keyword := by
  induction n generalizing low high with
  | zero => exact absurd hn (Nat.not_lt_zero _)
  | succ n ih =>
    rw [state_contains_between]
    by_cases hlt : low < high
    · rw [if_pos hlt]
      have hmiddle : low + (high - low) / 2 < state.length := by omega
      have hget : state.getD (low + (high - low) / 2) 0 = state[low + (high - low) / 2] :=
        getD_eq_getElem _ _ hmiddle
      -- Elements of smaller places are smaller.
      have hsorted : ∀ {i j : ℕ} {a b : KeywordIndex}, i < j → state[i]? = some a →
          state[j]? = some b → a < b := by
        intro i j a b hij ha hb
        obtain ⟨hi, rfl⟩ := List.getElem?_eq_some_iff.mp ha
        obtain ⟨hj, rfl⟩ := List.getElem?_eq_some_iff.mp hb
        exact pairwise_iff_getElem.mp h i j hi hj hij
      have hmid : state[low + (high - low) / 2]? = some state[low + (high - low) / 2] :=
        List.getElem?_eq_getElem hmiddle
      dsimp only
      rw [hget]
      split_ifs with heq hless
      · exact iff_of_true rfl ⟨_, by omega, by omega, heq ▸ hmid⟩
      · rw [ih hhigh (by omega)]
        constructor
        · rintro ⟨m, hlow, hm, hmem⟩
          exact ⟨m, by omega, hm, hmem⟩
        · rintro ⟨m, hlow, hm, hmem⟩
          refine ⟨m, ?_, hm, hmem⟩
          by_contra hle
          rcases Nat.lt_or_ge m (low + (high - low) / 2) with hlt' | hge
          · exact lt_asymm hless (hsorted hlt' hmem hmid)
          · obtain rfl : m = low + (high - low) / 2 := by omega
            exact heq (Option.some.inj (hmid.symm.trans hmem))
      · rw [ih (by omega) (by omega)]
        constructor
        · rintro ⟨m, hlow, hm, hmem⟩
          exact ⟨m, hlow, by omega, hmem⟩
        · rintro ⟨m, hlow, hm, hmem⟩
          refine ⟨m, hlow, ?_, hmem⟩
          by_contra hge
          rcases Nat.lt_or_ge (low + (high - low) / 2) m with hlt' | hle
          · exact hless (hsorted hlt' hmid hmem)
          · obtain rfl : m = low + (high - low) / 2 := by omega
            exact heq (Option.some.inj (hmid.symm.trans hmem))
    · rw [if_neg hlt]
      refine iff_of_false Bool.false_ne_true ?_
      rintro ⟨m, hlow, hm, -⟩
      omega

lemma state_contains_iff (h : Increasing state) :
    state_contains state keyword = true ↔ keyword ∈ state := by
  unfold state_contains
  rw [state_contains_between_iff h (le_refl _) (by omega), mem_iff_getElem?]
  constructor
  · rintro ⟨m, -, -, hm⟩
    exact ⟨m, hm⟩
  · rintro ⟨m, hm⟩
    exact ⟨m, Nat.zero_le m, (List.getElem?_eq_some_iff.mp hm).1, hm⟩

def Apart (states : List (List KeywordIndex)) (left right : KeywordIndex) : Prop :=
  ∀ state ∈ states, ¬ (left ∈ state ∧ right ∈ state)

variable {states : List (List KeywordIndex)}

lemma Apart.symm {left right : KeywordIndex} (h : Apart states left right) :
    Apart states right left :=
  fun state hstate hboth => h state hstate hboth.symm

lemma keywords_never_cooccur_iff (hstates : ∀ state ∈ states, Increasing state)
    {left right : KeywordIndex} :
    keywords_never_cooccur states left right = true ↔ Apart states left right := by
  unfold keywords_never_cooccur Apart
  rw [all_eq_true]
  refine forall₂_congr fun state hstate => ?_
  rw [Bool.not_eq_true', Bool.and_eq_false_iff, Bool.eq_false_iff, Bool.eq_false_iff, Ne, Ne,
    state_contains_iff (hstates state hstate), state_contains_iff (hstates state hstate)]
  exact not_and_or.symm

/-! ## The union-find -/

section Join

variable {states : List (List KeywordIndex)} {keyword_universe : List KeywordIndex} {n : ℕ}

/-- The parents after the pairs that are done: the pairs that never occur together are linked, and
no finer equivalence does that. -/
structure JoinedPairs (never : ℕ → ℕ → Prop) (n : ℕ) (done : List (ℕ × ℕ)) (parents : List ℕ) :
    Prop where
  forest : Forest parents
  length_eq : parents.length = n
  linked : ∀ pair ∈ done, never pair.1 pair.2 → Linked parents pair.1 pair.2
  least : ∀ {S : ℕ → ℕ → Prop}, (∀ {x}, S x x) → (∀ {x y}, S x y → S y x) →
    (∀ {x y z}, S x y → S y z → S x z) → (∀ pair ∈ done, never pair.1 pair.2 → S pair.1 pair.2) →
    ∀ {x y}, Linked parents x y → S x y

/-- The keywords at two places never occur together. -/
def NeverAt (states : List (List KeywordIndex)) (keyword_universe : List KeywordIndex)
    (i j : ℕ) : Prop :=
  keywords_never_cooccur states (keyword_universe.getD i 0) (keyword_universe.getD j 0) = true

variable {pair : ℕ × ℕ} {parents : List ℕ}

lemma join_keywords_of_never (h : NeverAt states keyword_universe pair.1 pair.2) :
    join_keywords states keyword_universe parents pair = unite parents pair.1 pair.2 :=
  if_neg (not_not.mpr h)

lemma join_keywords_of_not (h : ¬ NeverAt states keyword_universe pair.1 pair.2) :
    join_keywords states keyword_universe parents pair = parents := if_pos h

variable {done : List (ℕ × ℕ)}

lemma JoinedPairs.step (h : JoinedPairs (NeverAt states keyword_universe) n done parents)
    (hfst : pair.1 < n) (hsnd : pair.2 < n) :
    JoinedPairs (NeverAt states keyword_universe) n (done ++ [pair])
      (join_keywords states keyword_universe parents pair) := by
  by_cases hnever : NeverAt states keyword_universe pair.1 pair.2
  · rw [join_keywords_of_never hnever]
    have hjoined := joined_unite h.forest (h.length_eq.symm ▸ hfst) (h.length_eq.symm ▸ hsnd)
    refine ⟨hjoined.forest, hjoined.length_eq.trans h.length_eq, ?_, ?_⟩
    · intro pair' hpair' hnever'
      rcases mem_append.mp hpair' with hdone | hnew
      · exact hjoined.linked (h.linked pair' hdone hnever')
      · rw [mem_singleton.mp hnew]
        exact hjoined.joined
    · intro S hrefl hsymm htrans hpairs x y hxy
      refine hjoined.least (S := S) hsymm htrans ?_ ?_ hxy
      · exact h.least hrefl hsymm htrans (forall_mem_append.mp hpairs).1
      · exact hpairs pair (mem_append_right _ (mem_singleton_self _)) hnever
  · rw [join_keywords_of_not hnever]
    refine ⟨h.forest, h.length_eq, ?_, ?_⟩
    · intro pair' hpair' hnever'
      rcases mem_append.mp hpair' with hdone | hnew
      · exact h.linked pair' hdone hnever'
      · rw [mem_singleton.mp hnew] at hnever'
        exact absurd hnever' hnever
    · intro S hrefl hsymm htrans hpairs
      exact h.least hrefl hsymm htrans (forall_mem_append.mp hpairs).1

lemma JoinedPairs.foldl {pairs : List (ℕ × ℕ)}
    (h : JoinedPairs (NeverAt states keyword_universe) n done parents)
    (hpairs : ∀ pair ∈ pairs, pair.1 < n ∧ pair.2 < n) :
    JoinedPairs (NeverAt states keyword_universe) n (done ++ pairs)
      (pairs.foldl (join_keywords states keyword_universe) parents) := by
  induction pairs generalizing done parents with
  | nil =>
    rw [append_nil]
    exact h
  | cons pair pairs ih =>
    obtain ⟨hfst, hsnd⟩ := hpairs pair mem_cons_self
    have hnext := ih (h.step hfst hsnd) (forall_mem_cons.mp hpairs).2
    rw [append_assoc] at hnext
    exact hnext

lemma joinedPairs_range (never : ℕ → ℕ → Prop) (n : ℕ) :
    JoinedPairs never n [] (List.range n) where
  forest := forest_range n
  length_eq := length_range
  linked := nofun
  least := by
    intro S hrefl _ _ _ x y hxy
    rw [eq_of_linked_range hxy]
    exact hrefl

lemma mem_keyword_pairs : pair ∈ keyword_pairs n ↔ pair.1 < pair.2 ∧ pair.2 < n := by
  unfold keyword_pairs
  rw [mem_flatMap]
  constructor
  · rintro ⟨i, hi, hpair⟩
    obtain ⟨j, hj, rfl⟩ := mem_map.mp hpair
    rw [mem_range] at hi
    rw [mem_range'_1] at hj
    exact ⟨by omega, by omega⟩
  · rintro ⟨hlt, hn⟩
    refine ⟨pair.1, mem_range.mpr (by omega), mem_map.mpr ⟨pair.2, ?_, rfl⟩⟩
    exact mem_range'_1.mpr ⟨by omega, by omega⟩

end Join

/-! ## Components -/

variable {c : ℕ}

section Assign

variable {parents : List ℕ} {i : ℕ}

lemma root_self_iff : Root parents i i ↔ parents[i]? = some i :=
  ⟨fun h => h.isRoot, root_of_isRoot⟩

lemma count_components_eq {indices : List ℕ} (hforest : Forest parents)
    (hlt : ∀ i ∈ indices, i < parents.length) :
    SameRoots parents (count_components indices parents).1 ∧
      (count_components indices parents).2 = indices.countP fun i => parents[i]? = some i := by
  induction indices generalizing parents with
  | nil => exact ⟨.refl parents, rfl⟩
  | cons i rest ih =>
    obtain ⟨hroot, hsame⟩ := find_spec hforest (hlt i mem_cons_self)
    obtain ⟨hrest, hcnt⟩ := ih (hsame.forest hforest) fun j hj =>
      hsame.length_eq.symm ▸ hlt j (mem_cons_of_mem _ hj)
    have hself : (dsu_find parents i).2 = i ↔ parents[i]? = some i := by
      rw [← root_self_iff]
      constructor
      · intro h
        have hroot' : Root parents i (dsu_find parents i).2 := hroot
        rwa [h] at hroot'
      · exact fun h => hroot.unique h
    have hparents : ∀ j : ℕ, (dsu_find parents i).1[j]? = some j ↔ parents[j]? = some j := by
      intro j
      rw [← root_self_iff, ← root_self_iff]
      exact hsame.root_iff hforest
    refine ⟨hsame.trans hrest, ?_⟩
    rw [count_components, countP_cons]
    dsimp only
    have hcnt' : (count_components rest (dsu_find parents i).1).2 =
        rest.countP fun j => parents[j]? = some j := by
      refine hcnt.trans (countP_congr fun j _ => ?_)
      rw [decide_eq_true_iff, decide_eq_true_iff]
      exact hparents j
    rw [hcnt']
    by_cases h : (dsu_find parents i).2 = i
    · rw [if_pos h, if_pos (decide_eq_true (hself.mp h))]
    · rw [if_neg h, if_neg (by rw [decide_eq_true_iff, ← hself]; exact h), Nat.add_zero]

lemma search_component_spec {root : ℕ} {components : List ℕ} {previous : ℕ}
    (hforest : Forest parents) (hlt : previous + components.length ≤ parents.length) :
    SameRoots parents (search_component root components previous parents).1 ∧
      ((search_component root components previous parents).2 = none ∧
          (∀ q < components.length, ¬ Root parents (previous + q) root) ∨
        ∃ q c, components[q]? = some c ∧ Root parents (previous + q) root ∧
          (search_component root components previous parents).2 = some c) := by
  induction components generalizing previous parents with
  | nil => exact ⟨.refl parents, .inl ⟨rfl, fun q hq => absurd hq (Nat.not_lt_zero q)⟩⟩
  | cons c rest ih =>
    rw [length_cons] at hlt
    obtain ⟨hroot, hsame⟩ := find_spec hforest (show previous < parents.length by omega)
    rw [search_component]
    by_cases hfound : (dsu_find parents previous).2 = root
    · rw [if_pos hfound]
      refine ⟨hsame, .inr ⟨0, c, rfl, ?_, rfl⟩⟩
      rw [← hfound]
      exact hroot
    · rw [if_neg hfound]
      have hforest' := hsame.forest hforest
      have hlt' : previous + 1 + rest.length ≤ (dsu_find parents previous).1.length := by
        have hlen : (dsu_find parents previous).1.length = parents.length := hsame.length_eq
        omega
      obtain ⟨hrest, hcases⟩ := ih hforest' hlt'
      refine ⟨hsame.trans hrest, ?_⟩
      rcases hcases with ⟨hnone, hall⟩ | ⟨q, c', hq, hqroot, hsome⟩
      · refine .inl ⟨hnone, fun q hq hqroot => ?_⟩
        rcases Nat.eq_zero_or_pos q with rfl | hpos
        · exact hfound (hroot.unique hqroot)
        · refine hall (q - 1) (by rw [length_cons] at hq; omega) ?_
          rw [show previous + 1 + (q - 1) = previous + q by omega]
          exact hsame.root hqroot
      · refine .inr ⟨q + 1, c', hq, ?_, hsome⟩
        rw [show previous + (q + 1) = previous + 1 + q by omega]
        exact (hsame.root_iff hforest).mp hqroot

/-- The components of the first nodes: they are numbered without gaps, and two nodes have one
component where they are linked. -/
structure Assigned (parents : List ℕ) (i : ℕ) (s : ComponentAssignment) : Prop where
  same : SameRoots parents s.parents
  length_eq : s.component_for_keyword.length = i
  lt : ∀ {p c : ℕ}, s.component_for_keyword[p]? = some c → c < s.assigned_components
  linked_iff : ∀ {p q c c' : ℕ}, s.component_for_keyword[p]? = some c →
    s.component_for_keyword[q]? = some c' → (c = c' ↔ Linked parents p q)
  onto : ∀ c < s.assigned_components, ∃ p : ℕ, s.component_for_keyword[p]? = some c

variable {s : ComponentAssignment}

lemma Assigned.concat {parents' : List ℕ} (h : Assigned parents i s) (hforest : Forest parents)
    (hi : i < parents.length) (hsame : SameRoots parents parents')
    (hn : n = s.assigned_components ∧ c < n ∨ n = s.assigned_components + 1 ∧ c =
      s.assigned_components)
    (hc : ∀ {p c' : ℕ}, s.component_for_keyword[p]? = some c' → (c' = c ↔ Linked parents p i)) :
    Assigned parents (i + 1) ⟨parents', s.component_for_keyword ++ [c], n⟩ := by
  have hget : ∀ {p c' : ℕ}, (s.component_for_keyword ++ [c])[p]? = some c' →
      s.component_for_keyword[p]? = some c' ∨ p = i ∧ c' = c := by
    intro p c' hp
    rcases Nat.lt_or_ge p s.component_for_keyword.length with hlt | hge
    · rw [List.getElem?_append_left hlt] at hp
      exact .inl hp
    · rw [List.getElem?_append_right hge] at hp
      have hzero : p - s.component_for_keyword.length = 0 := by
        have := (List.getElem?_eq_some_iff.mp hp).1
        rw [length_singleton] at this
        omega
      rw [hzero] at hp
      have hlen := h.length_eq
      exact .inr ⟨by omega, (Option.some.inj hp).symm⟩
  have hself := linked_refl hforest hi
  refine ⟨hsame, ?_, ?_, ?_, ?_⟩
  · rw [length_append, h.length_eq]
    rfl
  · intro p c' hp
    show c' < n
    rcases hget hp with hp | ⟨-, rfl⟩
    · have := h.lt hp
      omega
    · omega
  · intro p q c₁ c₂ hp hq
    rcases hget hp with hp' | ⟨rfl, rfl⟩
    · rcases hget hq with hq' | ⟨rfl, rfl⟩
      · exact h.linked_iff hp' hq'
      · exact hc hp'
    · rcases hget hq with hq' | ⟨rfl, rfl⟩
      · exact eq_comm.trans ((hc hq').trans ⟨.symm, .symm⟩)
      · exact iff_of_true rfl hself
  · intro c' hc'
    have hold : ∀ c' < s.assigned_components,
        ∃ p : ℕ, (s.component_for_keyword ++ [c])[p]? = some c' := by
      intro c' hc'
      obtain ⟨p, hp⟩ := h.onto c' hc'
      exact ⟨p, by rw [List.getElem?_append_left (List.getElem?_eq_some_iff.mp hp).1, hp]⟩
    have hlast : (s.component_for_keyword ++ [c])[s.component_for_keyword.length]? = some c := by
      rw [List.getElem?_append_right (le_refl _), Nat.sub_self]
      rfl
    have hc'n : c' < n := hc'
    by_cases hlt : c' < s.assigned_components
    · exact hold c' hlt
    · obtain rfl : c' = c := by omega
      exact ⟨_, hlast⟩

lemma Assigned.step (h : Assigned parents i s) (hforest : Forest parents)
    (hi : i < parents.length) : Assigned parents (i + 1) (assign_component s i) := by
  have hforest₁ := h.same.forest hforest
  obtain ⟨hroot, hsame⟩ := find_spec hforest₁ (h.same.length_eq.symm ▸ hi)
  have hforest₂ := hsame.forest hforest₁
  have hroot' : Root parents i (find s.parents i).2 := (h.same.root_iff hforest).mp hroot
  have hboth := h.same.trans hsame
  obtain ⟨hsearch, hcases⟩ := @search_component_spec (find s.parents i).1 (find s.parents i).2
    s.component_for_keyword 0 hforest₂
    (by rw [hboth.length_eq, h.length_eq]; omega)
  have hlinked : ∀ {p : ℕ}, Root (find s.parents i).1 p (find s.parents i).2 ↔
      Linked parents p i := by
    intro p
    rw [hboth.root_iff hforest]
    constructor
    · exact fun hp => ⟨_, hp, hroot'⟩
    · rintro ⟨r, hp, hir⟩
      rwa [hroot'.unique hir]
  unfold assign_component dsu_find
  dsimp only
  rcases hcases with ⟨hnone, hall⟩ | ⟨q, c, hq, hqroot, hsome⟩
  · rw [hnone]
    refine h.concat hforest hi (hboth.trans hsearch) (.inr ⟨rfl, rfl⟩) ?_
    intro p c' hp
    refine iff_of_false (h.lt hp).ne fun hpi => ?_
    refine hall p (List.getElem?_eq_some_iff.mp hp).1 ?_
    rw [Nat.zero_add]
    exact hlinked.mpr hpi
  · rw [hsome]
    rw [Nat.zero_add] at hqroot
    refine h.concat hforest hi (hboth.trans hsearch) (.inl ⟨rfl, h.lt hq⟩) ?_
    intro p c' hp
    rw [h.linked_iff hp hq]
    exact ⟨fun hpq => hpq.trans (hlinked.mp hqroot), fun hpi => hpi.trans (hlinked.mp hqroot).symm⟩

lemma assigned_foldl {parents₀ : List ℕ} (hforest : Forest parents)
    (hsame : SameRoots parents parents₀) (hn : n ≤ parents.length) :
    Assigned parents n ((List.range n).foldl assign_component ⟨parents₀, [], 0⟩) := by
  induction n with
  | zero =>
    refine ⟨hsame, rfl, ?_, ?_, ?_⟩
    · intro p c hp
      nomatch hp
    · intro p q c c' hp
      nomatch hp
    · exact fun c hc => absurd hc (Nat.not_lt_zero c)
  | succ n ih =>
    rw [range_succ, foldl_append]
    exact (ih (by omega)).step hforest (by omega)

/-- **As many components as roots.** -/
theorem Assigned.assigned_components_eq (h : Assigned parents n s) (hforest : Forest parents)
    (hn : n = parents.length) :
    s.assigned_components = (List.range n).countP fun i => parents[i]? = some i := by
  have hget : ∀ {p : ℕ}, p < n → s.component_for_keyword[p]? =
      some (s.component_for_keyword.getD p 0) := by
    intro p hp
    have hlt : p < s.component_for_keyword.length := h.length_eq.symm ▸ hp
    rw [getD_eq_getElem _ _ hlt, List.getElem?_eq_getElem hlt]
  -- The component of its root names every component once.
  have himage : ((List.range n).filter fun i => parents[i]? = some i).toFinset.image
      (fun r => s.component_for_keyword.getD r 0) = Finset.range s.assigned_components := by
    ext c
    rw [Finset.mem_image, Finset.mem_range]
    constructor
    · rintro ⟨r, hr, rfl⟩
      rw [mem_toFinset, mem_filter, mem_range] at hr
      exact h.lt (hget hr.1)
    · intro hc
      obtain ⟨p, hp⟩ := h.onto c hc
      have hplt : p < n := h.length_eq ▸ (List.getElem?_eq_some_iff.mp hp).1
      obtain ⟨r, hr⟩ := hforest p (hn ▸ hplt)
      have hrself := root_of_isRoot hr.isRoot
      have hrlt : r < n := hn.symm ▸ hrself.lt
      refine ⟨r, ?_, ?_⟩
      · rw [mem_toFinset, mem_filter, mem_range]
        exact ⟨hrlt, decide_eq_true hr.isRoot⟩
      · exact (h.linked_iff (hget hrlt) hp).mpr ⟨r, hrself, hr⟩
  have hinjective : Set.InjOn (fun r => s.component_for_keyword.getD r 0)
      ((List.range n).filter fun i => parents[i]? = some i).toFinset := by
    intro r hr r' hr' heq
    rw [Finset.mem_coe, mem_toFinset, mem_filter, mem_range] at hr hr'
    obtain ⟨x, hx, hx'⟩ := (h.linked_iff (hget hr.1) (hget hr'.1)).mp heq
    rw [(root_of_isRoot (of_decide_eq_true hr.2)).unique hx,
      (root_of_isRoot (of_decide_eq_true hr'.2)).unique hx']
  have hcard := Finset.card_image_of_injOn hinjective
  rw [himage, Finset.card_range, toFinset_card_of_nodup (nodup_range.filter _)] at hcard
  rw [hcard, countP_eq_length_filter]

end Assign

/-! ## Groups -/

/-- The groups of linked keywords: each is in the order of the table, none is empty, and every
keyword is in one of them. -/
structure Grouped (keyword_universe : List KeywordIndex)
    (linked : KeywordIndex → KeywordIndex → Prop) (groups : List (List KeywordIndex)) : Prop where
  sublist : ∀ group ∈ groups, group.Sublist keyword_universe
  ne_nil : ∀ group ∈ groups, group ≠ []
  cover : ∀ k ∈ keyword_universe, ∃ group ∈ groups, k ∈ group
  disjoint : groups.Pairwise List.Disjoint
  mem_iff : ∀ group ∈ groups, ∀ k ∈ group, ∀ k' ∈ keyword_universe, k' ∈ group ↔ linked k k'

section Groups

variable {states : List (List KeywordIndex)} {keyword_universe : List KeywordIndex}
  {component_for_keyword : List ℕ} {k : KeywordIndex}

lemma mem_component_keywords : k ∈ component_keywords keyword_universe component_for_keyword c ↔
      ∃ i : ℕ, keyword_universe[i]? = some k ∧ component_for_keyword[i]? = some c := by
  unfold component_keywords
  rw [mem_map]
  constructor
  · rintro ⟨entry, hent, rfl⟩
    obtain ⟨hmem, hc⟩ := mem_filter.mp hent
    obtain ⟨i, hi⟩ := mem_iff_getElem?.mp hmem
    obtain ⟨hk, hcomp⟩ := getElem?_zip_eq_some.mp hi
    exact ⟨i, hk, hcomp.trans (congrArg some (of_decide_eq_true hc))⟩
  · rintro ⟨i, hk, hc⟩
    refine ⟨(k, c), mem_filter.mpr ⟨?_, decide_eq_true rfl⟩, rfl⟩
    exact mem_iff_getElem?.mpr ⟨i, getElem?_zip_eq_some.mpr ⟨hk, hc⟩⟩

lemma component_keywords_sublist (hlen : component_for_keyword.length = keyword_universe.length) :
    (component_keywords keyword_universe component_for_keyword c).Sublist keyword_universe := by
  have hsublist := (filter_sublist (p := fun entry : KeywordIndex × ℕ => entry.2 = c)
    (l := keyword_universe.zip component_for_keyword)).map Prod.fst
  rwa [map_fst_zip hlen.ge] at hsublist

lemma eq_of_getElem?_eq {i j : ℕ} (hnodup : keyword_universe.Nodup)
    (hi : keyword_universe[i]? = some k) (hj : keyword_universe[j]? = some k) : i = j :=
  (List.getElem?_inj (List.getElem?_eq_some_iff.mp hi).1 hnodup).mp (hi.trans hj.symm)

/-- **The groups of the planner.** Keywords that never occur in one state are linked, and every
equivalence with this property holds between linked keywords. -/
theorem grouped_group_keywords (hstates : ∀ state ∈ states, Increasing state)
    (hnodup : keyword_universe.Nodup) :
    ∃ linked : KeywordIndex → KeywordIndex → Prop,
      Grouped keyword_universe linked (group_keywords states keyword_universe) ∧
      (∀ k ∈ keyword_universe, ∀ k' ∈ keyword_universe, Apart states k k' → linked k k') ∧
      ∀ S : KeywordIndex → KeywordIndex → Prop, Equivalence S →
        (∀ k ∈ keyword_universe, ∀ k' ∈ keyword_universe, Apart states k k' → S k k') →
        ∀ k k', linked k k' → S k k' := by
  have hpairs : ∀ pair ∈ keyword_pairs keyword_universe.length,
      pair.1 < keyword_universe.length ∧ pair.2 < keyword_universe.length := by
    intro pair hpair
    obtain ⟨hlt, hn⟩ := mem_keyword_pairs.mp hpair
    exact ⟨hlt.trans hn, hn⟩
  have hjoined := (joinedPairs_range (NeverAt states keyword_universe)
    keyword_universe.length).foldl hpairs
  unfold group_keywords
  dsimp only
  generalize (keyword_pairs keyword_universe.length).foldl (join_keywords states keyword_universe)
    (List.range keyword_universe.length) = parents at hjoined ⊢
  have hidxs : ∀ i ∈ List.range keyword_universe.length, i < parents.length :=
    fun i hi => hjoined.length_eq.symm ▸ mem_range.mp hi
  obtain ⟨hsame, hcnt⟩ := count_components_eq hjoined.forest hidxs
  have hasgn := assigned_foldl hjoined.forest hsame hjoined.length_eq.ge
  rw [hcnt, ← hasgn.assigned_components_eq hjoined.forest hjoined.length_eq.symm]
  generalize (List.range keyword_universe.length).foldl assign_component _ = s at hasgn ⊢
  have hnever : ∀ {i j : ℕ} {k k' : KeywordIndex}, keyword_universe[i]? = some k →
      keyword_universe[j]? = some k' →
      (NeverAt states keyword_universe i j ↔ Apart states k k') := by
    intro i j k k' hk hk'
    unfold NeverAt
    rw [getD_eq_getElem?_getD, getD_eq_getElem?_getD, hk, hk', keywords_never_cooccur_iff hstates]
    rfl
  have hcomp : ∀ {i : ℕ} {k : KeywordIndex}, keyword_universe[i]? = some k →
      ∃ c, s.component_for_keyword[i]? = some c := by
    intro i k hk
    have hlt := (List.getElem?_eq_some_iff.mp hk).1
    exact ⟨_, List.getElem?_eq_getElem (hasgn.length_eq.symm ▸ hlt)⟩
  refine ⟨fun k k' => ∃ i j : ℕ, keyword_universe[i]? = some k ∧
    keyword_universe[j]? = some k' ∧ Linked parents i j, ⟨?_, ?_, ?_, ?_, ?_⟩, ?_, ?_⟩
  · intro group hgroup
    obtain ⟨c, -, rfl⟩ := mem_map.mp hgroup
    exact component_keywords_sublist hasgn.length_eq
  · intro group hgroup hnil
    obtain ⟨c, hc, rfl⟩ := mem_map.mp hgroup
    obtain ⟨p, hp⟩ := hasgn.onto c (mem_range.mp hc)
    have hlt : p < keyword_universe.length :=
      hasgn.length_eq ▸ (List.getElem?_eq_some_iff.mp hp).1
    have hmem := mem_component_keywords.mpr ⟨p, List.getElem?_eq_getElem hlt, hp⟩
    rw [hnil] at hmem
    cases hmem
  · intro k hk
    obtain ⟨i, hi⟩ := mem_iff_getElem?.mp hk
    obtain ⟨c, hc⟩ := hcomp hi
    exact ⟨_, mem_map.mpr ⟨c, mem_range.mpr (hasgn.lt hc), rfl⟩,
      mem_component_keywords.mpr ⟨i, hi, hc⟩⟩
  · apply pairwise_map.mpr
    refine pairwise_lt_range.imp fun {c c'} hlt k hk hk' => ?_
    obtain ⟨i, hi, hc⟩ := mem_component_keywords.mp hk
    obtain ⟨j, hj, hc'⟩ := mem_component_keywords.mp hk'
    obtain rfl := eq_of_getElem?_eq hnodup hi hj
    exact hlt.ne (Option.some.inj (hc.symm.trans hc'))
  · intro group hgroup k hk k' hk'
    obtain ⟨c, -, rfl⟩ := mem_map.mp hgroup
    obtain ⟨i, hi, hc⟩ := mem_component_keywords.mp hk
    obtain ⟨j, hj⟩ := mem_iff_getElem?.mp hk'
    obtain ⟨c', hc'⟩ := hcomp hj
    rw [mem_component_keywords]
    constructor
    · rintro ⟨j', hj', hcj⟩
      exact ⟨i, j', hi, hj', (hasgn.linked_iff hc hcj).mp rfl⟩
    · rintro ⟨i', j', hi', hj', hlinked⟩
      obtain rfl := eq_of_getElem?_eq hnodup hi hi'
      obtain rfl := eq_of_getElem?_eq hnodup hj hj'
      exact ⟨j, hj, hc'.trans (congrArg some ((hasgn.linked_iff hc hc').mpr hlinked).symm)⟩
  · intro k hk k' hk' hapart
    obtain ⟨i, hi⟩ := mem_iff_getElem?.mp hk
    obtain ⟨j, hj⟩ := mem_iff_getElem?.mp hk'
    have hilt := (List.getElem?_eq_some_iff.mp hi).1
    have hjlt := (List.getElem?_eq_some_iff.mp hj).1
    refine ⟨i, j, hi, hj, ?_⟩
    rcases lt_trichotomy i j with hlt | rfl | hlt
    · exact hjoined.linked (i, j) (mem_keyword_pairs.mpr ⟨hlt, hjlt⟩) ((hnever hi hj).mpr hapart)
    · exact linked_refl hjoined.forest (hjoined.length_eq.symm ▸ hilt)
    · exact (hjoined.linked (j, i) (mem_keyword_pairs.mpr ⟨hlt, hilt⟩)
        ((hnever hj hi).mpr hapart.symm)).symm
  · rintro S hS hapart k k' ⟨i, j, hi, hj, hlinked⟩
    -- The equivalence on the places of the keywords.
    have hplaces := hjoined.least (S := fun x y => x = y ∨ ∃ a b : KeywordIndex,
      keyword_universe[x]? = some a ∧ keyword_universe[y]? = some b ∧ S a b)
      (.inl rfl) ?_ ?_ ?_ hlinked
    · rcases hplaces with rfl | ⟨a, b, ha, hb, hab⟩
      · rw [Option.some.inj (hi.symm.trans hj)]
        exact hS.refl k'
      · rwa [Option.some.inj (hi.symm.trans ha), Option.some.inj (hj.symm.trans hb)]
    · rintro x y (rfl | ⟨a, b, ha, hb, hab⟩)
      · exact .inl rfl
      · exact .inr ⟨b, a, hb, ha, hS.symm hab⟩
    · rintro x y z (rfl | ⟨a, b, ha, hb, hab⟩) hyz
      · exact hyz
      · rcases hyz with rfl | ⟨b', c, hb', hc, hbc⟩
        · exact .inr ⟨a, b, ha, hb, hab⟩
        · obtain rfl := Option.some.inj (hb.symm.trans hb')
          exact .inr ⟨a, c, ha, hc, hS.trans hab hbc⟩
    · intro pair hpair hpair_never
      obtain ⟨hlt, hn⟩ := mem_keyword_pairs.mp hpair
      have hfst := List.getElem?_eq_getElem (hlt.trans hn)
      have hsnd := List.getElem?_eq_getElem hn
      exact .inr ⟨_, _, hfst, hsnd, hapart _ (getElem_mem _) _ (getElem_mem _)
        ((hnever hfst hsnd).mp hpair_never)⟩

end Groups

end VariantFactor

end DXBCSandbox
