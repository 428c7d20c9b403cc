/-
Dominator trees by iteration.

The nodes are numbered such that every reachable node but the root has a predecessor with
a larger number. A candidate tree gives nodes a parent with a larger number. One pass
visits the nodes from large to small numbers and makes the parent of each the nearest
common ancestor of its predecessors, in the tree as it is at that moment.

Passes only remove ancestors (`Good.incl`) and never remove a dominator
(`Good.dominates`). So the numbers of the parents grow until a pass changes nothing, and
then the ancestors of a node are its dominators (`ancestor_iff_dominates`).
-/
import DXBCSandbox.Lib.FlowGraph

namespace DXBCSandbox

open List Option

variable {V : Type*}

/-! ## Ancestors -/

/-- `b` is on the chain of parents that starts at `a`. -/
def Ancestor (parent : V → Option V) : V → V → Prop :=
  Relation.ReflTransGen fun a b => parent a = some b

/-- Parents have larger numbers. The root is its own parent. -/
structure Climbs (r : V) (num : V → ℕ) (parent : V → Option V) : Prop where
  root : parent r = some r
  lt : ∀ a b, a ≠ r → parent a = some b → num a < num b

section Ancestor

variable {r : V} {num : V → ℕ} {parent : V → Option V} {a b : V}

lemma Climbs.le_of_parent (h : Climbs r num parent) (hab : parent a = some b) :
    num a ≤ num b := by
  by_cases ha : a = r
  · rw [ha, h.root, some.injEq] at hab
    exact Nat.le_of_eq (by rw [ha, hab])
  · exact Nat.le_of_lt (h.lt a b ha hab)

lemma Climbs.le (h : Climbs r num parent) (hab : Ancestor parent a b) : num a ≤ num b := by
  induction hab with
  | refl => exact Nat.le_refl _
  | tail _ hbc ih => exact Nat.le_trans ih (h.le_of_parent hbc)

lemma Climbs.root_ancestor (h : Climbs r num parent) (hb : Ancestor parent r b) : b = r := by
  induction hb with
  | refl => rfl
  | tail _ hbc ih =>
    rw [ih, h.root] at hbc
    exact (some.inj hbc).symm

lemma ancestor_iff_of_parent {c : V} (hab : parent a = some b) :
    Ancestor parent a c ↔ c = a ∨ Ancestor parent b c := by
  constructor
  · intro h
    rcases Relation.ReflTransGen.cases_head h with heq | ⟨d, had, hdc⟩
    · exact .inl heq.symm
    · rw [hab, some.injEq] at had
      rw [had]
      exact .inr hdc
  · rintro (rfl | h)
    · exact .refl
    · exact .head hab h

lemma Climbs.lt_of_ne (h : Climbs r num parent) (hab : Ancestor parent a b) (hne : b ≠ a) :
    num a < num b := by
  rcases Relation.ReflTransGen.cases_head hab with heq | ⟨c, hac, hcb⟩
  · exact absurd heq.symm hne
  · have ha : a ≠ r := by
      intro ha
      rw [ha] at hab
      exact hne ((h.root_ancestor hab).trans ha.symm)
    exact Nat.lt_of_lt_of_le (h.lt a c ha hac) (h.le hcb)

lemma Climbs.eq_of_num_eq (h : Climbs r num parent) (hab : Ancestor parent a b)
    (hnum : num a = num b) : b = a := by
  by_contra hne
  have := h.lt_of_ne hab hne
  omega

lemma Climbs.ancestor_of_le (h : Climbs r num parent) {c : V} (hab : Ancestor parent a b)
    (hac : Ancestor parent a c) (hle : num b ≤ num c) : Ancestor parent b c := by
  have hunique : Relator.RightUnique fun a b => parent a = some b := by
    intro x y z hy hz
    rw [hy] at hz
    exact some.inj hz
  rcases Relation.ReflTransGen.total_of_right_unique hunique hab hac with hbc | hcb
  · exact hbc
  · have hle' := h.le hcb
    have heq := h.eq_of_num_eq hcb (by omega)
    rw [heq]
    exact .refl

end Ancestor

/-! ## The tree in the middle of a pass -/

/-- Nodes above `n` have their parent of the new tree `T`, the others still that of the
old tree `S`. -/
def mixed (num : V → ℕ) (S T : V → Option V) (n : ℕ) (a : V) : Option V :=
  if n < num a then T a else S a

section Mixed

variable {r : V} {num : V → ℕ} {S T : V → Option V} {n : ℕ} {a : V}

lemma mixed_of_lt (h : n < num a) : mixed num S T n a = T a := if_pos h

lemma mixed_of_le (h : num a ≤ n) : mixed num S T n a = S a :=
  if_neg (Nat.not_lt.mpr h)

lemma mixed_self (a : V) : mixed num T T n a = T a := by
  unfold mixed
  split_ifs <;> rfl

variable {d : V}

lemma ancestor_mixed_iff (hT : Climbs r num T) (ha : n < num a) :
    Ancestor (mixed num S T n) a d ↔ Ancestor T a d := by
  constructor
  · intro h
    induction h using Relation.ReflTransGen.head_induction_on with
    | refl => exact .refl
    | head hab _ ih =>
      rw [mixed_of_lt ha] at hab
      have := hT.le_of_parent hab
      exact .head hab (ih (by omega))
  · intro h
    induction h using Relation.ReflTransGen.head_induction_on with
    | refl => exact .refl
    | head hab _ ih =>
      have := hT.le_of_parent hab
      apply Relation.ReflTransGen.head _ (ih (by omega))
      rw [mixed_of_lt ha, hab]

/-- A chain of the mixed tree to a node above `n` follows the old tree up to its first
node above `n`, and then the new tree. -/
theorem exists_crossing_of_mixed (hT : Climbs r num T) {p : V} (h : Ancestor (mixed num S T n) p d)
    (hd : n < num d) : ∃ y, n < num y ∧ Ancestor S p y ∧ Ancestor T y d := by
  induction h using Relation.ReflTransGen.head_induction_on with
  | refl => exact ⟨d, hd, .refl, .refl⟩
  | @head a b hab hbd ih =>
    by_cases ha : n < num a
    · have hmixed : Ancestor (mixed num S T n) a d := .head hab hbd
      exact ⟨a, ha, .refl, (ancestor_mixed_iff hT ha).mp hmixed⟩
    · obtain ⟨y, hy, hby, hyd⟩ := ih
      rw [mixed_of_le (by omega)] at hab
      exact ⟨y, hy, .head hab hby, hyd⟩

/-- A chain of the old tree to a node above `n` has a first node above `n`, and the mixed
tree follows it up to there. -/
theorem exists_crossing_of_old {p : V} (h : Ancestor S p d) (hd : n < num d) :
    ∃ y, n < num y ∧ Ancestor (mixed num S T n) p y ∧ Ancestor S p y ∧ Ancestor S y d := by
  induction h using Relation.ReflTransGen.head_induction_on with
  | refl => exact ⟨d, hd, .refl, .refl, .refl⟩
  | @head a b hab hbd ih =>
    by_cases ha : n < num a
    · exact ⟨a, ha, .refl, .refl, .head hab hbd⟩
    · obtain ⟨y, hy, hmixed, hold, hyd⟩ := ih
      refine ⟨y, hy, .head ?_ hmixed, .head hab hold, hyd⟩
      rw [mixed_of_le (by omega), hab]

end Mixed

/-! ## Numberings -/

/-- The numbering of a depth-first search, as far as the passes need it. -/
structure Ranked (E : V → V → Prop) (r : V) (num : V → ℕ) : Prop where
  le_root : ∀ x, Reachable E r x → num x ≤ num r
  pred : ∀ x, Reachable E r x → x ≠ r → ∃ p, Reachable E r p ∧ E p x ∧ num x < num p

/-- An edge against its direction, to a larger number. -/
def UpEdge (E : V → V → Prop) (r : V) (num : V → ℕ) (x p : V) : Prop :=
  Reachable E r p ∧ E p x ∧ num x < num p

/-- A relation between nodes and ancestors of theirs, in some sense, that passes to
predecessors with larger numbers. -/
structure Ascending (E : V → V → Prop) (r : V) (num : V → ℕ) (D : V → V → Prop) : Prop where
  root : ∀ d, D r d → d = r
  up : ∀ x p d, UpEdge E r num x p → D x d → d ≠ x → D p d

section Ascending

variable {E : V → V → Prop} {r : V} {num : V → ℕ} {D : V → V → Prop} {x y : V}

lemma le_of_upPath (h : Relation.ReflTransGen (UpEdge E r num) x y) : num x ≤ num y := by
  induction h with
  | refl => exact Nat.le_refl _
  | tail _ hbc ih => exact Nat.le_trans ih (Nat.le_of_lt hbc.2.2)

lemma reachable_of_upPath {x y : V} (hx : Reachable E r x)
    (h : Relation.ReflTransGen (UpEdge E r num) x y) : Reachable E r y := by
  induction h with
  | refl => exact hx
  | tail _ hbc _ => exact hbc.1

lemma lt_of_upPath (h : Relation.ReflTransGen (UpEdge E r num) x y) (hne : y ≠ x) :
    num x < num y := by
  rcases Relation.ReflTransGen.cases_head h with heq | ⟨c, hc, hcy⟩
  · exact absurd heq.symm hne
  · exact Nat.lt_of_lt_of_le hc.2.2 (le_of_upPath hcy)

lemma Ascending.upPath (hD : Ascending E r num D) (hE : Ranked E r num) {d : V}
    (hx : Reachable E r x) (h : D x d) : Relation.ReflTransGen (UpEdge E r num) x d := by
  -- The numbers grow along the path and are bounded by that of the root.
  have hind : ∀ n x, num r - num x = n → Reachable E r x → D x d →
      Relation.ReflTransGen (UpEdge E r num) x d := by
    intro n
    induction n using Nat.strongRecOn with
    | _ n ih =>
      intro x hn hx h
      by_cases hd : d = x
      · rw [hd]
      · have hroot : x ≠ r := by
          intro hxr
          rw [hxr] at h hd
          exact hd (hD.root d h)
        obtain ⟨p, hp, he, hlt⟩ := hE.pred x hx hroot
        have hle := hE.le_root p hp
        have hup : UpEdge E r num x p := ⟨hp, he, hlt⟩
        exact .head hup (ih (num r - num p) (by omega) p rfl hp (hD.up x p d hup h hd))
  exact hind _ x rfl hx h

/-- A relation with a node is a relation with everything on the way to it. -/
theorem Ascending.of_upPath (hD : Ascending E r num D) {p d : V}
    (hpath : Relation.ReflTransGen (UpEdge E r num) p y) (h : D p d) (hle : num y ≤ num d) :
    D y d := by
  induction hpath using Relation.ReflTransGen.head_induction_on with
  | refl => exact h
  | @head a b hab hby ih =>
    have hlt := hab.2.2
    have hle' := le_of_upPath hby
    apply ih
    apply hD.up a b d hab h
    rintro rfl
    omega

lemma dominates_ascending : Ascending E r num fun x d => Dominates E r d x where
  root := fun _ h => eq_root_of_dominates h
  up := fun _ _ _ hup h hne => h.of_edge hne hup.2.1

end Ascending

/-! ## Passes -/

/-- `T` is the tree after a pass that started with `S`. -/
structure PassOf (E : V → V → Prop) (r : V) (num : V → ℕ) (S T : V → Option V) : Prop where
  climbs : Climbs r num T
  total : ∀ x, T x ≠ none ↔ Reachable E r x
  /-- The ancestors of the parent are the common ancestors of the predecessors. -/
  meet : ∀ x c, x ≠ r → T x = some c → ∀ d,
    Ancestor (mixed num S T (num x)) c d ↔
      ∀ p, E p x → mixed num S T (num x) p ≠ none → Ancestor (mixed num S T (num x)) p d

section Passes

variable {E : V → V → Prop} {r : V} {num : V → ℕ} {S T U : V → Option V} {x d : V}

lemma PassOf.ancestor_iff (h : PassOf E r num S T) (hx : Reachable E r x) (hroot : x ≠ r)
    (hd : d ≠ x) :
    Ancestor T x d ↔
      ∀ p, E p x → mixed num S T (num x) p ≠ none → Ancestor (mixed num S T (num x)) p d := by
  obtain ⟨c, hc⟩ := ne_none_iff_exists'.mp ((h.total x).mpr hx)
  rw [← h.meet x c hroot hc d, ancestor_mixed_iff h.climbs (h.climbs.lt x c hroot hc),
    ancestor_iff_of_parent hc]
  exact or_iff_right hd

/-- Predecessors with larger numbers are done before, so they keep all strict
ancestors. -/
theorem PassOf.ascending (h : PassOf E r num S T) (hreach : ∀ x d, Ancestor T x d → d ≠ x →
    Reachable E r x) : Ascending E r num (Ancestor T) where
  root := fun d hd => h.climbs.root_ancestor hd
  up := by
    intro x p d hup hanc hne
    have hroot : x ≠ r := by
      rintro rfl
      exact hne (h.climbs.root_ancestor hanc)
    have hstrict := (h.ancestor_iff (hreach x d hanc hne) hroot hne).mp hanc p hup.2.1
    rw [mixed_of_lt hup.2.2] at hstrict
    exact (ancestor_mixed_iff h.climbs hup.2.2).mp (hstrict ((h.total p).mpr hup.1))

lemma ne_none_of_ancestor {parent : V → Option V} (h : Ancestor parent x d) (hne : d ≠ x) :
    parent x ≠ none := by
  rcases Relation.ReflTransGen.cases_head h with heq | ⟨c, hc, -⟩
  · exact absurd heq.symm hne
  · rw [hc]
    exact some_ne_none c

lemma PassOf.ancestor_ascending (h : PassOf E r num S T) : Ascending E r num (Ancestor T) :=
  h.ascending fun x _ hanc hne => (h.total x).mp (ne_none_of_ancestor hanc hne)

/-- What holds of the tree before every pass. -/
structure Good (E : V → V → Prop) (r : V) (num : V → ℕ) (S : V → Option V) : Prop where
  climbs : Climbs r num S
  reachable : ∀ x, S x ≠ none → Reachable E r x
  upPath : ∀ x d, S x ≠ none → Ancestor S x d → Relation.ReflTransGen (UpEdge E r num) x d
  dominates : ∀ x d, S x ≠ none → Dominates E r d x → Ancestor S x d
  /-- The next pass only removes ancestors. -/
  incl : ∀ T, PassOf E r num S T → ∀ x d, S x ≠ none → Ancestor T x d → Ancestor S x d

/-- A node above `n` that the old tree and an ascending relation both put above `p` is an
ancestor of `p` in the mixed tree, if the new tree knows it above `n`. -/
theorem Good.ancestor_mixed (hS : Good E r num S) (hT : Climbs r num T) {n : ℕ} {p d : V}
    {D : V → V → Prop} (hD : Ascending E r num D) (hp : S p ≠ none) (hold : Ancestor S p d)
    (hnew : D p d) (hd : n < num d)
    (habove : ∀ y, n < num y → Reachable E r y → D y d → Ancestor T y d) :
    Ancestor (mixed num S T n) p d := by
  -- Cross `n` in the old tree. The crossing is on a path up, so it is related to `d` too.
  obtain ⟨y, hy, hmixed, hpy, hyd⟩ := exists_crossing_of_old (T := T) hold hd
  have hpath := hS.upPath p y hp hpy
  have hDy : D y d := hD.of_upPath hpath hnew (hS.climbs.le hyd)
  have hyreach : Reachable E r y := reachable_of_upPath (hS.reachable p hp) hpath
  exact hmixed.trans ((ancestor_mixed_iff hT hy).mpr (habove y hy hyreach hDy))

lemma Ranked.induction (hE : Ranked E r num) {P : V → Prop}
    (h : ∀ x, Reachable E r x → (∀ y, Reachable E r y → num x < num y → P y) → P x)
    (hx : Reachable E r x) : P x := by
  have hind : ∀ n x, num r - num x = n → Reachable E r x → P x := by
    intro n
    induction n using Nat.strongRecOn with
    | _ n ih =>
      intro x hn hx
      apply h x hx
      intro y hy hlt
      have hle := hE.le_root y hy
      exact ih (num r - num y) (by omega) y rfl hy
  exact hind _ x rfl hx

lemma PassOf.dominates (hE : Ranked E r num) (hS : Good E r num S) (h : PassOf E r num S T)
    (hx : Reachable E r x) (hdom : Dominates E r d x) : Ancestor T x d := by
  revert hdom
  refine hE.induction (P := fun x => Dominates E r d x → Ancestor T x d) ?_ hx
  intro x hx ih hdom
  by_cases hd : d = x
  · rw [hd]
    exact .refl
  have hroot : x ≠ r := by
    rintro rfl
    exact hd (eq_root_of_dominates hdom)
  have hlt : num x < num d := lt_of_upPath (dominates_ascending.upPath hE hx hdom) hd
  rw [h.ancestor_iff hx hroot hd]
  intro p hp hsome
  have hdom' : Dominates E r d p := hdom.of_edge hd hp
  by_cases hpx : num x < num p
  · rw [mixed_of_lt hpx] at hsome
    rw [ancestor_mixed_iff h.climbs hpx]
    exact ih p ((h.total p).mp hsome) hpx hdom'
  · rw [mixed_of_le (by omega)] at hsome
    exact hS.ancestor_mixed h.climbs dominates_ascending hsome (hS.dominates p d hsome hdom') hdom'
      hlt fun y hy hyr hdy => ih y hyr hy hdy

lemma PassOf.incl (hE : Ranked E r num) (hS : Good E r num S) (h : PassOf E r num S T)
    (hU : PassOf E r num T U) {x d : V} (hx : Reachable E r x) (hanc : Ancestor U x d) :
    Ancestor T x d := by
  revert hanc
  refine hE.induction (P := fun x => Ancestor U x d → Ancestor T x d) ?_ hx
  intro x hx ih hanc
  by_cases hd : d = x
  · rw [hd]
    exact .refl
  have hroot : x ≠ r := by
    rintro rfl
    exact hd (hU.climbs.root_ancestor hanc)
  have hlt : num x < num d := hU.climbs.lt_of_ne hanc hd
  rw [hU.ancestor_iff hx hroot hd] at hanc
  rw [h.ancestor_iff hx hroot hd]
  intro p hp hsome
  by_cases hpx : num x < num p
  · -- The predecessor was done before this node in both passes.
    rw [mixed_of_lt hpx] at hsome
    have hpr := (h.total p).mp hsome
    have hmixed := hanc p hp (by rw [mixed_of_lt hpx]; exact (hU.total p).mpr hpr)
    rw [ancestor_mixed_iff hU.climbs hpx] at hmixed
    rw [ancestor_mixed_iff h.climbs hpx]
    exact ih p hpr hpx hmixed
  · rw [mixed_of_le (by omega)] at hsome
    have hpr := hS.reachable p hsome
    have hTp := (h.total p).mpr hpr
    have hmixed := hanc p hp (by rw [mixed_of_le (by omega)]; exact hTp)
    obtain ⟨y, hy, hpy, hyd⟩ := exists_crossing_of_mixed hU.climbs hmixed hlt
    have hyr := reachable_of_upPath hpr (h.ancestor_ascending.upPath hE hpr hpy)
    have hpd : Ancestor T p d := hpy.trans (ih y hyr hy hyd)
    exact hS.ancestor_mixed h.climbs h.ancestor_ascending hsome (hS.incl T h p d hsome hpd) hpd hlt
      fun _ _ _ h => h

/-- **A pass keeps the invariant.** -/
theorem PassOf.good (hE : Ranked E r num) (hS : Good E r num S) (h : PassOf E r num S T) :
    Good E r num T where
  climbs := h.climbs
  reachable := fun x hx => (h.total x).mp hx
  upPath := fun x _ hx hanc => h.ancestor_ascending.upPath hE ((h.total x).mp hx) hanc
  dominates := fun x _ hx hdom => h.dominates hE hS ((h.total x).mp hx) hdom
  incl := fun _ hU x _ hx hanc => h.incl hE hS hU ((h.total x).mp hx) hanc

lemma good_initial (h0 : S r = some r) (hS : ∀ x, x ≠ r → S x = none) : Good E r num S := by
  have hroot : ∀ x, S x ≠ none → x = r := by
    intro x hx
    by_contra hne
    exact hx (hS x hne)
  have hclimbs : Climbs r num S := by
    refine ⟨h0, fun a b ha hab => ?_⟩
    rw [hS a ha] at hab
    simp at hab
  refine ⟨hclimbs, ?_, ?_, ?_, ?_⟩
  · intro x hx
    rw [hroot x hx]
    exact reachable_root
  · intro x d hx hanc
    rw [hroot x hx] at hanc ⊢
    rw [hclimbs.root_ancestor hanc]
  · intro x d hx hdom
    rw [hroot x hx] at hdom ⊢
    rw [eq_root_of_dominates hdom]
    exact .refl
  · intro T hT x d hx hanc
    rw [hroot x hx] at hanc ⊢
    rw [hT.climbs.root_ancestor hanc]
    exact .refl

/-- Parents never move to smaller numbers, and a parent that moves moves up. -/
theorem Good.num_le (hS : Good E r num S) (h : PassOf E r num S T) {a c : V} (hroot : x ≠ r)
    (ha : S x = some a) (hc : T x = some c) : num a ≤ num c ∧ (num a = num c → a = c) := by
  have hxc : Ancestor S x c := hS.incl T h x c (by rw [ha]; simp) (.single hc)
  have hne : c ≠ x := by
    rintro rfl
    exact Nat.lt_irrefl _ (h.climbs.lt c c hroot hc)
  have hac : Ancestor S a c := ((ancestor_iff_of_parent ha).mp hxc).resolve_left hne
  exact ⟨hS.climbs.le hac, fun heq => (hS.climbs.eq_of_num_eq hac heq).symm⟩

/-- **A tree that a pass does not change is the dominator tree.** -/
theorem ancestor_iff_dominates (hT : Good E r num T) (h : PassOf E r num T T) {x d : V}
    (hx : Reachable E r x) : Ancestor T x d ↔ Dominates E r d x := by
  constructor
  · intro hanc p hp
    induction hp with
    | single =>
      rw [h.climbs.root_ancestor hanc]
      exact mem_singleton.mpr rfl
    | @snoc b c p hw he ih =>
      by_cases hd : d = c
      · rw [hd]
        exact mem_append_right _ (mem_singleton.mpr rfl)
      · apply mem_append_left
        have hroot : c ≠ r := by
          rintro rfl
          exact hd (h.climbs.root_ancestor hanc)
        have hb : Reachable E r b := ⟨p, hw⟩
        -- An ancestor of `c` is an ancestor of all that comes before `c`.
        have hall := (h.ancestor_iff hx hroot hd).mp hanc b he
        have hmixed : mixed num T T (num c) = T := funext fun a => mixed_self a
        rw [hmixed] at hall
        exact ih hb (hall ((h.total b).mpr hb))
  · intro hdom
    exact hT.dominates x d ((h.total x).mpr hx) hdom

lemma immediatelyDominates_of_parent (hT : Good E r num T) (h : PassOf E r num T T) {x c : V}
    (hx : Reachable E r x) (hroot : x ≠ r) (hc : T x = some c) :
    Reachable E r c ∧ ImmediatelyDominates E r c x := by
  have hlt := h.climbs.lt x c hroot hc
  have hcr : Reachable E r c :=
    reachable_of_upPath hx (hT.upPath x c (by rw [hc]; simp) (.single hc))
  refine ⟨hcr, ?_, ?_, ?_⟩
  · rintro rfl
    exact Nat.lt_irrefl _ hlt
  · rw [← ancestor_iff_dominates hT h hx]
    exact .single hc
  · intro d hdom hne
    rw [← ancestor_iff_dominates hT h hx, ancestor_iff_of_parent hc] at hdom
    rw [← ancestor_iff_dominates hT h hcr]
    exact hdom.resolve_left hne

end Passes

end DXBCSandbox
