/-
The iteration of `compute_dominance` finds the immediate dominators.

`intersect` returns the nearest common ancestor of two blocks in the tree so far. So a pass
over the blocks is a pass of `Lib.DomTree`, and the iteration ends with the dominator tree.
It ends because the parents move to larger numbers.
-/
import DXBCSandbox.Cfg.Postorder

namespace DXBCSandbox

open List Option Function

/-! ## Common ancestors -/

/-- A tree of blocks in the middle of the iteration, together with the numbers that
`intersect` compares. -/
structure Numbered (numbers : ℕ → ℤ) (num : ℕ → ℕ) (idom : ℕ → Option ℕ) : Prop where
  climbs : Climbs 0 num idom
  closed : ∀ a b, idom a = some b → idom b ≠ none
  numbers : ∀ a, idom a ≠ none → numbers a = num a
  le_root : ∀ a, idom a ≠ none → num a ≤ num 0
  inj : ∀ a b, idom a ≠ none → num a = num b → a = b

section Intersect

variable {numbers : ℕ → ℤ} {num : ℕ → ℕ} {idom : ℕ → Option ℕ} (h : Numbered numbers num idom)

include h

lemma Numbered.ancestor_ne_none {a b : ℕ} (ha : idom a ≠ none) (hab : Ancestor idom a b) :
    idom b ≠ none := by
  induction hab with
  | refl => exact ha
  | tail _ hbc _ => exact h.closed _ _ hbc

/-- A finger climbs to its first ancestor that is not below the limit. -/
theorem climb_finger_spec {y : ℕ} (hy : idom y ≠ none) :
    ∀ fuel x, idom x ≠ none → num 0 < fuel + num x →
      ∃ z, climb_finger numbers idom (numbers y) fuel x = some (some z) ∧
        Ancestor idom x z ∧ num y ≤ num z ∧ (num y ≤ num x → z = x) ∧
        ∀ d, num y ≤ num d → Ancestor idom x d → Ancestor idom z d := by
  intro fuel
  induction fuel with
  | zero =>
    intro x hx hfuel
    have hle := h.le_root x hx
    omega
  | succ fuel ih =>
    intro x hx hfuel
    have hcmp : numbers x < numbers y ↔ num x < num y := by
      rw [h.numbers x hx, h.numbers y hy, Int.ofNat_lt]
    rw [climb_finger]
    by_cases hlt : num x < num y
    · rw [if_pos (hcmp.mpr hlt)]
      obtain ⟨p, hp⟩ := ne_none_iff_exists'.mp hx
      -- The root is not below any block.
      have hroot : x ≠ 0 := by
        rintro rfl
        have := h.le_root y hy
        omega
      have hnum := h.climbs.lt x p hroot hp
      obtain ⟨z, hz, hpz, hle, -, hall⟩ := ih p (h.closed x p hp) (by omega)
      refine ⟨z, by rw [hp]; exact hz, .head hp hpz, hle, fun hle' => by omega, ?_⟩
      intro d hd hxd
      rw [ancestor_iff_of_parent hp] at hxd
      apply hall d hd
      apply hxd.resolve_left
      rintro rfl
      omega
    · rw [if_neg (hcmp.not.mpr hlt)]
      exact ⟨x, rfl, .refl, by omega, fun _ => rfl, fun d _ hd => hd⟩

/-- **`intersect` finds the nearest common ancestor.** -/
theorem intersect_spec (bound : ℕ) (hbnd : num 0 < bound) :
    ∀ fuel a b, idom a ≠ none → idom b ≠ none → num 0 + 2 ≤ fuel + num b →
      ∃ c, intersect numbers idom bound fuel a b = some c ∧ idom c ≠ none ∧
        ∀ d, Ancestor idom c d ↔ Ancestor idom a d ∧ Ancestor idom b d := by
  intro fuel
  induction fuel with
  | zero =>
    intro a b _ hb hfuel
    have hle := h.le_root b hb
    omega
  | succ fuel ih =>
    intro a b ha hb hfuel
    rw [intersect]
    by_cases hab : a = b
    · rw [if_pos hab, hab]
      exact ⟨b, rfl, hb, fun d => (and_self_iff).symm⟩
    rw [if_neg hab]
    obtain ⟨a', ha', haa', hle, hstay, hall⟩ := climb_finger_spec h hb bound a ha (by omega)
    have hknown := h.ancestor_ne_none ha haa'
    obtain ⟨b', hb', hbb', hle', hstay', hall'⟩ :=
      climb_finger_spec h hknown bound b hb (by omega)
    have hknown' := h.ancestor_ne_none hb hbb'
    -- Climbing loses no common ancestor.
    have hcom : ∀ d, Ancestor idom a' d ∧ Ancestor idom b' d ↔
        Ancestor idom a d ∧ Ancestor idom b d := by
      intro d
      constructor
      · rintro ⟨had, hbd⟩
        exact ⟨haa'.trans had, hbb'.trans hbd⟩
      · rintro ⟨had, hbd⟩
        have hda := hall d (h.climbs.le hbd) had
        exact ⟨hda, hall' d (h.climbs.le hda) hbd⟩
    rw [ha']
    simp only [hb']
    by_cases hmeet : a' = b'
    · refine ⟨a', ?_, hknown, fun d => ?_⟩
      · cases fuel with
        | zero =>
          have := h.le_root b hb
          omega
        | succ fuel => rw [intersect, if_pos hmeet]
      · rw [← hcom d, ← hmeet]
        exact (and_self_iff).symm
    · -- The fingers have not met, so the second has moved.
      have hgrow : num b < num b' := by
        by_contra hno
        have heq : num a' = num b := by omega
        have hsame : a' = b := h.inj a' b hknown heq
        exact hmeet (hsame.trans (hstay' (by omega)).symm)
      obtain ⟨c, hc, hcknown, hmeet⟩ := ih a' b' hknown hknown' (by omega)
      exact ⟨c, hc, hcknown, fun d => (hmeet d).trans (hcom d)⟩

omit h in
/-- What the loop over the predecessors computes: the nearest common ancestor of those in
the tree. -/
def IsMeet (idom : ℕ → Option ℕ) (blocks : List ℕ) : Option ℕ → Prop
  | none => ∀ p ∈ blocks, idom p = none
  | some c => idom c ≠ none ∧
      ∀ d, Ancestor idom c d ↔ ∀ p ∈ blocks, idom p ≠ none → Ancestor idom p d

lemma merge_predecessors_spec (bound : ℕ) (hbnd : num 0 + 2 ≤ bound) (predecessors : List ℕ) :
    ∃ parent, predecessors.foldlM (merge_predecessor numbers idom bound) none = some parent ∧
      IsMeet idom predecessors parent := by
  refine foldlM_list_inv predecessors (IsMeet idom) (nofun) ?_
  intro done p rest parent _ hmeet
  unfold merge_predecessor
  cases hp : idom p with
  | none =>
    refine ⟨parent, rfl, ?_⟩
    cases parent with
    | none =>
      intro q hq
      rcases mem_append.mp hq with hq | hq
      · exact hmeet q hq
      · rw [mem_singleton.mp hq, hp]
    | some c =>
      refine ⟨hmeet.1, fun d => ?_⟩
      rw [hmeet.2 d]
      simp [or_imp, forall_and, hp]
  | some a =>
    have hknown : idom p ≠ none := by
      rw [hp]
      exact some_ne_none a
    cases parent with
    | none =>
      refine ⟨some p, rfl, hknown, fun d => ?_⟩
      constructor
      · intro hpd q hq hq'
        rcases mem_append.mp hq with hq | hq
        · exact absurd (hmeet q hq) hq'
        · rwa [mem_singleton.mp hq]
      · intro hall
        exact hall p (by simp) hknown
    | some c =>
      obtain ⟨c', hc', hcknown, hcom⟩ := intersect_spec h bound (by omega) bound
        c p hmeet.1 hknown (by omega)
      refine ⟨some c', by simp [hc'], hcknown, fun d => ?_⟩
      rw [hcom d, hmeet.2 d]
      simp [or_imp, forall_and, hp]

end Intersect

/-! ## A pass -/

/-- The invariant of a pass that started with `S`: the blocks with a number from `i` on are
done. -/
structure Passing (cfg : HLSLControlFlowGraph) (postorder : List ℕ) (S : ℕ → Option ℕ) (i : ℕ)
    (s : DominancePass) : Prop where
  climbs : Climbs 0 (place postorder) s.idom
  closed : ∀ a b, s.idom a = some b → s.idom b ≠ none
  listed : ∀ a, s.idom a ≠ none → a ∈ postorder
  todo : ∀ a, place postorder a < i → s.idom a = S a
  done : ∀ a ∈ postorder, i ≤ place postorder a → s.idom a ≠ none
  meet : ∀ x c, x ≠ 0 → i ≤ place postorder x → s.idom x = some c → ∀ d,
    Ancestor (mixed (place postorder) S s.idom (place postorder x)) c d ↔
      ∀ p, cfg.Edge p x → mixed (place postorder) S s.idom (place postorder x) p ≠ none →
        Ancestor (mixed (place postorder) S s.idom (place postorder x)) p d
  changed : s.changed = true ↔ s.idom ≠ S

section Pass

variable {cfg : HLSLControlFlowGraph} {postorder : List ℕ} {S : ℕ → Option ℕ}
  {s : DominancePass} {i : ℕ}

lemma Passing.numbered (hp : IsPostorder cfg postorder) (h : Passing cfg postorder S i s) :
    Numbered (postorder_numbers postorder) (place postorder) s.idom where
  climbs := h.climbs
  closed := h.closed
  numbers := fun a ha => postorder_numbers_spec hp.nodup (h.listed a ha)
  le_root := fun a ha => hp.ranked.le_root a ((hp.mem a).mp (h.listed a ha))
  inj := fun a _ ha hnum => place_inj (h.listed a ha) hnum

lemma mixed_update {num : ℕ → ℕ} {T : ℕ → Option ℕ} {x n : ℕ} {v : Option ℕ}
    (hx : num x ≤ n) : mixed num S (Function.update T x v) n = mixed num S T n := by
  funext a
  unfold mixed
  split_ifs with ha
  · rw [update_of_ne]
    rintro rfl
    omega
  · rfl

/-- The tree in the middle of a pass is a mixture of the old and the new tree. -/
theorem mixed_of_todo {num : ℕ → ℕ} {T : ℕ → Option ℕ} {n : ℕ}
    (h : ∀ a, num a < n + 1 → T a = S a) : mixed num S T n = T := by
  funext a
  unfold mixed
  split_ifs with ha
  · rfl
  · exact (h a (by omega)).symm

/-- Replacing the parent of the next block by the common ancestor of its predecessors. -/
theorem Passing.update (hl : Linked cfg) (hp : IsPostorder cfg postorder)
    (h : Passing cfg postorder S (i + 1) s) (hi : i + 1 < postorder.length) {parent : Option ℕ}
    (hmeet : IsMeet s.idom (cfg.blocks (postorder.getD i 0)).predecessors parent)
    (changed : Bool) (hchg : changed = true ↔
      Function.update s.idom (postorder.getD i 0) parent ≠ S) :
    Passing cfg postorder S i ⟨Function.update s.idom (postorder.getD i 0) parent, changed⟩ := by
  have hx : postorder.getD i 0 ∈ postorder := by
    rw [getD_eq_getElem _ _ (by omega)]
    exact getElem_mem _
  have hplace : place postorder (postorder.getD i 0) = i := by
    rw [getD_eq_getElem _ _ (by omega)]
    exact hp.nodup.idxOf_getElem i (by omega)
  generalize postorder.getD i 0 = x at *
  have hlt := hp.lt hl hx
  have hx0 : x ≠ 0 := by
    rintro rfl
    rw [hp.place_entry] at hplace
    omega
  have hmem : ∀ p, p ∈ (cfg.blocks x).predecessors ↔ cfg.Edge p x := fun p =>
    hl.mem_predecessors p x hlt
  -- Some predecessor is already in the tree.
  obtain ⟨p, hpmem, hpx, hpnum⟩ := hp.pred x hx hx0
  have hpknown : s.idom p ≠ none := h.done p hpmem (by omega)
  obtain ⟨c, rfl⟩ : ∃ c, parent = some c := by
    cases parent with
    | none => exact absurd (hmeet p ((hmem p).mpr hpx)) hpknown
    | some c => exact ⟨c, rfl⟩
  obtain ⟨hc, hcom⟩ := hmeet
  have hpc : Ancestor s.idom p c := (hcom c).mp .refl p ((hmem p).mpr hpx) hpknown
  have hnum : place postorder x < place postorder c :=
    Nat.lt_of_lt_of_le hpnum (h.climbs.le hpc)
  have hkeep : ∀ a, s.idom a ≠ none → Function.update s.idom x (some c) a ≠ none := by
    intro a ha
    rw [update_apply]
    split_ifs
    · exact some_ne_none c
    · exact ha
  refine ⟨⟨?_, ?_⟩, ?_, ?_, ?_, ?_, ?_, hchg⟩
  · simp only [update_of_ne (Ne.symm hx0)]
    exact h.climbs.root
  · intro a b ha hab
    simp only [update_apply] at hab
    split_ifs at hab with hax
    · rw [hax, ← some.inj hab]
      exact hnum
    · exact h.climbs.lt a b ha hab
  · intro a b hab
    simp only [update_apply] at hab
    apply hkeep
    split_ifs at hab with hax
    · rw [← some.inj hab]
      exact hc
    · exact h.closed a b hab
  · intro a ha
    by_cases hax : a = x
    · rw [hax]
      exact hx
    · simp only [update_of_ne hax] at ha
      exact h.listed a ha
  · intro a ha
    have hax : a ≠ x := by
      rintro rfl
      omega
    simp only [update_of_ne hax]
    exact h.todo a (by omega)
  · intro a ha hle
    by_cases hax : a = x
    · simp only [hax, update_self]
      exact some_ne_none c
    · apply hkeep
      apply h.done a ha
      have hne : place postorder a ≠ place postorder x := fun heq => hax (place_inj ha heq)
      omega
  · intro y b hy0 hy hyb
    simp only [mixed_update (hplace.trans_le hy)]
    by_cases hyx : y = x
    · simp only [hyx, update_self, some.injEq] at hyb
      rw [hyx, ← hyb, hplace, mixed_of_todo h.todo]
      intro d
      rw [hcom d]
      simp only [hmem]
    · simp only [update_of_ne hyx] at hyb
      have hylist := h.listed y (by rw [hyb]; exact some_ne_none b)
      have hne : place postorder y ≠ place postorder x := fun heq => hyx (place_inj hylist heq)
      exact h.meet y b hy0 (by omega) hyb

lemma dominance_step_spec (hl : Linked cfg) (hp : IsPostorder cfg postorder)
    (hi : i + 1 < postorder.length) (h : Passing cfg postorder S (i + 1) s) :
    ∃ s', dominance_step cfg postorder s i = some s' ∧ Passing cfg postorder S i s' := by
  have hlen := hp.length_le hl
  obtain ⟨parent, hparent, hmeet⟩ := merge_predecessors_spec (h.numbered hp)
    (cfg.block_count + 1) (by rw [hp.place_entry]; omega)
    (cfg.blocks (postorder.getD i 0)).predecessors
  have hplace : place postorder (postorder.getD i 0) = i := by
    rw [getD_eq_getElem _ _ (by omega)]
    exact hp.nodup.idxOf_getElem i (by omega)
  have hold : s.idom (postorder.getD i 0) = S (postorder.getD i 0) :=
    h.todo _ (by omega)
  unfold dominance_step
  simp only [hparent]
  split_ifs with hne
  · refine ⟨_, rfl, h.update hl hp hi hmeet true ?_⟩
    simp only [true_iff]
    intro heq
    apply hne
    rw [hold, ← heq, update_self]
  · rw [not_not] at hne
    refine ⟨s, rfl, ?_⟩
    have hsame : Function.update s.idom (postorder.getD i 0) parent = s.idom := by
      rw [hne, update_eq_self]
    have hupdate := h.update hl hp hi hmeet s.changed (by rw [hsame]; exact h.changed)
    rwa [hsame] at hupdate

/-- **A pass over the blocks is a pass over the tree.** -/
theorem dominance_pass_spec (hl : Linked cfg) (hp : IsPostorder cfg postorder)
    (hS : Climbs 0 (place postorder) S) (hclosed : ∀ a b, S a = some b → S b ≠ none)
    (hlisted : ∀ a, S a ≠ none → a ∈ postorder) :
    ∃ s, dominance_pass cfg postorder S = some s ∧ PassOf cfg.Edge 0 (place postorder) S s.idom ∧
      (∀ a b, s.idom a = some b → s.idom b ≠ none) ∧ (s.changed = true ↔ s.idom ≠ S) := by
  have hent : ∀ a ∈ postorder, postorder.length - 1 ≤ place postorder a → a = 0 := by
    intro a ha hle
    apply place_inj ha
    have := place_lt ha
    rw [hp.place_entry]
    omega
  have hstart : Passing cfg postorder S (postorder.length - 1) ⟨S, false⟩ := by
    refine ⟨hS, hclosed, hlisted, fun _ _ => rfl, ?_, ?_, by simp⟩
    · intro a ha hle
      simp only [hent a ha hle, hS.root]
      exact some_ne_none 0
    · intro x c hx0 hle hc
      simp only at hc
      exact absurd (hent x (hlisted x (by rw [hc]; exact some_ne_none c)) hle) hx0
  obtain ⟨s, hs, h⟩ := foldlM_reverse_range'_inv (f := dominance_step cfg postorder)
    (postorder.length - 1) (Passing cfg postorder S) hstart fun i s hi h =>
      dominance_step_spec hl hp (by omega) h
  refine ⟨s, hs, ⟨h.climbs, ?_, ?_⟩, h.closed, h.changed⟩
  · intro x
    rw [← hp.mem x]
    exact ⟨h.listed x, fun hx => h.done x hx (Nat.zero_le _)⟩
  · intro x c hx0 hc
    exact h.meet x c hx0 (Nat.zero_le _) hc

end Pass

/-! ## The iteration -/

/-- The number of the parent, zero for a block that has none. -/
def parentNumber (num : ℕ → ℕ) (idom : ℕ → Option ℕ) (x : ℕ) : ℕ :=
  match idom x with
  | none => 0
  | some parent => num parent

def parentNumbers (cfg : HLSLControlFlowGraph) (num : ℕ → ℕ) (idom : ℕ → Option ℕ) : ℕ :=
  ∑ x ∈ Finset.range cfg.block_count, parentNumber num idom x

section Iteration

variable {cfg : HLSLControlFlowGraph} {postorder : List ℕ} {S T : ℕ → Option ℕ}

lemma parentNumber_le {num : ℕ → ℕ} (hS : Good cfg.Edge 0 num S)
    (h : PassOf cfg.Edge 0 num S T) (x : ℕ) :
    parentNumber num S x ≤ parentNumber num T x ∧
      (parentNumber num S x = parentNumber num T x → S x = T x) := by
  unfold parentNumber
  by_cases hx : x = 0
  · rw [hx, hS.climbs.root, h.climbs.root]
    exact ⟨Nat.le_refl _, fun _ => rfl⟩
  cases ha : S x with
  | none =>
    cases hc : T x with
    | none => exact ⟨Nat.le_refl _, fun _ => rfl⟩
    | some c =>
      have hlt := h.climbs.lt x c hx hc
      refine ⟨Nat.zero_le _, fun heq => ?_⟩
      simp only at heq
      omega
  | some a =>
    have hreach := hS.reachable x (by rw [ha]; exact some_ne_none a)
    obtain ⟨c, hc⟩ := ne_none_iff_exists'.mp ((h.total x).mpr hreach)
    obtain ⟨hle, heq⟩ := hS.num_le h hx ha hc
    simp only [hc, some.injEq]
    exact ⟨hle, heq⟩

lemma parentNumbers_lt (hl : Linked cfg) (hp : IsPostorder cfg postorder)
    (hS : Good cfg.Edge 0 (place postorder) S) (h : PassOf cfg.Edge 0 (place postorder) S T)
    (hne : T ≠ S) :
    parentNumbers cfg (place postorder) S < parentNumbers cfg (place postorder) T := by
  obtain ⟨x, hx⟩ := ne_iff.mp hne
  have hreach : Reachable cfg.Edge 0 x := by
    by_contra hno
    have hSx : S x = none := by
      by_contra hSx
      exact hno (hS.reachable x hSx)
    have hTx : T x = none := by
      by_contra hTx
      exact hno ((h.total x).mp hTx)
    exact hx (hTx.trans hSx.symm)
  apply Finset.sum_lt_sum
  · intro y _
    exact (parentNumber_le hS h y).1
  · refine ⟨x, Finset.mem_range.mpr (hp.lt hl ((hp.mem x).mpr hreach)), ?_⟩
    obtain ⟨hle, heq⟩ := parentNumber_le hS h x
    exact Nat.lt_of_le_of_ne hle fun h => hx (heq h).symm

lemma parentNumbers_le (hl : Linked cfg) (hp : IsPostorder cfg postorder) :
    parentNumbers cfg (place postorder) S ≤ cfg.block_count * cfg.block_count := by
  have hone : ∀ x ∈ Finset.range cfg.block_count,
      parentNumber (place postorder) S x ≤ cfg.block_count := by
    intro x _
    unfold parentNumber
    cases S x with
    | none => exact Nat.zero_le _
    | some a => exact idxOf_le_length.trans (hp.length_le hl)
  refine (Finset.sum_le_card_nsmul _ _ _ hone).trans ?_
  rw [Finset.card_range]
  exact le_rfl

/-- **The iteration ends**, with a tree that a pass does not change. -/
theorem dominance_loop_spec (hl : Linked cfg) (hp : IsPostorder cfg postorder) (fuel : ℕ) :
    ∀ S, Good cfg.Edge 0 (place postorder) S → (∀ a b, S a = some b → S b ≠ none) →
      cfg.block_count * cfg.block_count < fuel + parentNumbers cfg (place postorder) S →
      ∃ T, dominance_loop cfg postorder fuel S = some T ∧
        dominance_pass cfg postorder T = some ⟨T, false⟩ ∧
        Good cfg.Edge 0 (place postorder) T ∧ PassOf cfg.Edge 0 (place postorder) T T ∧
        ∀ a b, T a = some b → T b ≠ none := by
  induction fuel with
  | zero =>
    intro S _ _ hfuel
    have hle := parentNumbers_le hl hp (S := S)
    omega
  | succ fuel ih =>
    intro S hS hclosed hfuel
    have hlisted : ∀ a, S a ≠ none → a ∈ postorder := fun a ha =>
      (hp.mem a).mpr (hS.reachable a ha)
    obtain ⟨s, hs, hpass, hclosed', hchg⟩ :=
      dominance_pass_spec hl hp hS.climbs hclosed hlisted
    rw [dominance_loop, hs]
    by_cases hne : s.changed = true
    · have hlt := parentNumbers_lt hl hp hS hpass (hchg.mp hne)
      simp only [hne, if_true]
      exact ih s.idom (hpass.good hp.ranked hS) hclosed' (by omega)
    · have hsame : s.idom = S := by
        by_contra hno
        exact hne (hchg.mpr hno)
      simp only [hne, Bool.false_eq_true, if_false, hsame]
      refine ⟨S, rfl, ?_, hS, hsame ▸ hpass, hclosed⟩
      rw [hs]
      congr 1
      cases s
      simp_all

lemma good_entry : Good cfg.Edge 0 (place postorder)
    (Function.update (fun _ => none) 0 (some 0)) := by
  apply good_initial
  · exact update_self ..
  · intro x hx
    exact update_of_ne hx ..

end Iteration

end DXBCSandbox
