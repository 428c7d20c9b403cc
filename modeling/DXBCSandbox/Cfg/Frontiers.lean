/-
The dominance frontiers of `compute_dominance`, and `hlsl_cfg_dominates`.

Both climb the dominator tree. The climbs end, because the numbers of the parents grow.
-/
import DXBCSandbox.Cfg.Exact
import DXBCSandbox.Cfg.ImmediateDominators

namespace DXBCSandbox

open List Option Function USILOpcode

/-- What the iteration leaves: the parents are the immediate dominators of the reachable
blocks, and climbing ends. -/
structure IsDominatorTree (cfg : HLSLControlFlowGraph) (idom : ℕ → Option ℕ) : Prop where
  total : ∀ x, idom x ≠ none ↔ Reachable cfg.Edge 0 x
  lt : ∀ x, idom x ≠ none → x < cfg.block_count
  closed : ∀ a b, idom a = some b → idom b ≠ none
  ancestor : ∀ x d, Reachable cfg.Edge 0 x → (Ancestor idom x d ↔ Dominates cfg.Edge 0 d x)
  immediate : ∀ x c, x ≠ 0 → idom x = some c → ImmediatelyDominates cfg.Edge 0 c x
  ranked : ∃ num : ℕ → ℕ, Climbs 0 num idom ∧
    ∀ x, idom x ≠ none → num x ≤ num 0 ∧ num 0 < cfg.block_count

section Iteration

variable {cfg : HLSLControlFlowGraph}

/-- **The iteration of `compute_dominance` finds the dominator tree.** -/
theorem dominance_loop_tree (hl : Linked cfg) :
    ∃ postorder idom, build_postorder cfg = some postorder ∧
      dominance_loop cfg postorder (cfg.block_count * cfg.block_count + 2)
        (Function.update (fun _ => none) 0 (some 0)) = some idom ∧
      dominance_pass cfg postorder idom = some ⟨idom, false⟩ ∧ IsDominatorTree cfg idom := by
  obtain ⟨postorder, hpost, hp⟩ := build_postorder_spec hl
  have hclosed : ∀ a b, update (fun _ => none) 0 (some 0) a = some b →
      update (fun _ => none) 0 (some 0) b ≠ none := by
    intro a b hab
    rw [update_apply] at hab
    split_ifs at hab
    rw [← some.inj hab, update_self]
    exact some_ne_none 0
  obtain ⟨idom, hidom, hpass, hgood, htree, hclosed'⟩ := dominance_loop_spec hl hp
    (cfg.block_count * cfg.block_count + 2) _ good_entry hclosed (by omega)
  refine ⟨postorder, idom, hpost, hidom, hpass, htree.total, ?_, hclosed', ?_, ?_, ?_⟩
  · intro x hx
    exact hp.lt hl ((hp.mem x).mpr ((htree.total x).mp hx))
  · intro x d hx
    exact ancestor_iff_dominates hgood htree hx
  · intro x c hx0 hc
    have hx := (htree.total x).mp (by rw [hc]; exact some_ne_none c)
    exact (immediatelyDominates_of_parent hgood htree hx hx0 hc).2
  · refine ⟨place postorder, htree.climbs, fun x hx => ⟨?_, ?_⟩⟩
    · exact hp.ranked.le_root x ((htree.total x).mp hx)
    · have hlen := hp.length_le hl
      have hpos := hp.length_pos
      rw [hp.place_entry]
      omega

end Iteration

/-! ## Climbing the tree -/

section Tree

variable {cfg : HLSLControlFlowGraph} {idom : ℕ → Option ℕ} (h : IsDominatorTree cfg idom)

include h

lemma IsDominatorTree.parent_ne {x c : ℕ} (hx : x ≠ 0) (hc : idom x = some c) : c ≠ x := (h.immediate x c hx hc).ne

lemma IsDominatorTree.entry : idom 0 = some 0 := by
  obtain ⟨num, hclimbs, -⟩ := h.ranked
  exact hclimbs.root

lemma IsDominatorTree.ancestor_antisymm {a b : ℕ} (hab : Ancestor idom a b)
    (hba : Ancestor idom b a) : a = b := by
  obtain ⟨num, hclimbs, -⟩ := h.ranked
  have hle := hclimbs.le hab
  have hle' := hclimbs.le hba
  exact (hclimbs.eq_of_num_eq hab (by omega)).symm

lemma dominates_loop_spec {num : ℕ → ℕ} (hclimbs : Climbs 0 num idom)
    (hnum : ∀ x, idom x ≠ none → num x ≤ num 0) (df : ℕ → List ℕ) (d : ℕ) :
    ∀ steps b, idom b ≠ none → num 0 < steps + num b →
      (dominates_loop ⟨idom, df⟩ cfg.block_count d steps b = true ↔ Ancestor idom b d) := by
  intro steps
  induction steps with
  | zero =>
    intro b hb hsteps
    have hle := hnum b hb
    omega
  | succ steps ih =>
    intro b hb hsteps
    rw [dominates_loop]
    by_cases hbd : b = d
    · rw [if_pos hbd, hbd]
      simp only [true_iff]
      exact .refl
    rw [if_neg hbd]
    obtain ⟨parent, hparent⟩ := ne_none_iff_exists'.mp hb
    have hknown := h.closed b parent hparent
    have hlt := h.lt parent hknown
    simp only [hparent]
    by_cases hb0 : b = 0
    · -- The entry is its own parent, and has no other ancestor.
      rw [hb0, h.entry, some.injEq] at hparent
      rw [if_pos (.inr (hparent.symm.trans hb0.symm))]
      simp only [Bool.false_eq_true, false_iff]
      intro hanc
      rw [hb0] at hanc
      exact hbd (hb0.trans (hclimbs.root_ancestor hanc).symm)
    · have hne := h.parent_ne hb0 hparent
      have hgrow := hclimbs.lt b parent hb0 hparent
      rw [if_neg (by omega), ih parent hknown (by omega), ancestor_iff_of_parent hparent]
      exact ⟨.inr, fun hanc => hanc.resolve_left (Ne.symm hbd)⟩

lemma hlsl_cfg_dominates_spec (df : ℕ → List ℕ) (d b : ℤ) :
    hlsl_cfg_dominates cfg ⟨idom, df⟩ d b = true ↔
      ∃ d' b' : ℕ, d = d' ∧ b = b' ∧ Reachable cfg.Edge 0 d' ∧ Reachable cfg.Edge 0 b' ∧
        Dominates cfg.Edge 0 d' b' := by
  obtain ⟨num, hclimbs, hnum⟩ := h.ranked
  have hloop : ∀ d b : ℕ, idom b ≠ none →
      (dominates_loop ⟨idom, df⟩ cfg.block_count d cfg.block_count b = true ↔
        Dominates cfg.Edge 0 d b) := by
    intro d b hb
    have hlt := (hnum b hb).2
    rw [← h.ancestor b d ((h.total b).mp hb)]
    exact dominates_loop_spec h hclimbs (fun x hx => (hnum x hx).1) df d _ b hb (by omega)
  unfold hlsl_cfg_dominates
  constructor
  · intro htrue
    split_ifs at htrue with hguard
    simp only [not_or] at hguard
    obtain ⟨hd0, hdlt, hb0, hblt, hd, hb⟩ := hguard
    refine ⟨d.toNat, b.toNat, by omega, by omega, (h.total _).mp hd, (h.total _).mp hb, ?_⟩
    exact (hloop _ _ hb).mp htrue
  · rintro ⟨d', b', rfl, rfl, hd, hb, hdom⟩
    have hd' := (h.total d').mpr hd
    have hb' := (h.total b').mpr hb
    have hdlt := h.lt d' hd'
    have hblt := h.lt b' hb'
    simp only [Int.toNat_natCast]
    rw [if_neg (by simp only [hd', hb', or_false]; omega)]
    exact (hloop d' b' hb').mpr hdom

omit h

/-! ## Frontiers -/

/-- The condition under which `block` is added to the frontier of `x` on the climb from
`runner` to `stop`. -/
def OnClimb (idom : ℕ → Option ℕ) (runner stop x : ℕ) : Prop :=
  Ancestor idom runner x ∧ Ancestor idom x stop ∧ x ≠ stop

/-- Frontiers list blocks of the graph, each once. -/
def FrontierLists (cfg : HLSLControlFlowGraph) (frontiers : ℕ → List ℕ) : Prop :=
  ∀ x, (frontiers x).Nodup ∧ ∀ y ∈ frontiers x, y < cfg.block_count

lemma add_frontier_spec (hl : Linked cfg) {values : List ℕ} {block : ℕ}
    (hnodup : values.Nodup) (hlt : ∀ y ∈ values, y < cfg.block_count)
    (hblock : block < cfg.block_count) :
    ∃ values', add_frontier values block = some values' ∧ values'.Nodup ∧
      ∀ y, y ∈ values' ↔ y ∈ values ∨ y = block := by
  unfold add_frontier
  by_cases hmem : block ∈ values
  · rw [if_pos hmem]
    refine ⟨values, rfl, hnodup, fun y => ?_⟩
    constructor
    · exact .inl
    · rintro (hy | rfl)
      · exact hy
      · exact hmem
  · have hlen : (block :: values).length ≤ cfg.block_count := by
      apply length_le_of_nodup_of_lt (nodup_cons.mpr ⟨hmem, hnodup⟩)
      intro y hy
      rcases mem_cons.mp hy with rfl | hy
      · exact hblock
      · exact hlt y hy
    have hle := hl.count_le
    rw [length_cons] at hlen
    rw [if_neg hmem, if_neg (by omega)]
    refine ⟨_, rfl, ?_, fun y => by simp⟩
    rw [nodup_append_comm, singleton_append, nodup_cons]
    exact ⟨hmem, hnodup⟩

lemma climb_frontier_spec (hl : Linked cfg) (h : IsDominatorTree cfg idom) {num : ℕ → ℕ}
    (hclimbs : Climbs 0 num idom) (hnum : ∀ x, idom x ≠ none → num x ≤ num 0)
    {block stop : ℕ} (hblock : block < cfg.block_count) :
    ∀ fuel runner frontiers, idom runner ≠ none → Ancestor idom runner stop →
      num 0 < fuel + num runner → FrontierLists cfg frontiers →
      ∃ frontiers', climb_frontier idom block stop fuel runner frontiers = some frontiers' ∧
        FrontierLists cfg frontiers' ∧
        ∀ x y, y ∈ frontiers' x ↔ y ∈ frontiers x ∨ (y = block ∧ OnClimb idom runner stop x) := by
  intro fuel
  induction fuel with
  | zero =>
    intro runner _ hrunner _ hfuel
    have hle := hnum runner hrunner
    omega
  | succ fuel ih =>
    intro runner frontiers hrunner hstop hfuel hlists
    rw [climb_frontier]
    by_cases heq : runner = stop
    · rw [if_pos heq]
      refine ⟨frontiers, rfl, hlists, fun x y => ?_⟩
      constructor
      · exact .inl
      · rintro (hy | ⟨-, hup, hdown, hne⟩)
        · exact hy
        · rw [heq] at hup
          exact absurd (h.ancestor_antisymm hdown hup) hne
    rw [if_neg heq]
    obtain ⟨next, hnext⟩ := ne_none_iff_exists'.mp hrunner
    have hroot : runner ≠ 0 := by
      rintro rfl
      exact heq (hclimbs.root_ancestor hstop).symm
    have hgrow := hclimbs.lt runner next hroot hnext
    have hstop' : Ancestor idom next stop :=
      ((ancestor_iff_of_parent hnext).mp hstop).resolve_left (Ne.symm heq)
    obtain ⟨values, hvals, hnodup, hmem⟩ :=
      add_frontier_spec hl (hlists runner).1 (hlists runner).2 hblock
    have hlists' : FrontierLists cfg (update frontiers runner values) := by
      intro x
      rw [update_apply]
      split_ifs
      · refine ⟨hnodup, fun y hy => ?_⟩
        rcases (hmem y).mp hy with hy | rfl
        · exact (hlists runner).2 y hy
        · exact hblock
      · exact hlists x
    obtain ⟨frontiers', hrun, hlists'', hfinal⟩ :=
      ih next _ (h.closed runner next hnext) hstop' (by omega) hlists'
    refine ⟨frontiers', ?_, hlists'', fun x y => ?_⟩
    · rw [hvals, hnext]
      exact hrun
    · rw [hfinal x y, update_apply]
      by_cases hx : x = runner
      · -- The runner itself is on the climb, and not on the rest of it.
        have hon : OnClimb idom runner stop runner := ⟨.refl, hstop, heq⟩
        have hoff : ¬ OnClimb idom next stop runner := by
          rintro ⟨hup, -⟩
          have := hclimbs.le hup
          omega
        rw [if_pos hx, hx, hmem y]
        simp only [hon, hoff, and_false, or_false, and_true]
      · have hiff : OnClimb idom next stop x ↔ OnClimb idom runner stop x := by
          unfold OnClimb
          rw [ancestor_iff_of_parent hnext]
          simp only [hx, false_or]
        rw [if_neg hx, hiff]

/-- `y` is in the frontier of `x`: the climb from a reachable predecessor of the join `y`
to its parent passes `x`. -/
def InFrontier (cfg : HLSLControlFlowGraph) (idom : ℕ → Option ℕ) (x y : ℕ) : Prop :=
  2 ≤ (cfg.blocks y).predecessors.length ∧
    ∃ stop p, idom y = some stop ∧ p ∈ (cfg.blocks y).predecessors ∧ idom p ≠ none ∧
      OnClimb idom p stop x

include h in
lemma IsDominatorTree.ancestor_of_edge {p y stop : ℕ} (hp : idom p ≠ none) (he : cfg.Edge p y)
    (hstop : idom y = some stop) :
    Ancestor idom p stop := by
  have hreach := (h.total p).mp hp
  rw [h.ancestor p stop hreach]
  by_cases hy : y = 0
  · rw [hy, h.entry, some.injEq] at hstop
    rw [← hstop]
    exact dominates_root
  · have himm := h.immediate y stop hy hstop
    exact himm.dominates.of_edge himm.ne he

lemma block_frontiers_spec (hl : Linked cfg) (h : IsDominatorTree cfg idom) (block : ℕ)
    (hblock : block < cfg.block_count) {frontiers : ℕ → List ℕ}
    (hlists : FrontierLists cfg frontiers) :
    ∃ frontiers', block_frontiers cfg idom frontiers block = some frontiers' ∧
      FrontierLists cfg frontiers' ∧
      ∀ x y, y ∈ frontiers' x ↔ y ∈ frontiers x ∨ (y = block ∧ InFrontier cfg idom x block) := by
  obtain ⟨num, hclimbs, hnum⟩ := h.ranked
  unfold block_frontiers
  cases hstop : idom block with
  | none =>
    refine ⟨frontiers, rfl, hlists, fun x y => ?_⟩
    simp [InFrontier, hstop]
  | some stop =>
    simp only
    split_ifs with hcnt
    · refine ⟨frontiers, rfl, hlists, fun x y => ?_⟩
      have hno : ¬ InFrontier cfg idom x block := fun hin => by
        have := hin.1
        omega
      simp [hno]
    · -- The invariant is about the predecessors done so far.
      refine (foldlM_list_inv (cfg.blocks block).predecessors
        (fun done frontiers' => FrontierLists cfg frontiers' ∧ ∀ x y, y ∈ frontiers' x ↔
          y ∈ frontiers x ∨ (y = block ∧ ∃ p ∈ done, idom p ≠ none ∧ OnClimb idom p stop x))
        ⟨hlists, fun x y => by simp⟩ ?step).imp fun frontiers' hloop =>
          ⟨hloop.1, hloop.2.1, fun x y => ?final⟩
      case final =>
        rw [hloop.2.2 x y, InFrontier]
        simp only [hstop, some.injEq, show 2 ≤ (cfg.blocks block).predecessors.length
          by omega, true_and]
        grind
      case step =>
        rintro done p rest frontiers₁ hlist ⟨hlists₁, hmem₁⟩
        cases hp : idom p with
        | none =>
          refine ⟨frontiers₁, rfl, hlists₁, fun x y => ?_⟩
          rw [hmem₁ x y]
          simp [or_and_right, exists_or, hp]
        | some a =>
          have hknown : idom p ≠ none := by
            rw [hp]
            exact some_ne_none a
          have hmem : p ∈ (cfg.blocks block).predecessors := by
            rw [hlist]
            simp
          have hedge : cfg.Edge p block := (hl.mem_predecessors p block hblock).mp hmem
          have hbnd := hnum p hknown
          obtain ⟨frontiers₂, hclimb, hlists₂, hmem₂⟩ := climb_frontier_spec hl h hclimbs
            (fun x hx => (hnum x hx).1) hblock (cfg.block_count + 1) p frontiers₁ hknown
            (h.ancestor_of_edge hknown hedge hstop) (by omega) hlists₁
          refine ⟨frontiers₂, hclimb, hlists₂, fun x y => ?_⟩
          rw [hmem₂ x y, hmem₁ x y]
          simp only [mem_append, mem_singleton]
          grind

/-- **The frontiers of all blocks.** -/
theorem frontiers_spec (hl : Linked cfg) (h : IsDominatorTree cfg idom) :
    ∃ df, (List.range' 0 cfg.block_count).foldlM (block_frontiers cfg idom) (fun _ => []) =
        some df ∧
      FrontierLists cfg df ∧
      ∀ x y, y ∈ df x ↔ y < cfg.block_count ∧ InFrontier cfg idom x y := by
  have hloop := foldlM_range'_inv (f := block_frontiers cfg idom) 0 cfg.block_count
    (fun i df => FrontierLists cfg df ∧ ∀ x y, y ∈ df x ↔ y < i ∧ InFrontier cfg idom x y)
    (s := fun _ => []) ⟨fun x => by simp, fun x y => by simp⟩ ?_
  · obtain ⟨df, hrun, hlists, hmem⟩ := hloop
    rw [Nat.zero_add] at hmem
    exact ⟨df, hrun, hlists, hmem⟩
  · rintro i df - hi ⟨hlists, hmem⟩
    obtain ⟨df', hrun, hlists', hmem'⟩ := block_frontiers_spec hl h i (by omega) hlists
    refine ⟨df', hrun, hlists', fun x y => ?_⟩
    rw [hmem' x y, hmem x y, Nat.lt_succ_iff_lt_or_eq, or_and_right]
    constructor
    · rintro (hy | ⟨rfl, hy⟩)
      · exact .inl hy
      · exact .inr ⟨rfl, hy⟩
    · rintro (hy | ⟨rfl, hy⟩)
      · exact .inl hy
      · exact .inr ⟨rfl, hy⟩

end Tree

/-! ## The analysis -/

/-- **`compute_dominance` succeeds** on every linked graph. -/
theorem compute_dominance_spec {cfg : HLSLControlFlowGraph} (hl : Linked cfg)
    (halloc : cfg.allocated = true) :
    ∃ dominance postorder, compute_dominance cfg = some dominance ∧
      build_postorder cfg = some postorder ∧
      dominance_pass cfg postorder dominance.idom = some ⟨dominance.idom, false⟩ ∧
      IsDominatorTree cfg dominance.idom ∧
      ∀ x, (dominance.df x).Nodup ∧
        ∀ y, y ∈ dominance.df x ↔ y < cfg.block_count ∧ InFrontier cfg dominance.idom x y := by
  obtain ⟨postorder, idom, hpost, hidom, hpass, htree⟩ := dominance_loop_tree hl
  obtain ⟨df, hdf, hlists, hmem⟩ := frontiers_spec hl htree
  refine ⟨⟨idom, df⟩, postorder, ?_, hpost, hpass, htree, fun x => ⟨(hlists x).1, hmem x⟩⟩
  have hpos := hl.count_pos
  unfold compute_dominance
  rw [if_neg (by omega), halloc, hpost]
  simp only [Bool.not_true, Bool.false_eq_true, if_false, hidom, hdf]

lemma linked_of_build {program : USILProgram} {first last : ℤ} {cfg : HLSLControlFlowGraph}
    (h : build_control_flow_graph_range program .zeroed first last = some cfg)
    (hpos : 0 < cfg.block_count) : Linked cfg ∧ cfg.allocated = true := by
  obtain ⟨t, hw⟩ := exists_tree_of_build h
  have hex := exactGraph_of_build h hw
  have hrange := valid_range_iff.mp (valid_range_of_build h)
  have hcnt := hex.tiles.count_le
  have hmax := program.instruction_count_le
  refine ⟨⟨hpos, by omega, hex.successors_lt, fun b hb => (hex.nodup b hb).1,
    hex.mem_predecessors, fun b hb => (hex.nodup b hb).2⟩, ?_⟩
  rw [build_control_flow_graph_range] at h
  split_ifs at h with hvalid hempty
  · rw [← some.inj h] at hpos
    exact absurd hpos (Nat.lt_irrefl 0)
  · rw [build_graph] at h
    split at h
    · simp at h
    · dsimp only at h
      split at h
      · simp at h
      · rw [← some.inj h]

/-- **Dominance is exact** on every graph of the builder. The analysis ends, and another
pass over its result changes nothing. The parent of a reachable block is its only immediate
dominator, exactly the unreachable blocks have none, and `hlsl_cfg_dominates` decides
dominance between reachable blocks. -/
theorem compute_dominance_exact (program : USILProgram) (first last : ℤ)
    (cfg : HLSLControlFlowGraph)
    (h : build_control_flow_graph_range program .zeroed first last = some cfg) :
    ∃ dominance, compute_dominance cfg = some dominance ∧
      (0 < cfg.block_count → ∃ postorder, build_postorder cfg = some postorder ∧
        dominance_pass cfg postorder dominance.idom = some ⟨dominance.idom, false⟩) ∧
      (∀ b, b < cfg.block_count → (dominance.idom b = none ↔ ¬ Reachable cfg.Edge 0 b)) ∧
      (∀ b, b < cfg.block_count → b ≠ 0 → Reachable cfg.Edge 0 b →
        ∃ a, dominance.idom b = some a ∧ ImmediatelyDominates cfg.Edge 0 a b ∧
          ∀ a', ImmediatelyDominates cfg.Edge 0 a' b → a' = a) ∧
      ∀ d b : ℤ, hlsl_cfg_dominates cfg dominance d b = true ↔
        ∃ d' b' : ℕ, d = d' ∧ b = b' ∧ d' < cfg.block_count ∧ b' < cfg.block_count ∧
          Reachable cfg.Edge 0 d' ∧ Reachable cfg.Edge 0 b' ∧ Dominates cfg.Edge 0 d' b' := by
  by_cases hpos : 0 < cfg.block_count
  · obtain ⟨hl, hallocated⟩ := linked_of_build h hpos
    obtain ⟨dominance, postorder, hrun, hpost, hpass, htree, -⟩ :=
      compute_dominance_spec hl hallocated
    refine ⟨dominance, hrun, fun _ => ⟨postorder, hpost, hpass⟩, ?_, ?_, ?_⟩
    · intro b _
      rw [← htree.total b, not_not]
    · intro b _ hb0 hb
      obtain ⟨a, ha⟩ := ne_none_iff_exists'.mp ((htree.total b).mpr hb)
      have himm := htree.immediate b a hb0 ha
      refine ⟨a, ha, himm, fun a' himm' => ?_⟩
      have hreach := (htree.total a).mp (htree.closed b a ha)
      exact (himm.unique himm' hreach).symm
    · intro d b
      rw [hlsl_cfg_dominates_spec htree]
      constructor
      · rintro ⟨d', b', hd, hb, hdr, hbr, hdom⟩
        exact ⟨d', b', hd, hb, htree.lt d' ((htree.total d').mpr hdr),
          htree.lt b' ((htree.total b').mpr hbr), hdr, hbr, hdom⟩
      · rintro ⟨d', b', hd, hb, -, -, hrest⟩
        exact ⟨d', b', hd, hb, hrest⟩
  · have hzero : cfg.block_count = 0 := by omega
    refine ⟨⟨fun _ => none, fun _ => []⟩, by rw [compute_dominance, if_pos hzero],
      fun h => absurd h hpos, fun b hb => absurd hb (by omega), fun b hb => absurd hb (by omega), ?_⟩
    intro d b
    constructor
    · intro htrue
      rw [hlsl_cfg_dominates, if_pos (by omega)] at htrue
      exact absurd htrue (by decide)
    · rintro ⟨d', b', -, -, hd, -⟩
      omega

/-- In a loop with a conditional break, the condition dominates the code after the loop. -/
theorem loop_with_break_dominance : ∃ cfg, build_control_flow_graph_range
        (programOfOpcodes [LOOP, IF, BREAK, ENDIF, ENDLOOP, RET] (by decide)) .zeroed 0 6 =
          some cfg ∧
      Reachable cfg.Edge 0 1 ∧ Dominates cfg.Edge 0 1 4 := by
  have hrun : ((build_control_flow_graph_range
      (programOfOpcodes [LOOP, IF, BREAK, ENDIF, ENDLOOP, RET] (by decide)) .zeroed 0 6).bind
        fun cfg => (compute_dominance cfg).map
          fun dominance => hlsl_cfg_dominates cfg dominance 1 4) = some true := by
    decide +kernel
  obtain ⟨cfg, hcfg, hrun⟩ := bind_eq_some_iff.mp hrun
  obtain ⟨dominance, hdominance, htrue⟩ := map_eq_some_iff.mp hrun
  obtain ⟨dominance', hrun', -, -, -, hdom⟩ := compute_dominance_exact _ 0 6 cfg hcfg
  rw [hdominance, some.injEq] at hrun'
  rw [hrun', hdom] at htrue
  obtain ⟨d, b, hd, hb, -, -, hdr, -, hdb⟩ := htrue
  obtain rfl : d = 1 := by omega
  obtain rfl : b = 4 := by omega
  exact ⟨cfg, hcfg, hdr, hdb⟩

/-- **The answers of `hlsl_cfg_dominates` are a partial order**, in which the dominators of a block
are a chain. -/
theorem hlsl_cfg_dominates_chain (program : USILProgram) (first last : ℤ)
    (cfg : HLSLControlFlowGraph) (dominance : HLSLDominance)
    (h : build_control_flow_graph_range program .zeroed first last = some cfg)
    (hdominance : compute_dominance cfg = some dominance) (a b c : ℤ) :
    (hlsl_cfg_dominates cfg dominance a b → hlsl_cfg_dominates cfg dominance b a → a = b) ∧
    (hlsl_cfg_dominates cfg dominance a b → hlsl_cfg_dominates cfg dominance b c →
      hlsl_cfg_dominates cfg dominance a c) ∧
    (hlsl_cfg_dominates cfg dominance a c → hlsl_cfg_dominates cfg dominance b c →
      hlsl_cfg_dominates cfg dominance a b ∨ hlsl_cfg_dominates cfg dominance b a) := by
  by_cases hpos : 0 < cfg.block_count
  · obtain ⟨hl, hallocated⟩ := linked_of_build h hpos
    obtain ⟨dominance', -, hrun, -, -, htree, -⟩ := compute_dominance_spec hl hallocated
    obtain rfl : dominance = dominance' := some.inj (hdominance.symm.trans hrun)
    obtain ⟨num, hclimbs, -⟩ := htree.ranked
    have hiff : ∀ a b, hlsl_cfg_dominates cfg dominance a b = true ↔ ∃ a' b' : ℕ, a = a' ∧ b = b' ∧
        Reachable cfg.Edge 0 a' ∧ Reachable cfg.Edge 0 b' ∧ Ancestor dominance.idom b' a' := by
      intro a b
      rw [hlsl_cfg_dominates_spec htree]
      exact exists₂_congr fun a' b' => and_congr_right fun _ => and_congr_right fun _ =>
        and_congr_right fun _ => and_congr_right fun hb => (htree.ancestor b' a' hb).symm
    simp only [hiff]
    refine ⟨?_, ?_, ?_⟩
    · rintro ⟨a, b, rfl, rfl, ha, hb, hba⟩ ⟨b', a', hb', ha', -, -, hab⟩
      obtain rfl := Int.natCast_inj.mp hb'
      obtain rfl := Int.natCast_inj.mp ha'
      rw [htree.ancestor_antisymm hab hba]
    · rintro ⟨a, b, rfl, rfl, ha, hb, hba⟩ ⟨b', c, hb', rfl, -, hc, hcb⟩
      obtain rfl := Int.natCast_inj.mp hb'
      exact ⟨a, c, rfl, rfl, ha, hc, hcb.trans hba⟩
    · rintro ⟨a, c, rfl, rfl, ha, hc, hca⟩ ⟨b, c', rfl, hc', hb, -, hcb⟩
      obtain rfl := Int.natCast_inj.mp hc'
      obtain hle | hle := Nat.le_total (num a) (num b)
      · exact .inr ⟨b, a, rfl, rfl, hb, ha, hclimbs.ancestor_of_le hca hcb hle⟩
      · exact .inl ⟨a, b, rfl, rfl, ha, hb, hclimbs.ancestor_of_le hcb hca hle⟩
  · have hnone : ∀ a b, hlsl_cfg_dominates cfg dominance a b = false := fun a b => by
      rw [hlsl_cfg_dominates, if_pos (by omega)]
    simp [hnone]

theorem hlsl_cfg_dominates_chain_loop : ∃ cfg dominance, build_control_flow_graph_range
        (programOfOpcodes [LOOP, IF, BREAK, ENDIF, ENDLOOP, RET] (by decide)) .zeroed 0 6 =
          some cfg ∧
      compute_dominance cfg = some dominance ∧ (hlsl_cfg_dominates cfg dominance 0 1 = true ∨
        hlsl_cfg_dominates cfg dominance 1 0 = true) := by
  have hrun : ((build_control_flow_graph_range
      (programOfOpcodes [LOOP, IF, BREAK, ENDIF, ENDLOOP, RET] (by decide)) .zeroed 0 6).bind
        fun cfg => (compute_dominance cfg).map fun dominance =>
          (hlsl_cfg_dominates cfg dominance 0 4, hlsl_cfg_dominates cfg dominance 1 4)) =
      some (true, true) := by
    decide +kernel
  obtain ⟨cfg, hcfg, hrun⟩ := bind_eq_some_iff.mp hrun
  obtain ⟨dominance, hdominance, hpair⟩ := map_eq_some_iff.mp hrun
  obtain ⟨hzero, hone⟩ := Prod.mk.inj hpair
  exact ⟨cfg, dominance, hcfg, hdominance,
    (hlsl_cfg_dominates_chain _ 0 6 cfg dominance hcfg hdominance 0 1 4).2.2 hzero hone⟩

/-! ## The frontiers are exact -/

/-- `y` is where the dominance of `x` ends: `x` dominates a reachable predecessor of `y`, but not
`y` itself unless it is `y`. -/
def DominanceEnds (cfg : HLSLControlFlowGraph) (x y : ℕ) : Prop :=
  (∃ p, cfg.Edge p y ∧ Reachable cfg.Edge 0 p ∧ Dominates cfg.Edge 0 x p) ∧
    ¬ (Dominates cfg.Edge 0 x y ∧ x ≠ y)

section Frontier

variable {cfg : HLSLControlFlowGraph} {idom : ℕ → Option ℕ} {p x y : ℕ}

/-- A block with one predecessor is dominated by all that dominates the predecessor. -/
theorem dominates_of_single (hy0 : y ≠ 0) (honly : ∀ q, cfg.Edge q y → q = p)
    (hdom : Dominates cfg.Edge 0 x p) : Dominates cfg.Edge 0 x y := by
  intro walk hwalk
  cases hwalk with
  | single => exact absurd rfl hy0
  | snoc hinit hedge =>
    rw [honly _ hedge] at hinit
    exact mem_append_left _ (hdom _ hinit)

/-- A reachable block other than the entry has a predecessor that it does not dominate. -/
theorem exists_predecessor_ne (hy0 : y ≠ 0) (hy : Reachable cfg.Edge 0 y) :
    ∃ q, cfg.Edge q y ∧ q ≠ y := by
  by_contra hnone
  simp only [not_exists, not_and, not_not] at hnone
  refine hy.induction (P := fun b => b ≠ y) (Ne.symm hy0) ?_ rfl
  rintro b c - hb hedge rfl
  exact hb (hnone b hedge)

/-- What dominates a predecessor of `y`, but not `y`, is met on the climb to the parent of `y`. -/
theorem IsDominatorTree.onClimb_iff (h : IsDominatorTree cfg idom) {stop : ℕ} (hy0 : y ≠ 0)
    (hp : Reachable cfg.Edge 0 p) (he : cfg.Edge p y) (hstop : idom y = some stop) :
    OnClimb idom p stop x ↔ Dominates cfg.Edge 0 x p ∧ ¬ (Dominates cfg.Edge 0 x y ∧ x ≠ y) := by
  have hy := hp.step he
  have himm := h.immediate y stop hy0 hstop
  have hknown : idom p ≠ none := (h.total p).mpr hp
  have hparent : Ancestor idom p stop := h.ancestor_of_edge hknown he hstop
  have hstopReach : Reachable cfg.Edge 0 stop :=
    (h.total stop).mp (h.closed y stop hstop)
  have hyStop : Ancestor idom y stop := (ancestor_iff_of_parent hstop).mpr (.inr .refl)
  unfold OnClimb
  rw [h.ancestor p x hp]
  constructor
  · rintro ⟨hdom, hup, hne⟩
    refine ⟨hdom, ?_⟩
    rintro ⟨hstrict, hxy⟩
    -- What strictly dominates `y` dominates its parent.
    have hdown : Ancestor idom stop x :=
      (h.ancestor stop x hstopReach).mpr (himm.closest x hstrict hxy)
    exact hne (h.ancestor_antisymm hup hdown)
  · rintro ⟨hdom, hends⟩
    have hne : x ≠ stop := by
      rintro rfl
      exact hends ⟨himm.dominates, himm.ne⟩
    refine ⟨hdom, ?_, hne⟩
    obtain ⟨num, hclimbs, -⟩ := h.ranked
    rcases Nat.le_total (num x) (num stop) with hle | hle
    · exact hclimbs.ancestor_of_le ((h.ancestor p x hp).mpr hdom) hparent hle
    · -- Then `x` is above the parent of `y`, so it is `y`.
      have habove := hclimbs.ancestor_of_le hparent ((h.ancestor p x hp).mpr hdom) hle
      have hxy : x = y := by
        by_contra hxy
        exact hends ⟨(h.ancestor y x hy).mp (hyStop.trans habove), hxy⟩
      rw [hxy] at habove ⊢
      exact hyStop

/-- A block whose only predecessor is `p` ends the dominance of nothing. -/
theorem not_dominanceEnds_of_single (hy0 : y ≠ 0) (hp : Reachable cfg.Edge 0 p) (he : cfg.Edge p y)
    (honly : ∀ q, cfg.Edge q y → q = p) (hdom : Dominates cfg.Edge 0 x p) :
    Dominates cfg.Edge 0 x y ∧ x ≠ y := by
  refine ⟨dominates_of_single hy0 honly hdom, ?_⟩
  rintro rfl
  obtain ⟨q, hq, hne⟩ := exists_predecessor_ne hy0 (hp.step he)
  apply hne
  rw [honly q hq]
  exact (hdom.antisymm (dominates_of_single hy0 honly (dominates_self p)) (hp.step he)).symm

/-- **What the climbs record** is where dominance ends. -/
theorem inFrontier_iff (hl : Linked cfg) (h : IsDominatorTree cfg idom) (hent : ∀ p, ¬ cfg.Edge p 0)
    : y < cfg.block_count ∧ InFrontier cfg idom x y ↔ DominanceEnds cfg x y := by
  unfold InFrontier DominanceEnds
  constructor
  · rintro ⟨hylt, hcnt, stop, p, hstop, hmem, hp, hclimb⟩
    have he : cfg.Edge p y := (hl.mem_predecessors p y hylt).mp hmem
    have hy0 : y ≠ 0 := by
      rintro rfl
      exact hent p he
    have hreach := (h.total p).mp hp
    obtain ⟨hdom, hends⟩ := (h.onClimb_iff hy0 hreach he hstop).mp hclimb
    exact ⟨⟨p, he, hreach, hdom⟩, hends⟩
  · rintro ⟨⟨p, he, hp, hdom⟩, hends⟩
    have hylt : y < cfg.block_count := hl.successors_lt p he.1 y he.2
    have hy0 : y ≠ 0 := by
      rintro rfl
      exact hent p he
    obtain ⟨stop, hstop⟩ := ne_none_iff_exists'.mp ((h.total y).mpr (hp.step he))
    have hmem := (hl.mem_predecessors p y hylt).mpr he
    refine ⟨hylt, ?_, stop, p, hstop, hmem, (h.total p).mpr hp,
      (h.onClimb_iff hy0 hp he hstop).mpr ⟨hdom, hends⟩⟩
    -- With a single predecessor the dominance would go on.
    by_contra hcnt
    apply hends
    apply not_dominanceEnds_of_single hy0 hp he _ hdom
    intro q hq
    have hqmem := (hl.mem_predecessors q y hylt).mpr hq
    have hsingle := length_eq_one_iff.mp (by
      have hpos := length_pos_of_mem hmem
      omega : (cfg.blocks y).predecessors.length = 1)
    obtain ⟨a, ha⟩ := hsingle
    rw [ha, mem_singleton] at hmem hqmem
    rw [hqmem, hmem]

end Frontier

/-- Nothing jumps to the entry: jumps land behind the start of their range. -/
theorem entry_no_predecessor {program : USILProgram} {first last : ℤ} {cfg : HLSLControlFlowGraph}
    (h : build_control_flow_graph_range program .zeroed first last = some cfg) (p : ℕ) :
    ¬ cfg.Edge p 0 := by
  rintro ⟨hp, hmem⟩
  obtain ⟨t, hw⟩ := exists_tree_of_build h
  have hex := exactGraph_of_build h hw
  have hsize := hw.size
  have hrange := valid_range_iff.mp (valid_range_of_build h)
  have hcover := hex.tiles.covers_bounds hp ⟨hex.tiles.nonempty p hp, Nat.le_refl _⟩
  have hstart : (cfg.blocks 0).first_instruction = first.toNat := hex.tiles.start (by omega)
  have hstep : cfg.Step (cfg.blocks p).last_instruction (some first.toNat) := by
    refine ⟨p, hp, ⟨hex.tiles.nonempty p hp, Nat.le_refl _⟩, ?_⟩
    rw [if_neg (Nat.lt_irrefl _)]
    exact Or.inl ⟨0, hmem, by rw [hstart]⟩
  obtain ⟨target, htgt, heq⟩ := (hex.step _ _).mp hstep
  have hsame : target = some first.toNat := by
    by_cases hend : target = some (first.toNat + t.size)
    · rw [if_pos hend] at heq
      nomatch heq
    · rw [if_neg hend] at heq
      exact heq.symm
  rw [hsame] at htgt
  rcases FlowTree.steps_landing
      (hw.tokens ▸ spells_range' program first.toNat (last.toNat - first.toNat)) hw.wellNested
      (Nat.le_refl first.toNat) (Nat.le_of_eq (by omega : first.toNat + t.size = last.toNat))
      (fun h => absurd h Bool.false_ne_true) (fun h => absurd h Bool.false_ne_true) htgt with
    hnext | hland
  · omega
  · exact Nat.lt_irrefl _ hland.1

/-- **The dominance frontiers are exact** on every graph of the builder: they list, each once, the
blocks where the dominance of a block ends. -/
theorem compute_dominance_frontiers (program : USILProgram) (first last : ℤ)
    (cfg : HLSLControlFlowGraph)
    (h : build_control_flow_graph_range program .zeroed first last = some cfg) :
    ∃ dominance, compute_dominance cfg = some dominance ∧ ∀ x, (dominance.df x).Nodup ∧
        ∀ y, y ∈ dominance.df x ↔
          (∃ p, cfg.Edge p y ∧ Reachable cfg.Edge 0 p ∧ Dominates cfg.Edge 0 x p) ∧
            ¬ (Dominates cfg.Edge 0 x y ∧ x ≠ y) := by
  by_cases hpos : 0 < cfg.block_count
  · obtain ⟨hl, hallocated⟩ := linked_of_build h hpos
    obtain ⟨dominance, postorder, hrun, -, -, htree, hdf⟩ := compute_dominance_spec hl hallocated
    refine ⟨dominance, hrun, ?_⟩
    intro x
    refine ⟨(hdf x).1, fun y => ?_⟩
    rw [(hdf x).2 y]
    exact inFrontier_iff hl htree (entry_no_predecessor h)
  · refine ⟨⟨fun _ => none, fun _ => []⟩, ?_, ?_⟩
    · rw [compute_dominance, if_pos (by omega)]
    · refine fun x => ⟨nodup_nil, fun y => iff_of_false (nofun) ?_⟩
      rintro ⟨⟨p, ⟨hp, -⟩, -⟩, -⟩
      omega

/-- In a loop with a conditional break, the dominance of the loop's end ends at its start. -/
theorem loop_with_break_frontier : ∃ cfg dominance, build_control_flow_graph_range
        (programOfOpcodes [LOOP, IF, BREAK, ENDIF, ENDLOOP, RET] (by decide)) .zeroed 0 6 =
          some cfg ∧ compute_dominance cfg = some dominance ∧ 1 ∈ dominance.df 4 ∧
      ¬ (Dominates cfg.Edge 0 4 1 ∧ 4 ≠ 1) := by
  have hrun : ((build_control_flow_graph_range
      (programOfOpcodes [LOOP, IF, BREAK, ENDIF, ENDLOOP, RET] (by decide)) .zeroed 0 6).bind
        fun cfg => (compute_dominance cfg).map fun dominance => dominance.df 4) = some [1] := by
    decide +kernel
  obtain ⟨cfg, hcfg, hrun⟩ := bind_eq_some_iff.mp hrun
  obtain ⟨dominance, hdominance, hdf⟩ := map_eq_some_iff.mp hrun
  obtain ⟨dominance', hrun', hexact⟩ := compute_dominance_frontiers _ 0 6 cfg hcfg
  rw [hdominance, some.injEq] at hrun'
  have hmem : 1 ∈ dominance.df 4 := by
    rw [hdf]
    exact mem_cons_self
  refine ⟨cfg, dominance, hcfg, hdominance, hmem, ?_⟩
  rw [hrun'] at hmem
  exact (((hexact 4).2 1).mp hmem).2

end DXBCSandbox
