/-
Strong post-dominance (`hlsl_cfg_must_reach` of `src/translation/hlsl_cfg.c`).

The blocks that every path leads from to the target are found backwards from the target. A block is
queued when the last of its successors has been taken from the queue, so a path that leaves the
program or runs round a cycle keeps every block on it out of the queue.
-/
import DXBCSandbox.Cfg.Frontiers
import DXBCSandbox.Lib.Inevitable

namespace DXBCSandbox

open List USILOpcode Function

/-- The loop over the predecessors of a block: what is left of the successors of every block, and
the queue. An error is the answer that the search ends with. -/
def visit_predecessors (cfg : HLSLControlFlowGraph) (dominance : HLSLDominance) (start : ℕ) :
    List ℕ → (ℕ → ℕ) → List ℕ → Except Bool ((ℕ → ℕ) × List ℕ)
  | [], remaining, queue => .ok (remaining, queue)
  | predecessor :: predecessors, remaining, queue =>
    if cfg.block_count ≤ predecessor then .error false
    else if dominance.idom predecessor = none ∨ (cfg.blocks predecessor).may_exit ∨
        remaining predecessor = 0 then
      visit_predecessors cfg dominance start predecessors remaining queue
    else
      let remaining := Function.update remaining predecessor (remaining predecessor - 1)
      if remaining predecessor = 0 then
        if predecessor = start then .error true
        else
          visit_predecessors cfg dominance start predecessors remaining (queue ++ [predecessor])
      else visit_predecessors cfg dominance start predecessors remaining queue

/-- The loop over the queue. No block is queued twice, so the number of blocks bounds it. -/
def must_reach_loop (cfg : HLSLControlFlowGraph) (dominance : HLSLDominance) (start : ℕ) :
    ℕ → (ℕ → ℕ) → List ℕ → Bool
  | 0, _, _ => false
  | _ + 1, _, [] => false
  | fuel + 1, remaining, block :: queue =>
    match visit_predecessors cfg dominance start (cfg.blocks block).predecessors remaining
        queue with
    | .error proven => proven
    | .ok (remaining, queue) => must_reach_loop cfg dominance start fuel remaining queue

def hlsl_cfg_must_reach (cfg : HLSLControlFlowGraph) (dominance : HLSLDominance)
    (start target : ℤ) : Bool :=
  if start < 0 ∨ start ≥ cfg.block_count ∨ target < 0 ∨ target ≥ cfg.block_count ∨
      dominance.idom start.toNat = none ∨ dominance.idom target.toNat = none then false
  else if start = target then true
  else
    must_reach_loop cfg dominance start.toNat cfg.block_count
      (Function.update (fun block => (cfg.blocks block).successors.length) target.toNat 0)
      [target.toNat]

/-! ## The search -/

/-- A path may leave the program from a block. -/
def HLSLControlFlowGraph.Exits (cfg : HLSLControlFlowGraph) (b : ℕ) : Prop :=
  (cfg.blocks b).may_exit = true

/-- A block whose successors decide about it. -/
structure Decided (cfg : HLSLControlFlowGraph) (target b : ℕ) : Prop where
  reachable : Reachable cfg.Edge 0 b
  no_exit : (cfg.blocks b).may_exit = false
  ne_target : b ≠ target

/-- The successors of a block that have not been consumed. -/
noncomputable def leftOf (cfg : HLSLControlFlowGraph) (consumed : ℕ → ℕ → Prop) (b : ℕ) : List ℕ :=
  open Classical in (cfg.blocks b).successors.filter fun c => ¬ consumed b c

/-- What the search knows. `consumed b c` says that the edge from `b` to `c` has been looked at from
`c`, and `queued` are the blocks that have ever been in the queue. -/
structure Search (cfg : HLSLControlFlowGraph) (start target : ℕ) (consumed : ℕ → ℕ → Prop)
    (queued : List ℕ) (remaining : ℕ → ℕ) : Prop where
  nodup : queued.Nodup
  target_mem : target ∈ queued
  start_notMem : start ∉ queued
  reachable : ∀ b ∈ queued, Reachable cfg.Edge 0 b
  proven : ∀ b ∈ queued, Proven cfg.Edge cfg.Exits target b
  zero : ∀ b ∈ queued, remaining b = 0
  consumed_queued : ∀ b c, consumed b c → c ∈ queued
  remaining_eq : ∀ b, Decided cfg target b → remaining b = (leftOf cfg consumed b).length
  complete : ∀ b, Decided cfg target b → (cfg.blocks b).successors ≠ [] →
    (∀ c ∈ (cfg.blocks b).successors, consumed b c) → b ∈ queued

section

variable {cfg : HLSLControlFlowGraph} {dominance : HLSLDominance} {start target : ℕ}
  {consumed consumed' : ℕ → ℕ → Prop} {queued : List ℕ} {remaining : ℕ → ℕ} {b c : ℕ}

lemma mem_leftOf :
    c ∈ leftOf cfg consumed b ↔ c ∈ (cfg.blocks b).successors ∧ ¬ consumed b c := by
  unfold leftOf
  simp

lemma Search.congr (h : Search cfg start target consumed queued remaining)
    (hconsumed : ∀ b c, Reachable cfg.Edge 0 b → c ∈ (cfg.blocks b).successors →
      (consumed' b c ↔ consumed b c))
    (hqueued : ∀ b c, consumed' b c → c ∈ queued) :
    Search cfg start target consumed' queued remaining where
  nodup := h.nodup
  target_mem := h.target_mem
  start_notMem := h.start_notMem
  reachable := h.reachable
  proven := h.proven
  zero := h.zero
  consumed_queued := hqueued
  remaining_eq := by
    intro b hb
    rw [h.remaining_eq b hb, leftOf, leftOf]
    congr 1
    apply filter_congr
    intro c hc
    rw [decide_eq_decide, hconsumed b c hb.reachable hc]
  complete := by
    intro b hb hne hall
    apply h.complete b hb hne
    intro c hc
    exact (hconsumed b c hb.reachable hc).mp (hall c hc)

/-- The edge from `p` to `c` is consumed as well. -/
def alsoConsumed (consumed : ℕ → ℕ → Prop) (p c : ℕ) (b x : ℕ) : Prop :=
  consumed b x ∨ b = p ∧ x = c

variable {p : ℕ}

lemma leftOf_alsoConsumed_ne (h : b ≠ p) :
    leftOf cfg (alsoConsumed consumed p c) b = leftOf cfg consumed b := by
  unfold leftOf
  apply filter_congr
  intro x _
  rw [decide_eq_decide, alsoConsumed]
  simp [h]

lemma length_leftOf_alsoConsumed (hnodup : (cfg.blocks p).successors.Nodup)
    (hc : c ∈ leftOf cfg consumed p) :
    (leftOf cfg (alsoConsumed consumed p c) p).length + 1 = (leftOf cfg consumed p).length := by
  classical
  have hfilter : leftOf cfg (alsoConsumed consumed p c) p =
      (leftOf cfg consumed p).filter (· ≠ c) := by
    unfold leftOf
    rw [filter_filter]
    apply filter_congr
    intro x _
    rw [← Bool.decide_and, decide_eq_decide, alsoConsumed]
    simp [and_comm, not_or]
  have herase : (leftOf cfg consumed p).filter (· ≠ c) = (leftOf cfg consumed p).erase c := by
    rw [List.Nodup.erase_eq_filter]
    · exact filter_congr fun x _ => Bool.eq_iff_iff.mpr (by simp)
    · exact hnodup.filter _
  rw [hfilter, herase, length_erase_of_mem hc]
  have := length_pos_of_mem hc
  omega

variable (h : Search cfg start target consumed queued remaining)

include h

lemma Search.proven_of_left
    (hb : Decided cfg target b) (hc : c ∈ (cfg.blocks b).successors) (hlt : b < cfg.block_count)
    (hall : ∀ x ∈ (cfg.blocks b).successors, x ∈ queued) : Proven cfg.Edge cfg.Exits target b := by
  apply Proven.step
  · rintro (hexit | hnone)
    · rw [HLSLControlFlowGraph.Exits, hb.no_exit] at hexit
      cases hexit
    · exact hnone c ⟨hlt, hc⟩
  · intro x hx
    exact h.proven x (hall x hx.2)

/-- An edge that does not count: its source is not decided by its successors. -/
theorem Search.skip (hc : c ∈ queued) (hp : ¬ Decided cfg target p) :
    Search cfg start target (alsoConsumed consumed p c) queued remaining where
  nodup := h.nodup
  target_mem := h.target_mem
  start_notMem := h.start_notMem
  reachable := h.reachable
  proven := h.proven
  zero := h.zero
  consumed_queued := by
    rintro b x (hx | ⟨-, rfl⟩)
    · exact h.consumed_queued b x hx
    · exact hc
  remaining_eq := by
    intro b hb
    have hne : b ≠ p := fun heq => hp (heq ▸ hb)
    rw [leftOf_alsoConsumed_ne hne]
    exact h.remaining_eq b hb
  complete := by
    intro b hb hsucc hall
    have hne : b ≠ p := fun heq => hp (heq ▸ hb)
    apply h.complete b hb hsucc
    intro x hx
    exact (hall x hx).resolve_right fun heq => hne heq.1

lemma Search.consume (hc : c ∈ queued)
    (hp : Decided cfg target p) (hpos : remaining p ≠ 0) (hnodup : (cfg.blocks p).successors.Nodup)
    (hleft : c ∈ leftOf cfg consumed p) :
    remaining p - 1 = (leftOf cfg (alsoConsumed consumed p c) p).length ∧
      (remaining p - 1 ≠ 0 → Search cfg start target (alsoConsumed consumed p c) queued
        (Function.update remaining p (remaining p - 1))) := by
  have hlen := length_leftOf_alsoConsumed hnodup hleft
  have hremaining := h.remaining_eq p hp
  have hnotMem : p ∉ queued := fun hmem => hpos (h.zero p hmem)
  have hcnt : remaining p - 1 = (leftOf cfg (alsoConsumed consumed p c) p).length := by omega
  refine ⟨hcnt, fun hne => ?_⟩
  refine ⟨h.nodup, h.target_mem, h.start_notMem, h.reachable, h.proven, ?_, ?_, ?_, ?_⟩
  · intro b hb
    have hne : b ≠ p := fun heq => hnotMem (heq ▸ hb)
    rw [update_of_ne hne]
    exact h.zero b hb
  · rintro b x (hx | ⟨-, rfl⟩)
    · exact h.consumed_queued b x hx
    · exact hc
  · intro b hb
    by_cases heq : b = p
    · rw [heq, update_self]
      exact hcnt
    · rw [update_of_ne heq, leftOf_alsoConsumed_ne heq]
      exact h.remaining_eq b hb
  · intro b hb hsucc hall
    by_cases heq : b = p
    · rw [heq] at hall
      -- Some successor of `p` is left, so not all are consumed.
      obtain ⟨x, hx⟩ := exists_mem_of_length_pos
        (Nat.pos_of_ne_zero (hcnt ▸ hne : (leftOf cfg (alsoConsumed consumed p c) p).length ≠ 0))
      obtain ⟨hx, hx'⟩ := mem_leftOf.mp hx
      exact absurd (hall x hx) hx'
    · apply h.complete b hb hsucc
      intro x hx
      exact (hall x hx).resolve_right fun hpair => heq hpair.1

/-- The last edge of a block: the block is proven, and queued unless the search is for it. -/
theorem Search.push (hc : c ∈ queued)
    (hp : Decided cfg target p) (hpos : remaining p ≠ 0) (hnodup : (cfg.blocks p).successors.Nodup)
    (hleft : c ∈ leftOf cfg consumed p) (hlt : p < cfg.block_count) (hzero : remaining p - 1 = 0) :
    Proven cfg.Edge cfg.Exits target p ∧
      (p ≠ start → Search cfg start target (alsoConsumed consumed p c) (queued ++ [p])
        (Function.update remaining p (remaining p - 1))) := by
  have hnotMem : p ∉ queued := fun hmem => hpos (h.zero p hmem)
  have hnone : leftOf cfg (alsoConsumed consumed p c) p = [] := by
    apply eq_nil_of_length_eq_zero
    rw [← (h.consume hc hp hpos hnodup hleft).1, hzero]
  have hall : ∀ x ∈ (cfg.blocks p).successors, alsoConsumed consumed p c p x := by
    intro x hx
    by_contra hx'
    have hmem := mem_leftOf.mpr ⟨hx, hx'⟩
    rw [hnone] at hmem
    nomatch hmem
  have hqueued : ∀ b x, alsoConsumed consumed p c b x → x ∈ queued := by
    rintro b x (hx | ⟨-, rfl⟩)
    · exact h.consumed_queued b x hx
    · exact hc
  have hproven : Proven cfg.Edge cfg.Exits target p :=
    h.proven_of_left hp (mem_leftOf.mp hleft).1 hlt fun x hx => hqueued p x (hall x hx)
  refine ⟨hproven, fun hstart => ?_⟩
  refine ⟨?_, mem_append_left _ h.target_mem, ?_, ?_, ?_, ?_, ?_, ?_, ?_⟩
  · apply h.nodup.append (nodup_singleton p)
    intro b hb hb'
    exact hnotMem (mem_singleton.mp hb' ▸ hb)
  · intro hmem
    rcases mem_append.mp hmem with hmem | hmem
    · exact h.start_notMem hmem
    · exact hstart (mem_singleton.mp hmem).symm
  · intro b hb
    rcases mem_append.mp hb with hb | hb
    · exact h.reachable b hb
    · exact mem_singleton.mp hb ▸ hp.reachable
  · intro b hb
    rcases mem_append.mp hb with hb | hb
    · exact h.proven b hb
    · exact mem_singleton.mp hb ▸ hproven
  · intro b hb
    rcases mem_append.mp hb with hb | hb
    · have hne : b ≠ p := fun heq => hnotMem (heq ▸ hb)
      rw [update_of_ne hne]
      exact h.zero b hb
    · rw [mem_singleton.mp hb, update_self]
      exact hzero
  · intro b x hx
    exact mem_append_left _ (hqueued b x hx)
  · intro b hb
    by_cases heq : b = p
    · rw [heq, update_self, hnone]
      exact hzero
    · rw [update_of_ne heq, leftOf_alsoConsumed_ne heq]
      exact h.remaining_eq b hb
  · intro b hb hsucc hbs
    by_cases heq : b = p
    · exact mem_append_right _ (mem_singleton.mpr heq)
    · apply mem_append_left
      apply h.complete b hb hsucc
      intro x hx
      exact (hbs x hx).resolve_right fun hpair => heq hpair.1

omit h

/-- What the loop over the predecessors of a block may end with. -/
def Visited (cfg : HLSLControlFlowGraph) (start target : ℕ) (consumed : ℕ → ℕ → Prop)
    (queued queue : List ℕ) : Except Bool ((ℕ → ℕ) × List ℕ) → Prop
  | .error proven => proven = true ∧ Proven cfg.Edge cfg.Exits target start
  | .ok (remaining, queue') => ∃ new, queue' = queue ++ new ∧
      Search cfg start target consumed (queued ++ new) remaining

variable {queue : List ℕ}

lemma Visited.congr {result : Except Bool ((ℕ → ℕ) × List ℕ)}
    (h : Visited cfg start target consumed queued queue result)
    (hconsumed : ∀ b c, consumed' b c ↔ consumed b c) :
    Visited cfg start target consumed' queued queue result := by
  have heq : consumed' = consumed := funext fun b => funext fun c => propext (hconsumed b c)
  rw [heq]
  exact h

lemma Visited.queue_concat {result : Except Bool ((ℕ → ℕ) × List ℕ)}
    (h : Visited cfg start target consumed (queued ++ [p]) (queue ++ [p]) result) :
    Visited cfg start target consumed queued queue result := by
  match result with
  | .error proven => exact h
  | .ok (remaining, queue') =>
    obtain ⟨new, hqueue, hsearch⟩ := h
    refine ⟨p :: new, ?_, ?_⟩
    · rw [hqueue, append_assoc]
      rfl
    · rw [append_assoc] at hsearch
      exact hsearch

/-- **The predecessors of a block.** All edges into the block have been consumed behind the loop. -/
theorem visited_predecessors (hl : Linked cfg) (htree : IsDominatorTree cfg dominance.idom)
    {predecessors : List ℕ} (queue : List ℕ) (h : Search cfg start target consumed queued remaining)
    (hc : c ∈ queued) (hnodup : predecessors.Nodup)
    (hedge : ∀ p ∈ predecessors, p < cfg.block_count ∧ c ∈ (cfg.blocks p).successors ∧
      ¬ consumed p c) :
    Visited cfg start target (fun b x => consumed b x ∨ b ∈ predecessors ∧ x = c) queued queue
      (visit_predecessors cfg dominance start predecessors remaining queue) := by
  induction predecessors generalizing consumed queued queue remaining with
  | nil =>
    refine ⟨[], (append_nil _).symm, ?_⟩
    rw [append_nil]
    apply h.congr
    · intro b x _ _
      simp
    · rintro b x (hx | ⟨hb, -⟩)
      · exact h.consumed_queued b x hx
      · nomatch hb
  | cons p predecessors ih =>
    obtain ⟨hlt, hsucc, hfree⟩ := hedge p mem_cons_self
    obtain ⟨hnotMem, hnodup⟩ := nodup_cons.mp hnodup
    have hrest : ∀ q ∈ predecessors, q < cfg.block_count ∧ c ∈ (cfg.blocks q).successors ∧
        ¬ alsoConsumed consumed p c q c := by
      intro q hq
      obtain ⟨hqlt, hqsucc, hqfree⟩ := hedge q (mem_cons_of_mem _ hq)
      refine ⟨hqlt, hqsucc, ?_⟩
      rintro (hq' | ⟨rfl, -⟩)
      · exact hqfree hq'
      · exact hnotMem hq
    have hpair : ∀ b x, (consumed b x ∨ b ∈ p :: predecessors ∧ x = c) ↔
        (alsoConsumed consumed p c b x ∨ b ∈ predecessors ∧ x = c) := by
      intro b x
      rw [alsoConsumed, mem_cons, or_and_right, or_assoc]
    have hleft : c ∈ leftOf cfg consumed p := mem_leftOf.mpr ⟨hsucc, hfree⟩
    unfold visit_predecessors
    rw [if_neg (Nat.not_le.mpr hlt)]
    by_cases hskip : dominance.idom p = none ∨ (cfg.blocks p).may_exit = true ∨ remaining p = 0
    · have hp : ¬ Decided cfg target p := by
        intro hp
        rcases hskip with hidom | hexit | hzero
        · exact (htree.total p).mpr hp.reachable hidom
        · exact Bool.false_ne_true (hp.no_exit.symm.trans hexit)
        · rw [h.remaining_eq p hp] at hzero
          exact ne_nil_of_mem hleft (eq_nil_of_length_eq_zero hzero)
      rw [if_pos hskip]
      exact (ih _ (h.skip hc hp) hc hnodup hrest).congr hpair
    · rw [if_neg hskip]
      rw [not_or, not_or, Bool.not_eq_true] at hskip
      obtain ⟨hidom, hexit, hpos⟩ := hskip
      have hp : Decided cfg target p :=
        ⟨(htree.total p).mp hidom, hexit, fun heq => hpos (heq ▸ h.zero target h.target_mem)⟩
      have hsucc_nodup := hl.successors_nodup p hlt
      dsimp only
      rw [update_self]
      by_cases hzero : remaining p - 1 = 0
      · obtain ⟨hproven, hnext⟩ := h.push hc hp hpos hsucc_nodup hleft hlt hzero
        rw [if_pos hzero]
        by_cases hstart : p = start
        · rw [if_pos hstart]
          exact ⟨rfl, hstart ▸ hproven⟩
        · rw [if_neg hstart]
          have hvis := ih (queue ++ [p]) (hnext hstart) (mem_append_left _ hc) hnodup hrest
          exact (hvis.congr hpair).queue_concat
      · rw [if_neg hzero]
        have hnext := (h.consume hc hp hpos hsucc_nodup hleft).2 hzero
        exact (ih _ hnext hc hnodup hrest).congr hpair

/-- When the queue is empty, every reachable block that is proven has been in it. -/
theorem Search.mem_of_proven {done : List ℕ} (htree : IsDominatorTree cfg dominance.idom)
    (h : Search cfg start target (fun _ x => x ∈ done) done remaining)
    (hb : Proven cfg.Edge cfg.Exits target b) (hreach : Reachable cfg.Edge 0 b) : b ∈ done := by
  induction hb with
  | target => exact h.target_mem
  | @step b hstop _ ih =>
    by_cases htgt : b = target
    · rw [htgt]
      exact h.target_mem
    have hlt : b < cfg.block_count := htree.lt b ((htree.total b).mpr hreach)
    have hedges : ∀ c ∈ (cfg.blocks b).successors, c ∈ done := fun c hc =>
      ih c ⟨hlt, hc⟩ (hreach.step ⟨hlt, hc⟩)
    apply h.complete b ⟨hreach, ?_, htgt⟩ ?_ hedges
    · rw [← Bool.not_eq_true]
      exact fun hexit => hstop (.inl hexit)
    · intro hnil
      apply hstop
      right
      intro c hc
      have hmem := hc.2
      rw [hnil] at hmem
      nomatch hmem

lemma must_reach_loop_iff (hl : Linked cfg) (htree : IsDominatorTree cfg dominance.idom)
    (hstart : Reachable cfg.Edge 0 start) {fuel : ℕ} {done : List ℕ}
    (h : Search cfg start target (fun _ x => x ∈ done) (done ++ queue) remaining)
    (hfuel : cfg.block_count ≤ fuel + done.length) :
    must_reach_loop cfg dominance start fuel remaining queue = true ↔
      Proven cfg.Edge cfg.Exits target start := by
  have hempty : queue = [] → ¬ Proven cfg.Edge cfg.Exits target start := by
    intro hqueue hproven
    rw [hqueue, append_nil] at h
    exact h.start_notMem (h.mem_of_proven htree hproven hstart)
  induction fuel generalizing done queue remaining with
  | zero =>
    -- All blocks have been taken from the queue, so it is empty.
    have hsubset : done ++ queue ⊆ List.range cfg.block_count := by
      intro b hb
      exact mem_range.mpr (htree.lt b ((htree.total b).mpr (h.reachable b hb)))
    have hlen := (subperm_of_subset h.nodup hsubset).length_le
    rw [length_append, length_range] at hlen
    have hqueue : queue = [] := eq_nil_of_length_eq_zero (by omega)
    exact iff_of_false Bool.false_ne_true (hempty hqueue)
  | succ fuel ih =>
    match queue with
    | [] => exact iff_of_false Bool.false_ne_true (hempty rfl)
    | c :: queue =>
      have hc : c ∈ done ++ c :: queue := mem_append_right _ mem_cons_self
      have hclt : c < cfg.block_count := htree.lt c ((htree.total c).mpr (h.reachable c hc))
      have hdone : c ∉ done := by
        intro hmem
        exact disjoint_of_nodup_append h.nodup hmem mem_cons_self
      have hedge : ∀ p ∈ (cfg.blocks c).predecessors, p < cfg.block_count ∧
          c ∈ (cfg.blocks p).successors ∧ c ∉ done := by
        intro p hp
        obtain ⟨hlt, hsucc⟩ := (hl.mem_predecessors p c hclt).mp hp
        exact ⟨hlt, hsucc, hdone⟩
      have hvis := visited_predecessors hl htree queue h hc (hl.predecessors_nodup c hclt) hedge
      unfold must_reach_loop
      cases hrun : visit_predecessors cfg dominance start (cfg.blocks c).predecessors remaining
          queue with
      | error proven =>
        rw [hrun] at hvis
        exact iff_of_true hvis.1 hvis.2
      | ok next =>
        obtain ⟨remaining', queue'⟩ := next
        rw [hrun] at hvis
        obtain ⟨new, rfl, hsearch⟩ := hvis
        -- Every edge into `c` comes from a predecessor, so all of them are consumed.
        have hnext : Search cfg start target (fun _ x => x ∈ done ++ [c])
            ((done ++ [c]) ++ (queue ++ new)) remaining' := by
          have hshape : (done ++ [c]) ++ (queue ++ new) = (done ++ c :: queue) ++ new := by
            simp
          rw [hshape]
          apply hsearch.congr
          · intro b x hreach hx
            have hlt := htree.lt b ((htree.total b).mpr hreach)
            rw [mem_append, mem_singleton]
            constructor
            · rintro (hmem | rfl)
              · exact .inl hmem
              · exact .inr ⟨(hl.mem_predecessors b x hclt).mpr ⟨hlt, hx⟩, rfl⟩
            · exact fun hmem => hmem.imp_right And.right
          · intro b x hx
            rw [← hshape]
            exact mem_append_left _ hx
        apply ih hnext
        · rw [length_append, length_singleton]
          omega
        · intro hqueue hproven
          rw [hqueue, append_nil] at hnext
          exact hnext.start_notMem (hnext.mem_of_proven htree hproven hstart)

lemma search_start (hstart : start ≠ target) (htgt : Reachable cfg.Edge 0 target) :
    Search cfg start target (fun _ x => x ∈ ([] : List ℕ)) ([] ++ [target])
      (Function.update (fun block => (cfg.blocks block).successors.length) target 0) where
  nodup := nodup_singleton _
  target_mem := mem_cons_self
  start_notMem := fun hmem => hstart (mem_singleton.mp hmem)
  reachable := fun b hb => mem_singleton.mp hb ▸ htgt
  proven := fun b hb => mem_singleton.mp hb ▸ .target
  zero := by
    intro b hb
    rw [mem_singleton.mp hb, update_self]
  consumed_queued := nofun
  remaining_eq := by
    intro b hb
    rw [update_of_ne hb.ne_target, leftOf]
    simp
  complete := by
    intro b _ hne hall
    obtain ⟨c, hc⟩ := exists_mem_of_ne_nil _ hne
    exact nomatch hall c hc

/-- **The search is exact** on a linked graph with its dominator tree. -/
theorem hlsl_cfg_must_reach_iff (hl : Linked cfg) (htree : IsDominatorTree cfg dominance.idom)
    (s t : ℤ) :
    hlsl_cfg_must_reach cfg dominance s t = true ↔
      ∃ s' t' : ℕ, s = s' ∧ t = t' ∧ Reachable cfg.Edge 0 s' ∧ Reachable cfg.Edge 0 t' ∧
        Inevitable cfg.Edge cfg.Exits t' s' := by
  unfold hlsl_cfg_must_reach
  by_cases hguard : s < 0 ∨ s ≥ cfg.block_count ∨ t < 0 ∨ t ≥ cfg.block_count ∨
      dominance.idom s.toNat = none ∨ dominance.idom t.toNat = none
  · rw [if_pos hguard]
    refine iff_of_false Bool.false_ne_true ?_
    rintro ⟨s', t', rfl, rfl, hs, ht, -⟩
    have hs' := (htree.total s').mpr hs
    have ht' := (htree.total t').mpr ht
    have hslt := htree.lt s' hs'
    have htlt := htree.lt t' ht'
    rw [Int.toNat_natCast, Int.toNat_natCast] at hguard
    rcases hguard with h | h | h | h | h | h
    · omega
    · omega
    · omega
    · omega
    · exact hs' h
    · exact ht' h
  · rw [if_neg hguard]
    simp only [not_or] at hguard
    obtain ⟨hs, -, ht, -, hs', ht'⟩ := hguard
    obtain ⟨s', rfl⟩ := Int.eq_ofNat_of_zero_le (Int.not_lt.mp hs)
    obtain ⟨t', rfl⟩ := Int.eq_ofNat_of_zero_le (Int.not_lt.mp ht)
    rw [Int.toNat_natCast] at hs' ht' ⊢
    have hsr := (htree.total s').mp hs'
    have htr := (htree.total t').mp ht'
    have hiff : Inevitable cfg.Edge cfg.Exits t' s' ↔
        ∃ s'' t'' : ℕ, (s' : ℤ) = s'' ∧ (t' : ℤ) = t'' ∧ Reachable cfg.Edge 0 s'' ∧
          Reachable cfg.Edge 0 t'' ∧ Inevitable cfg.Edge cfg.Exits t'' s'' := by
      constructor
      · exact fun h => ⟨s', t', rfl, rfl, hsr, htr, h⟩
      · rintro ⟨s'', t'', hs, ht, -, -, h⟩
        rw [Int.natCast_inj.mp hs, Int.natCast_inj.mp ht]
        exact h
    rw [← hiff]
    by_cases heq : s' = t'
    · rw [if_pos (congrArg Nat.cast heq), heq]
      exact iff_of_true rfl Proven.target.inevitable
    · rw [if_neg fun h => heq (Int.natCast_inj.mp h), inevitable_iff_proven, Int.toNat_natCast]
      exact must_reach_loop_iff hl htree hsr (search_start heq htr) (Nat.le_refl _)

end

/-! ## The graphs of the builder -/

lemma FlowTree.labels_ne_nil {t : FlowTree} (i : ℕ) (h : t.defaults ≠ 0) : t.labels i ≠ [] := by
  induction t generalizing i with
  | nil => exact absurd rfl h
  | op opcode rest ih =>
    unfold labels
    by_cases hlabel : isLabel opcode = true
    · rw [if_pos hlabel]
      exact cons_ne_nil _ _
    · rw [if_neg hlabel]
      apply ih
      have hdflt : opcode ≠ .DEFAULT := by
        rintro rfl
        exact hlabel rfl
      rwa [defaults, if_neg hdflt] at h
  | ifThen body rest _ ihr => exact ihr _ h
  | ifElse body alternate rest _ _ ihr => exact ihr _ h
  | loop body rest _ ihr => exact ihr _ h
  | switch body rest _ ihr => exact ihr _ h

/-- Each of the `n` instructions from `i` on has a step. -/
def StepsCover (steps : List (ℕ × Option ℕ)) (i n : ℕ) : Prop :=
  ∀ k, i ≤ k → k < i + n → ∃ target, (k, target) ∈ steps

lemma stepsCover_append {xs ys : List (ℕ × Option ℕ)} {i i' m n size : ℕ}
    (hx : StepsCover xs i m) (hy : StepsCover ys i' n) (hi : i' = i + m) (hsize : size = m + n) :
    StepsCover (xs ++ ys) i size := by
  intro k h1 h2
  by_cases hk : k < i + m
  · obtain ⟨target, htgt⟩ := hx k h1 hk
    exact ⟨target, mem_append_left _ htgt⟩
  · obtain ⟨target, htgt⟩ := hy k (by omega) (by omega)
    exact ⟨target, mem_append_right _ htgt⟩

lemma stepsCover_cons {xs ys : List (ℕ × Option ℕ)} {i n size : ℕ} {target : Option ℕ}
    (hx : (i, target) ∈ xs) (hy : StepsCover ys (i + 1) n) (hsize : size = n + 1) :
    StepsCover (xs ++ ys) i size := by
  have hone : StepsCover xs i 1 := by
    intro k h1 h2
    obtain rfl : k = i := by omega
    exact ⟨target, hx⟩
  exact stepsCover_append hone hy rfl (by omega)

/-- Every instruction of a tree has a step. A switch with a `DEFAULT` has that label to go to. -/
theorem FlowTree.stepsCover (t : FlowTree) (i : ℕ) (j : JumpTargets) :
    StepsCover (t.steps i j) i t.size := by
  induction t generalizing i j with
  | nil => exact fun k h1 h2 => absurd h2 (Nat.not_lt.mpr h1)
  | op opcode rest ih =>
    have hop : ∃ target, target ∈ opTargets opcode i j := by
      unfold opTargets
      split_ifs <;> exact ⟨_, mem_cons_self⟩
    obtain ⟨target, htgt⟩ := hop
    exact stepsCover_cons (mem_map_of_mem htgt) (ih (i + 1) j) rfl
  | ifThen body rest ihb ihr =>
    apply stepsCover_cons mem_cons_self
    · apply stepsCover_append (ihb _ _)
      · exact stepsCover_cons (mem_singleton_self _) (ihr _ _) rfl
      · exact Nat.add_right_comm i body.size 1
      · rfl
    · rw [size]
      omega
  | ifElse body alternate rest ihb iha ihr =>
    apply stepsCover_cons mem_cons_self
    · apply stepsCover_append (ihb _ _)
      · apply stepsCover_cons (mem_singleton_self _)
        · apply stepsCover_append (iha _ _)
          · exact stepsCover_cons (mem_singleton_self _) (ihr _ _) rfl
          · exact Nat.add_right_comm _ alternate.size 1
          · rfl
        · rfl
      · exact Nat.add_right_comm i body.size 1
      · rfl
    · rw [size]
      omega
  | loop body rest ihb ihr =>
    apply stepsCover_cons mem_cons_self
    · apply stepsCover_append (ihb _ _)
      · exact stepsCover_cons (mem_singleton_self _) (ihr _ _) rfl
      · exact Nat.add_right_comm i body.size 1
      · rfl
    · rw [size]
      omega
  | switch body rest ihb ihr =>
    have hdispatch : ∃ target, target ∈ body.labels (i + 1) ++
        if body.defaults = 0 then [i + body.size + 1 + 1] else [] := by
      by_cases hdflts : body.defaults = 0
      · rw [if_pos hdflts]
        exact ⟨_, mem_append_right _ (mem_singleton_self _)⟩
      · obtain ⟨label, hlabel⟩ :=
          exists_mem_of_ne_nil _ (body.labels_ne_nil (i + 1) hdflts)
        exact ⟨label, mem_append_left _ hlabel⟩
    obtain ⟨target, htgt⟩ := hdispatch
    have hstep := mem_map_of_mem (f := fun target => (i, some target)) htgt
    apply stepsCover_cons hstep
    · apply stepsCover_append (ihb _ _)
      · exact stepsCover_cons (mem_singleton_self _) (ihr _ _) rfl
      · exact Nat.add_right_comm i body.size 1
      · rfl
    · rw [size]
      omega

lemma stops_iff_exits {program : USILProgram} {first last : ℤ} {cfg : HLSLControlFlowGraph}
    (h : build_control_flow_graph_range program .zeroed first last = some cfg) {b : ℕ}
    (hb : b < cfg.block_count) : Stops cfg.Edge cfg.Exits b ↔ cfg.Exits b := by
  obtain ⟨t, hw⟩ := exists_tree_of_build h
  have hex := exactGraph_of_build h hw
  have hrange := valid_range_iff.mp (valid_range_of_build h)
  constructor
  · rintro (hexit | hnone)
    · exact hexit
    · have hle := hex.tiles.le_first hb
      have hlt := hex.tiles.last_lt hb
      have hfst := hex.tiles.nonempty b hb
      have hsize := hw.size
      obtain ⟨target, htgt⟩ := t.stepsCover first.toNat ⟨0, 0⟩
        (cfg.blocks b).last_instruction (by omega) (by omega)
      have hstep : t.Step first.toNat (cfg.blocks b).last_instruction _ := ⟨target, htgt, rfl⟩
      cases hnext : (if target = some (first.toNat + t.size) then none else target) with
      | some next =>
        rw [hnext] at hstep
        obtain ⟨c, hc, -⟩ := hex.jump_first b hb next hstep
        exact absurd ⟨hb, hc⟩ (hnone c)
      | none =>
        rw [hnext, ← hex.step] at hstep
        obtain ⟨b', hb', hcovers, hstep⟩ := hstep
        obtain rfl : b' = b := hex.tiles.unique hb' hb hcovers ⟨hfst, Nat.le_refl _⟩
        rw [if_neg (Nat.lt_irrefl _)] at hstep
        rcases hstep with ⟨c, -, hc⟩ | ⟨hexit, -⟩
        · nomatch hc
        · exact hexit
  · exact .inl

/-- **`hlsl_cfg_must_reach` is strong post-dominance** on every graph of the builder: both blocks
are reachable from the entry, and the target is on every path from the start that leaves the
program and on every path that never ends. -/
theorem hlsl_cfg_must_reach_exact (program : USILProgram) (first last : ℤ)
    (cfg : HLSLControlFlowGraph) (dominance : HLSLDominance)
    (h : build_control_flow_graph_range program .zeroed first last = some cfg)
    (hdominance : compute_dominance cfg = some dominance) (start target : ℤ) :
    hlsl_cfg_must_reach cfg dominance start target = true ↔
      ∃ s t : ℕ, start = s ∧ target = t ∧ s < cfg.block_count ∧ t < cfg.block_count ∧
        Reachable cfg.Edge 0 s ∧ Reachable cfg.Edge 0 t ∧
        (∀ path b, Walk cfg.Edge s path b → (cfg.blocks b).may_exit = true → t ∈ path) ∧
        ∀ path : ℕ → ℕ, path 0 = s → (∀ n, cfg.Edge (path n) (path (n + 1))) → ∃ n, path n = t := by
  by_cases hpos : 0 < cfg.block_count
  · obtain ⟨hl, hallocated⟩ := linked_of_build h hpos
    obtain ⟨dominance', -, hrun, -, -, htree, -⟩ := compute_dominance_spec hl hallocated
    obtain rfl : dominance = dominance' := Option.some.inj (hdominance.symm.trans hrun)
    have hlt : ∀ b, Reachable cfg.Edge 0 b → b < cfg.block_count :=
      fun b hb => htree.lt b ((htree.total b).mpr hb)
    rw [hlsl_cfg_must_reach_iff hl htree]
    constructor
    · rintro ⟨s, t, hs, ht, hsr, htr, hfinite, hinfinite⟩
      exact ⟨s, t, hs, ht, hlt s hsr, hlt t htr, hsr, htr,
        fun path b hpath hexit => hfinite path b hpath (.inl hexit), hinfinite⟩
    · rintro ⟨s, t, hs, ht, -, -, hsr, htr, hfinite, hinfinite⟩
      refine ⟨s, t, hs, ht, hsr, htr, ?_, hinfinite⟩
      intro path b hpath hstop
      have hb := hlt b (hsr.walk hpath)
      exact hfinite path b hpath ((stops_iff_exits h hb).mp hstop)
  · refine iff_of_false ?_ ?_
    · rw [hlsl_cfg_must_reach, if_pos (by omega)]
      exact Bool.false_ne_true
    · rintro ⟨s, t, -, -, hs, -⟩
      omega

/-- A conditional break leads past the loop, but its condition need not: the loop may run for
ever. -/
theorem loop_with_break_must_reach : ∃ cfg dominance, build_control_flow_graph_range
        (programOfOpcodes [LOOP, IF, BREAK, ENDIF, ENDLOOP, RET] (by decide)) .zeroed 0 6 =
          some cfg ∧
      compute_dominance cfg = some dominance ∧
      hlsl_cfg_must_reach cfg dominance 1 5 = false ∧
      ∀ path b, Walk cfg.Edge 2 path b → (cfg.blocks b).may_exit = true → 5 ∈ path := by
  have hrun : ((build_control_flow_graph_range
      (programOfOpcodes [LOOP, IF, BREAK, ENDIF, ENDLOOP, RET] (by decide)) .zeroed 0 6).bind
        fun cfg => (compute_dominance cfg).map fun dominance =>
          (hlsl_cfg_must_reach cfg dominance 1 5, hlsl_cfg_must_reach cfg dominance 2 5)) =
      some (false, true) := by
    decide +kernel
  obtain ⟨cfg, hcfg, hrun⟩ := Option.bind_eq_some_iff.mp hrun
  obtain ⟨dominance, hdominance, hpair⟩ := Option.map_eq_some_iff.mp hrun
  obtain ⟨hfalse, htrue⟩ := Prod.mk.inj hpair
  rw [hlsl_cfg_must_reach_exact _ 0 6 cfg dominance hcfg hdominance] at htrue
  obtain ⟨s, t, hs, ht, -, -, -, -, hfinite, -⟩ := htrue
  obtain rfl : s = 2 := by omega
  obtain rfl : t = 5 := by omega
  exact ⟨cfg, dominance, hcfg, hdominance, hfalse, hfinite⟩

end DXBCSandbox
