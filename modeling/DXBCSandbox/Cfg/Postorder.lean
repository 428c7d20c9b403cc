/-
The depth-first search of `build_postorder`.

The search ends, and its postorder lists the reachable blocks, each once and the entry
last. A block finishes while the block that discovered it is still on the stack. So every
reachable block but the entry has a predecessor that comes later in the postorder.
-/
import DXBCSandbox.Lib.DomTree
import DXBCSandbox.Cfg.Edges
import DXBCSandbox.Cfg.Dominance

namespace DXBCSandbox

open List Option Function

def HLSLControlFlowGraph.Edge (cfg : HLSLControlFlowGraph) (a b : ℕ) : Prop :=
  a < cfg.block_count ∧ b ∈ (cfg.blocks a).successors

/-- The edges of a graph are between its blocks, and its predecessor lists are the inverse
of its successor lists. -/
structure Linked (cfg : HLSLControlFlowGraph) : Prop where
  count_pos : 0 < cfg.block_count
  count_le : cfg.block_count ≤ INT_MAX
  successors_lt : ∀ b, b < cfg.block_count →
    ∀ c ∈ (cfg.blocks b).successors, c < cfg.block_count
  successors_nodup : ∀ b, b < cfg.block_count → (cfg.blocks b).successors.Nodup
  mem_predecessors : ∀ b c, c < cfg.block_count →
    (b ∈ (cfg.blocks c).predecessors ↔ b < cfg.block_count ∧ c ∈ (cfg.blocks b).successors)
  predecessors_nodup : ∀ b, b < cfg.block_count → (cfg.blocks b).predecessors.Nodup

/-- The blocks on the stack are a walk from the entry, the innermost block first. -/
def StackWalk (cfg : HLSLControlFlowGraph) : List DFSFrame → Prop
  | [] => True
  | [frame] => frame.block = 0
  | frame :: outer :: rest =>
    cfg.Edge outer.block frame.block ∧ StackWalk cfg (outer :: rest)

def stackBlocks (s : PostorderState) : List ℕ := s.stack.map DFSFrame.block

structure Searching (cfg : HLSLControlFlowGraph) (s : PostorderState) : Prop where
  walk : StackWalk cfg s.stack
  visited : ∀ x, s.visited x ↔ x ∈ stackBlocks s ∨ x ∈ s.postorder
  nodup : (stackBlocks s ++ s.postorder).Nodup
  lt : ∀ x, s.visited x → x < cfg.block_count
  reachable : ∀ x, s.visited x → Reachable cfg.Edge 0 x
  next_le : ∀ frame ∈ s.stack,
    frame.next_successor ≤ (cfg.blocks frame.block).successors.length
  /-- The successors that a frame has passed are visited. -/
  passed : ∀ frame ∈ s.stack, ∀ j y, j < frame.next_successor →
    (cfg.blocks frame.block).successors[j]? = some y → s.visited y
  finished : ∀ x ∈ s.postorder, ∀ y ∈ (cfg.blocks x).successors, s.visited y
  /-- What discovered a finished block is on the stack or finished later. -/
  later : ∀ x ∈ s.postorder, x ≠ 0 → ∃ p, cfg.Edge p x ∧
    (p ∈ stackBlocks s ∨ (p ∈ s.postorder ∧ s.postorder.idxOf x < s.postorder.idxOf p))
  entry : s.visited 0
  entry_last : s.stack = [] → s.postorder.getLast? = some 0

section Search

variable {cfg : HLSLControlFlowGraph} {s : PostorderState} {frame : DFSFrame} {rest : List DFSFrame}

lemma StackWalk.tail (h : StackWalk cfg (frame :: rest)) : StackWalk cfg rest := by
  cases rest with
  | nil => trivial
  | cons outer rest => exact h.2

lemma StackWalk.congr {frame' : DFSFrame} (h : StackWalk cfg (frame :: rest))
    (hblock : frame'.block = frame.block) : StackWalk cfg (frame' :: rest) := by
  cases rest with
  | nil => exact hblock.trans h
  | cons outer rest =>
    refine ⟨?_, h.2⟩
    rw [hblock]
    exact h.1

lemma Searching.pop (h : Searching cfg s) (hs : s.stack = frame :: rest)
    (hdone : (cfg.blocks frame.block).successors[frame.next_successor]? = none) :
    Searching cfg { s with stack := rest, postorder := s.postorder ++ [frame.block] } := by
  have hblocks : stackBlocks s = frame.block :: rest.map DFSFrame.block := by
    rw [stackBlocks, hs]
    rfl
  have hnodup := h.nodup
  rw [hblocks, cons_append, nodup_cons, mem_append, not_or] at hnodup
  have hmem : frame ∈ s.stack := by
    rw [hs]
    exact mem_cons_self
  have hvis : s.visited frame.block := by
    rw [h.visited, hblocks]
    exact .inl mem_cons_self
  have hlt := h.lt _ hvis
  -- The block is appended, so what was listed keeps its place and comes before it.
  have hold : ∀ x ∈ s.postorder,
      (s.postorder ++ [frame.block]).idxOf x = s.postorder.idxOf x := fun x hx =>
    idxOf_append_of_mem hx
  have hnew : (s.postorder ++ [frame.block]).idxOf frame.block = s.postorder.length := by
    rw [idxOf_append_of_notMem hnodup.1.2]
    simp
  refine ⟨?_, ?_, ?_, h.lt, h.reachable, ?_, ?_, ?_, ?_, h.entry, ?_⟩
  · have hwalk := h.walk
    rw [hs] at hwalk
    exact hwalk.tail
  · intro x
    rw [h.visited, hblocks]
    simp only [stackBlocks, mem_cons, mem_append, not_mem_nil, or_false]
    tauto
  · simp only [stackBlocks]
    rw [← append_assoc, nodup_append_comm, singleton_append, nodup_cons, mem_append, not_or]
    exact hnodup
  · intro f hf
    exact h.next_le f (by rw [hs]; exact mem_cons_of_mem _ hf)
  · intro f hf
    exact h.passed f (by rw [hs]; exact mem_cons_of_mem _ hf)
  · intro x hx y hy
    rcases mem_append.mp hx with hx | hx
    · exact h.finished x hx y hy
    · rw [mem_singleton.mp hx] at hy
      obtain ⟨j, hj⟩ := mem_iff_getElem?.mp hy
      apply h.passed frame hmem j y _ hj
      by_contra hge
      rw [List.getElem?_eq_none_iff] at hdone
      have hlen := List.getElem?_eq_some_iff.mp hj
      obtain ⟨hlen, -⟩ := hlen
      omega
  · intro x hx hx0
    rcases mem_append.mp hx with hx | hx
    · obtain ⟨p, hp, hstack | ⟨hpost, hidx⟩⟩ := h.later x hx hx0
      · rw [hblocks] at hstack
        rcases mem_cons.mp hstack with rfl | hstack
        · refine ⟨frame.block, hp, .inr ⟨by simp, ?_⟩⟩
          rw [hold x hx, hnew]
          exact idxOf_lt_length_of_mem hx
        · exact ⟨p, hp, .inl hstack⟩
      · refine ⟨p, hp, .inr ⟨mem_append_left _ hpost, ?_⟩⟩
        rw [hold x hx, hold p hpost]
        exact hidx
    · -- The block below on the stack discovered this one.
      rw [mem_singleton] at hx
      have hwalk := h.walk
      rw [hs] at hwalk
      cases hr : rest with
      | nil =>
        rw [hr] at hwalk
        exact absurd (hx.trans hwalk) hx0
      | cons outer rest' =>
        rw [hr] at hwalk
        refine ⟨outer.block, hx ▸ hwalk.1, .inl ?_⟩
        simp [stackBlocks]
  · intro hempty
    have hwalk := h.walk
    simp only at hempty
    rw [hs, hempty] at hwalk
    rw [List.getLast?_append_of_ne_nil _ (by simp)]
    simp only [List.getLast?_singleton]
    exact congrArg some hwalk

lemma Searching.pass (h : Searching cfg s) (hs : s.stack = frame :: rest) {y : ℕ}
    (hy : (cfg.blocks frame.block).successors[frame.next_successor]? = some y)
    (hvis : s.visited y) :
    Searching cfg { s with
      stack := { frame with next_successor := frame.next_successor + 1 } :: rest } := by
  have hblocks : stackBlocks { s with
      stack := { frame with next_successor := frame.next_successor + 1 } :: rest } =
      stackBlocks s := by
    rw [stackBlocks, stackBlocks, hs]
    rfl
  refine ⟨?_, ?_, ?_, h.lt, h.reachable, ?_, ?_, h.finished, ?_, h.entry, fun h => by simp at h⟩
  · have hwalk := h.walk
    rw [hs] at hwalk
    exact hwalk.congr rfl
  · rw [hblocks]
    exact h.visited
  · rw [hblocks]
    exact h.nodup
  · intro f hf
    rcases mem_cons.mp hf with rfl | hf
    · exact (List.getElem?_eq_some_iff.mp hy).1
    · exact h.next_le f (by rw [hs]; exact mem_cons_of_mem _ hf)
  · intro f hf j z hj hz
    rcases mem_cons.mp hf with rfl | hf
    · rcases Nat.lt_succ_iff_lt_or_eq.mp hj with hlt | rfl
      · exact h.passed frame (by rw [hs]; exact mem_cons_self) j z hlt hz
      · rw [hy] at hz
        rwa [← some.inj hz]
    · exact h.passed f (by rw [hs]; exact mem_cons_of_mem _ hf) j z hj hz
  · rw [hblocks]
    exact h.later

lemma Searching.push (hl : Linked cfg) (h : Searching cfg s) (hs : s.stack = frame :: rest)
    {y : ℕ} (hy : (cfg.blocks frame.block).successors[frame.next_successor]? = some y)
    (hnew : s.visited y = false) :
    Searching cfg { s with
      stack := ⟨y, 0⟩ :: { frame with next_successor := frame.next_successor + 1 } :: rest
      visited := update s.visited y true } := by
  have hframe : s.visited frame.block := by
    rw [h.visited, stackBlocks, hs]
    exact .inl mem_cons_self
  have hmem : y ∈ (cfg.blocks frame.block).successors := mem_of_getElem? hy
  have hedge : cfg.Edge frame.block y := ⟨h.lt _ hframe, hmem⟩
  have hkeep : ∀ x, s.visited x → update s.visited y true x := by
    intro x hx
    rw [update_apply]
    split_ifs
    · rfl
    · exact hx
  have hfresh : y ∉ stackBlocks s ∧ y ∉ s.postorder := by
    rw [← not_or, ← h.visited y, hnew]
    exact Bool.false_ne_true
  have hblocks : stackBlocks { s with
      stack := ⟨y, 0⟩ :: { frame with next_successor := frame.next_successor + 1 } :: rest
      visited := update s.visited y true } = y :: stackBlocks s := by
    rw [stackBlocks, stackBlocks, hs]
    rfl
  refine ⟨?_, ?_, ?_, ?_, ?_, ?_, ?_, ?_, ?_, hkeep 0 h.entry, fun h => by simp at h⟩
  · have hwalk := h.walk
    rw [hs] at hwalk
    exact ⟨hedge, hwalk.congr rfl⟩
  · intro x
    rw [hblocks]
    simp only [update_apply, mem_cons]
    split_ifs with hx
    · simp [hx]
    · rw [h.visited]
      simp [hx]
  · rw [hblocks, cons_append, nodup_cons, mem_append, not_or]
    exact ⟨hfresh, h.nodup⟩
  · intro x hx
    simp only [update_apply] at hx
    split_ifs at hx with hxy
    · rw [hxy]
      exact hl.successors_lt _ (h.lt _ hframe) y hmem
    · exact h.lt x hx
  · intro x hx
    simp only [update_apply] at hx
    split_ifs at hx with hxy
    · rw [hxy]
      exact (h.reachable _ hframe).step hedge
    · exact h.reachable x hx
  · intro f hf
    rcases mem_cons.mp hf with rfl | hf
    · exact Nat.zero_le _
    rcases mem_cons.mp hf with rfl | hf
    · exact (List.getElem?_eq_some_iff.mp hy).1
    · exact h.next_le f (by rw [hs]; exact mem_cons_of_mem _ hf)
  · intro f hf j z hj hz
    rcases mem_cons.mp hf with rfl | hf
    · exact absurd hj (Nat.not_lt_zero j)
    rcases mem_cons.mp hf with rfl | hf
    · rcases Nat.lt_succ_iff_lt_or_eq.mp hj with hlt | rfl
      · exact hkeep z (h.passed frame (by rw [hs]; exact mem_cons_self) j z hlt hz)
      · rw [hy] at hz
        rw [← some.inj hz]
        exact update_self ..
    · exact hkeep z (h.passed f (by rw [hs]; exact mem_cons_of_mem _ hf) j z hj hz)
  · intro x hx z hz
    exact hkeep z (h.finished x hx z hz)
  · intro x hx hx0
    obtain ⟨p, hp, hplace⟩ := h.later x hx hx0
    refine ⟨p, hp, hplace.imp_left fun hstack => ?_⟩
    rw [hblocks]
    exact mem_cons_of_mem _ hstack

lemma Searching.step (hl : Linked cfg) (h : Searching cfg s) :
    Searching cfg (postorder_step cfg s) := by
  unfold postorder_step
  cases hs : s.stack with
  | nil => exact h
  | cons frame rest =>
    cases hy : (cfg.blocks frame.block).successors[frame.next_successor]? with
    | none =>
      simp only [hy]
      exact h.pop hs hy
    | some y =>
      simp only [hy]
      by_cases hvis : s.visited y
      · rw [if_pos hvis]
        exact h.pass hs hy hvis
      · rw [if_neg hvis]
        exact h.push hl hs hy (by simpa using hvis)

/-- The work left: a visit and a walk over the successors for every block not visited, and
the rest of the walk for every block on the stack. -/
def searchWork (cfg : HLSLControlFlowGraph) (s : PostorderState) : ℕ :=
  ∑ b ∈ (Finset.range cfg.block_count).filter (fun b => s.visited b = false),
      ((cfg.blocks b).successors.length + 2) +
    (s.stack.map fun frame =>
      (cfg.blocks frame.block).successors.length + 1 - frame.next_successor).sum

lemma searchWork_step (hl : Linked cfg) (h : Searching cfg s) (hs : s.stack ≠ []) :
    searchWork cfg (postorder_step cfg s) < searchWork cfg s := by
  unfold postorder_step
  cases hstack : s.stack with
  | nil => exact absurd hstack hs
  | cons frame rest =>
    cases hy : (cfg.blocks frame.block).successors[frame.next_successor]? with
    | none =>
      simp only [hy, searchWork, hstack, map_cons, sum_cons]
      have hle := h.next_le frame (by rw [hstack]; exact mem_cons_self)
      omega
    | some y =>
      have hlen := (List.getElem?_eq_some_iff.mp hy).1
      by_cases hvis : s.visited y
      · simp only [hy, hvis, if_true, searchWork, hstack, map_cons, sum_cons]
        omega
      · have hnew : s.visited y = false := by simpa using hvis
        have hframe : s.visited frame.block := by
          rw [h.visited, stackBlocks, hstack]
          exact .inl mem_cons_self
        have hylt : y < cfg.block_count :=
          hl.successors_lt _ (h.lt _ hframe) y (mem_of_getElem? hy)
        have hspl : (Finset.range cfg.block_count).filter (fun b => s.visited b = false) =
            insert y ((Finset.range cfg.block_count).filter fun b =>
              update s.visited y true b = false) := by
          ext b
          simp only [Finset.mem_filter, Finset.mem_range, Finset.mem_insert, update_apply]
          by_cases hb : b = y
          · simp [hb, hylt, hnew]
          · simp [hb]
        simp only [hy, hvis, searchWork, hstack, map_cons, sum_cons, hspl,
          Bool.false_eq_true, if_false]
        rw [Finset.sum_insert (by simp)]
        omega

lemma postorder_loop_spec (hl : Linked cfg) (fuel : ℕ) :
    ∀ s, Searching cfg s → searchWork cfg s ≤ fuel →
      ∃ s', postorder_loop cfg fuel s = some s' ∧ Searching cfg s' ∧ s'.stack = [] := by
  induction fuel with
  | zero =>
    intro s h hwork
    have hs : s.stack = [] := by
      by_contra hs
      have hstep := searchWork_step hl h hs
      omega
    exact ⟨s, by rw [postorder_loop, if_pos hs], h, hs⟩
  | succ fuel ih =>
    intro s h hwork
    by_cases hs : s.stack = []
    · exact ⟨s, by rw [postorder_loop, if_pos hs], h, hs⟩
    · have hstep := searchWork_step hl h hs
      rw [postorder_loop, if_neg hs]
      exact ih _ (h.step hl) (by omega)

lemma searching_initial (hl : Linked cfg) : Searching cfg .initial := by
  have hvis : ∀ x, PostorderState.initial.visited x ↔ x = 0 := by
    intro x
    simp only [PostorderState.initial, update_apply]
    split_ifs with hx <;> simp [hx]
  refine ⟨rfl, ?_, by simp [stackBlocks, PostorderState.initial], ?_, ?_, ?_, ?_, ?_, ?_, ?_, ?_⟩
  · intro x
    rw [hvis]
    simp [stackBlocks, PostorderState.initial]
  · intro x hx
    rw [(hvis x).mp hx]
    exact hl.count_pos
  · intro x hx
    rw [(hvis x).mp hx]
    exact ⟨_, .single 0⟩
  · intro frame hframe
    rw [mem_singleton.mp hframe]
    exact Nat.zero_le _
  · intro frame hframe j y hj
    rw [mem_singleton.mp hframe] at hj
    exact absurd hj (Nat.not_lt_zero j)
  · intro x hx
    cases hx
  · intro x hx
    cases hx
  · exact (hvis 0).mpr rfl
  · intro h
    simp [PostorderState.initial] at h

lemma searchWork_initial_le (hl : Linked cfg) :
    searchWork cfg .initial ≤ cfg.block_count * (cfg.block_count + 2) := by
  have hlen : ∀ b, b < cfg.block_count →
      (cfg.blocks b).successors.length ≤ cfg.block_count := fun b hb =>
    length_le_of_nodup_of_lt (hl.successors_nodup b hb) (hl.successors_lt b hb)
  have hent := hlen 0 hl.count_pos
  have hsum : ∑ b ∈ (Finset.range cfg.block_count).filter
      (fun b => PostorderState.initial.visited b = false),
      ((cfg.blocks b).successors.length + 2) ≤ (cfg.block_count - 1) * (cfg.block_count + 2) := by
    have hset : (Finset.range cfg.block_count).filter
        (fun b => PostorderState.initial.visited b = false) =
        (Finset.range cfg.block_count).erase 0 := by
      ext b
      simp only [Finset.mem_filter, Finset.mem_erase, PostorderState.initial, update_apply]
      split_ifs with hb <;> simp [hb]
    rw [hset]
    refine (Finset.sum_le_card_nsmul _ _ (cfg.block_count + 2) ?_).trans ?_
    · intro b hb
      have := hlen b (by simpa using Finset.mem_of_mem_erase hb)
      omega
    · rw [Finset.card_erase_of_mem (by simpa using hl.count_pos), Finset.card_range]
      exact le_rfl
  have hcnt : (cfg.block_count - 1) * (cfg.block_count + 2) + (cfg.block_count + 2) =
      cfg.block_count * (cfg.block_count + 2) := by
    rw [← Nat.succ_mul, Nat.succ_eq_add_one, Nat.sub_add_cancel hl.count_pos]
  simp only [searchWork] at *
  simp only [PostorderState.initial, map_cons, map_nil, sum_cons, sum_nil] at *
  omega

end Search

/-! ## The order -/

def place (postorder : List ℕ) (x : ℕ) : ℕ := postorder.idxOf x

/-- A list of the reachable blocks, each once and the entry last, in which every other
block comes before one of its predecessors. -/
structure IsPostorder (cfg : HLSLControlFlowGraph) (postorder : List ℕ) : Prop where
  nodup : postorder.Nodup
  mem : ∀ x, x ∈ postorder ↔ Reachable cfg.Edge 0 x
  last : postorder.getLast? = some 0
  pred : ∀ x ∈ postorder, x ≠ 0 →
    ∃ p ∈ postorder, cfg.Edge p x ∧ place postorder x < place postorder p

/-- **The search finds a postorder.** -/
theorem build_postorder_spec {cfg : HLSLControlFlowGraph} (hl : Linked cfg) :
    ∃ postorder, build_postorder cfg = some postorder ∧ IsPostorder cfg postorder := by
  obtain ⟨s, hs, h, hstack⟩ := postorder_loop_spec hl _ _ (searching_initial hl)
    (searchWork_initial_le hl)
  have hblocks : stackBlocks s = [] := by
    rw [stackBlocks, hstack]
    rfl
  have hvis : ∀ x, s.visited x ↔ x ∈ s.postorder := by
    intro x
    rw [h.visited, hblocks]
    simp
  refine ⟨s.postorder, by rw [build_postorder, hs]; rfl, ?_, ?_, h.entry_last hstack, ?_⟩
  · have hnodup := h.nodup
    rwa [hblocks] at hnodup
  · intro x
    constructor
    · intro hx
      exact h.reachable x ((hvis x).mpr hx)
    · intro hx
      refine hx.induction ((hvis 0).mp h.entry) ?_
      intro b c _ hb he
      exact (hvis c).mp (h.finished b hb c he.2)
  · intro x hx hx0
    obtain ⟨p, hp, hstack | ⟨hpost, hidx⟩⟩ := h.later x hx hx0
    · rw [hblocks] at hstack
      cases hstack
    · exact ⟨p, hpost, hp, hidx⟩

section Order

variable {cfg : HLSLControlFlowGraph} {postorder : List ℕ}

lemma IsPostorder.length_pos (h : IsPostorder cfg postorder) : 0 < postorder.length := by
  have hmem := mem_of_getLast? h.last
  exact length_pos_of_mem hmem

lemma IsPostorder.place_entry (h : IsPostorder cfg postorder) :
    place postorder 0 = postorder.length - 1 := by
  have hlen := h.length_pos
  have hget := h.last
  rw [getLast?_eq_getElem?] at hget
  have hidx := h.nodup.idxOf_getElem (postorder.length - 1) (by omega)
  rw [getElem?_eq_getElem (by omega), some.injEq] at hget
  rwa [hget] at hidx

lemma place_lt {x : ℕ} (hx : x ∈ postorder) : place postorder x < postorder.length :=
  idxOf_lt_length_of_mem hx

lemma place_inj {x y : ℕ} (hx : x ∈ postorder) (h : place postorder x = place postorder y) :
    x = y := (idxOf_inj hx).mp h

lemma IsPostorder.lt (hl : Linked cfg) (h : IsPostorder cfg postorder) {x : ℕ}
    (hx : x ∈ postorder) : x < cfg.block_count := by
  rw [h.mem] at hx
  refine hx.induction (P := (· < cfg.block_count)) hl.count_pos ?_
  intro b c _ hb he
  exact hl.successors_lt b hb c he.2

lemma IsPostorder.length_le (hl : Linked cfg) (h : IsPostorder cfg postorder) :
    postorder.length ≤ cfg.block_count :=
  length_le_of_nodup_of_lt h.nodup fun _ hx => h.lt hl hx

/-- The places in a postorder are a numbering as iteration over the dominators needs it. -/
theorem IsPostorder.ranked (h : IsPostorder cfg postorder) :
    Ranked cfg.Edge 0 (place postorder) where
  le_root := by
    intro x hx
    have hlt := place_lt ((h.mem x).mpr hx)
    rw [h.place_entry]
    omega
  pred := by
    intro x hx hx0
    obtain ⟨p, hp, he, hlt⟩ := h.pred x ((h.mem x).mpr hx) hx0
    exact ⟨p, (h.mem p).mp hp, he, hlt⟩

lemma postorder_numbers_spec (hnodup : postorder.Nodup) {x : ℕ} (hx : x ∈ postorder) :
    postorder_numbers postorder x = (place postorder x : ℤ) := by
  have hinv := foldl_range'_inv (f := fun (numbers : ℕ → ℤ) index =>
      update numbers (postorder.getD index 0) (index : ℤ)) 0 postorder.length
    (fun i numbers => ∀ y ∈ postorder, place postorder y < i → numbers y = place postorder y)
    (s := fun _ => -1) (fun y _ hy => absurd hy (Nat.not_lt_zero _)) ?_
  · rw [Nat.zero_add] at hinv
    exact hinv x hx (place_lt hx)
  · intro i numbers _ hi h y hy hlt
    have hi' : i < postorder.length := by omega
    have hget : postorder.getD i 0 = postorder[i] := by simp [hi']
    rw [hget, update_apply]
    split_ifs with heq
    · rw [heq, place, hnodup.idxOf_getElem i hi']
    · apply h y hy
      -- The entry written now is the only one with this number.
      have hne : place postorder y ≠ i := by
        intro hidx
        apply heq
        simp only [← hidx, place, getElem_idxOf]
      omega

end Order

end DXBCSandbox
