/-
Single-entry regions of conditionals (`hlsl_cfg_if_region` of `src/translation/hlsl_cfg.c`).

The region of an `IF` lies between its block and the block behind its `ENDIF`. Dominance, strong
post-dominance and the predecessors of the blocks between decide whether it is accepted. That the
two arms are apart is not tested: it follows from the links of the matcher, since every delimiter
ends a block.
-/
import DXBCSandbox.Cfg.MustReach

namespace DXBCSandbox

open List Option Prod USILOpcode FlowMatcher

structure HLSLIfRegion where
  header_block : ℤ
  true_block : ℤ
  false_block : ℤ
  join_block : ℤ
  else_instruction : ℤ
  end_instruction : ℤ
  deriving DecidableEq

/-- The loop over the blocks between the header and the join. -/
def region_is_closed (cfg : HLSLControlFlowGraph) (dominance : HLSLDominance)
    (candidate : HLSLIfRegion) : Bool :=
  let first := candidate.header_block + 1
  (List.range' first.toNat (candidate.join_block - first).toNat).all fun index =>
    hlsl_cfg_dominates cfg dominance candidate.header_block index &&
      (cfg.blocks index).predecessors.all fun predecessor =>
        !decide ((predecessor : ℤ) < candidate.header_block ∨
          (predecessor : ℤ) ≥ candidate.join_block)

def if_region_candidate (cfg : HLSLControlFlowGraph) (instruction : ℤ) : HLSLIfRegion :=
  let flow := cfg.instruction_flow instruction.toNat
  let stop := if flow.alternate.isSome then flow.alternate else flow.end_
  { header_block := link_index (cfg.instruction_block instruction.toNat)
    true_block := link_index (cfg.instruction_block (instruction + 1).toNat)
    false_block := link_index (cfg.instruction_block (link_index stop + 1).toNat)
    join_block := link_index (cfg.instruction_block (link_index flow.end_ + 1).toNat)
    else_instruction := link_index flow.alternate
    end_instruction := link_index flow.end_ }

def hlsl_cfg_if_region (program : USILProgram) (cfg : HLSLControlFlowGraph)
    (dominance : HLSLDominance) (instruction : ℤ) (region : HLSLIfRegion) : Bool × HLSLIfRegion :=
  if instruction < 0 ∨ instruction ≥ program.instruction_count ∨
      program.opcode instruction.toNat ≠ IF then (false, region)
  else if !cfg.allocated ∨ cfg.instruction_count ≠ program.instruction_count then (false, region)
  else
    let flow := cfg.instruction_flow instruction.toNat
    if link_index flow.end_ ≤ instruction ∨
        link_index flow.end_ ≥ (cfg.instruction_count : ℤ) - 1 then (false, region)
    else
      let candidate := if_region_candidate cfg instruction
      if !hlsl_cfg_dominates cfg dominance candidate.header_block candidate.join_block ∨
          !hlsl_cfg_must_reach cfg dominance candidate.header_block candidate.join_block then
        (false, region)
      else if !region_is_closed cfg dominance candidate then (false, region)
      else (true, candidate)

/-! ## The links of the matcher -/

/-- What the links say while the matcher is in front of instruction `i`: links go forward, to the
right delimiters, and an open construct has no end yet. -/
structure Nested (program : USILProgram) (s : FlowMatcher) (i : ℕ) : Prop where
  opener_lt : ∀ o ∈ s.stack.map OpenScope.opener, o < i
  opener_ne : ∀ o ∈ s.stack.map OpenScope.opener, program.opcode o ≠ ELSE
  nodup : (s.stack.map OpenScope.opener).Nodup
  unended : ∀ o ∈ s.stack.map OpenScope.opener, (s.flow o).end_ = none
  alternate : ∀ k a, (s.flow k).alternate = some a → k < a ∧ a < i ∧ program.opcode a = ELSE
  ended : ∀ k e, (s.flow k).end_ = some e → k < e ∧ e < i ∧ is_boundary (program.opcode e) ∧
    ∀ a, (s.flow k).alternate = some a → a < e

variable {k : ℕ}

section

variable {program : USILProgram} {s s' : FlowMatcher} {i : ℕ} (h : Nested program s i)

include h

lemma Nested.congr (hstack : s'.stack.map OpenScope.opener = s.stack.map OpenScope.opener)
    (hend : ∀ k, (s'.flow k).end_ = (s.flow k).end_)
    (halt : ∀ k, (s'.flow k).alternate = (s.flow k).alternate) : Nested program s' i := by
  refine ⟨?_, ?_, ?_, ?_, ?_, ?_⟩
  · rw [hstack]
    exact h.opener_lt
  · rw [hstack]
    exact h.opener_ne
  · rw [hstack]
    exact h.nodup
  · intro o ho
    rw [hend]
    exact h.unended o (hstack ▸ ho)
  · intro k a ha
    exact h.alternate k a (halt k ▸ ha)
  · intro k e he
    rw [halt]
    exact h.ended k e (hend k ▸ he)

lemma Nested.restack (stack : List OpenScope)
    (hstack : stack.map OpenScope.opener = s.stack.map OpenScope.opener) :
    Nested program { s with stack } i := h.congr hstack (fun _ => rfl) fun _ => rfl

lemma Nested.mono : Nested program s (i + 1) where
  opener_lt := fun o ho => Nat.lt_succ_of_lt (h.opener_lt o ho)
  opener_ne := h.opener_ne
  nodup := h.nodup
  unended := h.unended
  alternate := fun k a ha =>
    ⟨(h.alternate k a ha).1, Nat.lt_succ_of_lt (h.alternate k a ha).2.1, (h.alternate k a ha).2.2⟩
  ended := fun k e he =>
    ⟨(h.ended k e he).1, Nat.lt_succ_of_lt (h.ended k e he).2.1, (h.ended k e he).2.2⟩

lemma Nested.modify (index : ℕ)
    (f : HLSLInstructionFlow → HLSLInstructionFlow) (hend : ∀ e, (f e).end_ = e.end_)
    (halt : ∀ e, (f e).alternate = e.alternate) : Nested program (s.modify index f) i := by
  refine h.congr rfl ?_ ?_
  · intro k
    rw [modify_flow]
    by_cases hk : k = index
    · rw [if_pos hk, hend, hk]
    · rw [if_neg hk]
  · intro k
    rw [modify_flow]
    by_cases hk : k = index
    · rw [if_pos hk, halt, hk]
    · rw [if_neg hk]

lemma Nested.push (hop : program.opcode i ≠ ELSE) :
    Nested program { s with stack := ⟨i, none⟩ :: s.stack } (i + 1) := by
  have hfresh : (s.flow i).end_ = none := by
    apply eq_none_iff_forall_not_mem.mpr
    intro e he
    have hlinks := h.ended i e he
    omega
  refine ⟨?_, ?_, ?_, ?_, h.mono.alternate, h.mono.ended⟩
  · intro o ho
    rcases mem_cons.mp ho with rfl | ho
    · exact Nat.lt_succ_self _
    · exact h.mono.opener_lt o ho
  · intro o ho
    rcases mem_cons.mp ho with rfl | ho
    · exact hop
    · exact h.opener_ne o ho
  · apply nodup_cons.mpr
    exact ⟨fun hmem => Nat.lt_irrefl i (h.opener_lt i hmem), h.nodup⟩
  · intro o ho
    rcases mem_cons.mp ho with rfl | ho
    · exact hfresh
    · exact h.unended o ho

lemma Nested.alternates {o : ℕ}
    (ho : o ∈ s.stack.map OpenScope.opener) (hop : program.opcode i = ELSE) :
    Nested program (s.modify o fun e => { e with alternate := some i }) (i + 1) := by
  have hend : ∀ k, ((s.modify o fun e => { e with alternate := some i }).flow k).end_ =
      (s.flow k).end_ := by
    intro k
    rw [modify_flow]
    by_cases hk : k = o
    · rw [if_pos hk, hk]
    · rw [if_neg hk]
  refine ⟨h.mono.opener_lt, h.opener_ne, h.nodup, ?_, ?_, ?_⟩
  · intro o' ho'
    rw [hend]
    exact h.unended o' ho'
  · intro k a ha
    rw [modify_flow] at ha
    by_cases hk : k = o
    · rw [if_pos hk, some.injEq] at ha
      rw [← ha, hk]
      exact ⟨h.opener_lt o ho, Nat.lt_succ_self i, hop⟩
    · rw [if_neg hk] at ha
      exact h.mono.alternate k a ha
  · intro k e he
    rw [hend] at he
    have hk : k ≠ o := by
      intro hk
      rw [hk, h.unended o ho] at he
      nomatch he
    rw [modify_flow, if_neg hk]
    exact h.mono.ended k e he

lemma Nested.ends {e : ℕ} (hopen : k ∉ s.stack.map OpenScope.opener) (hk : k < e) (he : e < i)
    (hbnd : is_boundary (program.opcode e) = true)
    (halt : ∀ a, (s.flow k).alternate = some a → a < e) :
    Nested program (s.modify k fun entry => { entry with end_ := some e }) i := by
  have hkeep : ∀ k', ((s.modify k fun entry => { entry with end_ := some e }).flow k').alternate =
      (s.flow k').alternate := by
    intro k'
    rw [modify_flow]
    by_cases hk' : k' = k
    · rw [if_pos hk', hk']
    · rw [if_neg hk']
  refine ⟨h.opener_lt, h.opener_ne, h.nodup, ?_, ?_, ?_⟩
  · intro o ho
    have hne : o ≠ k := fun heq => hopen (heq ▸ ho)
    rw [modify_flow, if_neg hne]
    exact h.unended o ho
  · intro k' a ha
    rw [hkeep] at ha
    exact h.alternate k' a ha
  · intro k' e' he'
    rw [modify_flow] at he'
    rw [hkeep]
    by_cases hk' : k' = k
    · rw [if_pos hk', some.injEq] at he'
      rw [← he', hk']
      exact ⟨hk, he, hbnd, halt⟩
    · rw [if_neg hk'] at he'
      exact h.ended k' e' he'

lemma Nested.pop {scope : OpenScope} {outer : List OpenScope}
    (hstack : s.stack = scope :: outer) : Nested program { s with stack := outer } i := by
  have hmem : ∀ o ∈ outer.map OpenScope.opener, o ∈ s.stack.map OpenScope.opener := by
    intro o ho
    rw [hstack]
    exact mem_cons_of_mem _ ho
  refine ⟨fun o ho => h.opener_lt o (hmem o ho), fun o ho => h.opener_ne o (hmem o ho), ?_,
    fun o ho => h.unended o (hmem o ho), h.alternate, h.ended⟩
  have hnodup := h.nodup
  rw [hstack, map_cons] at hnodup
  exact hnodup.of_cons

omit h

lemma FlowMatcher.modify_with_stack (s : FlowMatcher) (stack : List OpenScope) (index : ℕ)
    (f : HLSLInstructionFlow → HLSLInstructionFlow) :
    { s.modify index f with stack } = { s with stack }.modify index f := rfl

include h

lemma Nested.match_end (hbnd : is_boundary (program.opcode i) = true)
    (hstep : match_end program s i = some s') : Nested program s' (i + 1) := by
  unfold DXBCSandbox.match_end at hstep
  cases hstack : s.stack with
  | nil =>
    rw [hstack] at hstep
    nomatch hstep
  | cons scope outer =>
    rw [hstack] at hstep
    dsimp only at hstep
    by_cases hop : program.opcode scope.opener ≠ required_opener (program.opcode i)
    · rw [if_pos hop] at hstep
      nomatch hstep
    rw [if_neg hop, some.injEq] at hstep
    have hmem : scope.opener ∈ s.stack.map OpenScope.opener := by
      rw [hstack]
      exact mem_cons_self
    have hnodup := h.nodup
    rw [hstack, map_cons, nodup_cons] at hnodup
    have hpop := h.mono.pop hstack
    -- The opener is no longer on the stack, and an `ELSE` never was.
    have hopener : Nested program
        ({ s with stack := outer }.modify scope.opener fun e => { e with end_ := some i })
        (i + 1) :=
      hpop.ends hnodup.1 (h.opener_lt _ hmem) (Nat.lt_succ_self i) hbnd
        fun a ha => (h.alternate _ a ha).2.1
    rw [← hstep]
    cases halt : ((s.modify scope.opener fun e => { e with end_ := some i }).flow
        scope.opener).alternate with
    | none =>
      rw [modify_with_stack, modify_with_stack]
      exact hopener.modify i _ (fun _ => rfl) fun _ => rfl
    | some a =>
      have ha : (s.flow scope.opener).alternate = some a := by
        rw [modify_flow, if_pos rfl] at halt
        exact halt
      obtain ⟨hlt, hai, helse⟩ := h.alternate _ a ha
      have hclosed : a ∉ outer.map OpenScope.opener := fun ho => hpop.opener_ne a ho helse
      have hboth := hopener.ends hclosed hai (Nat.lt_succ_self i) hbnd (by
        intro a' ha'
        rw [modify_flow, if_neg (Nat.ne_of_gt hlt)] at ha'
        exact (h.alternate a a' ha').2.1)
      rw [modify_with_stack, modify_with_stack,
        modify_with_stack]
      exact hboth.modify i _ (fun _ => rfl) fun _ => rfl

/-- **One instruction.** -/
theorem Nested.step (hstep : match_flow_step program s i = some s') :
    Nested program s' (i + 1) := by
  have henter : Nested program (s.enter i) i := h.modify i _ (fun _ => rfl) fun _ => rfl
  unfold match_flow_step at hstep
  dsimp only at hstep
  by_cases hopen : program.opcode i = IF ∨ program.opcode i = LOOP ∨ program.opcode i = SWITCH
  · rw [if_pos hopen, match_open] at hstep
    by_cases hdepth : (s.enter i).stack.length = MAX_FLOW_DEPTH
    · rw [if_pos hdepth] at hstep
      cases hstep
    · rw [if_neg hdepth, some.injEq] at hstep
      rw [← hstep]
      apply henter.push
      intro helse
      rw [helse] at hopen
      exact absurd hopen (by decide)
  rw [if_neg hopen] at hstep
  by_cases helse : program.opcode i = ELSE
  · rw [if_pos helse, match_else] at hstep
    cases hstack : (s.enter i).stack with
    | nil =>
      rw [hstack] at hstep
      cases hstep
    | cons scope outer =>
      rw [hstack] at hstep
      dsimp only at hstep
      split at hstep
      next => cases hstep
      next =>
          rw [← some.inj hstep]
          have hmem : scope.opener ∈ (s.enter i).stack.map OpenScope.opener := by
            rw [hstack]
            exact mem_cons_self
          exact (henter.alternates hmem helse).modify i _ (fun _ => rfl) fun _ => rfl
  rw [if_neg helse] at hstep
  by_cases hend : program.opcode i = ENDIF ∨ program.opcode i = ENDLOOP ∨
      program.opcode i = ENDSWITCH
  · rw [if_pos hend] at hstep
    apply henter.match_end _ hstep
    rcases hend with hop | hop | hop <;> rw [hop] <;> rfl
  rw [if_neg hend] at hstep
  by_cases hlabel : program.opcode i = CASE ∨ program.opcode i = DEFAULT
  · rw [if_pos hlabel, match_label] at hstep
    cases hstack : (s.enter i).stack with
    | nil =>
      rw [hstack] at hstep
      cases hstep
    | cons scope outer =>
      rw [hstack] at hstep
      dsimp only at hstep
      split at hstep
      next => cases hstep
      next =>
          rw [← some.inj hstep]
          -- The labels of a switch touch neither ends nor alternates.
          have hdflt : Nested program (if program.opcode i = DEFAULT then
              (s.enter i).modify scope.opener fun e => { e with has_default := true }
              else s.enter i) (i + 1) := by
            by_cases hop : program.opcode i = DEFAULT
            · rw [if_pos hop]
              exact henter.mono.modify _ _ (fun _ => rfl) fun _ => rfl
            · rw [if_neg hop]
              exact henter.mono
          have hkeep : (if program.opcode i = DEFAULT then
              (s.enter i).modify scope.opener fun e => { e with has_default := true }
              else s.enter i).stack = scope :: outer := by
            rw [← hstack]
            by_cases hop : program.opcode i = DEFAULT
            · rw [if_pos hop, FlowMatcher.modify_stack]
            · rw [if_neg hop]
          have hrestack := hdflt.restack (⟨scope.opener, some i⟩ :: outer)
            (by rw [hkeep, map_cons, map_cons])
          cases scope.last_case with
          | none =>
            rw [modify_with_stack]
            exact hrestack.modify _ _ (fun _ => rfl) fun _ => rfl
          | some label =>
            rw [modify_with_stack]
            exact hrestack.modify _ _ (fun _ => rfl) fun _ => rfl
  rw [if_neg hlabel] at hstep
  by_cases hjump : program.opcode i = BREAK ∨ program.opcode i = BREAKC ∨
      program.opcode i = CONTINUE ∨ program.opcode i = CONTINUEC
  · rw [if_pos hjump, match_jump] at hstep
    split at hstep
    next => cases hstep
    next =>
        rw [← some.inj hstep]
        exact henter.mono.modify i _ (fun _ => rfl) fun _ => rfl
  · rw [if_neg hjump] at hstep
    rw [← some.inj hstep]
    exact henter.mono

lemma nested_match_flow_loop {count : ℕ}
    (hrun : match_flow_loop program s i count = some s') : Nested program s' (i + count) := by
  induction count generalizing s i with
  | zero =>
    rw [← some.inj hrun]
    exact h
  | succ count ih =>
    rw [match_flow_loop_succ] at hrun
    obtain ⟨s₁, hstep, hrest⟩ := bind_eq_some_iff.mp hrun
    have hdone := ih (h.step hstep) hrest
    rwa [Nat.add_right_comm] at hdone

omit h

end

variable {program : USILProgram}

/-- **The links of a matched range** go forward to delimiters, the `ELSE` before the end. -/
theorem links_of_match {first last e : ℕ} {flow : ℕ → HLSLInstructionFlow}
    (h : match_flow_structure program first last = some flow) (hend : (flow k).end_ = some e) :
    k < e ∧ is_boundary (program.opcode e) = true ∧
      ∀ a, (flow k).alternate = some a → k < a ∧ a < e ∧ program.opcode a = ELSE := by
  unfold match_flow_structure at h
  cases hrun : match_flow_loop program ⟨[], fun _ => .unlinked⟩ first (last - first) with
  | none =>
    rw [hrun] at h
    nomatch h
  | some s =>
    rw [hrun] at h
    dsimp only at h
    split at h
    next =>
        rw [some.injEq] at h
        have hstart : Nested program ⟨[], fun _ => .unlinked⟩ first :=
          ⟨fun o ho => (nomatch ho), fun o ho => (nomatch ho), nodup_nil,
            fun o ho => (nomatch ho), fun k a ha => (nomatch ha), fun k e he => (nomatch he)⟩
        have hdone := nested_match_flow_loop hstart hrun
        rw [← h] at hend ⊢
        obtain ⟨hke, -, hbnd, hbefore⟩ := hdone.ended k e hend
        refine ⟨hke, hbnd, fun a ha => ?_⟩
        obtain ⟨hka, -, helse⟩ := hdone.alternate k a ha
        exact ⟨hka, hbefore a ha, helse⟩
    next => nomatch h

/-! ## The blocks of the arms -/

/-- The block contains one of the instructions from `lo` to `hi`. -/
def HLSLControlFlowGraph.Meets (cfg : HLSLControlFlowGraph) (lo hi : ℤ) (b : ℕ) : Prop :=
  b < cfg.block_count ∧ ∃ k : ℕ, lo ≤ k ∧ (k : ℤ) ≤ hi ∧ (cfg.blocks b).Covers k

/-- The arm behind the `IF`, with the `ELSE` or, without one, the `ENDIF`. -/
def HLSLIfRegion.TrueArm (region : HLSLIfRegion) (cfg : HLSLControlFlowGraph) (instruction : ℤ)
    (b : ℕ) : Prop :=
  cfg.Meets (instruction + 1)
    (if region.else_instruction < 0 then region.end_instruction else region.else_instruction) b

/-- The arm behind the `ELSE`, with the `ENDIF`. There is none without an `ELSE`. -/
def HLSLIfRegion.FalseArm (region : HLSLIfRegion) (cfg : HLSLControlFlowGraph) (b : ℕ) : Prop :=
  0 ≤ region.else_instruction ∧ cfg.Meets (region.else_instruction + 1) region.end_instruction b

/-- Between two instructions with a block start behind the first, blocks change. -/
theorem BlockTiling.lt_of_start {blocks : ℕ → HLSLBasicBlock} {count first last b c d k' : ℕ}
    (h : BlockTiling blocks count first last) (hb : b < count) (hd : d < count)
    (hbk : (blocks b).Covers k) (hck : (blocks c).Covers k')
    (hlo : k < (blocks d).first_instruction) (hhi : (blocks d).first_instruction ≤ k') :
    b < c := by
  have hk := hbk.1
  have hk' := hck.2
  rcases Nat.lt_trichotomy b c with hlt | heq | hgt
  · exact hlt
  · -- One block would contain the start of another.
    rw [← heq] at hk'
    have hdb : d = b := h.unique hd hb (k := (blocks d).first_instruction)
      ⟨Nat.le_refl _, h.nonempty d hd⟩ ⟨by omega, by omega⟩
    rw [hdb] at hlo
    omega
  · have hlast := h.lt_of_lt hgt hb
    omega

variable {t : FlowTree}

section

variable {program : USILProgram} {first last : ℤ} {cfg : HLSLControlFlowGraph}
  (h : build_control_flow_graph_range program .zeroed first last = some cfg)

include h

/-- The links of a graph of the builder, and the starts of its blocks. -/
theorem links_of_build (hpos : 0 < cfg.block_count) :
    match_flow_structure program first.toNat last.toNat = some cfg.instruction_flow ∧
      ∀ k, first.toNat ≤ k → k < last.toNat → IsLeader program first.toNat k →
        ∃ b, b < cfg.block_count ∧ (cfg.blocks b).first_instruction = k := by
  obtain ⟨t, hw⟩ := exists_tree_of_build h
  have hrange := valid_range_iff.mp (valid_range_of_build h)
  have hcnt := (exactGraph_of_build h hw).tiles.count_le
  rw [build_control_flow_graph_range, valid_range_of_build h] at h
  have hne0 : program.instruction_count ≠ 0 := by omega
  rw [if_neg (by decide), if_neg hne0, if_neg (by decide)] at h
  obtain ⟨cfg', hcfg', -, hstarts⟩ := build_graph_exact hw (by omega) (by omega)
  obtain rfl : cfg = cfg' := some.inj (h.symm.trans hcfg')
  refine ⟨?_, hstarts⟩
  unfold build_graph at h
  cases hflow : match_flow_structure program first.toNat last.toNat with
  | none =>
    rw [hflow] at h
    cases h
  | some flow =>
    rw [hflow] at h
    dsimp only at h
    split at h
    next => cases h
    next => rw [← some.inj h]

variable {i e header join : ℕ}

lemma exists_block_behind (hpos : 0 < cfg.block_count) (hk : first.toNat ≤ k)
    (hlt : k + 1 < last.toNat) (hbnd : is_boundary (program.opcode k) = true) :
    ∃ b, b < cfg.block_count ∧ (cfg.blocks b).first_instruction = k + 1 := by
  apply (links_of_build h hpos).2 (k + 1) (by omega) hlt
  right
  right
  rw [Nat.add_sub_cancel]
  exact ⟨by omega, hbnd⟩

/-- The blocks between the header and the join are those of the instructions between. -/
theorem meets_iff_between (hex : ExactGraph first.toNat last.toNat t cfg)
    (hop : program.opcode i = IF) (hend : is_boundary (program.opcode e) = true) (hie : i < e)
    (hhdr : cfg.instruction_block i = some header)
    (hjoin : cfg.instruction_block (e + 1) = some join) (b : ℕ) :
    cfg.Meets (i + 1) e b ↔ header < b ∧ b < join := by
  obtain ⟨hhdr, hi⟩ := (hex.instruction_block _ _).mp hhdr
  obtain ⟨hjoin, he⟩ := (hex.instruction_block _ _).mp hjoin
  have hpos : 0 < cfg.block_count := by omega
  have hirange := hex.tiles.covers_bounds hhdr hi
  have herange := hex.tiles.covers_bounds hjoin he
  constructor
  · rintro ⟨hb, k, hlo, hhi, hk⟩
    obtain ⟨d, hd, hdi⟩ := exists_block_behind h hpos hirange.1 (by omega) (by rw [hop]; rfl)
    obtain ⟨d', hd', hde⟩ := exists_block_behind h hpos (k := e) (by omega) herange.2 hend
    exact ⟨hex.tiles.lt_of_start hhdr hd hi hk (by omega) (by omega),
      hex.tiles.lt_of_start hb hd' hk he (by omega) (by omega)⟩
  · rintro ⟨hlo, hhi⟩
    have hb : b < cfg.block_count := by omega
    have hfst := hex.tiles.lt_of_lt hlo hb
    have hlast := hex.tiles.lt_of_lt hhi hjoin
    have hne0 := hex.tiles.nonempty b hb
    have hi2 := hi.2
    have he1 := he.1
    exact ⟨hb, (cfg.blocks b).first_instruction, by omega, by omega, Nat.le_refl _, hne0⟩

/-- The `ELSE` ends a block, so no block has instructions on both sides of it. -/
theorem not_meets_both (hex : ExactGraph first.toNat last.toNat t cfg) {a : ℕ}
    (hop : program.opcode a = ELSE) (hfst : first.toNat ≤ a) (hlast : a + 1 < last.toNat)
    {lo hi : ℤ} {b : ℕ} (htrue : cfg.Meets lo a b) (hfalse : cfg.Meets (a + 1) hi b) : False := by
  obtain ⟨hb, k, -, hk, hcovers⟩ := htrue
  obtain ⟨-, k', hk', -, hcovers'⟩ := hfalse
  obtain ⟨d, hd, hstart⟩ := exists_block_behind h (by omega) hfst hlast (by rw [hop]; rfl)
  have hlt := hex.tiles.lt_of_start hb hd hcovers hcovers' (by omega) (by omega)
  exact Nat.lt_irrefl b hlt

end

/-! ## Accepted regions -/

structure SingleEntryExit (cfg : HLSLControlFlowGraph) (instruction : ℤ) (region : HLSLIfRegion)
    (header join : ℕ) : Prop where
  header_block : region.header_block = header
  join_block : region.join_block = join
  /-- The arms are entered where the region says. Without an `ELSE` the second way out of the
  header goes to the join. -/
  true_block : ∃ b : ℕ, region.true_block = b ∧ region.TrueArm cfg instruction b
  false_block : ∃ b : ℕ, region.false_block = b ∧
    if region.else_instruction < 0 then b = join else region.FalseArm cfg b
  dominated : ∀ b, region.TrueArm cfg instruction b ∨ region.FalseArm cfg b →
    Reachable cfg.Edge 0 b ∧ Dominates cfg.Edge 0 header b
  /-- No edge from outside enters an arm. -/
  entered : ∀ a b, cfg.Edge a b → region.TrueArm cfg instruction b ∨ region.FalseArm cfg b →
    a = header ∨ region.TrueArm cfg instruction a ∨ region.FalseArm cfg a
  /-- Every path from the header reaches the join. -/
  left : ∀ path b, Walk cfg.Edge header path b → (cfg.blocks b).may_exit = true → join ∈ path
  endless : ∀ path : ℕ → ℕ, path 0 = header → (∀ n, cfg.Edge (path n) (path (n + 1))) →
    ∃ n, path n = join
  /-- The arms share no block, neither with each other nor with the header or the join. -/
  disjoint : ∀ b, ¬ (region.TrueArm cfg instruction b ∧ region.FalseArm cfg b)
  outside : ∀ b, region.TrueArm cfg instruction b ∨ region.FalseArm cfg b → b ≠ header ∧ b ≠ join

variable {alternate : Option ℕ}

section

variable {cfg : HLSLControlFlowGraph} {region : HLSLIfRegion} {i e a b : ℕ}

lemma trueArm_of_none (helse : region.else_instruction = link_index none)
    (hend : region.end_instruction = e) :
    region.TrueArm cfg i b ↔ cfg.Meets (i + 1) e b := by
  rw [HLSLIfRegion.TrueArm, helse, hend, link_index, if_pos (by omega)]

lemma trueArm_of_some (helse : region.else_instruction = link_index (some a)) :
    region.TrueArm cfg i b ↔ cfg.Meets (i + 1) a b := by
  rw [HLSLIfRegion.TrueArm, helse, link_index, if_neg (by omega)]

lemma not_falseArm_of_none (helse : region.else_instruction = link_index none) :
    ¬ region.FalseArm cfg b := by
  rintro ⟨hnn, -⟩
  rw [helse, link_index] at hnn
  omega

lemma falseArm_of_some (helse : region.else_instruction = link_index (some a))
    (hend : region.end_instruction = e) :
    region.FalseArm cfg b ↔ cfg.Meets (a + 1) e b := by
  rw [HLSLIfRegion.FalseArm, helse, hend, link_index]
  exact and_iff_right (Int.natCast_nonneg a)

lemma trueArm_of_covers (helse : region.else_instruction = link_index alternate)
    (hend : region.end_instruction = e) (hie : i < e)
    (hbetween : ∀ a, alternate = some a → i < a ∧ a < e) (hb : b < cfg.block_count)
    (hk : (cfg.blocks b).Covers (i + 1)) : region.TrueArm cfg i b := by
  cases alternate with
  | none => exact (trueArm_of_none helse hend).mpr ⟨hb, i + 1, by omega, by omega, hk⟩
  | some a =>
    have hia := (hbetween a rfl).1
    exact (trueArm_of_some helse).mpr ⟨hb, i + 1, by omega, by omega, hk⟩

lemma arm_iff_between (helse : region.else_instruction = link_index alternate)
    (hend : region.end_instruction = e) (hbetween : ∀ a, alternate = some a → i < a ∧ a < e) :
    (region.TrueArm cfg i b ∨ region.FalseArm cfg b) ↔ cfg.Meets (i + 1) e b := by
  cases alternate with
  | none =>
    rw [trueArm_of_none helse hend]
    exact or_iff_left (not_falseArm_of_none helse)
  | some a =>
    obtain ⟨hia, hae⟩ := hbetween a rfl
    rw [trueArm_of_some helse, falseArm_of_some helse hend]
    constructor
    · rintro (⟨hb, k, hlo, hhi, hk⟩ | ⟨hb, k, hlo, hhi, hk⟩)
      · exact ⟨hb, k, hlo, by omega, hk⟩
      · exact ⟨hb, k, by omega, hhi, hk⟩
    · rintro ⟨hb, k, hlo, hhi, hk⟩
      by_cases hka : k ≤ a
      · exact .inl ⟨hb, k, hlo, by omega, hk⟩
      · exact .inr ⟨hb, k, by omega, hhi, hk⟩

end

variable {cfg : HLSLControlFlowGraph} {region : HLSLIfRegion}

/-- **The arms are apart.** -/
theorem not_both_arms {first last : ℤ} {i e b : ℕ}
    (h : build_control_flow_graph_range program .zeroed first last = some cfg)
    (hex : ExactGraph first.toNat last.toNat t cfg)
    (helse : region.else_instruction = link_index alternate) (hend : region.end_instruction = e)
    (hinside : ∀ a, alternate = some a → first.toNat ≤ a ∧ a + 1 < last.toNat ∧ program.opcode
      a = ELSE) :
    ¬ (region.TrueArm cfg i b ∧ region.FalseArm cfg b) := by
  rintro ⟨htrue, hfalse⟩
  cases alternate with
  | none => exact not_falseArm_of_none helse hfalse
  | some a =>
    obtain ⟨hfst, hlast, hop⟩ := hinside a rfl
    rw [trueArm_of_some helse] at htrue
    rw [falseArm_of_some helse hend] at hfalse
    exact not_meets_both h hex hop hfst hlast htrue hfalse

variable {dominance : HLSLDominance}

lemma region_is_closed_iff {candidate : HLSLIfRegion} {header join : ℕ}
    (hhdr : candidate.header_block = header) (hjoin : candidate.join_block = join) :
    region_is_closed cfg dominance candidate = true ↔ ∀ b, header < b → b < join →
      hlsl_cfg_dominates cfg dominance header b = true ∧
        ∀ a ∈ (cfg.blocks b).predecessors, header ≤ a ∧ a < join := by
  have hfst : ((header : ℤ) + 1).toNat = header + 1 := by omega
  unfold region_is_closed
  rw [hhdr, hjoin, List.all_eq_true]
  simp only [List.mem_range'_1, Bool.and_eq_true, List.all_eq_true, Bool.not_eq_true',
    decide_eq_false_iff_not, not_or, Nat.not_lt, Nat.not_le, ge_iff_le, Int.ofNat_le,
    Int.ofNat_lt, hfst]
  constructor
  · intro hall b hlo hhi
    exact hall b ⟨by omega, by omega⟩
  · rintro hall b ⟨hlo, hhi⟩
    exact hall b (by omega) (by omega)

variable {instruction : ℤ}

lemma hlsl_cfg_if_region_cases {result : HLSLIfRegion}
    (h : hlsl_cfg_if_region program cfg dominance instruction region = (true, result)) :
    ∃ i e : ℕ, instruction = i ∧ program.opcode i = IF ∧ (cfg.instruction_flow i).end_ = some e ∧
      result = if_region_candidate cfg instruction ∧
      hlsl_cfg_dominates cfg dominance result.header_block result.join_block = true ∧
      hlsl_cfg_must_reach cfg dominance result.header_block result.join_block = true ∧
      region_is_closed cfg dominance result = true := by
  unfold hlsl_cfg_if_region at h
  split at h
  next => exact absurd (congrArg Prod.fst h) Bool.false_ne_true
  next hinstr =>
      simp only [not_or, Int.not_lt, ne_eq, not_not] at hinstr
      obtain ⟨hnn, -, hop⟩ := hinstr
      split at h
      next => exact absurd (congrArg Prod.fst h) Bool.false_ne_true
      next =>
          dsimp only at h
          split at h
          next => exact absurd (congrArg Prod.fst h) Bool.false_ne_true
          next hend =>
              split at h
              next => exact absurd (congrArg Prod.fst h) Bool.false_ne_true
              next hproof =>
                  split at h
                  next => exact absurd (congrArg Prod.fst h) Bool.false_ne_true
                  next hclosed =>
                      simp only [not_or, Bool.not_eq_true', Bool.not_eq_false] at hproof hclosed
                      obtain rfl := (mk.inj h).2
                      obtain ⟨i, rfl⟩ := Int.eq_ofNat_of_zero_le hnn
                      rw [Int.toNat_natCast] at hop hend
                      cases hlink : (cfg.instruction_flow i).end_ with
                      | none =>
                        rw [hlink, link_index] at hend
                        omega
                      | some e =>
                        exact ⟨i, e, rfl, hop, hlink, rfl, hproof.1, hproof.2, hclosed⟩

lemma hlsl_cfg_if_region_refused {result : HLSLIfRegion}
    (h : hlsl_cfg_if_region program cfg dominance instruction region = (false, result)) :
    result = region := by
  unfold hlsl_cfg_if_region at h
  dsimp only at h
  split_ifs at h
  · exact (mk.inj h).2.symm
  · exact (mk.inj h).2.symm
  · exact (mk.inj h).2.symm
  · exact (mk.inj h).2.symm
  · exact (mk.inj h).2.symm
  · exact absurd (congrArg Prod.fst h).symm Bool.false_ne_true

lemma link_index_eq_natCast {link : Option ℕ} {n : ℕ} (h : link_index link = n) :
    link = some n := by
  cases link with
  | none =>
    rw [link_index] at h
    omega
  | some k => rw [Int.natCast_inj.mp h]

lemma if_region_candidate_eq {i e : ℕ} (hend : (cfg.instruction_flow i).end_ = some e) :
    if_region_candidate cfg i =
      { header_block := link_index (cfg.instruction_block i)
        true_block := link_index (cfg.instruction_block (i + 1))
        false_block := link_index (cfg.instruction_block
          ((cfg.instruction_flow i).alternate.getD e + 1))
        join_block := link_index (cfg.instruction_block (e + 1))
        else_instruction := link_index (cfg.instruction_flow i).alternate
        end_instruction := e } := by
  have hsucc : ∀ n : ℕ, ((n : ℤ) + 1).toNat = n + 1 := fun n => by omega
  unfold if_region_candidate
  dsimp only
  rw [Int.toNat_natCast, hend]
  cases (cfg.instruction_flow i).alternate with
  | none => simp only [link_index, hsucc, isSome_none, Bool.false_eq_true, if_false,
      getD_none]
  | some a => simp only [link_index, hsucc, isSome_some, if_true, getD_some]

/-- **Accepted regions have a single entry and a single exit**, and a refused call leaves the
region that it was given. -/
theorem hlsl_cfg_if_region_single_entry_exit (program : USILProgram) (first last : ℤ)
    (cfg : HLSLControlFlowGraph) (dominance : HLSLDominance)
    (h : build_control_flow_graph_range program .zeroed first last = some cfg)
    (hdominance : compute_dominance cfg = some dominance) (instruction : ℤ)
    (region result : HLSLIfRegion) (ok : Bool)
    (hrun : hlsl_cfg_if_region program cfg dominance instruction region = (ok, result)) :
    (ok = true → ∃ header join, SingleEntryExit cfg instruction result header join) ∧
      (ok = false → result = region) := by
  refine ⟨?_, ?_⟩
  swap
  · rintro rfl
    exact hlsl_cfg_if_region_refused hrun
  rintro rfl
  obtain ⟨i, e, rfl, hop, hend, hresult, hdominates, hreach, hclosed⟩ :=
    hlsl_cfg_if_region_cases hrun
  have hpos : 0 < cfg.block_count := by
    by_contra hzero
    unfold hlsl_cfg_must_reach at hreach
    rw [if_pos (by omega)] at hreach
    exact Bool.false_ne_true hreach
  obtain ⟨hl, hallocated⟩ := linked_of_build h hpos
  obtain ⟨dominance', -, hdominance', -, -, htree, -⟩ := compute_dominance_spec hl hallocated
  obtain rfl : dominance = dominance' := some.inj (hdominance.symm.trans hdominance')
  obtain ⟨t, hw⟩ := exists_tree_of_build h
  have hexact := exactGraph_of_build h hw
  obtain ⟨hie, hboundary, halternate⟩ := links_of_match (links_of_build h hpos).1 hend
  obtain ⟨header, join, hheader, hjoin, -, -, -⟩ :=
    (hlsl_cfg_dominates_spec htree dominance.df _ _).mp hdominates
  rw [if_region_candidate_eq hend] at hresult
  have hib : cfg.instruction_block i = some header := by
    rw [hresult] at hheader
    exact link_index_eq_natCast hheader
  have heb : cfg.instruction_block (e + 1) = some join := by
    rw [hresult] at hjoin
    exact link_index_eq_natCast hjoin
  obtain ⟨hheaderLt, hi⟩ := (hexact.instruction_block _ _).mp hib
  obtain ⟨hjoinLt, he⟩ := (hexact.instruction_block _ _).mp heb
  have hirange := hexact.tiles.covers_bounds hheaderLt hi
  have herange := hexact.tiles.covers_bounds hjoinLt he
  -- Every instruction between has a block.
  have hblock : ∀ k, i ≤ k → k ≤ e + 1 → ∃ b, cfg.instruction_block k = some b ∧
      b < cfg.block_count ∧ (cfg.blocks b).Covers k := by
    intro k hlo hhi
    obtain ⟨b, hb, hk⟩ := hexact.tiles.exists_covers (k := k) (by omega) (by omega)
    exact ⟨b, (hexact.instruction_block k b).mpr ⟨hb, hk⟩, hb, hk⟩
  have helse : result.else_instruction = link_index (cfg.instruction_flow i).alternate := by
    rw [hresult]
  have hstop : result.end_instruction = e := by rw [hresult]
  have hbetween : ∀ a, (cfg.instruction_flow i).alternate = some a → i < a ∧ a < e :=
    fun a ha => ⟨(halternate a ha).1, (halternate a ha).2.1⟩
  have harm : ∀ b, (result.TrueArm cfg i b ∨ result.FalseArm cfg b) ↔ header < b ∧ b < join := by
    intro b
    rw [arm_iff_between helse hstop hbetween]
    exact meets_iff_between h hexact hop hboundary hie hib heb b
  rw [region_is_closed_iff hheader hjoin] at hclosed
  rw [hlsl_cfg_must_reach_iff hl htree] at hreach
  obtain ⟨s, j, hs, hj, -, -, hfinite, hinfinite⟩ := hreach
  obtain rfl : s = header := Int.natCast_inj.mp (hs.symm.trans hheader)
  obtain rfl : j = join := Int.natCast_inj.mp (hj.symm.trans hjoin)
  refine ⟨s, j, hheader, hjoin, ?_, ?_, ?_, ?_, ?_, hinfinite, ?_, ?_⟩
  · obtain ⟨b, hb, hlt, hk⟩ := hblock (i + 1) (by omega) (by omega)
    refine ⟨b, ?_, ?_⟩
    · rw [hresult]
      show link_index (cfg.instruction_block (i + 1)) = b
      rw [hb, link_index]
    · exact trueArm_of_covers helse hstop hie hbetween hlt hk
  · cases hlink : (cfg.instruction_flow i).alternate with
    | none =>
      rw [hlink] at helse
      refine ⟨j, ?_, ?_⟩
      · rw [hresult, hlink]
        show link_index (cfg.instruction_block (e + 1)) = j
        rw [heb, link_index]
      · rw [helse, link_index, if_pos (by omega)]
    | some a =>
      rw [hlink] at helse
      obtain ⟨hia, hae, -⟩ := halternate a hlink
      obtain ⟨b, hb, hlt, hk⟩ := hblock (a + 1) (by omega) (by omega)
      refine ⟨b, ?_, ?_⟩
      · rw [hresult, hlink]
        show link_index (cfg.instruction_block (a + 1)) = b
        rw [hb, link_index]
      · rw [if_neg (by rw [helse, link_index]; omega)]
        exact (falseArm_of_some helse hstop).mpr ⟨hlt, a + 1, by omega, by omega, hk⟩
  · intro b hb
    obtain ⟨hlo, hhi⟩ := (harm b).mp hb
    obtain ⟨d, b', hd, hb', -, hbr, hdom⟩ :=
      (hlsl_cfg_dominates_spec htree dominance.df _ _).mp (hclosed b hlo hhi).1
    obtain rfl : s = d := Int.natCast_inj.mp hd
    obtain rfl : b = b' := Int.natCast_inj.mp hb'
    exact ⟨hbr, hdom⟩
  · intro a b hedge hb
    obtain ⟨hlo, hhi⟩ := (harm b).mp hb
    have hpredecessor := (hl.mem_predecessors a b (by omega)).mpr hedge
    obtain ⟨hsa, haj⟩ := (hclosed b hlo hhi).2 a hpredecessor
    rcases Nat.eq_or_lt_of_le hsa with heq | hlt
    · exact .inl heq.symm
    · exact .inr ((harm a).mpr ⟨hlt, haj⟩)
  · intro path b hpath hexit
    exact hfinite path b hpath (.inl hexit)
  · intro b
    apply not_both_arms h hexact helse hstop
    intro a ha
    obtain ⟨hia, hae, hopa⟩ := halternate a ha
    exact ⟨by omega, by omega, hopa⟩
  · intro b hb
    obtain ⟨hlo, hhi⟩ := (harm b).mp hb
    exact ⟨Nat.ne_of_gt hlo, Nat.ne_of_lt hhi⟩

/-- A conditional with both arms is accepted. -/
theorem if_else_region : ∃ cfg dominance result, build_control_flow_graph_range
        (programOfOpcodes [IF, NOP, ELSE, NOP, ENDIF, NOP, RET] (by decide)) .zeroed 0 7 =
          some cfg ∧
      compute_dominance cfg = some dominance ∧
      hlsl_cfg_if_region (programOfOpcodes [IF, NOP, ELSE, NOP, ENDIF, NOP, RET] (by decide)) cfg
        dominance 0 ⟨0, 0, 0, 0, 0, 0⟩ = (true, result) ∧
      result = ⟨0, 1, 3, 5, 2, 4⟩ ∧
      ∃ header join, SingleEntryExit cfg 0 result header join := by
  have hrun : ((build_control_flow_graph_range
      (programOfOpcodes [IF, NOP, ELSE, NOP, ENDIF, NOP, RET] (by decide)) .zeroed 0 7).bind
        fun cfg => (compute_dominance cfg).map fun dominance =>
          hlsl_cfg_if_region (programOfOpcodes [IF, NOP, ELSE, NOP, ENDIF, NOP, RET] (by decide))
            cfg dominance 0 ⟨0, 0, 0, 0, 0, 0⟩) = some (true, ⟨0, 1, 3, 5, 2, 4⟩) := by
    decide +kernel
  obtain ⟨cfg, hcfg, hrun⟩ := bind_eq_some_iff.mp hrun
  obtain ⟨dominance, hdominance, hresult⟩ := map_eq_some_iff.mp hrun
  exact ⟨cfg, dominance, _, hcfg, hdominance, hresult, rfl,
    (hlsl_cfg_if_region_single_entry_exit _ 0 7 cfg dominance hcfg hdominance 0 _ _ true
      hresult).1 rfl⟩

end DXBCSandbox
