/-
The blocks of a range.

The leaders cut a range into consecutive blocks, none of them empty: a block starts at
every leader and nowhere else. `instruction_block` names the block of an instruction.
-/
import DXBCSandbox.Lib.Loops
import DXBCSandbox.Cfg.Build

namespace DXBCSandbox

open USILOpcode Function

/-! ## Leaders -/

variable (program : USILProgram)

def IsLeader (first k : ℕ) : Prop :=
  k = first ∨ is_boundary (program.opcode k) ∨ (first < k ∧ is_boundary (program.opcode (k - 1)))

lemma mark_leader_apply (last : ℕ) (leader : ℕ → Bool) (i k : ℕ) :
    mark_leader program last leader i k ↔
      leader k ∨ (is_boundary (program.opcode i) ∧ (k = i ∨ (k = i + 1 ∧ i + 1 < last))) := by
  by_cases hb : is_boundary (program.opcode i)
  · by_cases hl : i + 1 < last
    · simp only [mark_leader, hb, hl, if_true, update_apply]
      by_cases h1 : k = i + 1
      · simp [h1]
      · by_cases h2 : k = i <;> simp [h1, h2]
    · simp only [mark_leader, hb, hl, if_true, if_false, update_apply]
      by_cases h2 : k = i <;> simp [h2]
  · simp [mark_leader, hb]

lemma mark_leaders_spec {first last k : ℕ} (h1 : first ≤ k) (h2 : k < last) :
    mark_leaders program first last k ↔ IsLeader program first k := by
  -- The marks are those of the boundaries seen so far.
  have hinv : ∀ k, mark_leaders program first last k ↔ k = first ∨
      ∃ i, first ≤ i ∧ i < first + (last - first) ∧ is_boundary (program.opcode i) ∧
        (k = i ∨ (k = i + 1 ∧ i + 1 < last)) := by
    refine foldl_range'_inv _ _ (fun m (leader : ℕ → Bool) => ∀ k, leader k ↔ k = first ∨
      ∃ i, first ≤ i ∧ i < m ∧ is_boundary (program.opcode i) ∧
        (k = i ∨ (k = i + 1 ∧ i + 1 < last))) ?_ ?_
    · intro k
      rw [update_apply]
      constructor
      · intro h
        left
        by_contra hk
        simp [hk] at h
      · rintro (h | ⟨i, hi, hi', -⟩)
        · simp [h]
        · omega
    · intro m leader hm _ ih k
      rw [mark_leader_apply, ih k]
      constructor
      · rintro ((h | ⟨i, hi, hi', h⟩) | h)
        · exact .inl h
        · exact .inr ⟨i, hi, by omega, h⟩
        · exact .inr ⟨m, hm, by omega, h⟩
      · rintro (h | ⟨i, hi, hi', h⟩)
        · exact .inl (.inl h)
        · rcases Nat.lt_succ_iff_lt_or_eq.mp hi' with hlt | rfl
          · exact .inl (.inr ⟨i, hi, hlt, h⟩)
          · exact .inr h
  rw [hinv k, IsLeader]
  constructor
  · rintro (h | ⟨i, hi, hi', hb, rfl | ⟨rfl, hl⟩⟩)
    · exact .inl h
    · exact .inr (.inl hb)
    · exact .inr (.inr ⟨by omega, hb⟩)
  · rintro (h | h | ⟨h, hb⟩)
    · exact .inl h
    · exact .inr ⟨k, h1, by omega, h, .inl rfl⟩
    · exact .inr ⟨k - 1, by omega, by omega, hb, .inr ⟨by omega, by omega⟩⟩

/-! ## Cutting the range -/

/-- The first `count` blocks are consecutive non-empty intervals that cover the range. -/
structure BlockTiling (blocks : ℕ → HLSLBasicBlock) (count first last : ℕ) : Prop where
  count_pos : first < last → 0 < count
  start : 0 < count → (blocks 0).first_instruction = first
  nonempty : ∀ b, b < count → (blocks b).first_instruction ≤ (blocks b).last_instruction
  next : ∀ b, b + 1 < count →
    (blocks (b + 1)).first_instruction = (blocks b).last_instruction + 1
  stop : 0 < count → (blocks (count - 1)).last_instruction + 1 = last

def HLSLBasicBlock.Covers (b : HLSLBasicBlock) (k : ℕ) : Prop :=
  b.first_instruction ≤ k ∧ k ≤ b.last_instruction

namespace BlockTiling

variable {blocks : ℕ → HLSLBasicBlock} {count first last : ℕ}
  (h : BlockTiling blocks count first last)

include h

lemma lt_of_lt {b c : ℕ} (hbc : b < c) (hc : c < count) :
    (blocks b).last_instruction < (blocks c).first_instruction := by
  induction c with
  | zero => omega
  | succ c ih =>
    have hnext := h.next c hc
    rcases Nat.lt_succ_iff_lt_or_eq.mp hbc with hlt | rfl
    · have hprev := ih hlt (by omega)
      have hne := h.nonempty c (by omega)
      omega
    · omega

lemma last_lt {b : ℕ} (hb : b < count) : (blocks b).last_instruction < last := by
  have hstop := h.stop (by omega)
  rcases Nat.lt_or_ge b (count - 1) with hlt | hge
  · have hlast := h.lt_of_lt hlt (by omega)
    have hne := h.nonempty (count - 1) (by omega)
    omega
  · obtain rfl : b = count - 1 := by omega
    omega

lemma le_first {b : ℕ} (hb : b < count) : first + b ≤ (blocks b).first_instruction := by
  induction b with
  | zero =>
    have := h.start hb
    omega
  | succ b ih =>
    have hprev := ih (by omega)
    have hne := h.nonempty b (by omega)
    have hnext := h.next b hb
    omega

lemma count_le : count ≤ last - first := by
  rcases Nat.eq_zero_or_pos count with h0 | hpos
  · omega
  · have hfst := h.le_first (show count - 1 < count by omega)
    have hne := h.nonempty (count - 1) (by omega)
    have hstop := h.stop hpos
    omega

lemma unique {b c k : ℕ} (hb : b < count) (hc : c < count)
    (hbk : (blocks b).Covers k) (hck : (blocks c).Covers k) : b = c := by
  rcases Nat.lt_trichotomy b c with hlt | heq | hgt
  · have := h.lt_of_lt hlt hc
    have := hbk.2
    have := hck.1
    omega
  · exact heq
  · have := h.lt_of_lt hgt hb
    have := hbk.1
    have := hck.2
    omega

lemma exists_covers {k : ℕ} (h1 : first ≤ k)
    (h2 : k < last) : ∃ b, b < count ∧ (blocks b).Covers k := by
  induction k, h1 using Nat.le_induction with
  | base =>
    have hpos := h.count_pos h2
    have hstart := h.start hpos
    have hne := h.nonempty 0 hpos
    exact ⟨0, hpos, by omega, by omega⟩
  | succ k hk ih =>
    obtain ⟨b, hb, hbk⟩ := ih (by omega)
    by_cases hin : k + 1 ≤ (blocks b).last_instruction
    · exact ⟨b, hb, Nat.le_succ_of_le hbk.1, hin⟩
    · have hlast : k = (blocks b).last_instruction := by
        have := hbk.2
        omega
      -- The block ends here, so the next instruction starts the next block.
      have hmore : b + 1 < count := by
        by_contra hge
        have hstop := h.stop (by omega)
        obtain rfl : b = count - 1 := by omega
        omega
      have hnext := h.next b hmore
      have hne := h.nonempty (b + 1) hmore
      exact ⟨b + 1, hmore, by omega, by omega⟩

lemma covers_bounds {b k : ℕ} (hb : b < count)
    (hk : (blocks b).Covers k) : first ≤ k ∧ k < last := by
  have hfst := h.le_first hb
  have hlast := h.last_lt hb
  have := hk.1
  have := hk.2
  omega

lemma congr {blocks' : ℕ → HLSLBasicBlock}
    (hf : ∀ b, (blocks' b).first_instruction = (blocks b).first_instruction)
    (hl : ∀ b, (blocks' b).last_instruction = (blocks b).last_instruction) :
    BlockTiling blocks' count first last where
  count_pos := h.count_pos
  start := by
    rw [hf]
    exact h.start
  nonempty := fun b hb => by
    rw [hf, hl]
    exact h.nonempty b hb
  next := fun b hb => by
    rw [hf, hl]
    exact h.next b hb
  stop := by
    rw [hl]
    exact h.stop

omit h

end BlockTiling

/-- The blocks cut from the instructions below `i`. The last of them is still open. -/
structure Splitting (leader : ℕ → Bool) (first i : ℕ) (s : BlockSplit) : Prop where
  count_pos : first < i → 0 < s.block_count
  start : 0 < s.block_count → (s.blocks 0).first_instruction = first
  bounds : ∀ b, b < s.block_count →
    first ≤ (s.blocks b).first_instruction ∧ (s.blocks b).first_instruction < i
  next : ∀ b, b + 1 < s.block_count →
    (s.blocks b).first_instruction ≤ (s.blocks b).last_instruction ∧
    (s.blocks (b + 1)).first_instruction = (s.blocks b).last_instruction + 1
  leaders : ∀ k, first ≤ k → k < i →
    (leader k ↔ ∃ b, b < s.block_count ∧ (s.blocks b).first_instruction = k)
  fresh : ∀ b, (s.blocks b).successors = [] ∧ (s.blocks b).predecessors = []

lemma open_block_blocks (s : BlockSplit) (i b : ℕ) :
    (open_block s i).blocks b = { s.blocks b with
      first_instruction := if b = s.block_count then i else (s.blocks b).first_instruction
      last_instruction :=
        if b + 1 = s.block_count then i - 1 else (s.blocks b).last_instruction } := by
  simp only [open_block]
  by_cases hpos : 0 < s.block_count
  · rw [if_pos hpos, modifyBlock_apply, modifyBlock_apply, modifyBlock_apply]
    by_cases h1 : b = s.block_count
    · subst h1
      simp
      omega
    · by_cases h2 : b = s.block_count - 1
      · have h3 : s.block_count - 1 ≠ s.block_count := by omega
        have h4 : b + 1 = s.block_count := by omega
        simp [h2, h3, Nat.sub_add_cancel hpos]
      · have h4 : ¬ b + 1 = s.block_count := by omega
        simp [h1, h2, h4]
  · rw [if_neg hpos, modifyBlock_apply]
    have h4 : ¬ b + 1 = s.block_count := by omega
    by_cases h1 : b = s.block_count
    · subst h1
      simp
    · simp [h1, h4]

lemma Splitting.open_block {leader : ℕ → Bool} {first i : ℕ} {s : BlockSplit}
    (h : Splitting leader first i s) (hi : first ≤ i) (hl : leader i) :
    Splitting leader first (i + 1) (DXBCSandbox.open_block s i) := by
  have hcnt : (DXBCSandbox.open_block s i).block_count = s.block_count + 1 := rfl
  refine ⟨?_, ?_, ?_, ?_, ?_, ?_⟩
  · intro _
    omega
  · intro _
    rw [open_block_blocks]
    by_cases h0 : s.block_count = 0
    · -- The first leader of all is the first instruction of the range.
      have : ¬ first < i := fun hlt => by
        have := h.count_pos hlt
        omega
      simp only [h0, if_true]
      omega
    · rw [if_neg (by omega)]
      exact h.start (by omega)
  · intro b hb
    rw [open_block_blocks]
    by_cases h1 : b = s.block_count
    · simp only [h1, if_true]
      omega
    · have := h.bounds b (by omega)
      simp only [h1, if_false]
      omega
  · intro b hb
    rw [open_block_blocks, open_block_blocks]
    have hbb := h.bounds b (by omega)
    by_cases h1 : b + 1 = s.block_count
    · simp only [h1, if_true, show ¬ b = s.block_count by omega, if_false]
      omega
    · have hnext := h.next b (by omega)
      simp only [h1, if_false, show ¬ b = s.block_count by omega]
      exact hnext
  · intro k h1 h2
    by_cases hk : k = i
    · refine ⟨fun _ => ⟨s.block_count, by omega, ?_⟩, fun _ => hk ▸ hl⟩
      rw [open_block_blocks]
      simp [hk]
    · rw [h.leaders k h1 (by omega)]
      constructor
      · rintro ⟨b, hb, hbk⟩
        refine ⟨b, by omega, ?_⟩
        rw [open_block_blocks, if_neg (by omega)]
        exact hbk
      · rintro ⟨b, hb, hbk⟩
        rw [open_block_blocks] at hbk
        have hne : b ≠ s.block_count := by
          rintro rfl
          simp only [if_true] at hbk
          omega
        simp only [hne, if_false] at hbk
        exact ⟨b, by omega, hbk⟩
  · intro b
    rw [open_block_blocks]
    exact h.fresh b

/-- **The blocks of a range.** They tile it, and they start exactly at the leaders. -/
theorem split_blocks_spec {leader : ℕ → Bool} {first last : ℕ} (hlt : first < last)
    (hfst : leader first) :
    BlockTiling (split_blocks leader first last).blocks (split_blocks leader first last).block_count
        first last ∧
      (∀ k, first ≤ k → k < last → (leader k ↔ ∃ b,
        b < (split_blocks leader first last).block_count ∧
        ((split_blocks leader first last).blocks b).first_instruction = k)) ∧
      ∀ b, ((split_blocks leader first last).blocks b).successors = [] ∧
        ((split_blocks leader first last).blocks b).predecessors = [] := by
  have hinv := foldl_range'_inv first (last - first) (f := split_block leader)
    (Splitting leader first) (s := ⟨0, fun _ => .zeroed⟩) ?_ ?_
  · rw [show first + (last - first) = last by omega] at hinv
    generalize hs : (List.range' first (last - first)).foldl (split_block leader)
      ⟨0, fun _ => .zeroed⟩ = s at hinv
    have hspl : split_blocks leader first last = { s with
        blocks := modifyBlock s.blocks (s.block_count - 1) fun b =>
          { b with last_instruction := last - 1 } } := by
      rw [split_blocks, hs]
    have hblocks : ∀ b, (split_blocks leader first last).blocks b = { s.blocks b with
        last_instruction :=
          if b = s.block_count - 1 then last - 1 else (s.blocks b).last_instruction } := by
      intro b
      rw [hspl]
      simp only [modifyBlock_apply]
      split_ifs with hb
      · rw [hb]
      · rfl
    have hcnt : (split_blocks leader first last).block_count = s.block_count := by rw [hspl]
    have hpos := hinv.count_pos hlt
    rw [hcnt]
    refine ⟨⟨fun _ => hpos, ?_, ?_, ?_, ?_⟩, ?_, ?_⟩
    · rw [hblocks]
      exact hinv.start
    · intro b hb
      rw [hblocks]
      have hbnds := hinv.bounds b hb
      by_cases hlast : b = s.block_count - 1
      · rw [if_pos hlast]
        simp only
        omega
      · rw [if_neg hlast]
        exact (hinv.next b (by omega)).1
    · intro b hb
      rw [hblocks, hblocks, if_neg (show ¬ b = s.block_count - 1 by omega)]
      exact (hinv.next b hb).2
    · intro _
      rw [hblocks, if_pos rfl]
      simp only
      omega
    · intro k h1 h2
      rw [hinv.leaders k h1 h2]
      simp only [hblocks]
    · intro b
      rw [hblocks]
      exact hinv.fresh b
  · exact ⟨fun h => absurd h (Nat.lt_irrefl first), fun h => absurd h (by simp),
      fun b hb => absurd hb (by simp), fun b hb => absurd hb (by simp),
      fun k h1 h2 => absurd h2 (by omega), fun b => ⟨rfl, rfl⟩⟩
  · intro i s hi _ ih
    rw [split_block]
    by_cases hl : leader i
    · rw [if_pos hl]
      exact ih.open_block hi hl
    · rw [if_neg hl]
      refine ⟨fun h => ?_, ih.start, ?_, ih.next, ?_, ih.fresh⟩
      · -- The first instruction is a leader, so this is not the first one.
        have hne : i ≠ first := by
          rintro rfl
          exact hl hfst
        exact ih.count_pos (by omega)
      · intro b hb
        have := ih.bounds b hb
        omega
      · intro k h1 h2
        by_cases hk : k = i
        · refine ⟨fun h => absurd (hk ▸ h) hl, ?_⟩
          rintro ⟨b, hb, hbk⟩
          have := ih.bounds b hb
          omega
        · exact ih.leaders k h1 (by omega)

/-! ## The block of an instruction -/

lemma assign_block_apply (s : BlockSplit) (instruction_block : ℕ → Option ℕ) (block k : ℕ)
    (hne : (s.blocks block).first_instruction ≤ (s.blocks block).last_instruction) :
    assign_block s instruction_block block k =
      if (s.blocks block).first_instruction ≤ k ∧ k ≤ (s.blocks block).last_instruction then
        some block
      else instruction_block k := by
  have hinv := foldl_range'_inv (s.blocks block).first_instruction
    ((s.blocks block).last_instruction + 1 - (s.blocks block).first_instruction)
    (f := fun (ib : ℕ → Option ℕ) index => update ib index (some block))
    (fun i ib => ∀ k, ib k = if (s.blocks block).first_instruction ≤ k ∧ k < i then some block
      else instruction_block k) (s := instruction_block)
    (fun k => by rw [if_neg (by omega)])
    (fun i ib h1 _ ih k => by
      rw [update_apply, ih k]
      split_ifs <;> first | rfl | omega)
  have hk := hinv k
  rw [show (s.blocks block).first_instruction + ((s.blocks block).last_instruction + 1 -
    (s.blocks block).first_instruction) = (s.blocks block).last_instruction + 1 by omega] at hk
  rw [assign_block, hk]
  simp only [Nat.lt_succ_iff]

lemma assign_blocks_spec {s : BlockSplit} {first last : ℕ}
    (h : BlockTiling s.blocks s.block_count first last) {k b : ℕ} :
    assign_blocks s k = some b ↔ b < s.block_count ∧ (s.blocks b).Covers k := by
  have hinv := foldl_range'_inv 0 s.block_count (f := assign_block s)
    (fun m (ib : ℕ → Option ℕ) => m ≤ s.block_count →
      ∀ k b, ib k = some b ↔ b < m ∧ (s.blocks b).Covers k)
    (s := fun _ => none) (fun _ k b => by simp) ?_
  · rw [Nat.zero_add] at hinv
    exact hinv (Nat.le_refl _) k b
  · intro m ib _ _ ih hm k b
    rw [assign_block_apply s ib m k (h.nonempty m hm)]
    have hold := ih (by omega) k b
    split_ifs with hin
    · rw [Option.some.injEq]
      constructor
      · rintro rfl
        exact ⟨Nat.lt_succ_self _, hin⟩
      · rintro ⟨hb, hbk⟩
        exact h.unique hm (by omega) hin hbk
    · rw [hold]
      constructor
      · rintro ⟨hb, hbk⟩
        exact ⟨by omega, hbk⟩
      · rintro ⟨hb, hbk⟩
        rcases Nat.lt_succ_iff_lt_or_eq.mp hb with hlt | rfl
        · exact ⟨hlt, hbk⟩
        · exact absurd hbk hin

end DXBCSandbox
