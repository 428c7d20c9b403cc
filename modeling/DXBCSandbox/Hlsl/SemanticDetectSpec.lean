/-
What the detectors claim (`src/translation/hlsl_semantic.c`, `hlsl_analysis_patterns.c`,
`hlsl_emitter_analysis.c`).

The analysis is a sequence of registrations, so the registry invariant holds of its result. A
candidate claims instructions that its detector tested, but for one: when the two multiplies of a
readable screen position are two apart, the instruction between them is claimed too. In the split
form it is the third multiply. The scans find the same distance with anything in between.
-/
import DXBCSandbox.Hlsl.SemanticDetect
import DXBCSandbox.Hlsl.SemanticRegistrySpec
import Mathlib.Data.Fintype.Card

namespace DXBCSandbox

open List Option

namespace HlslSemantic

open Usil

/-! ## What is matched -/

variable (ctx : HLSLEmitterContext)

/-- The instructions of a readable screen position: a run of five, or what the scans found. -/
def screenSequence (pos : ReadableScreenPos) : List ℤ :=
  match find_split_screen_pos ctx.program with
  | some i => consecutive i 5
  | none => [pos.mul_y, pos.mul_xzw, pos.mov, pos.add].filter fun i => 0 ≤ i

/-- **Matched instructions.** The detector of a lift found the lift with this instruction in the
sequence that it tested. -/
inductive MatchedBy (ctx : HLSLEmitterContext) : HLSLSemanticLift → ℤ → Prop
  | speedtree {index : ℕ} {lift : HLSLSemanticLift} {i : ℤ}
      (hfound : speedtree_wind_lift ctx index = some lift) (hi : i ∈ consecutive index 11) :
      MatchedBy ctx lift i
  | alphaClip {mad compare move color_temp_operand : ℕ} {i : ℤ}
      (hfound : find_alpha_clip_for_move ctx move =
        some (alpha_clip_lift ctx mad compare move color_temp_operand))
      (hi : i ∈ [(mad : ℤ), compare, compare + 1, (move : ℤ) - 1, move]) :
      MatchedBy ctx (alpha_clip_lift ctx mad compare move color_temp_operand) i
  | faceBasis {face : IndexedFaceBasisInfo} {i : ℤ}
      (hfound : detect_indexed_face_basis ctx = some face) (hi : i ∈ consecutive face.start 16) :
      MatchedBy ctx (face_basis_lift face) i
  | surfaceClip {surface : SurfaceTangentFrameInfo} {i : ℤ}
      (hfound : detect_surface_tangent_frame ctx = some surface)
      (hi : i ∈ consecutive surface.transform_start 9 ∨
        (clip_move_at ctx.program surface.transform_start surface.tangent_start = true ∧
          i = surface.transform_start + 9)) :
      MatchedBy ctx (surface_clip_lift surface) i
  | surfaceTangent {surface : SurfaceTangentFrameInfo} {i : ℤ}
      (hfound : detect_surface_tangent_frame ctx = some surface)
      (hi : i ∈ consecutive ((surface.tangent_start : ℤ) - 1) 28) :
      MatchedBy ctx (surface_tangent_lift surface) i
  | shadowPosition {index : ℕ} {i : ℤ} (hfound : find_shadow_position ctx = some index)
      (hi : i ∈ consecutive index 4) : MatchedBy ctx (shadow_lift_at ctx index) i
  | staticUv {index : ℕ} {lift : HLSLSemanticLift} {i : ℤ}
      (hfound : static_uv_lift ctx index = some lift) (hi : i ∈ consecutive index 4) :
      MatchedBy ctx lift i
  | screenPosition {pos : ReadableScreenPos} {i : ℤ}
      (hfound : detect_readable_screen_pos_pattern ctx = some pos)
      (hi : i ∈ screenSequence ctx pos) : MatchedBy ctx (readable_screen_position_lift pos) i
  | truthiness {claim_owner : ℤ → Option ℕ} {index : ℕ} {lift : HLSLSemanticLift}
      (hfound : truthiness_condition_lift ctx claim_owner index = some lift) :
      MatchedBy ctx lift index

/-- What every candidate but the screen position has. -/
structure CandidateOk (ctx : HLSLEmitterContext) (lift : HLSLSemanticLift) : Prop where
  matched : ∀ i ∈ lift.claimed, MatchedBy ctx lift i
  length_le : lift.claimed.length ≤ claimedCapacity
  ne_nil : lift.claimed ≠ []

lemma length_consecutive (start : ℤ) (count : ℕ) : (consecutive start count).length = count := by
  simp [consecutive]

variable {count : ℕ}

lemma mem_consecutive {start i : ℤ} :
    i ∈ consecutive start count ↔ start ≤ i ∧ i < start + count := by
  simp only [consecutive, List.mem_map, List.mem_range]
  constructor
  · rintro ⟨k, hk, rfl⟩
    omega
  · rintro ⟨hle, hlt⟩
    exact ⟨(i - start).toNat, by omega, by omega⟩

variable {ctx} {lift : HLSLSemanticLift}

lemma candidateOk_of_consecutive {start : ℤ}
    (hclaim : lift.claimed = consecutive start count) (hpos : 0 < count)
    (hle : count ≤ claimedCapacity) (hmatch : ∀ i ∈ consecutive start count, MatchedBy ctx lift i) :
    CandidateOk ctx lift where
  matched := by
    rw [hclaim]
    exact hmatch
  length_le := by
    rw [hclaim, length_consecutive]
    exact hle
  ne_nil := by
    rw [hclaim]
    intro hnil
    have hlen := congrArg length hnil
    rw [length_consecutive] at hlen
    exact absurd hlen (by simp; omega)

/-! ## The structural candidates -/

lemma speedtree_ok (h : lift ∈ speedtree_wind_lifts ctx) :
    CandidateOk ctx lift := by
  obtain ⟨index, -, hfound⟩ := mem_filterMap.mp h
  refine candidateOk_of_consecutive ?_ (by decide) (by decide) fun i hi => .speedtree hfound hi
  simp only [speedtree_wind_lift] at hfound
  split at hfound
  · obtain rfl := some_inj.mp hfound
    rfl
  · simp at hfound

lemma find_alpha_clip_eq_some {move : ℕ}
    (h : find_alpha_clip_for_move ctx move = some lift) :
    ∃ mad compare color_temp_operand,
      lift = alpha_clip_lift ctx mad compare move color_temp_operand := by
  simp only [find_alpha_clip_for_move, bind_eq_bind, bind_eq_some_iff] at h
  obtain ⟨-, -, -, -, color_temp_operand, -, color_cb_operand, -, h⟩ := h
  obtain ⟨mad, -, hmad⟩ := exists_of_findSome?_eq_some h
  obtain ⟨compare, -, hlift⟩ := bind_eq_some_iff.mp hmad
  exact ⟨mad, compare, color_temp_operand, (some_inj.mp hlift).symm⟩

lemma alpha_clip_ok (h : lift ∈ alpha_clip_lifts ctx) :
    CandidateOk ctx lift := by
  obtain ⟨move, -, hfound⟩ := mem_filterMap.mp h
  obtain ⟨mad, compare, color_temp_operand, rfl⟩ := find_alpha_clip_eq_some hfound
  refine ⟨fun i hi => .alphaClip hfound ?_, ?_, cons_ne_nil _ _⟩
  · simp only [alpha_clip_lift] at hi
    split at hi
    · simp only [mem_cons, not_mem_nil, or_false] at hi ⊢
      rcases hi with rfl | rfl | rfl
      · exact .inl rfl
      · exact .inr (.inl rfl)
      · exact .inr (.inr (.inl rfl))
    · obtain rfl := mem_singleton.mp hi
      exact mem_cons_self
  · simp only [alpha_clip_lift]
    split <;> simp [claimedCapacity]

/-- The surface frame that is found, with the copy that its register tells of. -/
theorem surface_frame_at_eq_some {tangent_start : ℕ}
    {surface : SurfaceTangentFrameInfo} (h : surface_frame_at ctx tangent_start = some surface)
    (hclip : 0 ≤ surface.clip_temp_reg) :
    clip_move_at ctx.program surface.transform_start surface.tangent_start = true := by
  simp only [surface_frame_at, bind_eq_bind, bind_eq_some_iff] at h
  obtain ⟨-, -, transform_start, -, -, -, h⟩ := h
  split at h
  · obtain rfl := some_inj.mp h
    simp at hclip
  · split at h
    · rename_i hmove
      obtain rfl := some_inj.mp h
      exact hmove
    · simp at h

lemma high_priority_ok
    (h : lift ∈ high_priority_structural_lifts ctx) : CandidateOk ctx lift := by
  rcases mem_append.mp h with hface | hsurface
  · obtain ⟨face, hfound, rfl⟩ := map_eq_some_iff.mp (mem_toList.mp hface)
    exact candidateOk_of_consecutive rfl (by decide) (by decide) fun i hi => .faceBasis hfound hi
  · cases hfound : detect_surface_tangent_frame ctx with
    | none =>
      rw [hfound] at hsurface
      simp at hsurface
    | some surface =>
      rw [hfound] at hsurface
      simp only [mem_cons, not_mem_nil, or_false] at hsurface
      rcases hsurface with rfl | rfl
      · refine ⟨fun i hi => .surfaceClip hfound ?_, ?_, ?_⟩
        · rcases mem_append.mp hi with hrun | hmove
          · exact .inl hrun
          · split at hmove
            · rename_i hclip
              obtain ⟨start, -, hat⟩ := exists_of_findSome?_eq_some hfound
              exact .inr ⟨surface_frame_at_eq_some hat hclip, mem_singleton.mp hmove⟩
            · simp at hmove
        · simp only [surface_clip_lift, length_append, length_consecutive]
          split <;> simp [claimedCapacity]
        · intro hnil
          have hrun := congrArg length (append_eq_nil_iff.mp hnil).1
          exact absurd hrun (by simp [length_consecutive])
      · exact candidateOk_of_consecutive rfl (by decide) (by decide) fun i hi =>
          .surfaceTangent hfound hi

lemma shadow_position_ok (h : lift ∈ shadow_position_lifts ctx) :
    CandidateOk ctx lift := by
  obtain ⟨index, hfound, rfl⟩ := map_eq_some_iff.mp (mem_toList.mp h)
  exact candidateOk_of_consecutive rfl (by decide) (by decide) fun i hi => .shadowPosition hfound hi

lemma static_uv_ok (h : lift ∈ static_uv_lifts ctx) :
    CandidateOk ctx lift := by
  obtain ⟨index, -, hfound⟩ := mem_filterMap.mp h
  refine candidateOk_of_consecutive ?_ (by decide) (by decide) fun i hi => .staticUv hfound hi
  obtain ⟨inputs, -, rfl⟩ := map_eq_some_iff.mp hfound
  rfl

lemma structural_ok (h : lift ∈ structural_candidates ctx) :
    CandidateOk ctx lift := by
  simp only [structural_candidates, mem_append] at h
  rcases h with (((h | h) | h) | h) | h
  · exact speedtree_ok h
  · exact alpha_clip_ok h
  · exact high_priority_ok h
  · exact shadow_position_ok h
  · exact static_uv_ok h

/-! ## The truthiness conditions -/

lemma truthiness_ok {claim_owner : ℤ → Option ℕ} {index : ℕ}
    (h : truthiness_condition_lift ctx claim_owner index = some lift) :
    CandidateOk ctx lift := by
  have hclaim : lift.claimed = [(index : ℤ)] := by
    simp only [truthiness_condition_lift, bind_eq_bind, bind_eq_some_iff] at h
    obtain ⟨-, -, value_operand, -, -, -, hlift⟩ := h
    obtain rfl := some_inj.mp hlift
    rfl
  refine ⟨fun i hi => ?_, ?_, ?_⟩
  · rw [hclaim] at hi
    obtain rfl := mem_singleton.mp hi
    exact .truthiness h
  · rw [hclaim]
    exact Nat.le_of_ble_eq_true rfl
  · rw [hclaim]
    exact cons_ne_nil _ _

lemma registerAll_append (n : ℕ) (semantic : HLSLSemanticProgram)
    (first second : List HLSLSemanticLift) :
    registerAll n semantic (first ++ second) = registerAll n (registerAll n semantic first) second :=
  foldl_append

variable (ctx)

lemma truthiness_lifts_eq (semantic : HLSLSemanticProgram) :
    ∃ candidates, detect_truthiness_condition_lifts ctx semantic =
        registerAll ctx.program.instruction_count semantic candidates ∧
      ∀ lift ∈ candidates, CandidateOk ctx lift := by
  simp only [detect_truthiness_condition_lifts]
  split
  · generalize range ctx.program.instruction_count = indices
    induction indices generalizing semantic with
    | nil => exact ⟨[], rfl, by simp⟩
    | cons index indices ih =>
      obtain ⟨candidates, heq, hok⟩ := ih (detect_truthiness_condition ctx semantic index)
      refine ⟨(truthiness_condition_lift ctx semantic.claim_owner index).toList ++ candidates, ?_, ?_⟩
      · rw [foldl_cons, heq, registerAll_append]
        rfl
      · intro lift hlift
        rcases mem_append.mp hlift with hhere | hlater
        · exact truthiness_ok (mem_toList.mp hhere)
        · exact hok lift hlater
  · exact ⟨[], rfl, by simp⟩

/-! ## The screen position -/

lemma mem_foldl_claims (indices claimed : List ℤ) (i : ℤ) :
    i ∈ indices.foldl (fun claimed instruction =>
        if 0 ≤ instruction ∧ instruction ∉ claimed then claimed ++ [instruction] else claimed)
      claimed ↔ i ∈ claimed ∨ (i ∈ indices ∧ 0 ≤ i) := by
  induction indices generalizing claimed with
  | nil => simp
  | cons instruction indices ih =>
    rw [foldl_cons, ih]
    split
    · rename_i hnew
      simp only [mem_append, mem_cons, not_mem_nil, or_false]
      constructor
      · rintro ((hold | rfl) | ⟨hlater, hpos⟩)
        · exact .inl hold
        · exact .inr ⟨.inl rfl, hnew.1⟩
        · exact .inr ⟨.inr hlater, hpos⟩
      · rintro (hold | ⟨rfl | hlater, hpos⟩)
        · exact .inl (.inl hold)
        · exact .inl (.inr rfl)
        · exact .inr ⟨hlater, hpos⟩
    · rename_i hold
      simp only [mem_cons]
      constructor
      · rintro (hold | ⟨hlater, hpos⟩)
        · exact .inl hold
        · exact .inr ⟨.inr hlater, hpos⟩
      · rintro (hmem | ⟨rfl | hlater, hpos⟩)
        · exact .inl hmem
        · by_cases hmem : i ∈ claimed
          · exact .inl hmem
          · exact absurd ⟨hpos, hmem⟩ hold
        · exact .inr ⟨hlater, hpos⟩

lemma length_foldl_claims (indices claimed : List ℤ) : (indices.foldl (fun claimed instruction =>
        if 0 ≤ instruction ∧ instruction ∉ claimed then claimed ++ [instruction] else claimed)
      claimed).length ≤ claimed.length + indices.length := by
  induction indices generalizing claimed with
  | nil => simp
  | cons instruction indices ih =>
    rw [foldl_cons]
    refine Nat.le_trans (ih _) ?_
    split
    · rw [length_append, length_singleton, length_cons]
      omega
    · rw [length_cons]
      omega

/-- The claims are the four indices, and the instruction of a gap of one. -/
theorem mem_readable_claims (pos : ReadableScreenPos) (i : ℤ) :
    i ∈ readable_screen_position_claims pos ↔
      (i ∈ [pos.mul_y, pos.mul_xzw, pos.mov, pos.add] ∧ 0 ≤ i) ∨
      (0 ≤ pos.mul_y ∧ pos.mul_xzw = pos.mul_y + 2 ∧ i = pos.mul_y + 1) := by
  simp only [readable_screen_position_claims]
  split
  · rename_i hgap
    rw [mem_append, mem_foldl_claims, mem_singleton]
    simp [hgap.1, hgap.2]
  · rename_i hgap
    rw [mem_foldl_claims]
    constructor
    · rintro (hnil | hmem)
      · simp at hnil
      · exact .inl hmem
    · rintro (hmem | ⟨hpos, heq, -⟩)
      · exact .inr hmem
      · exact absurd ⟨hpos, heq⟩ hgap

lemma length_readable_claims (pos : ReadableScreenPos) :
    (readable_screen_position_claims pos).length ≤ claimedCapacity := by
  have hfour := length_foldl_claims [pos.mul_y, pos.mul_xzw, pos.mov, pos.add] []
  simp only [length_cons, length_nil] at hfour
  simp only [readable_screen_position_claims, claimedCapacity]
  split
  · simp only [length_append, length_cons, length_nil]
    omega
  · omega

/-- **Gap.** The scans match with one instruction in between: the vector scale at `x`, the projection
scale at `x - 2`, the addition at `add`, and no copy at `x - 1`. -/
structure GapMatch (program : USILProgram) (x add : ℕ) (mov : Option ℕ) : Prop where
  no_split : ∀ i, split_screen_pos_at program i = false
  scale : scale_xzw_at program x = true ∧ ∀ j < x, scale_xzw_at program j = false
  projection : 2 ≤ x ∧
    scale_y_at program (operand (program.instruction x) 1).register_index (x - 2) = true ∧
    scale_y_at program (operand (program.instruction x) 1).register_index (x - 1) = false
  addition : x < add ∧
    offset_add_at program (operand (program.instruction x) 0).register_index add = true ∧
    ∀ j, x < j → j < add →
      offset_add_at program (operand (program.instruction x) 0).register_index j = false
  copy : ∀ m, mov = some m ↔
    (operand (program.instruction add) 0).destination_mask = 48 ∧
    copy_zw_at program (operand (program.instruction x) 1).register_index
      (operand (program.instruction add) 0).register_index m = true ∧
    ∀ j < m, copy_zw_at program (operand (program.instruction x) 1).register_index
      (operand (program.instruction add) 0).register_index j = false
  gap : mov ≠ some (x - 1)

/-- **Swallowed instructions.** Temporaries are floats, the scans match with a gap, and no lift has
the instructions yet. -/
def SwallowsGap (semantic : HLSLSemanticProgram) : Prop :=
  ctx.use_uint_temps = false ∧ ∃ x add mov, GapMatch ctx.program x add mov ∧
    semantic.before_lift ((x : ℤ) - 2) = none ∧
    ∀ i ∈ [x - 2, x - 1, x, add] ++ mov.toList, semantic.claim_owner i = none

variable {program : USILProgram} {i : ℕ}

/-- What lies behind the program has no opcode that a detector asks for. -/
theorem lt_of_opcode {opcode : USILOpcode} (h : (program.instruction i).opcode = opcode)
    (hne : opcode ≠ .NOP) :
    i < program.instruction_count := by
  by_cases hi : i < program.instruction_count
  · exact hi
  · rw [USILProgram.instruction, getD_eq_default _ _ (Nat.le_of_not_lt hi)] at h
    exact absurd h.symm hne

lemma scale_xzw_lt (h : scale_xzw_at program i = true) : i < program.instruction_count :=
  lt_of_opcode (of_decide_eq_true h).1 (by decide)

lemma offset_add_lt {regY : ℤ} (h : offset_add_at program regY i = true) :
    i < program.instruction_count :=
  lt_of_opcode (of_decide_eq_true h).1 (by decide)

lemma copy_zw_lt {regX regOut : ℤ} (h : copy_zw_at program regX regOut i = true) :
    i < program.instruction_count :=
  lt_of_opcode (of_decide_eq_true h).1 (by decide)

lemma split_screen_pos_lt (h : split_screen_pos_at program i = true) :
    i + 4 < program.instruction_count :=
  lt_of_opcode (of_decide_eq_true h).1.2.2.2.2.1 (by decide)

lemma find?_reverse_range {p : ℕ → Bool} {x y : ℕ} : (List.range x).reverse.find? p = some y ↔
      y < x ∧ p y = true ∧ ∀ j, y < j → j < x → p j = false := by
  induction x with
  | zero => simp
  | succ x ih =>
    rw [range_succ, reverse_append, reverse_singleton, singleton_append, find?_cons]
    cases hx : p x with
    | true =>
      simp only [some_inj]
      constructor
      · rintro rfl
        exact ⟨Nat.lt_succ_self _, hx, fun j hlt hle => absurd hle (by omega)⟩
      · rintro ⟨hle, -, hlast⟩
        by_cases heq : x = y
        · exact heq
        · have hfalse := hlast x (by omega) (Nat.lt_succ_self _)
          rw [hx] at hfalse
          simp at hfalse
    | false =>
      simp only [ih]
      constructor
      · rintro ⟨hlt, hp, hlast⟩
        refine ⟨by omega, hp, fun j hj hle => ?_⟩
        by_cases heq : j = x
        · exact heq ▸ hx
        · exact hlast j hj (by omega)
      · rintro ⟨hle, hp, hlast⟩
        refine ⟨?_, hp, fun j hj hlt => hlast j hj (by omega)⟩
        by_cases heq : y = x
        · rw [heq, hx] at hp
          simp at hp
        · omega

lemma find_split_eq_none :
    find_split_screen_pos program = none ↔ ∀ i, split_screen_pos_at program i = false := by
  rw [find_split_screen_pos, find?_range_eq_none]
  constructor
  · intro h i
    by_cases hi : i + 4 < program.instruction_count
    · simpa using h i (by omega)
    · exact Bool.eq_false_iff.mpr fun hspl => hi (split_screen_pos_lt hspl)
  · intro h i _
    simp [h i]

lemma find_scale_xzw {x : ℕ} :
    (List.range program.instruction_count).find? (scale_xzw_at program) = some x ↔
      scale_xzw_at program x = true ∧ ∀ j < x, scale_xzw_at program j = false := by
  rw [find?_range_eq_some]
  constructor
  · rintro ⟨hx, -, hfst⟩
    exact ⟨hx, fun j hj => by simpa using hfst j hj⟩
  · rintro ⟨hx, hfst⟩
    exact ⟨hx, mem_range.mpr (scale_xzw_lt hx), fun j hj => by simp [hfst j hj]⟩

lemma find_offset_add {regY : ℤ} {x add : ℕ} :
    (List.range' (x + 1) (program.instruction_count - (x + 1))).find?
        (offset_add_at program regY) = some add ↔
      x < add ∧ offset_add_at program regY add = true ∧
        ∀ j, x < j → j < add → offset_add_at program regY j = false := by
  rw [find?_range'_eq_some]
  constructor
  · rintro ⟨hadd, hmem, hfst⟩
    have hrange := mem_range'_1.mp hmem
    exact ⟨by omega, hadd, fun j hxj hj => by simpa using hfst j hxj hj⟩
  · rintro ⟨hx, hadd, hfst⟩
    have hlt := offset_add_lt hadd
    exact ⟨hadd, mem_range'_1.mpr ⟨by omega, by omega⟩, fun j hxj hj => by simp [hfst j hxj hj]⟩

lemma find_copy_zw {regX regOut : ℤ} {m : ℕ} :
    (List.range program.instruction_count).find? (copy_zw_at program regX regOut) = some m ↔
      copy_zw_at program regX regOut m = true ∧
        ∀ j < m, copy_zw_at program regX regOut j = false := by
  rw [find?_range_eq_some]
  constructor
  · rintro ⟨hm, -, hfst⟩
    exact ⟨hm, fun j hj => by simpa using hfst j hj⟩
  · rintro ⟨hm, hfst⟩
    exact ⟨hm, mem_range.mpr (copy_zw_lt hm), fun j hj => by simp [hfst j hj]⟩

variable {pos : ReadableScreenPos}

lemma scan_screen_pos_eq_some {x : ℕ} : scan_screen_pos program x = some pos ↔ ∃ mul_y add mov,
      (List.range x).reverse.find?
        (scale_y_at program (operand (program.instruction x) 1).register_index) = mul_y ∧
      (List.range' (x + 1) (program.instruction_count - (x + 1))).find?
        (offset_add_at program (operand (program.instruction x) 0).register_index) = some add ∧
      (if (operand (program.instruction add) 0).destination_mask = 48
        then (List.range program.instruction_count).find?
          (copy_zw_at program (operand (program.instruction x) 1).register_index
            (operand (program.instruction add) 0).register_index) else none) = mov ∧
      pos = ⟨indexOr mul_y, x, add, indexOr mov⟩ := by
  simp only [scan_screen_pos, bind_eq_bind, bind_eq_some_iff, some_inj]
  constructor
  · rintro ⟨add, hadd, rfl⟩
    exact ⟨_, add, _, rfl, hadd, rfl, rfl⟩
  · rintro ⟨-, add, -, rfl, hadd, rfl, rfl⟩
    exact ⟨add, hadd, rfl⟩

/-- The copy of a match is the first one, if the addition leaves it a place. -/
theorem find_copy_iff {x add : ℕ} {mov : Option ℕ} :
    (if (operand (program.instruction add) 0).destination_mask = 48
      then (List.range program.instruction_count).find?
        (copy_zw_at program (operand (program.instruction x) 1).register_index
          (operand (program.instruction add) 0).register_index) else none) = mov ↔
    ∀ m, mov = some m ↔ (operand (program.instruction add) 0).destination_mask = 48 ∧
      copy_zw_at program (operand (program.instruction x) 1).register_index
        (operand (program.instruction add) 0).register_index m = true ∧
      ∀ j < m, copy_zw_at program (operand (program.instruction x) 1).register_index
        (operand (program.instruction add) 0).register_index j = false := by
  have hfind : ∀ m, (if (operand (program.instruction add) 0).destination_mask = 48
      then (range program.instruction_count).find?
        (copy_zw_at program (operand (program.instruction x) 1).register_index
          (operand (program.instruction add) 0).register_index) else none) = some m ↔
      (operand (program.instruction add) 0).destination_mask = 48 ∧
      copy_zw_at program (operand (program.instruction x) 1).register_index
        (operand (program.instruction add) 0).register_index m = true ∧
      ∀ j < m, copy_zw_at program (operand (program.instruction x) 1).register_index
        (operand (program.instruction add) 0).register_index j = false := by
    intro m
    split
    · rename_i hmask
      rw [find_copy_zw]
      simp [hmask]
    · rename_i hmask
      simp [hmask]
  constructor
  · rintro rfl m
    exact hfind m
  · intro hmov
    exact Option.ext fun m => (hfind m).trans (hmov m).symm

def gapPosition (x add : ℕ) (mov : Option ℕ) : ReadableScreenPos :=
  ⟨(x : ℤ) - 2, x, add, indexOr mov⟩

lemma detect_of_gapMatch {ctx : HLSLEmitterContext} (huint : ctx.use_uint_temps = false)
    {x add : ℕ} {mov : Option ℕ} (h : GapMatch ctx.program x add mov) :
    detect_readable_screen_pos_pattern ctx = some (gapPosition x add mov) := by
  have htwo := h.projection.1
  have hmul_y : (range x).reverse.find?
      (scale_y_at ctx.program (operand (ctx.program.instruction x) 1).register_index) =
      some (x - 2) := by
    refine find?_reverse_range.mpr ⟨by omega, h.projection.2.1, fun j hj hlt => ?_⟩
    obtain rfl : j = x - 1 := by omega
    exact h.projection.2.2
  simp only [detect_readable_screen_pos_pattern, huint, find_split_eq_none.mpr h.no_split,
    find_scale_xzw.mpr h.scale, bind_some, Bool.false_eq_true, if_false]
  refine scan_screen_pos_eq_some.mpr ⟨_, add, mov, hmul_y, find_offset_add.mpr h.addition,
    find_copy_iff.mpr h.copy, ?_⟩
  simp only [gapPosition, indexOr, ReadableScreenPos.mk.injEq, and_true]
  omega

lemma gapMatch_of_detect {ctx : HLSLEmitterContext}
    (hpos : detect_readable_screen_pos_pattern ctx = some pos)
    (hspl : find_split_screen_pos ctx.program = none) (hmul_y : 0 ≤ pos.mul_y)
    (hgap : pos.mul_xzw = pos.mul_y + 2) (hmov : pos.mov ≠ pos.mul_y + 1) :
    ctx.use_uint_temps = false ∧
      ∃ x add mov, GapMatch ctx.program x add mov ∧ pos = gapPosition x add mov := by
  by_cases huint : ctx.use_uint_temps = true
  · simp [detect_readable_screen_pos_pattern, huint] at hpos
  · rw [Bool.not_eq_true] at huint
    refine ⟨huint, ?_⟩
    simp only [detect_readable_screen_pos_pattern, huint, hspl, Bool.false_eq_true,
      if_false] at hpos
    obtain ⟨x, hscale, hscan⟩ := bind_eq_some_iff.mp hpos
    obtain ⟨mul_y, add, mov, hy, hadd, hcopy, rfl⟩ := scan_screen_pos_eq_some.mp hscan
    cases mul_y with
    | none => exact absurd hmul_y (by simp [indexOr])
    | some y =>
      simp only [indexOr] at hgap hmov
      obtain ⟨hyx, hscale_y, hlast⟩ := find?_reverse_range.mp hy
      obtain rfl : y = x - 2 := by omega
      refine ⟨x, add, mov, ⟨find_split_eq_none.mp hspl, find_scale_xzw.mp hscale,
        ⟨by omega, hscale_y, hlast (x - 1) (by omega) (by omega)⟩, find_offset_add.mp hadd,
        find_copy_iff.mp hcopy, ?_⟩, ?_⟩
      · rintro rfl
        simp only at hmov
        omega
      · simp only [gapPosition, indexOr, ReadableScreenPos.mk.injEq, and_true]
        omega

/-- A match of the screen position claims what it matched, or it has a gap. -/
theorem readable_matched_or_gap {ctx : HLSLEmitterContext}
    (hpos : detect_readable_screen_pos_pattern ctx = some pos) :
    (∀ i ∈ (readable_screen_position_lift pos).claimed,
      MatchedBy ctx (readable_screen_position_lift pos) i) ∨
    (ctx.use_uint_temps = false ∧
      ∃ x add mov, GapMatch ctx.program x add mov ∧ pos = gapPosition x add mov) := by
  cases hspl : find_split_screen_pos ctx.program with
  | some start =>
    refine .inl fun i hi => .screenPosition hpos ?_
    by_cases huint : ctx.use_uint_temps = true
    · simp [detect_readable_screen_pos_pattern, huint] at hpos
    · simp only [detect_readable_screen_pos_pattern, huint, hspl, Bool.false_eq_true, if_false,
        some_inj] at hpos
      rw [screenSequence, hspl]
      simp only [mem_consecutive]
      -- The four indices and the one of the gap are the whole run.
      rw [← hpos] at hi
      rcases (mem_readable_claims _ i).mp hi with ⟨hmem, -⟩ | ⟨-, -, hgap⟩
      · simp only [mem_cons, not_mem_nil, or_false] at hmem
        rcases hmem with rfl | rfl | rfl | rfl <;> constructor <;> omega
      · subst hgap
        constructor <;> dsimp only <;> omega
  | none =>
    by_cases hgap : 0 ≤ pos.mul_y ∧ pos.mul_xzw = pos.mul_y + 2 ∧ pos.mov ≠ pos.mul_y + 1
    · exact .inr (gapMatch_of_detect hpos hspl hgap.1 hgap.2.1 hgap.2.2)
    · refine .inl fun i hi => .screenPosition hpos ?_
      rw [screenSequence, hspl]
      simp only [mem_filter, decide_eq_true_eq]
      rcases (mem_readable_claims _ i).mp hi with hmem | ⟨hy, hxzw, rfl⟩
      · exact hmem
      · have hmov : pos.mov = pos.mul_y + 1 := by
          by_contra hne
          exact hgap ⟨hy, hxzw, hne⟩
        exact ⟨by simp [hmov], by omega⟩

lemma gap_not_matched {ctx : HLSLEmitterContext} (huint : ctx.use_uint_temps = false)
    {x add : ℕ} {mov : Option ℕ} (h : GapMatch ctx.program x add mov) :
    ¬ MatchedBy ctx (readable_screen_position_lift (gapPosition x add mov)) ((x : ℤ) - 1) := by
  intro hmatch
  have hkind : (readable_screen_position_lift (gapPosition x add mov)).contract.kind =
    .screenPosition := rfl
  generalize hlift : readable_screen_position_lift (gapPosition x add mov) = lift at hmatch hkind
  generalize hi' : (x : ℤ) - 1 = i at hmatch
  cases hmatch with
  | speedtree hfound hi =>
    simp only [speedtree_wind_lift] at hfound
    split at hfound
    · obtain rfl := some_inj.mp hfound
      exact HLSLSemanticKind.noConfusion hkind
    · simp at hfound
  | alphaClip hfound hi => exact HLSLSemanticKind.noConfusion hkind
  | faceBasis hfound hi => exact HLSLSemanticKind.noConfusion hkind
  | surfaceClip hfound hi => exact HLSLSemanticKind.noConfusion hkind
  | surfaceTangent hfound hi => exact HLSLSemanticKind.noConfusion hkind
  | shadowPosition hfound hi => exact HLSLSemanticKind.noConfusion hkind
  | staticUv hfound hi =>
    obtain ⟨inputs, -, rfl⟩ := map_eq_some_iff.mp hfound
    exact HLSLSemanticKind.noConfusion hkind
  | screenPosition hfound hi =>
    rw [detect_of_gapMatch huint h, some_inj] at hfound
    subst hfound
    rw [screenSequence, find_split_eq_none.mpr h.no_split] at hi
    have htwo := h.projection.1
    have hadd := h.addition.1
    have hgap := h.gap
    simp only [gapPosition, mem_filter, mem_cons, not_mem_nil, or_false] at hi
    rcases hi with ⟨hy | hxzw | hmov | hlast, -⟩
    · omega
    · omega
    · cases mov with
      | none =>
        simp only [indexOr] at hmov
        omega
      | some m =>
        simp only [indexOr] at hmov
        exact hgap (congrArg some (by omega))
    · omega
  | truthiness hfound =>
    simp only [truthiness_condition_lift, bind_eq_bind, bind_eq_some_iff] at hfound
    obtain ⟨-, -, value_operand, -, -, -, hsome⟩ := hfound
    obtain rfl := some_inj.mp hsome
    exact HLSLSemanticKind.noConfusion hkind

/-! ## Room in the list -/

variable {semantic : HLSLSemanticProgram}

lemma Registered.length_le {n : ℕ} {skip : ℤ → Bool} (h : Registered n skip semantic)
    (hne : ∀ lift ∈ semantic.lifts, lift.claimed ≠ []) :
    semantic.lifts.length ≤ n := by
  let first (id : Fin semantic.lifts.length) : ℤ :=
    semantic.lifts[id].claimed.head (hne _ (getElem_mem id.isLt))
  have hmem : ∀ id, first id ∈ semantic.lifts[id].claimed := fun id => head_mem _
  have hrange : ∀ id, 0 ≤ first id ∧ first id < n := fun id =>
    (h.in_range _ (getElem_mem id.isLt)).2.2 _ (hmem id)
  have hinjective : Function.Injective fun id => (⟨(first id).toNat, by
      have := hrange id
      omega⟩ : Fin n) := by
    intro id id' heq
    have hsame : first id = first id' := by
      have hid := hrange id
      have hid' := hrange id'
      have hnat := Fin.mk.inj heq
      omega
    by_contra hdiff
    refine h.claims_disjoint (getElem?_eq_getElem id.isLt) (getElem?_eq_getElem id'.isLt)
      (fun hval => hdiff (Fin.ext hval)) _ (hmem id) ?_
    rw [hsame]
    exact hmem id'
  have hcard := Fintype.card_le_of_injective _ hinjective
  rwa [Fintype.card_fin, Fintype.card_fin] at hcard

lemma mem_lifts_registerAll {n : ℕ} (h : lift ∈ semantic.lifts)
    (candidates : List HLSLSemanticLift) :
    lift ∈ (registerAll n semantic candidates).lifts := by
  induction candidates generalizing semantic with
  | nil => exact h
  | cons candidate candidates ih =>
    refine ih ?_
    dsimp only
    rcases register_lift_cases n semantic candidate with ⟨-, hrun⟩ | ⟨-, count, -, hrun⟩
    · rw [hrun]
      exact mem_append_left _ h
    · rw [hrun]
      exact h

lemma registered_before (skip : ℤ → Bool) :
    Registered ctx.program.instruction_count skip (before_screen_position ctx skip) :=
  (registered_initial _ skip).registerAll _

lemma before_ok {ctx : HLSLEmitterContext} {skip : ℤ → Bool}
    (h : lift ∈ (before_screen_position ctx skip).lifts) : CandidateOk ctx lift := by
  rcases mem_registerAll h with hinitial | hcand
  · exact absurd hinitial (by simp [HLSLSemanticProgram.initial])
  · exact structural_ok hcand

lemma before_room (skip : ℤ → Bool) : (before_screen_position ctx skip).lifts.length <
      (before_screen_position ctx skip).lift_capacity := by
  have hreg := registered_before ctx skip
  have hle := hreg.length_le fun lift hlift => (before_ok hlift).ne_nil
  rw [hreg.capacity]
  omega

/-! ## The analysis -/

lemma gapPosition_claims {x add : ℕ} {mov : Option ℕ} (h : GapMatch program x add mov) (i : ℤ) :
    i ∈ (readable_screen_position_lift (gapPosition x add mov)).claimed ↔
      ∃ k ∈ [x - 2, x - 1, x, add] ++ mov.toList, i = (k : ℕ) := by
  have htwo := h.projection.1
  rw [readable_screen_position_lift, mem_readable_claims]
  simp only [gapPosition, mem_append, mem_cons, not_mem_nil, or_false, mem_toList]
  constructor
  · rintro (⟨rfl | rfl | rfl | rfl, hpos⟩ | ⟨-, -, rfl⟩)
    · exact ⟨x - 2, by simp, by omega⟩
    · exact ⟨x, by simp, rfl⟩
    · cases mov with
      | none => exact absurd hpos (by simp [indexOr])
      | some m => exact ⟨m, by simp, rfl⟩
    · exact ⟨add, by simp, rfl⟩
    · exact ⟨x - 1, by simp, by omega⟩
  · rintro ⟨k, (rfl | rfl | rfl | rfl) | hmov, rfl⟩
    · exact .inl ⟨.inl (by omega), by omega⟩
    · exact .inr ⟨by omega, by omega, by omega⟩
    · exact .inl ⟨.inr (.inl rfl), by omega⟩
    · exact .inl ⟨.inr (.inr (.inr rfl)), by omega⟩
    · rw [hmov]
      exact .inl ⟨.inr (.inr (.inl rfl)), by omega⟩

lemma gapPosition_trigger {x add : ℕ} {mov : Option ℕ} (htwo : 2 ≤ x) :
    (readable_screen_position_lift (gapPosition x add mov)).trigger_instruction = (x : ℤ) - 2 := by
  refine if_pos ?_
  simp only [gapPosition]
  omega

/-- The match with a gap is registered when its instructions are free. -/
theorem admits_gap_iff {ctx : HLSLEmitterContext} {skip : ℤ → Bool} {x add : ℕ} {mov : Option ℕ}
    (h : GapMatch ctx.program x add mov) :
    Admits ctx.program.instruction_count (before_screen_position ctx skip)
        (readable_screen_position_lift (gapPosition x add mov)) ↔
      (before_screen_position ctx skip).before_lift ((x : ℤ) - 2) = none ∧
      ∀ i ∈ [x - 2, x - 1, x, add] ++ mov.toList,
        (before_screen_position ctx skip).claim_owner i = none := by
  have htwo := h.projection.1
  have htrigger := @gapPosition_trigger x add mov htwo
  have hx := scale_xzw_lt h.scale.1
  constructor
  · intro hadm
    refine ⟨?_, fun i hi => (hadm.claims i ((gapPosition_claims h i).mpr ⟨i, hi, rfl⟩)).2.2⟩
    have hfree := hadm.trigger
    rw [htrigger] at hfree
    exact (hfree (by omega)).2
  · rintro ⟨hbefore, hfree⟩
    refine ⟨fun _ => ?_, fun hneg => absurd hneg (by simp [readable_screen_position_lift]),
      fun i hi => ?_, before_room ctx skip⟩
    · rw [htrigger]
      exact ⟨by omega, hbefore⟩
    · obtain ⟨k, hk, rfl⟩ := (gapPosition_claims h i).mp hi
      refine ⟨by omega, ?_, hfree k hk⟩
      have hadd := offset_add_lt h.addition.2.1
      simp only [mem_append, mem_cons, not_mem_nil, or_false, mem_toList] at hk
      rcases hk with (rfl | rfl | rfl | rfl) | hmov
      · omega
      · omega
      · omega
      · omega
      · have hcopy := copy_zw_lt ((h.copy k).mp hmov).2.1
        omega

/-- The analysis registers the structural candidates, the screen position and the conditions. -/
theorem analyze_eq (skip : ℤ → Bool) : ∃ candidates, analyze_semantic_lifts ctx skip =
        registerAll ctx.program.instruction_count (registerAll ctx.program.instruction_count
          (before_screen_position ctx skip) (readable_screen_position_lifts ctx)) candidates ∧
      ∀ lift ∈ candidates, CandidateOk ctx lift :=
  truthiness_lifts_eq ctx _

lemma mem_readable_lifts {ctx : HLSLEmitterContext} : lift ∈ readable_screen_position_lifts ctx ↔
      0 ≤ lift.trigger_instruction ∧ ∃ pos, detect_readable_screen_pos_pattern ctx = some pos ∧
        readable_screen_position_lift pos = lift := by
  simp only [readable_screen_position_lifts, mem_filter, mem_toList,
    map_eq_some_iff, decide_eq_true_eq]
  exact And.comm

lemma registerAll_readable {ctx : HLSLEmitterContext}
    (h : lift ∈ (registerAll ctx.program.instruction_count semantic
      (readable_screen_position_lifts ctx)).lifts) :
    lift ∈ semantic.lifts ∨ ∃ pos, detect_readable_screen_pos_pattern ctx = some pos ∧
      readable_screen_position_lift pos = lift ∧
      Admits ctx.program.instruction_count semantic lift := by
  cases hpos : detect_readable_screen_pos_pattern ctx with
  | none =>
    rw [readable_screen_position_lifts, hpos] at h
    exact .inl h
  | some pos =>
    rw [readable_screen_position_lifts, hpos] at h
    simp only [Option.map_some, toList_some, filter_cons, filter_nil] at h
    split at h
    · rcases register_lift_cases ctx.program.instruction_count semantic
        (readable_screen_position_lift pos) with ⟨hadm, hrun⟩ | ⟨-, count, -, hrun⟩
      · simp only [registerAll, foldl_cons, foldl_nil, hrun] at h
        rcases mem_append.mp h with hold | hnew
        · exact .inl hold
        · obtain rfl := mem_singleton.mp hnew
          exact .inr ⟨pos, rfl, rfl, hadm⟩
      · simp only [registerAll, foldl_cons, foldl_nil, hrun] at h
        exact .inl h
    · exact .inl h

/-- A match with a gap that is free is among the lifts of the analysis. -/
theorem gap_registered {ctx : HLSLEmitterContext} {skip : ℤ → Bool}
    (huint : ctx.use_uint_temps = false) {x add : ℕ} {mov : Option ℕ}
    (h : GapMatch ctx.program x add mov)
    (hadm : Admits ctx.program.instruction_count (before_screen_position ctx skip)
      (readable_screen_position_lift (gapPosition x add mov))) :
    readable_screen_position_lift (gapPosition x add mov) ∈
      (analyze_semantic_lifts ctx skip).lifts := by
  obtain ⟨candidates, heq, -⟩ := analyze_eq ctx skip
  rw [heq]
  refine mem_lifts_registerAll ?_ candidates
  have htwo := h.projection.1
  have hlifts : readable_screen_position_lifts ctx =
      [readable_screen_position_lift (gapPosition x add mov)] := by
    rw [readable_screen_position_lifts, detect_of_gapMatch huint h]
    refine filter_eq_self.mpr fun lift hlift => ?_
    obtain rfl := mem_singleton.mp hlift
    refine decide_eq_true ?_
    rw [gapPosition_trigger htwo]
    omega
  rw [hlifts]
  rcases register_lift_cases ctx.program.instruction_count (before_screen_position ctx skip)
    (readable_screen_position_lift (gapPosition x add mov)) with ⟨-, hrun⟩ | ⟨hnot, -⟩
  · simp only [registerAll, foldl_cons, foldl_nil, hrun]
    exact mem_append_right _ (mem_singleton.mpr rfl)
  · exact absurd hadm hnot

/-- The lifts of the analysis claim only instructions that their detectors matched, and no others
are skipped than before. -/
def ClaimsOnlyMatched (skip : ℤ → Bool) : Prop :=
  let semantic := analyze_semantic_lifts ctx skip
  (∀ lift ∈ semantic.lifts, ∀ i ∈ lift.claimed, MatchedBy ctx lift i) ∧
    ∀ i, semantic.skip_instruction i = true →
      skip i = true ∨ ∃ lift ∈ semantic.lifts, i ∈ lift.claimed ∧ MatchedBy ctx lift i

lemma registered_analyze (skip : ℤ → Bool) :
    Registered ctx.program.instruction_count skip (analyze_semantic_lifts ctx skip) := by
  obtain ⟨candidates, heq, -⟩ := analyze_eq ctx skip
  rw [heq]
  exact ((registered_before ctx skip).registerAll _).registerAll _

/-- **What is claimed was matched**, unless a screen position swallows its gap. -/
theorem lifts_claim_matched_iff (ctx : HLSLEmitterContext) (skip : ℤ → Bool) :
    ClaimsOnlyMatched ctx skip ↔ ¬ SwallowsGap ctx (before_screen_position ctx skip) := by
  obtain ⟨candidates, heq, hok⟩ := analyze_eq ctx skip
  constructor
  · rintro ⟨hmatched, -⟩ ⟨huint, x, add, mov, hgap, hfree⟩
    have hadm := (@admits_gap_iff ctx skip x add mov hgap).mpr hfree
    refine gap_not_matched huint hgap (hmatched _ (gap_registered huint hgap hadm) _ ?_)
    have htwo := hgap.projection.1
    exact (gapPosition_claims hgap _).mpr ⟨x - 1, by simp, by omega⟩
  · intro hnot
    have hmatched : ∀ lift ∈ (analyze_semantic_lifts ctx skip).lifts,
        ∀ i ∈ lift.claimed, MatchedBy ctx lift i := by
      intro lift hlift
      rw [heq] at hlift
      rcases mem_registerAll hlift with hmid | hcondition
      · rcases registerAll_readable hmid with hbefore | ⟨pos, hpos, rfl, hadm⟩
        · exact (before_ok hbefore).matched
        · rcases readable_matched_or_gap hpos with hsafe | ⟨huint, x, add, mov, hgap, rfl⟩
          · exact hsafe
          · exact absurd ⟨huint, x, add, mov, hgap, (admits_gap_iff hgap).mp hadm⟩ hnot
      · exact (hok lift hcondition).matched
    refine ⟨hmatched, fun i hi => ?_⟩
    rcases ((registered_analyze ctx skip).skip_iff i).mp hi with hskip | ⟨lift, hlift, hclaimed, -⟩
    · exact .inl hskip
    · exact .inr ⟨lift, hlift, hclaimed, hmatched lift hlift i hclaimed⟩

/-! ### A program with a gap -/

def gapOperand (type : DXBCOperandType) (register_index : ℤ) (destination_mask : ℕ)
    (swizzle_mode : ℕ) (swizzle : Lanes ℕ) : DXBCOperand :=
  { DXBCOperand.zeroed with type, register_index, destination_mask, swizzle_mode, swizzle }

def gapInstruction (opcode : USILOpcode) (operands : List DXBCOperand) : USILInstruction :=
  { USILInstruction.zeroed with opcode, operands }

/-- `mul r1.y, r1.y, cb0[5].x`, `add r3.x, r0.x, r0.x`, `mul r2.xzw, r1.xxwy, l(0.5, 0, 0.5, 0.5)`,
`mov o1.zw, r1.zw` and `add o1.xy, r2.zzzz, r2.xwxx`. -/
def gapProgram : USILProgram where
  instructions := [
    gapInstruction .MUL [gapOperand .temp 1 32 0 ⟨0, 0, 0, 0⟩, gapOperand .temp 1 0 2 ⟨1, 0, 0, 0⟩,
      { gapOperand .constantBuffer 0 0 2 ⟨0, 0, 0, 0⟩ with rel_offset0 := 5 }],
    gapInstruction .ADD [gapOperand .temp 3 16 0 ⟨0, 0, 0, 0⟩, gapOperand .temp 0 0 2 ⟨0, 0, 0, 0⟩,
      gapOperand .temp 0 0 2 ⟨0, 0, 0, 0⟩],
    gapInstruction .MUL [gapOperand .temp 2 208 0 ⟨0, 0, 0, 0⟩, gapOperand .temp 1 0 1 ⟨0, 0, 3, 1⟩,
      { gapOperand .immediate32 0 0 0 ⟨0, 0, 0, 0⟩ with
        imm_values := ⟨0x3f000000, 0, 0x3f000000, 0x3f000000⟩
        imm_value_count := 4 }],
    gapInstruction .MOV [gapOperand .output 1 192 0 ⟨0, 0, 0, 0⟩,
      gapOperand .temp 1 0 1 ⟨0, 0, 2, 3⟩],
    gapInstruction .ADD [gapOperand .output 1 48 0 ⟨0, 0, 0, 0⟩, gapOperand .temp 2 0 1 ⟨2, 2, 2, 2⟩,
      gapOperand .temp 2 0 1 ⟨0, 3, 0, 0⟩]]
  temp_count := 4
  count_le := by decide

def gapContext : HLSLEmitterContext where
  program := gapProgram
  shader_type_model := "vs_5_0"
  icb_values := []
  use_uint_temps := false
  resolve_cb_variable_ctx _ _ _ := none
  component_value_unchanged _ _ _ _ := false
  hlsl_operand_definition _ _ _ := none

lemma gapMatch_gapProgram : GapMatch gapProgram 2 4 (some 3) where
  no_split := find_split_eq_none.mp (by decide +kernel)
  scale := by decide +kernel
  projection := by decide +kernel
  addition := find_offset_add.mp (by decide +kernel)
  copy := find_copy_iff.mp (by decide +kernel)
  gap := by decide

/-- The addition to `r3` belongs to no lift, and is skipped. -/
theorem gap_instruction_skipped : ¬ ClaimsOnlyMatched gapContext (fun _ => false) ∧
    (analyze_semantic_lifts gapContext fun _ => false).skip_instruction 1 = true := by
  have hfree : (before_screen_position gapContext fun _ => false).before_lift (((2 : ℕ) : ℤ) - 2) =
      none ∧ ∀ i ∈ [0, 1, 2, 4] ++ (some 3).toList,
        (before_screen_position gapContext fun _ => false).claim_owner (i : ℕ) = none := by
    decide +kernel
  have hadm := (admits_gap_iff gapMatch_gapProgram).mpr hfree
  have hlift := gap_registered rfl gapMatch_gapProgram hadm
  have hclaimed : (1 : ℤ) ∈ (readable_screen_position_lift (gapPosition 2 4 (some 3))).claimed := by
    decide
  constructor
  · rintro ⟨hmatched, -⟩
    exact gap_not_matched rfl gapMatch_gapProgram (hmatched _ hlift 1 hclaimed)
  · exact ((registered_analyze _ _).skip_iff 1).mpr (.inr ⟨_, hlift, hclaimed, by decide⟩)

/-! ## The registry of the analysis -/

/-- **The registry.** After any registrations the claims are disjoint, the tables name the lifts, and
there are no more than the capacity. A refusal changes only the count of conflicts. The analysis is
such a sequence, and every lift has room for its claims. -/
theorem semantic_lift_registry : (∀ (n : ℕ) (skip : ℤ → Bool) (candidates : List HLSLSemanticLift),
      let semantic := registerAll n (.initial n skip) candidates
      Registered n skip semantic ∧
      (∀ (id id' : ℕ) (lift lift' : HLSLSemanticLift), semantic.lifts[id]? = some lift →
        semantic.lifts[id']? = some lift' → id ≠ id' → ∀ i ∈ lift.claimed, i ∉ lift'.claimed) ∧
      ∀ lift ∈ semantic.lifts, lift ∈ candidates) ∧
    (∀ (n : ℕ) (semantic : HLSLSemanticProgram) (candidate : HLSLSemanticLift),
      (register_lift n semantic candidate).1 = false → ∃ conflict_count,
        (register_lift n semantic candidate).2 = { semantic with conflict_count }) ∧
    ∀ (ctx : HLSLEmitterContext) (skip : ℤ → Bool), ∃ candidates : List HLSLSemanticLift,
      (∀ candidate ∈ candidates, candidate.claimed.length ≤ claimedCapacity) ∧
      analyze_semantic_lifts ctx skip = registerAll ctx.program.instruction_count
        (.initial ctx.program.instruction_count skip) candidates := by
  refine ⟨fun n skip candidates => ?_, fun n semantic candidate hfalse => ?_, fun ctx skip => ?_⟩
  · have hregistered := (registered_initial n skip).registerAll candidates
    refine ⟨hregistered, fun id id' lift lift' => hregistered.claims_disjoint, fun lift hlift => ?_⟩
    rcases mem_registerAll hlift with hinitial | hcandidate
    · exact absurd hinitial (by simp [HLSLSemanticProgram.initial])
    · exact hcandidate
  · rcases register_lift_cases n semantic candidate with ⟨-, hrun⟩ | ⟨-, count, -, hrun⟩
    · rw [hrun] at hfalse
      simp at hfalse
    · exact ⟨count, by rw [hrun]⟩
  · obtain ⟨conditions, heq, hok⟩ := analyze_eq ctx skip
    refine ⟨structural_candidates ctx ++ readable_screen_position_lifts ctx ++ conditions, ?_, ?_⟩
    · intro candidate hcandidate
      rcases mem_append.mp hcandidate with hearly | hlate
      · rcases mem_append.mp hearly with hstructural | hreadable
        · exact (structural_ok hstructural).length_le
        · obtain ⟨-, pos, -, rfl⟩ := mem_readable_lifts.mp hreadable
          exact length_readable_claims pos
      · exact (hok candidate hlate).length_le
    · rw [heq, registerAll_append, registerAll_append]
      rfl

end HlslSemantic

end DXBCSandbox
