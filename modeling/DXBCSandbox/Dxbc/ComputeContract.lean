/-
What an accepted stage contract says about a compute program.

The shared memory of a thread group is read off its declarations (`sharedMemoryOf`): a raw
declaration names its size in bytes, a structured one a stride and a number of elements. Both
numbers are DWORDs of the container, so the product is bounded before it is kept. `ComputeStep`
lists what one instruction can do to this part of the walk, and `ComputeWalk` is what the walk
knows about the instructions it has passed.
-/
import DXBCSandbox.Dxbc.GeometryContract

namespace DXBCSandbox

open List Option Function Checks StageContract

namespace StageContract

section Instructions

variable (rt : UnityCommon) (document : DXBCDocument)

def tokenOf (i : DXBCDocumentInstruction) (k : ℕ) : ℕ :=
  ((dxbc_document_instruction_token rt document i k).getD 0).toNat

def declaredMemory (i : DXBCDocumentInstruction) : DXBCThreadGroupSharedMemoryContract where
  instruction_index := i.instruction_index
  register_id := tokenOf rt document i 2
  structured := i.opcode = OP_DCL_TGSM_STRUCTURED
  byte_stride := if i.opcode = OP_DCL_TGSM_STRUCTURED then tokenOf rt document i 3 else 0
  element_count := if i.opcode = OP_DCL_TGSM_STRUCTURED then tokenOf rt document i 4 else 0
  byte_count := tokenOf rt document i 3 *
    if i.opcode = OP_DCL_TGSM_STRUCTURED then tokenOf rt document i 4 else 1

def sharedMemoryOf (i : DXBCDocumentInstruction) : Option DXBCThreadGroupSharedMemoryContract :=
  if i.opcode = OP_DCL_TGSM_RAW ∨ i.opcode = OP_DCL_TGSM_STRUCTURED then
    some (declaredMemory rt document i)
  else none

/-- The three dimensions in a thread-group declaration. -/
def dimensionsOf (i : DXBCDocumentInstruction) : List ℕ :=
  [tokenOf rt document i 1, tokenOf rt document i 2, tokenOf rt document i 3]

end Instructions

def maximum_threads (shader_model_major : ℕ) : ℕ := if shader_model_major = 4 then 768 else 1024

structure ValidSharedMemory (memory : DXBCThreadGroupSharedMemoryContract) : Prop where
  register_lt : memory.register_id < 8192
  bytes_pos : 0 < memory.byte_count
  bytes_le : memory.byte_count ≤ 32768
  bytes_dvd : 4 ∣ memory.byte_count

/-! ## One instruction -/

/-- The part of the contract that a compute program is about. -/
structure ComputeView where
  shader_model_major : ℕ
  thread_group_size : Option (List ℕ)
  thread_group_shared_memory_bytes : ℕ
  thread_group_shared_memory : List DXBCThreadGroupSharedMemoryContract

def computeView (c : DXBCStageContract) : ComputeView where
  shader_model_major := c.shader_model_major
  thread_group_size := c.thread_group_size
  thread_group_shared_memory_bytes := c.thread_group_shared_memory_bytes
  thread_group_shared_memory := c.thread_group_shared_memory

inductive ComputeStep (rt : UnityCommon) (document : DXBCDocument) (i : DXBCDocumentInstruction)
    (v v' : ComputeView) : Prop where
  | size (hop : i.opcode = OP_DCL_THREAD_GROUP) (hnew : v.thread_group_size = none)
      (hpos : 0 < (dimensionsOf rt document i).prod)
      (hle : (dimensionsOf rt document i).prod ≤ maximum_threads v.shader_model_major)
      (hview : v' = { v with thread_group_size := some (dimensionsOf rt document i) })
  | memory (hop : i.opcode = OP_DCL_TGSM_RAW ∨ i.opcode = OP_DCL_TGSM_STRUCTURED)
      (hvalid : ValidSharedMemory (declaredMemory rt document i))
      (hnew : (declaredMemory rt document i).register_id ∉
        v.thread_group_shared_memory.map (·.register_id))
      (htotal : v.thread_group_shared_memory_bytes + (declaredMemory rt document i).byte_count
        ≤ 32768)
      (hview : v' = { v with
        thread_group_shared_memory :=
          v.thread_group_shared_memory ++ [declaredMemory rt document i]
        thread_group_shared_memory_bytes :=
          v.thread_group_shared_memory_bytes + (declaredMemory rt document i).byte_count })
  | other (hsize : i.opcode ≠ OP_DCL_THREAD_GROUP) (hmemory : sharedMemoryOf rt document i = none)
      (hview : v' = v)

section Step

variable {rt : UnityCommon} {document : DXBCDocument} {i : DXBCDocumentInstruction}
  {c c' : DXBCStageContract} {w w' : ContractWalk}

lemma tokenOf_eq {k : ℕ} {token : UInt32} (h : instruction_token rt document i k = .ok token) :
    tokenOf rt document i k = token.toNat := by
  rw [tokenOf, instruction_token_eq_ok h, getD_some]

/-- The loop over the axes reads one DWORD for each, and none of them is zero. -/
theorem thread_group_axes_eq_ok {maximum_threads maximum_z n axis : ℕ} {dimensions : List ℕ}
    (h : thread_group_axes rt document i maximum_threads maximum_z n axis = .ok dimensions) :
    dimensions = (List.range n).map (fun k => tokenOf rt document i (axis + k + 1)) ∧
      0 < dimensions.prod := by
  induction n generalizing axis dimensions with
  | zero =>
    rw [← pure_eq_ok.mp h]
    exact ⟨rfl, Nat.one_pos⟩
  | succ n ih =>
    obtain ⟨dimension, htoken, h⟩ := bind_eq_ok.mp h
    obtain ⟨hbad, h⟩ := ite_error_eq_ok.mp h
    obtain ⟨rest, hrest, h⟩ := bind_eq_ok.mp h
    obtain ⟨hrest, hpos⟩ := ih hrest
    have hdimension : 0 < dimension.toNat := Nat.pos_of_ne_zero fun hzero => hbad (Or.inl hzero)
    rw [← pure_eq_ok.mp h]
    constructor
    · rw [List.range_succ_eq_map, List.map_cons, List.map_map, Nat.add_zero, tokenOf_eq htoken,
        hrest]
      apply congrArg (dimension.toNat :: ·)
      apply map_congr_left
      intro k _
      rw [comp_apply, Nat.succ_eq_add_one, Nat.add_right_comm axis 1 k, Nat.add_assoc axis k 1]
    · rw [prod_cons]
      exact Nat.mul_pos hdimension hpos

lemma decode_thread_group_eq_ok (h : decode_thread_group rt document i c = .ok c') :
    c.thread_group_size = none ∧ 0 < (dimensionsOf rt document i).prod ∧
      (dimensionsOf rt document i).prod ≤ maximum_threads c.shader_model_major ∧
      computeView c' =
        { computeView c with thread_group_size := some (dimensionsOf rt document i) } := by
  obtain ⟨_, -, h⟩ := bind_eq_ok.mp h
  obtain ⟨hnew, h⟩ := ite_error_eq_ok.mp h
  obtain ⟨dimensions, haxes, h⟩ := bind_eq_ok.mp h
  obtain ⟨hle, h⟩ := ite_error_eq_ok.mp h
  obtain ⟨hdims, hpos⟩ := thread_group_axes_eq_ok haxes
  have hdims : dimensions = dimensionsOf rt document i := hdims
  subst hdims
  refine ⟨?_, hpos, not_lt.mp hle, ?_⟩
  · exact not_isSome_iff_eq_none.mp hnew
  · rw [← pure_eq_ok.mp h]
    rfl

lemma element_count_eq_ok {structured : Bool} {count : UInt32}
    (h : element_count rt document i structured = .ok count) :
    count.toNat = if structured then tokenOf rt document i 4 else 1 := by
  cases structured with
  | false =>
    rw [← pure_eq_ok.mp h]
    rfl
  | true => exact (tokenOf_eq h).symm

lemma four_dvd_of_land {stride : UInt32} (h : stride &&& 3 = 0) : 4 ∣ stride.toNat := by
  have hland : stride.toNat &&& 3 = 0 := congrArg UInt32.toNat h
  rw [Nat.and_two_pow_sub_one_eq_mod stride.toNat 2] at hland
  exact Nat.dvd_of_mod_eq_zero hland

/-- Every check is made before the numbers are kept, the product being taken in 64 bits. -/
theorem decode_shared_memory_eq_ok (h : decode_shared_memory rt document i c = .ok c') :
    ValidSharedMemory (declaredMemory rt document i) ∧ (declaredMemory rt document i).register_id ∉
        c.thread_group_shared_memory.map (·.register_id) ∧
      c.thread_group_shared_memory_bytes + (declaredMemory rt document i).byte_count ≤ 32768 ∧
      computeView c' = { computeView c with
        thread_group_shared_memory :=
          c.thread_group_shared_memory ++ [declaredMemory rt document i]
        thread_group_shared_memory_bytes :=
          c.thread_group_shared_memory_bytes + (declaredMemory rt document i).byte_count } := by
  obtain ⟨-, h⟩ := ite_error_eq_ok.mp h
  obtain ⟨control, -, h⟩ := bind_eq_ok.mp h
  obtain ⟨operand, -, h⟩ := bind_eq_ok.mp h
  obtain ⟨register_id, hreg, h⟩ := bind_eq_ok.mp h
  obtain ⟨stride, hstride, h⟩ := bind_eq_ok.mp h
  obtain ⟨count, hcnt, h⟩ := bind_eq_ok.mp h
  obtain ⟨-, h⟩ := ite_error_eq_ok.mp h
  obtain ⟨-, h⟩ := ite_error_eq_ok.mp h
  obtain ⟨hval, h⟩ := ite_error_eq_ok.mp h
  obtain ⟨hnew, h⟩ := ite_error_eq_ok.mp h
  rw [not_or, not_or, not_or, not_or, not_or] at hval
  obtain ⟨hlt, hstride0, halign, hcount0, hle, htotal⟩ := hval
  have hcnt := element_count_eq_ok hcnt
  simp only [decide_eq_true_eq] at hcnt
  have hbytes : (declaredMemory rt document i).byte_count = stride.toNat * count.toNat := by
    rw [hcnt, ← tokenOf_eq hstride]
    rfl
  have hid : (declaredMemory rt document i).register_id = register_id.toNat := tokenOf_eq hreg
  have hstride_pos : 0 < stride.toNat :=
    Nat.pos_of_ne_zero fun hzero => hstride0 (UInt32.toNat_inj.mp hzero)
  have hcount_pos : 0 < count.toNat :=
    Nat.pos_of_ne_zero fun hzero => hcount0 (UInt32.toNat_inj.mp hzero)
  refine ⟨⟨?_, ?_, ?_, ?_⟩, ?_, ?_, ?_⟩
  · rw [hid]
    exact not_le.mp hlt
  · rw [hbytes]
    exact Nat.mul_pos hstride_pos hcount_pos
  · rw [hbytes]
    exact not_lt.mp hle
  · rw [hbytes]
    exact Nat.dvd_mul_right_of_dvd (four_dvd_of_land (not_not.mp halign)) _
  · intro hmem
    apply hnew
    obtain ⟨memory, hmem, hsame⟩ := List.mem_map.mp hmem
    rw [List.any_eq_true]
    exact ⟨memory, hmem, decide_eq_true (hsame.trans hid)⟩
  · rw [hbytes, Nat.add_comm]
    exact not_lt.mp htotal
  · rw [← pure_eq_ok.mp h, hbytes]
    simp only [computeView, declaredMemory, ← tokenOf_eq hreg, ← tokenOf_eq hstride, hcnt]
    split_ifs <;> rfl

lemma computeStep_declaration (hop : i.opcode = OP_DCL_THREAD_GROUP ∨
      i.opcode = OP_DCL_TGSM_RAW ∨ i.opcode = OP_DCL_TGSM_STRUCTURED)
    (h : compute_declaration rt document i w = .ok w') :
    ComputeStep rt document i (computeView w.contract) (computeView w'.contract) := by
  unfold compute_declaration at h
  obtain ⟨-, h⟩ := ite_error_eq_ok.mp h
  obtain ⟨-, h⟩ := ite_error_eq_ok.mp h
  by_cases hsize : i.opcode = OP_DCL_THREAD_GROUP
  · rw [if_pos hsize] at h
    obtain ⟨c, hc, h⟩ := bind_eq_ok.mp h
    obtain ⟨hnew, hpos, hle, hview⟩ := decode_thread_group_eq_ok hc
    refine .size hsize hnew hpos hle ?_
    rw [← pure_eq_ok.mp h]
    exact hview
  · rw [if_neg hsize] at h
    obtain ⟨c, hc, h⟩ := bind_eq_ok.mp h
    obtain ⟨hvalid, hnew, htotal, hview⟩ := decode_shared_memory_eq_ok hc
    refine .memory (hop.resolve_left hsize) hvalid hnew htotal ?_
    rw [← pure_eq_ok.mp h]
    exact hview

/-- What is left for a compute program behind the switch changes no part of the contract. -/
theorem computeView_other (hhull : w.contract.program_type ≠ some .hull)
    (h : other_instruction i w = .ok w') : w'.contract = w.contract := by
  unfold other_instruction at h
  dsimp only at h
  by_cases hop : is_declaration_opcode i.opcode = true
  · rw [if_pos hop] at h
    obtain ⟨-, h⟩ := ite_error_eq_ok.mp h
    rw [pure_eq_ok.mp h]
  · rw [if_neg hop] at h
    obtain ⟨-, h⟩ := ite_error_eq_ok.mp h
    rw [if_neg hhull] at h
    rw [← pure_eq_ok.mp h]

lemma sync_keeps (h : sync_instruction rt document i w = .ok w') :
    computeView w'.contract = computeView w.contract := by
  unfold sync_instruction at h
  obtain ⟨-, h⟩ := ite_error_eq_ok.mp h
  obtain ⟨c, hc, h⟩ := bind_eq_ok.mp h
  obtain ⟨flags, -, hc⟩ := bind_eq_ok.mp hc
  obtain ⟨-, hc⟩ := ite_error_eq_ok.mp hc
  rw [← pure_eq_ok.mp h, ← pure_eq_ok.mp hc]
  rfl

/-- **One instruction of a compute program.** The branches of the other stages refuse it. -/
theorem computeStep_of_decode (htype : w.contract.program_type = some .compute)
    (h : decode_instruction_contract rt document i w = .ok w') :
    ComputeStep rt document i (computeView w.contract) (computeView w'.contract) := by
  have hother : ∀ t, t ≠ .compute → w.contract.program_type ≠ some t := fun t ht heq =>
    ht (some.inj (heq.symm.trans htype))
  have hhull := hother .hull (by decide)
  have hgeo := hother .geometry (by decide)
  replace h := decode_untessellated hhull (hother .domain (by decide)) h
  by_cases hop : i.opcode = OP_DCL_THREAD_GROUP ∨ i.opcode = OP_DCL_TGSM_RAW ∨
      i.opcode = OP_DCL_TGSM_STRUCTURED
  · rw [if_pos hop] at h
    exact computeStep_declaration hop h
  rw [if_neg hop] at h
  rw [not_or] at hop
  have hmemory : sharedMemoryOf rt document i = none := by
    rw [sharedMemoryOf, if_neg hop.2]
  split_ifs at h
  · exact .other hop.1 hmemory (sync_keeps h)
  · rw [geometry_effect, if_pos hgeo] at h
    nomatch h
  · rw [geometry_declaration, if_pos hgeo] at h
    nomatch h
  · exact .other hop.1 hmemory (congrArg computeView (computeView_other hhull h))

/-! ## The whole walk -/

structure ComputeWalk (rt : UnityCommon) (document : DXBCDocument)
    (done : List DXBCDocumentInstruction) (v : ComputeView) : Prop where
  memory : v.thread_group_shared_memory = done.filterMap (sharedMemoryOf rt document)
  valid : ∀ m ∈ v.thread_group_shared_memory, ValidSharedMemory m
  registers : (v.thread_group_shared_memory.map (·.register_id)).Nodup
  total : v.thread_group_shared_memory_bytes =
    (v.thread_group_shared_memory.map (·.byte_count)).sum
  total_le : v.thread_group_shared_memory_bytes ≤ 32768
  size : ∀ dimensions, v.thread_group_size = some dimensions →
    (∃ i ∈ done, i.opcode = OP_DCL_THREAD_GROUP ∧ dimensionsOf rt document i = dimensions) ∧
      0 < dimensions.prod ∧ dimensions.prod ≤ maximum_threads v.shader_model_major

variable {done : List DXBCDocumentInstruction} {v v' : ComputeView}

lemma ComputeWalk.start {start : DXBCStageContract} (h : Fresh start) :
    ComputeWalk rt document [] (computeView start) where
  memory := h.thread_group_shared_memory
  valid := by
    intro m hm
    have hm : m ∈ start.thread_group_shared_memory := hm
    rw [h.thread_group_shared_memory] at hm
    cases hm
  registers := by
    show (start.thread_group_shared_memory.map _).Nodup
    rw [h.thread_group_shared_memory]
    exact nodup_nil
  total := by
    show start.thread_group_shared_memory_bytes = (start.thread_group_shared_memory.map _).sum
    rw [h.thread_group_shared_memory_bytes, h.thread_group_shared_memory]
    rfl
  total_le := by
    show start.thread_group_shared_memory_bytes ≤ 32768
    rw [h.thread_group_shared_memory_bytes]
    exact Nat.zero_le _
  size := by
    intro dimensions hsize
    exact absurd (h.thread_group_size.symm.trans hsize) (by simp)

lemma ComputeWalk.size_mono (h : ComputeWalk rt document done v) (dimensions : List ℕ)
    (hsize : v.thread_group_size = some dimensions) :
    (∃ j ∈ done ++ [i], j.opcode = OP_DCL_THREAD_GROUP ∧ dimensionsOf rt document j = dimensions) ∧
      0 < dimensions.prod ∧ dimensions.prod ≤ maximum_threads v.shader_model_major := by
  obtain ⟨⟨j, hj, hop⟩, hbnds⟩ := h.size dimensions hsize
  exact ⟨⟨j, mem_append_left _ hj, hop⟩, hbnds⟩

/-- **The step of the walk.** -/
theorem ComputeWalk.step (h : ComputeWalk rt document done v)
    (hstep : ComputeStep rt document i v v') : ComputeWalk rt document (done ++ [i]) v' := by
  cases hstep with
  | size hop hnew hpos hle hview =>
    have hmemory : sharedMemoryOf rt document i = none := by
      rw [sharedMemoryOf, if_neg]
      rw [hop]
      decide
    rw [hview]
    refine ⟨?_, h.valid, h.registers, h.total, h.total_le, ?_⟩
    · rw [filterMap_append, ← h.memory, filterMap_cons_none hmemory, filterMap_nil, append_nil]
    · intro dimensions hsize
      obtain rfl := some.inj hsize
      exact ⟨⟨i, mem_append_right _ mem_cons_self, hop, rfl⟩, hpos, hle⟩
  | memory hop hvalid hnew htotal hview =>
    have hmemory : sharedMemoryOf rt document i = some (declaredMemory rt document i) := by
      rw [sharedMemoryOf, if_pos hop]
    rw [hview]
    refine ⟨?_, ?_, ?_, ?_, htotal, h.size_mono⟩
    · rw [filterMap_append, ← h.memory, filterMap_cons_some hmemory, filterMap_nil]
    · intro m hm
      rcases mem_append.mp hm with hm | hm
      · exact h.valid m hm
      · rw [mem_singleton.mp hm]
        exact hvalid
    · rw [map_append, map_singleton, ← concat_eq_append]
      exact List.Nodup.concat hnew h.registers
    · rw [map_append, map_singleton, sum_append, sum_singleton, ← h.total]
  | other hsize hmemory hview =>
    rw [hview]
    refine ⟨?_, h.valid, h.registers, h.total, h.total_le, h.size_mono⟩
    rw [filterMap_append, ← h.memory, filterMap_cons_none hmemory, filterMap_nil, append_nil]

/-- **The whole walk.** -/
theorem decode_instructions_compute {rest : List DXBCDocumentInstruction}
    (h : ComputeWalk rt document [] (computeView w.contract))
    (htype : w.contract.program_type = some .compute)
    (hrun : decode_instructions rt document rest w = .ok w') :
    ComputeWalk rt document rest (computeView w'.contract) :=
  (decode_instructions_keeps (fun done w => ComputeWalk rt document done (computeView w.contract) ∧
    w.contract.program_type = some .compute) (fun h hnext =>
      ⟨h.1.step (computeStep_of_decode h.2 hnext),
        (contractStep_of_decode hnext).program_type.trans h.2⟩) ⟨h, htype⟩ hrun).1

lemma finish_compute {seen_hs_decls seen_phase : Bool} (htype : c.program_type = some .compute)
    (h : finish_contract c seen_hs_decls seen_phase = .ok ()) :
    ∃ dimensions, c.thread_group_size = some dimensions := by
  unfold finish_contract at h
  rw [htype] at h
  exact isSome_iff_exists.mp (require_declaration_eq_ok h)

end Step

end StageContract

structure DXBCStageContract.ComputeProgram (rt : UnityCommon) (document : DXBCDocument)
    (contract : DXBCStageContract) : Prop where
  /-- The shared memory is that of the declarations, in their order. -/
  memory : contract.thread_group_shared_memory =
    document.instructions.filterMap (sharedMemoryOf rt document)
  registers : (contract.thread_group_shared_memory.map (·.register_id)).Nodup
  register_lt : ∀ m ∈ contract.thread_group_shared_memory, m.register_id < 8192
  structured : ∀ m ∈ contract.thread_group_shared_memory, m.structured = true →
    m.byte_count = m.byte_stride * m.element_count
  /-- Raw memory has no stride and no elements, only the size of its declaration. -/
  raw : ∀ m ∈ contract.thread_group_shared_memory, m.structured = false →
    m.byte_stride = 0 ∧ m.element_count = 0 ∧
      ∃ i ∈ document.instructions, i.opcode = OP_DCL_TGSM_RAW ∧
        m.byte_count = tokenOf rt document i 3
  /-- No product wraps. -/
  bytes : ∀ m ∈ contract.thread_group_shared_memory,
    0 < m.byte_count ∧ m.byte_count ≤ 32768 ∧ 4 ∣ m.byte_count
  total : contract.thread_group_shared_memory_bytes =
    (contract.thread_group_shared_memory.map (·.byte_count)).sum
  total_le : contract.thread_group_shared_memory_bytes ≤ 32768
  thread_group : ∃ x y z, contract.thread_group_size = some [x, y, z] ∧ 1 ≤ x * y * z ∧
    x * y * z ≤ maximum_threads contract.shader_model_major

lemma mem_sharedMemory {rt : UnityCommon} {document : DXBCDocument}
    {instructions : List DXBCDocumentInstruction} {m : DXBCThreadGroupSharedMemoryContract}
    (h : m ∈ instructions.filterMap (sharedMemoryOf rt document)) :
    ∃ i ∈ instructions, (i.opcode = OP_DCL_TGSM_RAW ∨ i.opcode = OP_DCL_TGSM_STRUCTURED) ∧
      m = declaredMemory rt document i := by
  obtain ⟨i, hi, hm⟩ := mem_filterMap.mp h
  rw [sharedMemoryOf] at hm
  by_cases hop : i.opcode = OP_DCL_TGSM_RAW ∨ i.opcode = OP_DCL_TGSM_STRUCTURED
  · rw [if_pos hop] at hm
    exact ⟨i, hi, hop, (some.inj hm).symm⟩
  · rw [if_neg hop] at hm
    nomatch hm

lemma computeProgram_of_decode {rt : UnityCommon} {bytes : Bytes} {document : DXBCDocument}
    {contract : DXBCStageContract} (hparse : parse_document rt bytes = .ok document)
    (h : decode_document_internal rt document = .ok contract)
    (htype : contract.program_type = some .compute) : contract.ComputeProgram rt document := by
  obtain ⟨executable, start, w, -, hfresh, -, hrun, hctr, hfinish⟩ :=
    decode_document_internal_parts hparse h
  obtain ⟨dimensions, hdims⟩ := finish_compute htype hfinish
  have hstart : start.program_type = some .compute := by
    rw [← htype, hctr]
    exact (decode_instructions_program_type hrun).symm
  have hwalk : ComputeWalk rt document document.instructions (computeView w.contract) :=
    decode_instructions_compute (.start hfresh) hstart hrun
  -- The last phase is a matter of hull programs; the rest of the contract is that of the walk.
  have hview : computeView w.contract = computeView contract := by
    rw [hctr]
    rfl
  rw [hview] at hwalk
  have hmem : ∀ m ∈ contract.thread_group_shared_memory, ∃ i ∈ document.instructions,
      (i.opcode = OP_DCL_TGSM_RAW ∨ i.opcode = OP_DCL_TGSM_STRUCTURED) ∧
        m = declaredMemory rt document i := by
    intro m hm
    have hm : m ∈ (computeView contract).thread_group_shared_memory := hm
    rw [hwalk.memory] at hm
    exact mem_sharedMemory hm
  refine ⟨hwalk.memory, hwalk.registers, fun m hm => (hwalk.valid m hm).register_lt, ?_, ?_, ?_,
    hwalk.total, hwalk.total_le, ?_⟩
  · intro m hm hstruct
    obtain ⟨i, -, -, rfl⟩ := hmem m hm
    have hop : i.opcode = OP_DCL_TGSM_STRUCTURED := of_decide_eq_true hstruct
    simp only [declaredMemory, if_pos hop]
  · intro m hm hraw
    obtain ⟨i, hi, hop, rfl⟩ := hmem m hm
    have hstruct : ¬ i.opcode = OP_DCL_TGSM_STRUCTURED := of_decide_eq_false hraw
    refine ⟨if_neg hstruct, if_neg hstruct, i, hi, hop.resolve_right hstruct, ?_⟩
    simp only [declaredMemory, if_neg hstruct, Nat.mul_one]
  · intro m hm
    exact ⟨(hwalk.valid m hm).bytes_pos, (hwalk.valid m hm).bytes_le, (hwalk.valid m hm).bytes_dvd⟩
  · obtain ⟨⟨i, -, -, rfl⟩, hpos, hle⟩ := hwalk.size dimensions hdims
    refine ⟨_, _, _, hdims, ?_⟩
    simp only [dimensionsOf, prod_cons, prod_nil, Nat.mul_one, ← Nat.mul_assoc] at hpos hle
    exact ⟨hpos, hle⟩

/-- **An accepted compute contract describes its program.** The shared memory is that of the
declarations, in distinct registers below the limit; a structured piece has stride times elements
bytes, and a raw one the bytes it declares, neither having wrapped; the sum of all pieces is exact
and fits; and the group has at least one thread and at most those of its profile. -/
theorem dxbc_stage_contract_compute_program (rt : UnityCommon) (document : DXBCDocument)
    (bytes : Option Bytes) (semantic_container : Option DXBCContainer)
    (out_contract : DXBCStageContract)
    (hparse : (dxbc_document_parse rt document bytes).1 = true) :
    let parsed := (dxbc_document_parse rt document bytes).2.1
    let decoded := dxbc_stage_contract_decode rt parsed semantic_container out_contract
    decoded.1 = true → decoded.2.1.program_type = some .compute →
      decoded.2.1.ComputeProgram rt parsed := by
  intro parsed decoded hdecoded htype
  obtain ⟨data, hdata⟩ := parse_document_of_parse hparse
  rcases decode_cases rt parsed semantic_container out_contract with
    ⟨-, hcontract⟩ | ⟨hfalse, -⟩
  · exact computeProgram_of_decode hdata hcontract htype
  · exact absurd (hdecoded.symm.trans hfalse) (by simp)

/-- A compute program with 8·4·2 threads, 256 raw bytes and 32 elements of 16 bytes. -/
def sharedMemoryContainer : Bytes :=
  [68, 88, 66, 67, 169, 149, 94, 240, 168, 227, 22, 19, 100, 96, 168, 8, 111, 183, 139, 210,
   1, 0, 0, 0, 108, 0, 0, 0, 1, 0, 0, 0, 36, 0, 0, 0, 83, 72, 69, 88,
   64, 0, 0, 0, 80, 0, 5, 0, 16, 0, 0, 0, 155, 0, 0, 4, 8, 0, 0, 0,
   4, 0, 0, 0, 2, 0, 0, 0, 159, 0, 0, 4, 0, 240, 17, 0, 0, 0, 0, 0,
   0, 1, 0, 0, 160, 0, 0, 5, 0, 240, 17, 0, 1, 0, 0, 0, 16, 0, 0, 0,
   32, 0, 0, 0, 62, 0, 0, 1]

def sharedMemoryDocument : DXBCDocument :=
  (dxbc_document_parse .reference dxbc_document_init (some sharedMemoryContainer)).2.1

def sharedMemoryContract : Bool × DXBCStageContract × DXBCStageContractDiagnostic :=
  dxbc_stage_contract_decode .reference sharedMemoryDocument none dxbc_stage_contract_init

/-- It is accepted with its two pieces of shared memory. -/
theorem dxbc_stage_contract_shared_memory : sharedMemoryContract.1 = true ∧
      sharedMemoryContract.2.1.thread_group_shared_memory_bytes = 768 ∧
      sharedMemoryContract.2.1.ComputeProgram .reference sharedMemoryDocument := by
  have hparse : (dxbc_document_parse .reference dxbc_document_init
      (some sharedMemoryContainer)).1 = true := by decide +kernel
  have hfacts : sharedMemoryContract.1 = true ∧
      sharedMemoryContract.2.1.thread_group_shared_memory_bytes = 768 ∧
      sharedMemoryContract.2.1.program_type = some .compute := by decide +kernel
  have hspec := dxbc_stage_contract_compute_program .reference dxbc_document_init
    (some sharedMemoryContainer) none dxbc_stage_contract_init hparse
  refine ⟨hfacts.1, hfacts.2.1, ?_⟩
  unfold sharedMemoryContract sharedMemoryDocument at hfacts ⊢
  exact hspec hfacts.1 hfacts.2.2

/-- Its raw memory has 256 bytes, but neither a stride nor elements. -/
theorem dxbc_stage_contract_raw_memory :
    (dxbc_document_parse .reference dxbc_document_init (some sharedMemoryContainer)).1 = true ∧
      sharedMemoryContract.1 = true ∧
      sharedMemoryContract.2.1.program_type = some .compute ∧
      ¬ ∀ m ∈ sharedMemoryContract.2.1.thread_group_shared_memory,
        m.byte_count = m.byte_stride * m.element_count := by
  decide +kernel

end DXBCSandbox
