/-
What an accepted stage contract says about a geometry program.

The effects of the contract are read off the instructions (`effectOf`), a stream is declared by a
`dcl_stream`, and a topology belongs to the stream that was declared last before it. `GeometryStep`
lists what one instruction can do to this part of the walk, and `GeometryWalk` is what the walk
knows about the instructions it has passed.
-/
import DXBCSandbox.Dxbc.StageContractSpec

namespace DXBCSandbox

open List Option Checks StageContract

namespace StageContract

section Instructions

variable (rt : UnityCommon) (document : DXBCDocument)

def streamOf (i : DXBCDocumentInstruction) : ℕ :=
  ((dxbc_document_instruction_token rt document i 2).getD 0).toNat

def topologyOf (i : DXBCDocumentInstruction) : Option DXBCOutputTopology :=
  (dxbc_document_instruction_token rt document i 0).bind fun token =>
    valid_output_topology ((token >>> 11) &&& 0x1fff)

def effectOf (i : DXBCDocumentInstruction) : Option DXBCGeometryEffectContract :=
  if i.opcode = OP_EMIT then some ⟨.append, i.instruction_index, 0, false⟩
  else if i.opcode = OP_CUT then some ⟨.restartStrip, i.instruction_index, 0, false⟩
  else if i.opcode = OP_EMIT_STREAM then
    some ⟨.append, i.instruction_index, streamOf rt document i, true⟩
  else if i.opcode = OP_CUT_STREAM then
    some ⟨.restartStrip, i.instruction_index, streamOf rt document i, true⟩
  else none

variable (instructions : List DXBCDocumentInstruction)

def DeclaresStream (stream : ℕ) : Prop :=
  ∃ i ∈ instructions, i.opcode = OP_DCL_STREAM ∧ streamOf rt document i = stream

/-- The stream that the next topology belongs to: the last one declared, and stream 0 before any
declaration. -/
def currentStream : ℕ :=
  ((instructions.filter fun i => i.opcode = OP_DCL_STREAM).getLast?.map
    (streamOf rt document)).getD 0

def DeclaresTopology (stream : ℕ) (topology : DXBCOutputTopology) : Prop :=
  ∃ before i after, instructions = before ++ i :: after ∧ i.opcode = OP_DCL_OUTPUT_TOPOLOGY ∧
    currentStream rt document before = stream ∧ topologyOf rt document i = some topology

end Instructions

/-! ## Masks -/

lemma testBit_add_stream {mask stream s : ℕ} :
    (mask ||| 2 ^ stream).testBit s = true ↔ mask.testBit s = true ∨ stream = s := by
  rw [Nat.testBit_or, Bool.or_eq_true, Nat.testBit_two_pow, decide_eq_true_iff]

/-! ## One instruction -/

/-- The part of the walk that a geometry program is about. -/
structure GeometryView where
  output_topology : Option DXBCOutputTopology
  output_topology_stream_mask : ℕ
  declared_stream_mask : ℕ
  referenced_stream_mask : ℕ
  geometry_effects : List DXBCGeometryEffectContract
  current_geometry_stream : ℕ

def geometryView (w : ContractWalk) : GeometryView where
  output_topology := w.contract.output_topology
  output_topology_stream_mask := w.contract.output_topology_stream_mask
  declared_stream_mask := w.contract.declared_stream_mask
  referenced_stream_mask := w.contract.referenced_stream_mask
  geometry_effects := w.contract.geometry_effects
  current_geometry_stream := w.current_geometry_stream

inductive GeometryStep (rt : UnityCommon) (document : DXBCDocument) (i : DXBCDocumentInstruction)
    (v v' : GeometryView) : Prop where
  | effect (effect : DXBCGeometryEffectContract) (heffect : effectOf rt document i = some effect)
      (hstream : i.opcode ≠ OP_DCL_STREAM) (htopology : i.opcode ≠ OP_DCL_OUTPUT_TOPOLOGY)
      (hview : v' = { v with
        geometry_effects := v.geometry_effects ++ [effect]
        referenced_stream_mask := v.referenced_stream_mask ||| 2 ^ effect.stream_id })
  | stream (hop : i.opcode = OP_DCL_STREAM)
      (hview : v' = { v with
        declared_stream_mask := v.declared_stream_mask ||| 2 ^ streamOf rt document i
        current_geometry_stream := streamOf rt document i })
  | topology (hop : i.opcode = OP_DCL_OUTPUT_TOPOLOGY) (topology : DXBCOutputTopology)
      (htopology : topologyOf rt document i = some topology)
      (hcommon : ∀ t, v.output_topology = some t → t = topology)
      (hview : v' = { v with
        output_topology := some topology
        output_topology_stream_mask :=
          v.output_topology_stream_mask ||| 2 ^ v.current_geometry_stream })
  | other (heffect : effectOf rt document i = none) (hstream : i.opcode ≠ OP_DCL_STREAM)
      (htopology : i.opcode ≠ OP_DCL_OUTPUT_TOPOLOGY) (hview : v' = v)

section Step

variable {rt : UnityCommon} {document : DXBCDocument} {i : DXBCDocumentInstruction}
  {w w' : ContractWalk}

lemma instruction_token_eq_ok {k : ℕ} {token : UInt32}
    (h : instruction_token rt document i k = .ok token) :
    dxbc_document_instruction_token rt document i k = some token := by
  unfold instruction_token at h
  split at h
  next value hval => rw [hval, pure_eq_ok.mp h]
  next => nomatch h

lemma declaration_header_eq_ok {n : ℕ} {control : UInt32}
    (h : declaration_header rt document i n = .ok control) :
    ∃ token, dxbc_document_instruction_token rt document i 0 = some token ∧
      control = (token >>> 11) &&& 0x1fff := by
  obtain ⟨token, htoken, h⟩ := bind_eq_ok.mp h
  obtain ⟨-, h⟩ := ite_error_eq_ok.mp h
  obtain ⟨-, h⟩ := ite_error_eq_ok.mp h
  exact ⟨token, instruction_token_eq_ok htoken, (pure_eq_ok.mp h).symm⟩

variable {stream : ℕ}

lemma effect_stream_eq_ok {explicit_stream : Bool}
    (h : effect_stream rt document i explicit_stream = .ok stream) :
    stream = if explicit_stream then streamOf rt document i else 0 := by
  cases explicit_stream with
  | false => exact (pure_eq_ok.mp h).symm
  | true =>
    obtain ⟨_, -, h⟩ := bind_eq_ok.mp h
    obtain ⟨token, htoken, h⟩ := bind_eq_ok.mp h
    obtain ⟨-, h⟩ := ite_error_eq_ok.mp h
    obtain ⟨-, h⟩ := ite_error_eq_ok.mp h
    rw [if_pos rfl, streamOf, instruction_token_eq_ok htoken, ← pure_eq_ok.mp h]
    rfl

lemma effectOf_eq (hop : i.opcode = OP_EMIT ∨ i.opcode = OP_CUT ∨ i.opcode = OP_EMIT_STREAM ∨
      i.opcode = OP_CUT_STREAM) :
    effectOf rt document i = some
      ⟨if i.opcode = OP_EMIT ∨ i.opcode = OP_EMIT_STREAM then .append else .restartStrip,
        i.instruction_index,
        if i.opcode = OP_EMIT_STREAM ∨ i.opcode = OP_CUT_STREAM then streamOf rt document i else 0,
        i.opcode = OP_EMIT_STREAM ∨ i.opcode = OP_CUT_STREAM⟩ := by
  unfold effectOf
  rcases hop with hop | hop | hop | hop <;> rw [hop] <;> rfl

lemma geometryStep_effect (hop : i.opcode = OP_EMIT ∨ i.opcode = OP_CUT ∨
      i.opcode = OP_EMIT_STREAM ∨ i.opcode = OP_CUT_STREAM)
    (h : geometry_effect rt document i w = .ok w') :
    GeometryStep rt document i (geometryView w) (geometryView w') := by
  obtain ⟨-, h⟩ := ite_error_eq_ok.mp h
  obtain ⟨c, hc, h⟩ := bind_eq_ok.mp h
  obtain ⟨_, -, hc⟩ := bind_eq_ok.mp hc
  obtain ⟨stream, hstream, hc⟩ := bind_eq_ok.mp hc
  have hstream := effect_stream_eq_ok hstream
  refine .effect _ (effectOf_eq hop) ?_ ?_ ?_
  · rcases hop with hop | hop | hop | hop <;> rw [hop] <;> decide
  · rcases hop with hop | hop | hop | hop <;> rw [hop] <;> decide
  · rw [← pure_eq_ok.mp h, ← pure_eq_ok.mp hc, hstream]
    simp only [geometryView, decide_eq_true_eq]

variable {c : DXBCStageContract}

lemma decode_stream_eq_ok {c' : DXBCStageContract}
    (h : decode_stream rt document i c = .ok (c', stream)) :
    stream = streamOf rt document i ∧
      c' = { c with declared_stream_mask := c.declared_stream_mask ||| 2 ^ stream } := by
  simp only [decode_stream, failAt, fail, bind_eq_ok, ite_error_eq_ok] at h
  obtain ⟨_, -, _, -, token, htoken, -, -, -, -, h⟩ := h
  have hres := pure_eq_ok.mp h
  have hstream : token.toNat = stream := congrArg Prod.snd hres
  have hctr := congrArg Prod.fst hres
  rw [← hstream, streamOf, instruction_token_eq_ok htoken]
  exact ⟨rfl, hctr.symm⟩

variable {topology : DXBCOutputTopology}

lemma decode_topology_eq_ok {present : Bool}
    (h : decode_enum_declaration rt document i present valid_output_topology = .ok topology) :
    topologyOf rt document i = some topology := by
  obtain ⟨control, hctl, h⟩ := bind_eq_ok.mp h
  obtain ⟨token, htoken, rfl⟩ := declaration_header_eq_ok hctl
  obtain ⟨-, h⟩ := ite_error_eq_ok.mp h
  rw [topologyOf, htoken, bind_some]
  split at h
  next => nomatch h
  next value hval => rw [hval, pure_eq_ok.mp h]

lemma effectOf_eq_none (hemit : i.opcode ≠ OP_EMIT) (hcut : i.opcode ≠ OP_CUT)
    (hemit_stream : i.opcode ≠ OP_EMIT_STREAM) (hcut_stream : i.opcode ≠ OP_CUT_STREAM) :
    effectOf rt document i = none := by
  rw [effectOf, if_neg hemit, if_neg hcut, if_neg hemit_stream, if_neg hcut_stream]

lemma geometryStep_declaration (heffect : effectOf rt document i = none)
    (h : geometry_declaration rt document i w = .ok w') :
    GeometryStep rt document i (geometryView w) (geometryView w') := by
  unfold geometry_declaration at h
  obtain ⟨-, h⟩ := ite_error_eq_ok.mp h
  dsimp only at h
  by_cases hinput : i.opcode = OP_DCL_INPUT_PRIMITIVE
  · rw [if_pos hinput] at h
    obtain ⟨_, -, h⟩ := bind_eq_ok.mp h
    refine .other heffect ?_ ?_ ?_
    · rw [hinput]
      decide
    · rw [hinput]
      decide
    · rw [← pure_eq_ok.mp h]
      rfl
  rw [if_neg hinput] at h
  by_cases htop : i.opcode = OP_DCL_OUTPUT_TOPOLOGY
  · rw [if_pos htop] at h
    obtain ⟨topology, hval, h⟩ := bind_eq_ok.mp h
    obtain ⟨hcom, h⟩ := ite_error_eq_ok.mp h
    refine .topology htop topology (decode_topology_eq_ok hval) ?_ ?_
    · intro t ht
      have ht : w.contract.output_topology = some t := ht
      rw [ht] at hcom
      simpa using hcom
    · rw [← pure_eq_ok.mp h]
      rfl
  rw [if_neg htop] at h
  by_cases hcnt : i.opcode = OP_DCL_MAX_OUTPUT_VERTEX_COUNT
  · rw [if_pos hcnt] at h
    obtain ⟨_, -, h⟩ := bind_eq_ok.mp h
    refine .other heffect ?_ htop ?_
    · rw [hcnt]
      decide
    · rw [← pure_eq_ok.mp h]
      rfl
  rw [if_neg hcnt] at h
  by_cases hstream : i.opcode = OP_DCL_STREAM
  · rw [if_pos hstream] at h
    obtain ⟨⟨c, stream⟩, hdecode, h⟩ := bind_eq_ok.mp h
    obtain ⟨hval, hc⟩ := decode_stream_eq_ok hdecode
    refine .stream hstream ?_
    rw [← pure_eq_ok.mp h, hc, hval]
    rfl
  · rw [if_neg hstream] at h
    obtain ⟨_, -, h⟩ := bind_eq_ok.mp h
    refine .other heffect hstream htop ?_
    rw [← pure_eq_ok.mp h]
    rfl

/-- What is left for a geometry program behind the switch changes no part of the contract. -/
theorem geometryView_other (htype : w.contract.program_type = some .geometry)
    (h : other_instruction i w = .ok w') : geometryView w' = geometryView w := by
  unfold other_instruction at h
  dsimp only at h
  have hhull : ¬ w.contract.program_type = some .hull := by
    rw [htype]
    decide
  by_cases hop : is_declaration_opcode i.opcode = true
  · rw [if_pos hop] at h
    obtain ⟨-, h⟩ := ite_error_eq_ok.mp h
    rw [pure_eq_ok.mp h]
  · rw [if_neg hop] at h
    obtain ⟨-, h⟩ := ite_error_eq_ok.mp h
    rw [if_neg hhull] at h
    rw [← pure_eq_ok.mp h]
    rfl

lemma tessellation_refused (hhull : w.contract.program_type ≠ some .hull)
    (hdomain : w.contract.program_type ≠ some .domain) :
    tessellation_declaration rt document i w ≠ .ok w' := by
  intro h
  unfold tessellation_declaration at h
  dsimp only at h
  by_cases hinput : i.opcode = OP_DCL_INPUT_CONTROL_POINT_COUNT
  · rw [if_pos hinput] at h
    exact (ite_error_eq_ok.mp h).1 ⟨hhull, hdomain⟩
  rw [if_neg hinput] at h
  by_cases htessellator : i.opcode = OP_DCL_TESSELLATOR_DOMAIN
  · rw [if_pos htessellator] at h
    exact (ite_error_eq_ok.mp h).1 ⟨hhull, hdomain⟩
  rw [if_neg htessellator] at h
  exact (ite_error_eq_ok.mp h).1 hhull

/-- What decodes an instruction outside of the tessellation stages. -/
theorem decode_untessellated (hhull : w.contract.program_type ≠ some .hull)
    (hdomain : w.contract.program_type ≠ some .domain)
    (h : decode_instruction_contract rt document i w = .ok w') :
    (if i.opcode = OP_DCL_THREAD_GROUP ∨ i.opcode = OP_DCL_TGSM_RAW ∨
        i.opcode = OP_DCL_TGSM_STRUCTURED then compute_declaration rt document i w
      else if i.opcode = OP_SYNC then sync_instruction rt document i w
      else if i.opcode = OP_EMIT ∨ i.opcode = OP_CUT ∨ i.opcode = OP_EMIT_STREAM ∨
        i.opcode = OP_CUT_STREAM then geometry_effect rt document i w
      else if i.opcode = OP_DCL_INPUT_PRIMITIVE ∨ i.opcode = OP_DCL_OUTPUT_TOPOLOGY ∨
        i.opcode = OP_DCL_MAX_OUTPUT_VERTEX_COUNT ∨ i.opcode = OP_DCL_STREAM ∨
        i.opcode = OP_DCL_GS_INSTANCE_COUNT then geometry_declaration rt document i w
      else other_instruction i w) = .ok w' := by
  unfold decode_instruction_contract at h
  dsimp only at h
  split_ifs at h with hop hsync hdecls hmarker hlevel heffect hdecl htess hinsts
  · rwa [if_pos hop]
  · rwa [if_neg hop, if_pos hsync]
  · rw [hs_decls, if_pos hhull] at h
    nomatch h
  · rw [hull_phase_marker, if_pos hhull] at h
    nomatch h
  · nomatch h
  · rwa [if_neg hop, if_neg hsync, if_pos heffect]
  · rwa [if_neg hop, if_neg hsync, if_neg heffect, if_pos hdecl]
  · exact absurd h (tessellation_refused hhull hdomain)
  · rw [phase_instance_count, if_pos hhull] at h
    nomatch h
  · rwa [if_neg hop, if_neg hsync, if_neg heffect, if_neg hdecl]

/-- **One instruction of a geometry program.** The branches of the other stages refuse it. -/
theorem geometryStep_of_decode (htype : w.contract.program_type = some .geometry)
    (h : decode_instruction_contract rt document i w = .ok w') :
    GeometryStep rt document i (geometryView w) (geometryView w') := by
  have hother : ∀ t, t ≠ .geometry → w.contract.program_type ≠ some t := fun t ht heq =>
    ht (some.inj (heq.symm.trans htype))
  have hcompute := hother .compute (by decide)
  replace h := decode_untessellated (hother .hull (by decide)) (hother .domain (by decide)) h
  split_ifs at h with hop hsync heffect hdecl
  · rw [compute_declaration, if_pos hcompute] at h
    nomatch h
  · rw [sync_instruction, if_pos ⟨hcompute, hother .pixel (by decide)⟩] at h
    nomatch h
  · exact geometryStep_effect heffect h
  all_goals
    rw [not_or, not_or, not_or] at heffect
    have hnone : effectOf rt document i = none :=
      effectOf_eq_none heffect.1 heffect.2.1 heffect.2.2.1 heffect.2.2.2
  · exact geometryStep_declaration hnone h
  · rw [not_or, not_or, not_or, not_or] at hdecl
    exact .other hnone hdecl.2.2.2.1 hdecl.2.1 (geometryView_other htype h)

/-! ## The whole walk -/

lemma currentStream_concat (done : List DXBCDocumentInstruction) :
    currentStream rt document (done ++ [i]) =
      if i.opcode = OP_DCL_STREAM then streamOf rt document i
      else currentStream rt document done := by
  unfold currentStream
  by_cases hop : i.opcode = OP_DCL_STREAM
  · rw [if_pos hop, filter_append, filter_cons_of_pos (by simpa using hop),
      filter_nil, List.getLast?_concat]
    rfl
  · rw [if_neg hop, filter_append, filter_cons_of_neg (by simpa using hop), filter_nil, append_nil]

lemma declaresStream_concat {done : List DXBCDocumentInstruction} :
    DeclaresStream rt document (done ++ [i]) stream ↔ DeclaresStream rt document done stream ∨
      i.opcode = OP_DCL_STREAM ∧ streamOf rt document i = stream := by
  unfold DeclaresStream
  constructor
  · rintro ⟨j, hj, hop⟩
    rcases mem_append.mp hj with hj | hj
    · exact .inl ⟨j, hj, hop⟩
    · rw [mem_singleton.mp hj] at hop
      exact .inr hop
  · rintro (⟨j, hj, hop⟩ | hop)
    · exact ⟨j, mem_append_left _ hj, hop⟩
    · exact ⟨i, mem_append_right _ mem_cons_self, hop⟩

lemma declaresTopology_concat {done : List DXBCDocumentInstruction} :
    DeclaresTopology rt document (done ++ [i]) stream topology ↔
      DeclaresTopology rt document done stream topology ∨
      i.opcode = OP_DCL_OUTPUT_TOPOLOGY ∧ currentStream rt document done = stream ∧
        topologyOf rt document i = some topology := by
  constructor
  · rintro ⟨before, j, after, heq, hop⟩
    rcases eq_nil_or_concat after with rfl | ⟨after', last, rfl⟩
    · obtain ⟨rfl, hij⟩ := append_inj' heq rfl
      obtain rfl : i = j := head_eq_of_cons_eq hij
      exact .inr hop
    · rw [concat_eq_append, ← cons_append, ← append_assoc] at heq
      obtain ⟨rfl, -⟩ := append_inj' heq rfl
      exact .inl ⟨before, j, after', rfl, hop⟩
  · rintro (⟨before, j, after, rfl, hop⟩ | hop)
    · exact ⟨before, j, after ++ [i], by simp, hop⟩
    · exact ⟨done, i, [], rfl, hop⟩

structure GeometryWalk (rt : UnityCommon) (document : DXBCDocument)
    (done : List DXBCDocumentInstruction) (v : GeometryView) : Prop where
  effects : v.geometry_effects = done.filterMap (effectOf rt document)
  referenced : ∀ s, v.referenced_stream_mask.testBit s = true ↔
    ∃ effect ∈ v.geometry_effects, effect.stream_id = s
  declared : ∀ s, v.declared_stream_mask.testBit s = true ↔ DeclaresStream rt document done s
  current : v.current_geometry_stream = currentStream rt document done
  topologies : ∀ s, v.output_topology_stream_mask.testBit s = true ↔
    ∃ topology, DeclaresTopology rt document done s topology
  common : ∀ s topology, DeclaresTopology rt document done s topology →
    v.output_topology = some topology

variable {done : List DXBCDocumentInstruction} {v v' : GeometryView}

lemma not_declaresTopology_nil {s : ℕ} : ¬ DeclaresTopology rt document [] s topology := by
  rintro ⟨before, j, after, heq, -⟩
  simp at heq

lemma GeometryWalk.start {start : DXBCStageContract} (h : Fresh start) :
    GeometryWalk rt document [] (geometryView (start_walk start)) where
  effects := h.geometry_effects
  referenced := by
    intro s
    show start.referenced_stream_mask.testBit s = true ↔ ∃ effect ∈ start.geometry_effects, _
    rw [h.referenced_stream_mask, h.geometry_effects, Nat.zero_testBit]
    simp
  declared := by
    intro s
    show start.declared_stream_mask.testBit s = true ↔ _
    rw [h.declared_stream_mask, Nat.zero_testBit]
    simp [DeclaresStream]
  current := rfl
  topologies := by
    intro s
    show start.output_topology_stream_mask.testBit s = true ↔ _
    rw [h.output_topology_stream_mask, Nat.zero_testBit]
    exact iff_of_false Bool.false_ne_true fun ⟨_, hnil⟩ => not_declaresTopology_nil hnil
  common := fun _ _ hnil => absurd hnil not_declaresTopology_nil

lemma GeometryWalk.no_stream (h : GeometryWalk rt document done v)
    (hstream : i.opcode ≠ OP_DCL_STREAM) :
    (∀ s, v.declared_stream_mask.testBit s = true ↔ DeclaresStream rt document (done ++ [i]) s) ∧
      v.current_geometry_stream = currentStream rt document (done ++ [i]) := by
  simpa only [declaresStream_concat, currentStream_concat, hstream, false_and, or_false, if_false]
    using And.intro h.declared h.current

lemma GeometryWalk.no_topology (h : GeometryWalk rt document done v)
    (htop : i.opcode ≠ OP_DCL_OUTPUT_TOPOLOGY) :
    (∀ s, v.output_topology_stream_mask.testBit s = true ↔
      ∃ topology, DeclaresTopology rt document (done ++ [i]) s topology) ∧
      ∀ s topology, DeclaresTopology rt document (done ++ [i]) s topology →
        v.output_topology = some topology := by
  simpa only [declaresTopology_concat, htop, false_and, or_false] using
    And.intro h.topologies h.common

/-- **One instruction keeps what the walk knows.** -/
theorem GeometryWalk.step (h : GeometryWalk rt document done v)
    (hstep : GeometryStep rt document i v v') : GeometryWalk rt document (done ++ [i]) v' := by
  cases hstep with
  | effect effect heffect hstream htop hview =>
    obtain ⟨hdeclared, hcurrent⟩ := h.no_stream hstream
    obtain ⟨htopologies, hcommon⟩ := h.no_topology htop
    rw [hview]
    refine ⟨?_, ?_, hdeclared, hcurrent, htopologies, hcommon⟩
    · dsimp only
      rw [filterMap_append, h.effects]
      simp [heffect]
    · intro s
      dsimp only
      rw [testBit_add_stream, h.referenced]
      simp only [mem_append, mem_singleton, or_and_right, exists_or, exists_eq_left]
  | stream hop hview =>
    have heffect : effectOf rt document i = none := by
      apply effectOf_eq_none <;> rw [hop] <;> decide
    have htop : i.opcode ≠ OP_DCL_OUTPUT_TOPOLOGY := by
      rw [hop]
      decide
    obtain ⟨htopologies, hcommon⟩ := h.no_topology htop
    rw [hview]
    refine ⟨?_, h.referenced, ?_, ?_, htopologies, hcommon⟩
    · rw [filterMap_append, ← h.effects]
      simp [heffect]
    · intro s
      dsimp only
      rw [testBit_add_stream, declaresStream_concat, h.declared]
      exact or_congr_right ⟨fun hs => ⟨hop, hs⟩, fun hs => hs.2⟩
    · rw [currentStream_concat, if_pos hop]
  | topology hop topology htop hcom hview =>
    have heffect : effectOf rt document i = none := by
      apply effectOf_eq_none <;> rw [hop] <;> decide
    have hstream : i.opcode ≠ OP_DCL_STREAM := by
      rw [hop]
      decide
    obtain ⟨hdeclared, hcurrent⟩ := h.no_stream hstream
    rw [hview]
    refine ⟨?_, h.referenced, hdeclared, hcurrent, ?_, ?_⟩
    · rw [filterMap_append, ← h.effects]
      simp [heffect]
    · intro s
      dsimp only
      rw [testBit_add_stream, h.topologies, h.current]
      simp only [declaresTopology_concat, exists_or]
      exact or_congr_right ⟨fun hs => ⟨topology, hop, hs, htop⟩, fun ⟨_, _, hs, _⟩ => hs⟩
    · intro s t ht
      rcases declaresTopology_concat.mp ht with ht | ⟨-, -, ht⟩
      · exact congrArg some (hcom t (h.common s t ht)).symm
      · exact htop.symm.trans ht
  | other heffect hstream htop hview =>
    obtain ⟨hdeclared, hcurrent⟩ := h.no_stream hstream
    obtain ⟨htopologies, hcommon⟩ := h.no_topology htop
    rw [hview]
    refine ⟨?_, h.referenced, hdeclared, hcurrent, htopologies, hcommon⟩
    rw [filterMap_append, ← h.effects]
    simp [heffect]

/-- **The whole walk.** -/
theorem decode_instructions_geometry {rest : List DXBCDocumentInstruction}
    (h : GeometryWalk rt document [] (geometryView w))
    (htype : w.contract.program_type = some .geometry)
    (hrun : decode_instructions rt document rest w = .ok w') :
    GeometryWalk rt document rest (geometryView w') :=
  (decode_instructions_keeps (fun done w => GeometryWalk rt document done (geometryView w) ∧
    w.contract.program_type = some .geometry) (fun h hnext =>
      ⟨h.1.step (geometryStep_of_decode h.2 hnext),
        (contractStep_of_decode hnext).program_type.trans h.2⟩) ⟨h, htype⟩ hrun).1

/-! ## The end of the program -/

lemma require_streams_eq_ok {effects : List DXBCGeometryEffectContract}
    (h : require_streams c effects = .ok ()) :
    ∀ effect ∈ effects,
      (effect.explicit_stream = true → c.declared_stream_mask.testBit effect.stream_id = true) ∧
      (effect.explicit_stream = false → c.declared_stream_mask = 0) := by
  induction effects with
  | nil => exact nofun
  | cons first effects ih =>
    unfold require_streams at h
    have hfst : ((first.explicit_stream = true →
          c.declared_stream_mask.testBit first.stream_id = true) ∧
        (first.explicit_stream = false → c.declared_stream_mask = 0)) ∧
        require_streams c effects = .ok () := by
      by_cases hexpl : first.explicit_stream = true
      · rw [if_pos hexpl] at h
        obtain ⟨hdecl, h⟩ := ite_error_eq_ok.mp h
        exact ⟨⟨fun _ => not_not.mp hdecl,
          fun hfalse => absurd (hexpl.symm.trans hfalse) (by simp)⟩, h⟩
      · rw [if_neg hexpl] at h
        obtain ⟨hnone, h⟩ := ite_error_eq_ok.mp h
        exact ⟨⟨fun htrue => absurd htrue hexpl, fun _ => not_not.mp hnone⟩, h⟩
    intro effect hmem
    rcases mem_cons.mp hmem with rfl | hmem
    · exact hfst.1
    · exact ih hfst.2 effect hmem

lemma require_declaration_eq_ok {present : Bool} {opcode : UInt32}
    (h : require_declaration present opcode c = .ok ()) : present = true := by
  unfold require_declaration at h
  by_cases hpres : present = true
  · exact hpres
  · rw [if_neg hpres] at h
    nomatch h

lemma finish_geometry {seen_hs_decls seen_phase : Bool} (htype : c.program_type = some .geometry)
    (h : finish_contract c seen_hs_decls seen_phase = .ok ()) :
    (∃ topology, c.output_topology = some topology) ∧
      (∀ s, c.declared_stream_mask.testBit s = true →
        c.output_topology_stream_mask.testBit s = true) ∧
      require_streams c c.geometry_effects = .ok () := by
  unfold finish_contract at h
  rw [htype] at h
  obtain ⟨_, -, h⟩ := bind_eq_ok.mp h
  obtain ⟨_, htop, h⟩ := bind_eq_ok.mp h
  obtain ⟨_, -, h⟩ := bind_eq_ok.mp h
  obtain ⟨hmask, h⟩ := ite_error_eq_ok.mp h
  refine ⟨isSome_iff_exists.mp (require_declaration_eq_ok htop), ?_, h⟩
  intro s hs
  have hbit := congrArg (fun mask => mask.testBit s) (not_not.mp hmask)
  rw [Nat.testBit_and, hs, Bool.and_true] at hbit
  exact hbit

end Step

end StageContract

structure DXBCStageContract.GeometryProgram (rt : UnityCommon) (document : DXBCDocument)
    (contract : DXBCStageContract) : Prop where
  /-- The effects are those of the emit and cut instructions, in their order. -/
  effects : contract.geometry_effects = document.instructions.filterMap (effectOf rt document)
  declared : ∀ stream, contract.declared_stream_mask.testBit stream = true ↔
    DeclaresStream rt document document.instructions stream
  explicit_declared : ∀ effect ∈ contract.geometry_effects, effect.explicit_stream = true →
    DeclaresStream rt document document.instructions effect.stream_id
  implicit_undeclared : ∀ effect ∈ contract.geometry_effects, effect.explicit_stream = false →
    ∀ stream, ¬ DeclaresStream rt document document.instructions stream
  referenced : ∀ stream, contract.referenced_stream_mask.testBit stream = true ↔
    ∃ effect ∈ contract.geometry_effects, effect.stream_id = stream
  /-- One topology, which every declared stream has and no stream has another of. -/
  topology : ∃ topology, contract.output_topology = some topology ∧
    (∀ stream, DeclaresStream rt document document.instructions stream →
      DeclaresTopology rt document document.instructions stream topology) ∧
    ∀ stream other, DeclaresTopology rt document document.instructions stream other →
      other = topology

lemma geometryProgram_of_decode {rt : UnityCommon} {bytes : Bytes} {document : DXBCDocument}
    {contract : DXBCStageContract} (hparse : parse_document rt bytes = .ok document)
    (h : decode_document_internal rt document = .ok contract)
    (htype : contract.program_type = some .geometry) :
    contract.GeometryProgram rt document := by
  obtain ⟨executable, start, w, -, hfresh, -, hrun, hctr, hfinish⟩ :=
    decode_document_internal_parts hparse h
  obtain ⟨⟨topology, htop⟩, hmasks, hstreams⟩ := finish_geometry htype hfinish
  have hstart : start.program_type = some .geometry := by
    rw [← htype, hctr]
    exact (decode_instructions_program_type hrun).symm
  have hwalk : GeometryWalk rt document document.instructions (geometryView w) :=
    decode_instructions_geometry (.start hfresh) hstart hrun
  -- The last phase is a matter of hull programs; the rest of the contract is that of the walk.
  have heffects : contract.geometry_effects = w.contract.geometry_effects := by rw [hctr]; rfl
  have hdecl : contract.declared_stream_mask = w.contract.declared_stream_mask := by
    rw [hctr]
    rfl
  have hdeclares : ∀ stream, contract.declared_stream_mask.testBit stream = true ↔
      DeclaresStream rt document document.instructions stream := by
    intro stream
    rw [hdecl]
    exact hwalk.declared stream
  have hcom : ∀ stream other, DeclaresTopology rt document document.instructions stream other →
      other = topology := by
    intro stream other hother
    have hwalked : w.contract.output_topology = some other := hwalk.common stream other hother
    have hsame : contract.output_topology = w.contract.output_topology := by rw [hctr]; rfl
    exact some.inj (hwalked.symm.trans (hsame.symm.trans htop))
  refine ⟨heffects.trans hwalk.effects, hdeclares, ?_, ?_, ?_, topology, htop, ?_, hcom⟩
  · intro effect hmem hexpl
    exact (hdeclares _).mp ((require_streams_eq_ok hstreams effect hmem).1 hexpl)
  · intro effect hmem himpl stream hstream
    have hbit := (hdeclares stream).mpr hstream
    rw [(require_streams_eq_ok hstreams effect hmem).2 himpl, Nat.zero_testBit] at hbit
    cases hbit
  · intro stream
    rw [heffects, hctr]
    exact hwalk.referenced stream
  · intro stream hstream
    have hmask := hmasks stream ((hdeclares stream).mpr hstream)
    rw [hctr] at hmask
    obtain ⟨other, hother⟩ := (hwalk.topologies stream).mp hmask
    rw [← hcom stream other hother]
    exact hother

/-- **An accepted geometry contract describes its program.** The effects are the emit and cut
instructions of the container, in order, each with its kind and its stream; effects with a stream
name declared streams, and effects without one occur only where no stream is declared; the
referenced streams are those of the effects; and all declared streams have one topology. -/
theorem dxbc_stage_contract_geometry_program (rt : UnityCommon) (document : DXBCDocument)
    (bytes : Option Bytes) (semantic_container : Option DXBCContainer)
    (out_contract : DXBCStageContract)
    (hparse : (dxbc_document_parse rt document bytes).1 = true) :
    let parsed := (dxbc_document_parse rt document bytes).2.1
    let decoded := dxbc_stage_contract_decode rt parsed semantic_container out_contract
    decoded.1 = true → decoded.2.1.program_type = some .geometry →
      decoded.2.1.GeometryProgram rt parsed := by
  intro parsed decoded hdecoded htype
  obtain ⟨data, hdata⟩ := parse_document_of_parse hparse
  rcases decode_cases rt parsed semantic_container out_contract with
    ⟨-, hcontract⟩ | ⟨hfalse, -⟩
  · exact geometryProgram_of_decode hdata hcontract htype
  · exact absurd (hdecoded.symm.trans hfalse) (by simp)

/-- A geometry program with two streams that emits to one and cuts the other. -/
def twoStreamContainer : Bytes :=
  [68, 88, 66, 67, 105, 172, 21, 85, 113, 71, 163, 59, 250, 80, 81, 107, 59, 29, 129, 145,
   1, 0, 0, 0, 124, 0, 0, 0, 1, 0, 0, 0, 36, 0, 0, 0, 83, 72, 69, 88,
   80, 0, 0, 0, 80, 0, 2, 0, 20, 0, 0, 0, 93, 24, 0, 1, 143, 0, 0, 3,
   0, 0, 17, 0, 0, 0, 0, 0, 92, 40, 0, 1, 143, 0, 0, 3, 0, 0, 17, 0,
   1, 0, 0, 0, 92, 40, 0, 1, 94, 0, 0, 2, 3, 0, 0, 0, 117, 0, 0, 3,
   0, 0, 17, 0, 1, 0, 0, 0, 118, 0, 0, 3, 0, 0, 17, 0, 0, 0, 0, 0,
   62, 0, 0, 1]

def twoStreamDocument : DXBCDocument :=
  (dxbc_document_parse .reference dxbc_document_init (some twoStreamContainer)).2.1

def twoStreamContract : Bool × DXBCStageContract × DXBCStageContractDiagnostic :=
  dxbc_stage_contract_decode .reference twoStreamDocument none dxbc_stage_contract_init

/-- It is accepted with its two effects. -/
theorem dxbc_stage_contract_two_streams :
    twoStreamContract.1 = true ∧ twoStreamContract.2.1.geometry_effects =
      [⟨.append, 6, 1, true⟩, ⟨.restartStrip, 7, 0, true⟩] ∧
      twoStreamContract.2.1.GeometryProgram .reference twoStreamDocument := by
  have hparse : (dxbc_document_parse .reference dxbc_document_init
      (some twoStreamContainer)).1 = true := by decide +kernel
  have hfacts : twoStreamContract.1 = true ∧ twoStreamContract.2.1.geometry_effects =
      [⟨.append, 6, 1, true⟩, ⟨.restartStrip, 7, 0, true⟩] ∧
      twoStreamContract.2.1.program_type = some .geometry := by decide +kernel
  have hspec := dxbc_stage_contract_geometry_program .reference dxbc_document_init
    (some twoStreamContainer) none dxbc_stage_contract_init hparse
  refine ⟨hfacts.1, hfacts.2.1, ?_⟩
  unfold twoStreamContract twoStreamDocument at hfacts ⊢
  exact hspec hfacts.1 hfacts.2.2

end DXBCSandbox
