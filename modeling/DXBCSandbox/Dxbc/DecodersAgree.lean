/-
The two decoders of a container read the same instructions.

`dxbc_document_parse` records every instruction without interpreting it.
`dxbc_parse` interprets every instruction and records one row for it, or several for
an immediate constant buffer. Both walk the token stream by lengths they decode on
their own, so the argument is that the length of the instruction at an offset is a
function of the bytes, [`encodedTokenCount`]: two walks over one range from one start
then visit the same offsets.
-/
import DXBCSandbox.Dxbc.DocumentSpec
import DXBCSandbox.Dxbc.Parser
import Mathlib.Data.Nat.Bitwise

namespace DXBCSandbox

open List Option Function Prod StepParser

/-! ## What a row says about its instruction -/

/-- The identity both decoders record: index, byte offset, byte length, opcode and
opcode token. -/
structure InstructionIdentity where
  index : ℕ
  byte_offset : ℕ
  byte_length : ℕ
  opcode : UInt32
  token : UInt32

def DXBCInstruction.identity (row : DXBCInstruction) : InstructionIdentity :=
  ⟨row.raw_instruction_index, row.file_offset, row.byte_length, row.opcode, row.token⟩

def DXBCDocumentInstruction.identity (i : DXBCDocumentInstruction) (bytes : Bytes) :
    InstructionIdentity :=
  ⟨i.instruction_index, i.byte_offset, i.byte_size, i.opcode, wordAt bytes i.byte_offset⟩

/-- The rows of one instruction: one that is no continuation, followed by
continuations with the same identity. -/
structure RowsOf (id : InstructionIdentity) (rows : List DXBCInstruction) (n : ℕ) : Prop where
  length_eq : rows.length = n
  identity_eq : ∀ row ∈ rows, row.identity = id
  first : ∃ row rest, rows = row :: rest ∧ row.is_customdata_continuation = false ∧
    ∀ r ∈ rest, r.is_customdata_continuation = true

variable {rows : List DXBCInstruction} {n : ℕ}

lemma RowsOf.filter {id : InstructionIdentity} (h : RowsOf id rows n) :
    (rows.filter fun row => !row.is_customdata_continuation).map (·.identity) = [id] := by
  obtain ⟨row, rest, rfl, hrow, hrest⟩ := h.first
  have hnil : rest.filter (fun row => !row.is_customdata_continuation) = [] := by
    refine filter_eq_nil_iff.mpr ?_
    intro r hr
    simp only [hrest r hr, Bool.not_true, Bool.false_eq_true, not_false_eq_true]
  have hkeep : (!row.is_customdata_continuation) = true := by rw [hrow]; rfl
  rw [filter_cons, if_pos hkeep, hnil, map_singleton, h.identity_eq row (mem_cons_self ..)]

/-! ## Reads at a position -/

variable {document : DXBCDocument}

section Reads

variable {rt : UnityCommon} {data : Bytes} {c c' : InstructionCursor} {w : UInt32}

lemma instruction_read_u32_spec {limit : ℕ}
    (h : (instruction_read_u32 rt data limit).run c = some (w, c')) :
    w = wordAt data c.position ∧ c' = { c with position := c.position + 4 } ∧
      c.position + 4 ≤ limit := by
  change instruction_read_u32 rt data limit c = some (w, c') at h
  unfold instruction_read_u32 at h
  split at h
  · rename_i hc
    obtain ⟨⟨w', s'⟩, hread, heq⟩ := map_eq_some_iff.mp h
    obtain ⟨rfl, rfl⟩ := mk.inj heq
    obtain ⟨hreads, -⟩ := UnityCommon.stream_read_uint32_reads hread
    have hw : [w'] = wordsAt data c.position 1 := hreads.2
    have hp : s'.position = c.position + 4 := hreads.position_eq
    refine ⟨head_eq_of_cons_eq hw, ?_, by omega⟩
    rw [hp]
  · cases h

lemma read_instruction_words_spec {limit : ℕ} {ws : List UInt32}
    (h : (read_instruction_words rt data limit n).run c = some (ws, c')) :
    ws = wordsAt data c.position n ∧ c'.position = c.position + 4 * n := by
  induction n generalizing c ws with
  | zero =>
    obtain ⟨rfl, rfl⟩ := mk.inj (run_pure_eq_some.mp h)
    exact ⟨rfl, rfl⟩
  | succ n ih =>
    obtain ⟨w, c₁, hw, h⟩ := run_bind_eq_some.mp h
    obtain ⟨vs, c₂, hvs, h⟩ := run_bind_eq_some.mp h
    obtain ⟨rfl, rfl⟩ := mk.inj (run_pure_eq_some.mp h)
    obtain ⟨rfl, rfl, -⟩ := instruction_read_u32_spec hw
    obtain ⟨rfl, hpos⟩ := ih hvs
    refine ⟨rfl, ?_⟩
    rw [hpos]
    dsimp only
    omega

variable {token : UInt32}

/-- A custom-data token of class 3 announces no extension: the class takes bits 11
to 31. -/
theorem customdata_class_not_extended (h : (token >>> 11) &&& 0x001fffff = 3) :
    token &&& 0x80000000 = 0 := by
  have hlt : token.toNat < 2 ^ 32 := token.toNat_lt
  have hn : token.toNat / 2 ^ 11 % 2 ^ 21 = 3 := by
    have h' := congrArg UInt32.toNat h
    rw [UInt32.toNat_and, UInt32.toNat_shiftRight] at h'
    simpa [Nat.shiftRight_eq_div_pow, Nat.and_two_pow_sub_one_eq_mod _ 21] using h'
  have hsmall : token.toNat < 2 ^ 31 := by omega
  apply UInt32.toNat_inj.mp
  rw [UInt32.toNat_and]
  change token.toNat &&& 2 ^ 31 = 0
  rw [Nat.and_two_pow, Nat.testBit_eq_false_of_lt hsmall, Bool.toNat_false, Nat.zero_mul]

variable {d : DXBCInstructionDetail}

lemma decode_controls_customdata (h : decode_controls token 53 = some d) :
    (token >>> 11) &&& 0x001fffff = 3 := by
  unfold decode_controls at h
  obtain ⟨hclass, -⟩ := guard_bind_eq_some.mp h
  by_contra hne
  exact hclass ⟨rfl, hne⟩

variable {container : DXBCContainer} {origin : DXBCInstructionOrigin} {icb : List UInt32}

lemma parse_instruction_rows_ordinary {next : ℕ} (hop : origin.opcode ≠ 53)
    (h : (parse_instruction_rows rt data next container origin d).run c = some ((rows, icb), c')) :
    (∃ d', rows = [⟨origin, d'⟩]) ∧ icb = container.icb_values := by
  rw [parse_instruction_rows, if_neg hop] at h
  obtain ⟨d', c₁, -, h⟩ := run_bind_eq_some.mp h
  obtain ⟨hrows, -⟩ := mk.inj (run_pure_eq_some.mp h)
  obtain ⟨rfl, rfl⟩ := mk.inj hrows
  exact ⟨⟨d', rfl⟩, rfl⟩

lemma parse_instruction_rows_customdata {next : ℕ} (hop : origin.opcode = 53)
    (h : (parse_instruction_rows rt data next container origin d).run c = some ((rows, icb), c')) :
    container.icb_values = [] ∧ next - c.position ≠ 0 ∧ (next - c.position) % 16 = 0 ∧
      icb = wordsAt data c.position ((next - c.position) / 4) ∧
      ∃ d' d'', rows = ⟨origin, d'⟩ :: List.replicate (icb.length / 4 - 1)
        ⟨{ origin with is_customdata_continuation := true }, d''⟩ := by
  rw [parse_instruction_rows, if_pos hop] at h
  obtain ⟨values, c₁, hvals, h⟩ := run_bind_eq_some.mp h
  obtain ⟨hrows, -⟩ := mk.inj (run_pure_eq_some.mp h)
  obtain ⟨rfl, rfl⟩ := mk.inj hrows
  unfold parse_immediate_constants at hvals
  obtain ⟨c₂, c₃, hget, hvals⟩ := run_bind_eq_some.mp hvals
  obtain ⟨rfl, rfl⟩ : c = c₂ ∧ c = c₃ := mk.inj (some.inj hget)
  obtain ⟨⟨hne, hmod, -⟩, hvals⟩ := run_guard_bind_eq_some.mp hvals
  obtain ⟨hempty, hvals⟩ := run_guard_bind_eq_some.mp hvals
  obtain ⟨-, hvals⟩ := run_guard_bind_eq_some.mp hvals
  obtain ⟨hwords, -⟩ := read_instruction_words_spec hvals
  exact ⟨hempty, hne, hmod, hwords, _, _, rfl⟩

/-- The words of a custom-data block behind its token and its length. -/
def payloadWords (data : Bytes) (offset : ℕ) : List UInt32 :=
  wordsAt data (offset + 8) (encodedTokenCount data offset - 2)

structure SemanticStep (data : Bytes) (end_pos : ℕ) (st st' : ShaderState) : Prop where
  token_count_pos : 0 < encodedTokenCount data st.position
  position_eq : st'.position = st.position + 4 * encodedTokenCount data st.position
  position_le : st'.position ≤ end_pos
  index_eq : st'.raw_instruction_index = st.raw_instruction_index + 1
  rows : ∃ rows, st'.container.instructions = st.container.instructions ++ rows ∧
    RowsOf ⟨st.raw_instruction_index, st.position, 4 * encodedTokenCount data st.position,
      wordAt data st.position &&& 0x7ff, wordAt data st.position⟩ rows
      (if wordAt data st.position &&& 0x7ff = 53 then (payloadWords data st.position).length / 4
        else 1)
  constants : if wordAt data st.position &&& 0x7ff = 53 then
      st.container.icb_values = [] ∧ st'.container.icb_values = payloadWords data st.position ∧
        payloadWords data st.position ≠ [] ∧ (payloadWords data st.position).length % 4 = 0
    else st'.container.icb_values = st.container.icb_values

variable {end_pos : ℕ}

lemma read_instruction_length_spec {pos : ℕ} {inst_len : UInt32} (hc : c.position = pos + 4)
    (h : (read_instruction_length rt data end_pos (wordAt data pos)
      (wordAt data pos &&& 0x7ff)).run c = some (inst_len, c')) :
    inst_len.toNat = encodedTokenCount data pos ∧
      c'.position = pos + if wordAt data pos &&& 0x7ff = 53 then 8 else 4 := by
  unfold read_instruction_length at h
  unfold encodedTokenCount
  split at h
  · rename_i hop
    obtain ⟨rfl, rfl, -⟩ := instruction_read_u32_spec h
    rw [if_pos hop, if_pos hop, hc]
    exact ⟨rfl, rfl⟩
  · rename_i hop
    obtain ⟨rfl, rfl⟩ := mk.inj (run_pure_eq_some.mp h)
    rw [if_neg hop, if_neg hop, hc]
    exact ⟨rfl, rfl⟩

lemma parse_shader_instruction_spec {st st' : ShaderState} (hsize : data.length < 2 ^ 32)
    (hend : end_pos ≤ data.length) (h : parse_shader_instruction rt data end_pos st = some st') :
    SemanticStep data end_pos st st' := by
  unfold parse_shader_instruction at h
  obtain ⟨⟨token, c⟩, htoken, h⟩ := bind_eq_some_iff.mp h
  obtain ⟨⟨inst_len, c₁⟩, hlen, h⟩ := bind_eq_some_iff.mp h
  obtain ⟨⟨hlen0, hlenle⟩, h⟩ := guard_bind_eq_some.mp h
  obtain ⟨⟨hpos₁, -⟩, h⟩ := guard_bind_eq_some.mp h
  obtain ⟨d, hcontrols, h⟩ := bind_eq_some_iff.mp h
  obtain ⟨⟨d₁, c₂⟩, hext, h⟩ := bind_eq_some_iff.mp h
  obtain ⟨⟨⟨rows, icb⟩, c₃⟩, hrows, h⟩ := bind_eq_some_iff.mp h
  obtain ⟨hpos₃, h⟩ := guard_bind_eq_some.mp h
  obtain rfl := some.inj h
  obtain ⟨rfl, rfl, -⟩ := instruction_read_u32_spec htoken
  obtain ⟨hcnt, hc₁⟩ := read_instruction_length_spec rfl hlen
  dsimp only at hcnt hc₁ hlenle hpos₁ hpos₃ hcontrols hext hrows
  have hpos : 0 < inst_len.toNat := by
    rcases Nat.eq_zero_or_pos inst_len.toNat with hz | hp
    · exact absurd (UInt32.toNat_inj.mp hz) hlen0
    · exact hp
  have hmul : (inst_len * 4).toNat = 4 * inst_len.toNat := by
    rw [UInt32.toNat_mul, show (4 : UInt32).toNat = 4 from rfl]
    omega
  have hnext : st.position + (inst_len * 4).toNat ≤ end_pos := by omega
  have hoff : st.position % 2 ^ 32 = st.position := Nat.mod_eq_of_lt (by omega)
  have hbytes : (st.position + (inst_len * 4).toNat - st.position) % 2 ^ 32 =
      4 * encodedTokenCount data st.position := by
    rw [Nat.mod_eq_of_lt (by omega)]
    omega
  by_cases hop : wordAt data st.position &&& 0x7ff = 53
  · -- a custom-data block: no extension tokens, so the constants start at its third word
    rw [hop] at hcontrols
    have hclear := customdata_class_not_extended (decode_controls_customdata hcontrols)
    rw [decode_opcode_extensions, if_neg (by rw [hclear]; exact fun hne => hne rfl)] at hext
    obtain ⟨rfl, rfl⟩ := mk.inj (run_pure_eq_some.mp hext)
    obtain ⟨hempty, hne, hmod, hicb, d', d'', rfl⟩ := parse_instruction_rows_customdata hop hrows
    rw [if_pos hop] at hc₁
    have hwords : (st.position + (inst_len * 4).toNat - c₂.position) / 4 =
        encodedTokenCount data st.position - 2 := by omega
    rw [hwords, hc₁] at hicb
    have hpay : icb = payloadWords data st.position := hicb
    have hplen : (payloadWords data st.position).length =
        encodedTokenCount data st.position - 2 := wordsAt_length _ _ _
    refine ⟨by omega, by dsimp only; omega, hnext, rfl, ⟨_, rfl, ?_⟩, ?_⟩
    · rw [if_pos hop, ← hpay]
      refine ⟨?_, ?_, ⟨_, _, rfl, rfl, ?_⟩⟩
      · rw [length_cons, length_replicate]
        rw [hpay, hplen]
        omega
      · intro row hrow
        rcases mem_cons.mp hrow with rfl | hrow
        · simp only [DXBCInstruction.identity, hoff, hbytes]
        · rw [eq_of_mem_replicate hrow]
          simp only [DXBCInstruction.identity, hoff, hbytes]
      · intro r hr
        rw [eq_of_mem_replicate hr]
    · rw [if_pos hop]
      refine ⟨hempty, hpay, ?_, ?_⟩
      · intro hnil
        rw [hnil, length_nil] at hplen
        omega
      · rw [hplen]
        omega
  · obtain ⟨⟨d', rfl⟩, hicb⟩ := parse_instruction_rows_ordinary hop hrows
    refine ⟨by omega, by dsimp only; omega, hnext, rfl, ⟨_, rfl, ?_⟩, ?_⟩
    · rw [if_neg hop]
      refine ⟨rfl, ?_, ⟨_, [], rfl, rfl, fun r hr => absurd hr not_mem_nil⟩⟩
      intro row hrow
      rw [mem_singleton.mp hrow]
      simp only [DXBCInstruction.identity, hoff, hbytes]
    · rw [if_neg hop]
      exact hicb

/-! ## The two walks -/

variable {is : List DXBCDocumentInstruction}

lemma Tiles.start_lt {stop start index : ℕ} {i : DXBCDocumentInstruction}
    (h : Tiles stop start index (i :: is)) : start < stop := by
  induction is generalizing start index i with
  | nil =>
    obtain ⟨-, -, hpos, hsize, hend⟩ := h
    have hend' : start + i.byte_size = stop := hend
    omega
  | cons j js ih =>
    obtain ⟨-, -, hpos, hsize, hrest⟩ := h
    have hlt := ih hrest
    omega

lemma Tiles.eq_nil {stop start index : ℕ} (h : Tiles stop start index is) (hstop : start = stop) :
    is = [] := by
  cases is with
  | nil => rfl
  | cons i is =>
    have hlt := h.start_lt
    omega

def BlockOf (data : Bytes) (i : DXBCDocumentInstruction) (rows : List DXBCInstruction) : Prop :=
  RowsOf (i.identity data) rows
    (if i.opcode = 53 then (payloadWords data i.byte_offset).length / 4 else 1)

/-- The semantic walk over a range the document tiles: it adds one block of rows for
every document instruction, and the constants of the one immediate constant buffer. -/
theorem parse_shader_instructions_spec {turns chunk_index : ℕ} {st st' : ShaderState}
    (hsize : data.length < 2 ^ 32) (hend : end_pos ≤ data.length)
    (htiles : Tiles end_pos st.position st.raw_instruction_index is)
    (hdec : ∀ i ∈ is, ∃ left, i.DecodedAt data chunk_index i.instruction_index i.byte_offset left)
    (h : parse_shader_instructions rt data end_pos turns st = some st')
    (hstop : st'.position = end_pos) :
    (∃ blocks, st'.container.instructions = st.container.instructions ++ blocks.flatten ∧
      List.Forall₂ (BlockOf data) is blocks) ∧
    (∀ i ∈ is, i.opcode = 53 → st.container.icb_values = [] ∧
      st'.container.icb_values = payloadWords data i.byte_offset ∧
      (payloadWords data i.byte_offset).length % 4 = 0) ∧
    (st.container.icb_values ≠ [] → st'.container.icb_values = st.container.icb_values) := by
  induction turns generalizing st is with
  | zero =>
    obtain rfl := some.inj h
    obtain rfl := htiles.eq_nil hstop
    refine ⟨⟨[], ?_, List.Forall₂.nil⟩, ?_, fun _ => rfl⟩
    · rw [flatten_nil, append_nil]
    · intro i hi
      cases hi
  | succ turns ih =>
    rw [parse_shader_instructions] at h
    split at h
    · rename_i hlt
      obtain ⟨st₁, hst₁, h⟩ := bind_eq_some_iff.mp h
      have hstep := parse_shader_instruction_spec hsize hend hst₁
      cases is with
      | nil =>
        have hend' : st.position = end_pos := htiles
        omega
      | cons i is =>
        obtain ⟨hoff, hidx, -, hbs, hrest⟩ := htiles
        obtain ⟨left, hi⟩ := hdec i (mem_cons_self ..)
        have hop : i.opcode = wordAt data st.position &&& 0x7ff := by
          rw [hi.opcode_eq, hoff]
        have hcnt : i.token_count = encodedTokenCount data st.position := by
          rw [hi.token_count_eq, hoff]
        have hpos₁ : st₁.position = st.position + i.byte_size := by
          rw [hstep.position_eq, hbs, hcnt]
        rw [← hpos₁, ← hstep.index_eq] at hrest
        obtain ⟨⟨blocks, hinst, hblocks⟩, hicb, hkeep⟩ :=
          ih hrest (forall_mem_cons.mp hdec).2 h
        obtain ⟨rows, hrows, hrowsOf⟩ := hstep.rows
        have hconst := hstep.constants
        rw [← hop] at hrowsOf hconst
        rw [← hoff] at hconst
        have hid : (⟨st.raw_instruction_index, st.position,
            4 * encodedTokenCount data st.position, i.opcode, wordAt data st.position⟩ :
              InstructionIdentity) = i.identity data := by
          rw [DXBCDocumentInstruction.identity, hidx, hoff, hbs, hcnt]
        rw [hid] at hrowsOf
        refine ⟨⟨rows :: blocks, ?_, List.Forall₂.cons ?_ hblocks⟩, ?_, ?_⟩
        · rw [hinst, hrows, flatten_cons, append_assoc]
        · rw [BlockOf, hoff]
          exact hrowsOf
        · intro j hj hj53
          rcases mem_cons.mp hj with rfl | hj
          · rw [if_pos hj53] at hconst
            obtain ⟨hempty, hset, hne, hmod⟩ := hconst
            refine ⟨hempty, ?_, hmod⟩
            rw [hkeep (by rw [hset]; exact hne), hset]
          · obtain ⟨hempty₁, hset, hmod⟩ := hicb j hj hj53
            refine ⟨?_, hset, hmod⟩
            by_cases h53 : i.opcode = 53
            · rw [if_pos h53] at hconst
              exact hconst.1
            · rw [if_neg h53] at hconst
              rw [← hconst, hempty₁]
        · intro hne
          by_cases h53 : i.opcode = 53
          · rw [if_pos h53] at hconst
            exact absurd hconst.1 hne
          · rw [if_neg h53] at hconst
            rw [hkeep (by rw [hconst]; exact hne), hconst]
    · rename_i hge
      obtain rfl := some.inj h
      obtain rfl := htiles.eq_nil hstop
      refine ⟨⟨[], ?_, List.Forall₂.nil⟩, ?_, fun _ => rfl⟩
      · rw [flatten_nil, append_nil]
      · intro i hi
        cases hi

variable {chunk : DXBCDocumentChunk} {container' : DXBCContainer}

lemma parse_shader_logic_spec (hsize : data.length < 2 ^ 32) (hprog : chunk.Program data is)
    (h : parse_shader_logic rt data (chunk.offset + 8)
      (chunk.offset + 8 + chunk.payload_size) container = some container') :
    (∃ blocks, container'.instructions = container.instructions ++ blocks.flatten ∧
      List.Forall₂ (BlockOf data) is blocks) ∧
    (∀ i ∈ is, i.opcode = 53 → container'.icb_values = payloadWords data i.byte_offset ∧
      (payloadWords data i.byte_offset).length % 4 = 0) := by
  unfold parse_shader_logic at h
  obtain ⟨hlen, h⟩ := guard_bind_eq_some.mp h
  obtain ⟨⟨version_token, c⟩, hver, h⟩ := bind_eq_some_iff.mp h
  obtain ⟨⟨len, c₁⟩, hlenword, h⟩ := bind_eq_some_iff.mp h
  obtain ⟨-, h⟩ := guard_bind_eq_some.mp h
  obtain ⟨-, h⟩ := guard_bind_eq_some.mp h
  obtain ⟨-, h⟩ := guard_bind_eq_some.mp h
  obtain ⟨st', hwalk, h⟩ := bind_eq_some_iff.mp h
  obtain ⟨hstop, h⟩ := guard_bind_eq_some.mp h
  obtain rfl := some.inj h
  obtain ⟨-, rfl, -⟩ := instruction_read_u32_spec hver
  obtain ⟨hlenword', rfl, -⟩ := instruction_read_u32_spec hlenword
  have hdecl : len.toNat = chunk.declaredTokens data := by rw [hlenword']; rfl
  have htwo := hprog.two_le
  have hpay := hprog.payload_eq
  have htiles := hprog.tiles
  dsimp only at hwalk hstop
  rw [hdecl] at hwalk hstop
  have hstop' : chunk.offset + 8 + chunk.declaredTokens data * 4 =
      chunk.offset + 8 + 4 + 4 + (chunk.declaredTokens data - 2) * 4 := by omega
  rw [hstop'] at htiles
  obtain ⟨hblocks, hicb, -⟩ := parse_shader_instructions_spec hsize (by omega) htiles
    hprog.decoded hwalk hstop
  exact ⟨hblocks, fun i hi h53 => (hicb i hi h53).2⟩

/-! ## From the container to its program -/

variable {total_size : ℕ} {offset : ℕ}

lemma read_chunk_header_spec {h : ChunkHeader}
    (hread : read_chunk_header rt data offset total_size = some h) :
    h.name = (data.drop offset).take 4 ∧ h.chunk_start = offset + 8 ∧
      h.chunk_end = offset + 8 + (wordAt data (offset + 4)).toNat := by
  unfold read_chunk_header at hread
  obtain ⟨-, hread⟩ := guard_bind_eq_some.mp hread
  obtain ⟨⟨name, s₁⟩, hname, hread⟩ := bind_eq_some_iff.mp hread
  obtain ⟨⟨size, s₂⟩, hsize, hread⟩ := bind_eq_some_iff.mp hread
  obtain ⟨-, hread⟩ := guard_bind_eq_some.mp hread
  obtain rfl := some.inj hread
  rw [rt.stream_read_bytes_eq] at hname
  split at hname
  · obtain ⟨rfl, rfl⟩ := mk.inj (some.inj hname)
    obtain ⟨hreads, -⟩ := UnityCommon.stream_read_uint32_reads hsize
    have hw : [size] = wordsAt data (offset + 4) 1 := hreads.2
    have hp : s₂.position = offset + 4 + 4 := hreads.position_eq
    refine ⟨rfl, hp, ?_⟩
    rw [hp, head_eq_of_cons_eq hw]
  · cases hname

lemma classify_chunk_executable (fourcc : Bytes) : classify_chunk fourcc = .executable ↔
      fourcc = asciiBytes "SHEX" ∨ fourcc = asciiBytes "SHDR" := by
  unfold classify_chunk fourcc_equal
  simp only [beq_iff_eq]
  constructor
  · intro h
    by_cases hc : fourcc = asciiBytes "SHDR" ∨ fourcc = asciiBytes "SHEX"
    · exact hc.symm
    · rw [if_neg hc] at h
      repeat' split at h
      all_goals cases h
  · intro h
    rw [if_pos h.symm]

lemma parse_signature_chunk_frame
    (h : parse_signature_chunk rt data total_size offset container = some container') :
    container'.instructions = container.instructions ∧
      container'.icb_values = container.icb_values := by
  unfold parse_signature_chunk at h
  obtain ⟨hd, -, h⟩ := bind_eq_some_iff.mp h
  split at h
  · obtain ⟨els, -, h⟩ := bind_eq_some_iff.mp h
    obtain rfl := some.inj h
    exact ⟨rfl, rfl⟩
  · split at h
    · obtain ⟨els, -, h⟩ := bind_eq_some_iff.mp h
      obtain rfl := some.inj h
      exact ⟨rfl, rfl⟩
    · split at h
      · obtain ⟨els, -, h⟩ := bind_eq_some_iff.mp h
        obtain rfl := some.inj h
        exact ⟨rfl, rfl⟩
      · obtain rfl := some.inj h
        exact ⟨rfl, rfl⟩

variable {offsets : List ℕ}

lemma parse_signature_chunks_frame
    (h : parse_signature_chunks rt data total_size offsets container = some container') :
    container'.instructions = container.instructions ∧
      container'.icb_values = container.icb_values := by
  induction offsets generalizing container with
  | nil =>
    obtain rfl := some.inj h
    exact ⟨rfl, rfl⟩
  | cons offset offsets ih =>
    obtain ⟨c, hc, h⟩ := bind_eq_some_iff.mp h
    obtain ⟨hi, hv⟩ := parse_signature_chunk_frame hc
    obtain ⟨hi', hv'⟩ := ih h
    exact ⟨hi'.trans hi, hv'.trans hv⟩

lemma parse_program_chunks_cons (hread : chunk.ReadFrom data)
    (h : parse_program_chunks rt data total_size (chunk.offset :: offsets) container =
      some container') :
    if chunk.kind = .executable then
      ∃ c, parse_shader_logic rt data (chunk.offset + 8)
          (chunk.offset + 8 + chunk.payload_size) container = some c ∧
        parse_program_chunks rt data total_size offsets c = some container'
    else parse_program_chunks rt data total_size offsets container = some container' := by
  obtain ⟨hd, hhd, h⟩ := bind_eq_some_iff.mp h
  obtain ⟨hname, hstart, hend⟩ := read_chunk_header_spec hhd
  rw [← hread.payload_size_eq] at hend
  rw [hstart, hend] at h
  have hkind : chunk.kind = .executable ↔
      hd.name = asciiBytes "SHEX" ∨ hd.name = asciiBytes "SHDR" := by
    rw [hread.kind_eq, classify_chunk_executable, hname]
  by_cases hexec : chunk.kind = .executable
  · rw [if_pos hexec]
    rw [if_pos (hkind.mp hexec)] at h
    exact bind_eq_some_iff.mp h
  · rw [if_neg hexec]
    rw [if_neg (fun hn => hexec (hkind.mpr hn))] at h
    exact h

variable {chunks : List DXBCDocumentChunk}

lemma parse_program_chunks_none (hread : ∀ c ∈ chunks, c.ReadFrom data)
    (hnone : chunks.filter (fun c => c.kind = .executable) = [])
    (h : parse_program_chunks rt data total_size (chunks.map (·.offset)) container = some
      container') : container' = container := by
  induction chunks with
  | nil => exact (some.inj h).symm
  | cons c cs ih =>
    have hc : ¬c.kind = .executable := by
      have hall := filter_eq_nil_iff.mp hnone c (mem_cons_self ..)
      rwa [decide_eq_true_iff] at hall
    have h' := parse_program_chunks_cons (hread c (mem_cons_self ..)) h
    rw [if_neg hc] at h'
    rw [filter_cons, if_neg (by rwa [decide_eq_true_iff])] at hnone
    exact ih (fun c' hc' => hread c' (mem_cons_of_mem _ hc')) hnone h'

/-- The program pass over the chunks of a document with one executable chunk runs the
decoder once, on that chunk. -/
theorem parse_program_chunks_one (hread : ∀ c ∈ chunks, c.ReadFrom data)
    (hone : chunks.filter (fun c => c.kind = .executable) = [chunk])
    (h : parse_program_chunks rt data total_size (chunks.map (·.offset)) container = some
      container') :
    parse_shader_logic rt data (chunk.offset + 8) (chunk.offset + 8 + chunk.payload_size)
      container = some container' := by
  induction chunks with
  | nil => cases hone
  | cons c cs ih =>
    have hread' : ∀ c' ∈ cs, c'.ReadFrom data := fun c' hc' => hread c' (mem_cons_of_mem _ hc')
    have h' := parse_program_chunks_cons (hread c (mem_cons_self ..)) h
    by_cases hc : c.kind = .executable
    · rw [filter_cons, if_pos (decide_eq_true hc)] at hone
      obtain ⟨rfl, hnone⟩ := cons.inj hone
      rw [if_pos hc] at h'
      obtain ⟨c₁, hlogic, hrest⟩ := h'
      rw [parse_program_chunks_none hread' hnone hrest]
      exact hlogic
    · rw [filter_cons, if_neg (by rwa [decide_eq_true_iff])] at hone
      rw [if_neg hc] at h'
      exact ih hread' hone h'

/-! ## The container header -/

variable {s' : ByteStream} {s : ByteStream}

lemma read_uint32_spec (h : (read_uint32 rt).run s = some (w, s')) :
    w = wordAt s.data s.position ∧ s' = s.advance 4 := by
  obtain ⟨hreads, -⟩ := UnityCommon.stream_read_uint32_reads h
  exact ⟨head_eq_of_cons_eq hreads.2, hreads.1⟩

lemma read_offsets_spec {chunk_count : ℕ}
    (h : (read_offsets rt chunk_count n).run s = some (offsets, s')) :
    offsets = (List.range n).map fun k => (wordAt s.data (s.position + k * 4)).toNat := by
  induction n generalizing s s' offsets with
  | zero =>
    obtain ⟨rfl, -⟩ := mk.inj (run_pure_eq_some.mp h)
    rfl
  | succ n ih =>
    obtain ⟨w, s₁, hw, h⟩ := run_bind_eq_some.mp h
    obtain ⟨-, h⟩ := run_guard_bind_eq_some.mp h
    obtain ⟨rest, s₂, hrest, h⟩ := run_bind_eq_some.mp h
    obtain ⟨rfl, -⟩ := mk.inj (run_pure_eq_some.mp h)
    obtain ⟨rfl, rfl⟩ := read_uint32_spec hw
    rw [ih hrest, List.range_succ_eq_map, List.map_cons, List.map_map, Nat.zero_mul, Nat.add_zero]
    congr 1
    refine List.map_congr_left ?_
    intro k _
    rw [ByteStream.advance_data, ByteStream.advance_position, comp_apply,
      Nat.succ_mul, Nat.add_assoc, Nat.add_comm 4 (k * 4)]

lemma read_container_header_spec {size : ℕ}
    (h : (read_container_header rt size).run ⟨data, 0⟩ = some (offsets, s')) :
    (wordAt data 24).toNat = size ∧ offsets = (List.range (wordAt data 28).toNat).map
      fun k => (wordAt data (32 + k * 4)).toNat := by
  unfold read_container_header at h
  obtain ⟨magic, s₁, hmagic, h⟩ := run_bind_eq_some.mp h
  obtain ⟨-, h⟩ := run_guard_bind_eq_some.mp h
  obtain ⟨hash, s₂, hhash, h⟩ := run_bind_eq_some.mp h
  obtain ⟨version, s₃, hver, h⟩ := run_bind_eq_some.mp h
  obtain ⟨-, h⟩ := run_guard_bind_eq_some.mp h
  obtain ⟨total, s₄, htotal, h⟩ := run_bind_eq_some.mp h
  obtain ⟨⟨hsize, -⟩, h⟩ := run_guard_bind_eq_some.mp h
  obtain ⟨count, s₅, hcnt, h⟩ := run_bind_eq_some.mp h
  obtain ⟨-, htable⟩ := run_guard_bind_eq_some.mp h
  clear h
  obtain ⟨-, rfl⟩ := read_uint32_spec hmagic
  change rt.stream_read_bytes _ 16 = some (hash, s₂) at hhash
  rw [rt.stream_read_bytes_eq] at hhash
  split at hhash
  · obtain ⟨-, rfl⟩ := mk.inj (some.inj hhash)
    obtain ⟨-, rfl⟩ := read_uint32_spec hver
    obtain ⟨rfl, rfl⟩ := read_uint32_spec htotal
    obtain ⟨rfl, rfl⟩ := read_uint32_spec hcnt
    have hoffs := read_offsets_spec htable
    simp only [ByteStream.advance_data, ByteStream.advance_position, Nat.zero_add,
      Nat.reduceAdd] at hsize hoffs
    exact ⟨hsize, hoffs⟩
  · cases hhash

lemma chunks_map_offset (hwf : document.Wf data) :
    document.chunks.map (·.offset) = (List.range (wordAt data 28).toNat).map
      fun k => (wordAt data (32 + k * 4)).toNat := by
  rw [← hwf.chunk_count_eq, ← hwf.chunk_indices, List.map_map]
  refine List.map_congr_left ?_
  intro c hc
  exact (hwf.chunks_read c hc).offset_eq

lemma blocks_filter {blocks : List (List DXBCInstruction)}
    (h : List.Forall₂ (BlockOf data) is blocks) :
    (blocks.flatten.filter fun row => !row.is_customdata_continuation).map (·.identity) =
      is.map (·.identity data) := by
  induction h with
  | nil => rfl
  | cons hrows _ ih =>
    rw [flatten_cons, filter_append, map_append, hrows.filter, ih, map_cons, singleton_append]

end Reads

/-! ## Agreement -/

/-- **The two decoders agree.** Where both accept a buffer with one executable chunk,
the rows of the container that are no continuations are the document's instructions of
that chunk, in order and with equal identity. The container is a sequence of blocks, one
for each instruction: a single row, or for an immediate constant buffer one row for
every four payload words, and the recorded constants are these words. -/
theorem dxbc_decoders_agree (rt : UnityCommon) (document₀ document : DXBCDocument)
    (diagnostic : DXBCDocumentDiagnostic) (bytes : Bytes) (container : DXBCContainer)
    (chunk : DXBCDocumentChunk)
    (hdoc : dxbc_document_parse rt document₀ (some bytes) = (true, document, diagnostic))
    (hsem : dxbc_parse rt bytes = some container)
    (hone : document.chunks.filter (fun c => c.kind = .executable) = [chunk]) :
    (container.instructions.filter fun row => !row.is_customdata_continuation).map (·.identity) =
      (document.chunkInstructions chunk.table_index).map (·.identity bytes) ∧
    (∀ i ∈ document.chunkInstructions chunk.table_index,
      dxbc_document_instruction_token rt document i 0 = some (i.identity bytes).token) ∧
    (∃ blocks, container.instructions = blocks.flatten ∧
      List.Forall₂ (BlockOf bytes) (document.chunkInstructions chunk.table_index) blocks) ∧
    ∀ i ∈ document.chunkInstructions chunk.table_index, i.opcode = 53 →
      container.icb_values = payloadWords bytes i.byte_offset ∧
        (payloadWords bytes i.byte_offset).length % 4 = 0 := by
  have hwf : document.Wf bytes := dxbc_document_parse_wf hdoc
  have hsize : bytes.length < 2 ^ 32 := by
    rw [← hwf.header.2.2]
    exact (wordAt bytes 24).toNat_lt
  have hmem : chunk ∈ document.chunks ∧ chunk.kind = .executable := by
    have hin : chunk ∈ document.chunks.filter (fun c => c.kind = .executable) := by
      rw [hone]
      exact mem_singleton_self chunk
    obtain ⟨hin, hkind⟩ := mem_filter.mp hin
    exact ⟨hin, decide_eq_true_iff.mp hkind⟩
  have hprog := hwf.programs chunk hmem.1 hmem.2
  unfold dxbc_parse at hsem
  rw [dxbc_container_view_first_self hwf.header.1 hwf.header.2.1 hwf.header.2.2] at hsem
  obtain ⟨view, hview, hsem⟩ := bind_eq_some_iff.mp hsem
  obtain rfl := some.inj hview
  obtain ⟨-, hsem⟩ := guard_bind_eq_some.mp hsem
  obtain ⟨⟨offsets, s'⟩, hheader, hsem⟩ := bind_eq_some_iff.mp hsem
  obtain ⟨c₁, hsig, hsem⟩ := bind_eq_some_iff.mp hsem
  obtain ⟨c₂, hpass, hsem⟩ := bind_eq_some_iff.mp hsem
  obtain ⟨-, hsem⟩ := guard_bind_eq_some.mp hsem
  obtain rfl := some.inj hsem
  obtain ⟨-, hoffsets⟩ := read_container_header_spec hheader
  rw [← chunks_map_offset hwf] at hoffsets
  rw [hoffsets] at hsig hpass
  obtain ⟨hinst₁, -⟩ := parse_signature_chunks_frame hsig
  have hlogic := parse_program_chunks_one hwf.chunks_read hone hpass
  obtain ⟨⟨blocks, hblocks, hforall⟩, hicb⟩ := parse_shader_logic_spec hsize hprog hlogic
  have hnil : c₁.instructions = [] := hinst₁
  rw [hnil, nil_append] at hblocks
  refine ⟨?_, ?_, ⟨blocks, hblocks, hforall⟩, hicb⟩
  · dsimp only
    rw [hblocks]
    exact blocks_filter hforall
  · intro i hi
    obtain ⟨left, hdec⟩ := hprog.decoded i hi
    have hpos := hdec.token_count_pos
    rw [dxbc_document_instruction_token, if_neg (by omega), read_u32_le_eq, hwf.owned_bytes_eq,
      Nat.zero_mul, Nat.add_zero]
    rfl

lemma dxbc_document_parse_eta {rt : UnityCommon} {bytes : Option Bytes}
    (h : (dxbc_document_parse rt document bytes).1 = true) :
    dxbc_document_parse rt document bytes = (true, (dxbc_document_parse rt document bytes).2.1,
      (dxbc_document_parse rt document bytes).2.2) := by
  rw [← h]

/-- A container whose program is an immediate constant buffer of eight words and a
`ret`. -/
def immediateConstantsContainer : Bytes :=
  [68, 88, 66, 67, 230, 61, 56, 206, 163, 197, 94, 11, 77, 35, 102, 118, 37, 39, 80, 78,
   1, 0, 0, 0, 96, 0, 0, 0, 1, 0, 0, 0, 36, 0, 0, 0, 83, 72, 69, 88, 52, 0, 0, 0,
   80, 0, 0, 0, 13, 0, 0, 0, 53, 24, 0, 0, 10, 0, 0, 0, 1, 0, 0, 0, 2, 0, 0, 0, 3, 0, 0, 0,
   4, 0, 0, 0, 5, 0, 0, 0, 6, 0, 0, 0, 7, 0, 0, 0, 8, 0, 0, 0, 62, 0, 0, 1]

def immediateConstantsDocument : DXBCDocument :=
  (dxbc_document_parse .reference dxbc_document_init (some immediateConstantsContainer)).2.1

/-- Both decoders accept it. Its three rows are two instructions, and the first of them
has two rows. -/
theorem immediate_constants_decoders_agree : ∃ container chunk,
      dxbc_parse .reference immediateConstantsContainer = some container ∧
      immediateConstantsDocument.chunks.filter (fun c => c.kind = .executable) = [chunk] ∧
      container.instructions.length = 3 ∧ container.icb_values = [1, 2, 3, 4, 5, 6, 7, 8] ∧
      (container.instructions.filter fun row => !row.is_customdata_continuation).map (·.identity) =
        (immediateConstantsDocument.chunkInstructions chunk.table_index).map
          (·.identity immediateConstantsContainer) := by
  have hok : (dxbc_document_parse .reference dxbc_document_init
      (some immediateConstantsContainer)).1 = true := by decide +kernel
  have hsome : (dxbc_parse .reference immediateConstantsContainer).map
      (fun c => (c.instructions.length, c.icb_values)) = some (3, [1, 2, 3, 4, 5, 6, 7, 8]) := by
    decide +kernel
  have hchunk : immediateConstantsDocument.chunks.filter (fun c => c.kind = .executable) =
      [⟨[83, 72, 69, 88], .executable, 0, 36, 52, 60⟩] := by decide +kernel
  obtain ⟨container, hparse, hshape⟩ := map_eq_some_iff.mp hsome
  obtain ⟨hrows, hvalues⟩ := mk.inj hshape
  have hdoc : dxbc_document_parse .reference dxbc_document_init
      (some immediateConstantsContainer) = (true, immediateConstantsDocument,
        (dxbc_document_parse .reference dxbc_document_init
          (some immediateConstantsContainer)).2.2) := by
    rw [immediateConstantsDocument]
    exact dxbc_document_parse_eta hok
  exact ⟨container, _, hparse, hchunk, hrows, hvalues,
    (dxbc_decoders_agree _ _ _ _ _ _ _ hdoc hparse hchunk).1⟩

end DXBCSandbox
