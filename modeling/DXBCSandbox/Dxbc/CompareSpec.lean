/-
What the comparison of two containers reports.

A difference names a coordinate: a field of the header, a field of a chunk, an instruction, a
token or a byte. `valueAt` reads the value at a coordinate of a document, if the coordinate
exists there. Every report of the comparison gives the values at its coordinate in both
documents, and the two differ (`Located`). What the loops before the payloads pass without a
report is equal in both documents, down to every byte of every program.
-/
import DXBCSandbox.Dxbc.Compare
import DXBCSandbox.Dxbc.DocumentSpec
import DXBCSandbox.Words

namespace DXBCSandbox

open List Option Checks

/-! ## More about accepted documents -/

variable {is : List DXBCDocumentInstruction} {start : ℕ}

lemma Tiles.bounds {stop index : ℕ} (h : Tiles stop start index is) :
    start ≤ stop ∧ ∀ i ∈ is, start ≤ i.byte_offset ∧ i.byte_offset + i.byte_size ≤ stop := by
  induction is generalizing start index with
  | nil => exact ⟨Nat.le_of_eq h, nofun⟩
  | cons i is ih =>
    obtain ⟨hoff, -, -, -, hrest⟩ := h
    obtain ⟨hle, hall⟩ := ih hrest
    refine ⟨by omega, ?_⟩
    intro j hj
    rcases mem_cons.mp hj with rfl | hj
    · omega
    · have hj := hall j hj
      omega

variable {document : DXBCDocument} {bytes : Bytes}

section Reader

variable {rt : UnityCommon}

lemma parse_document_chunks_fourcc {chunk_table_end n : ℕ}
    {previous chunks : List DXBCDocumentChunk}
    (hprev : ∀ c ∈ previous, c.fourcc = (bytes.drop c.offset).take 4)
    (h : parse_document_chunks rt bytes chunk_table_end n previous = .ok chunks) :
    ∀ c ∈ chunks, c.fourcc = (bytes.drop c.offset).take 4 := by
  induction n generalizing previous with
  | zero =>
    rw [← pure_eq_ok.mp h]
    exact hprev
  | succ n ih =>
    obtain ⟨chunk, hchunk, h⟩ := bind_eq_ok.mp h
    apply ih _ h
    intro c hc
    rcases mem_append.mp hc with hc | hc
    · exact hprev c hc
    · rw [mem_singleton.mp hc]
      unfold parse_document_chunk at hchunk
      simp only [failWhen_bind_eq_ok] at hchunk
      obtain ⟨-, -, -, -, -, -, -, hchunk⟩ := hchunk
      rw [← pure_eq_ok.mp hchunk]

lemma parse_document_fourcc (h : parse_document rt bytes = .ok document) :
    ∀ c ∈ document.chunks, c.fourcc = (bytes.drop c.offset).take 4 := by
  obtain ⟨chunks, start, hchunks, -, -, hsame⟩ := parse_document_parts h
  rw [hsame]
  exact parse_document_chunks_fourcc (fun c hc => absurd hc not_mem_nil) hchunks

end Reader

structure DXBCDocument.Accepted (document : DXBCDocument) (bytes : Bytes) : Prop
    extends document.Wf bytes where
  fourcc_eq : ∀ c ∈ document.chunks, c.fourcc = (bytes.drop c.offset).take 4

variable {d : DXBCDocumentDiagnostic} {rt : UnityCommon}

lemma accepted_of_parse {document' : DXBCDocument}
    (h : dxbc_document_parse rt document (some bytes) = (true, document', d)) :
    document'.Accepted bytes := by
  refine ⟨dxbc_document_parse_wf h, ?_⟩
  rw [dxbc_document_parse] at h
  cases hparse : parse_document rt bytes with
  | error e =>
    rw [hparse] at h
    exact absurd (congrArg Prod.fst h) Bool.false_ne_true
  | ok parsed =>
    rw [hparse] at h
    have hdocument : parsed = document' := congrArg (fun r => r.2.1) h
    rw [← hdocument]
    exact parse_document_fourcc hparse

variable {chunk : DXBCDocumentChunk} {i : DXBCDocumentInstruction} {k : ℕ}

section Accepted

variable {document : DXBCDocument} {bytes : Bytes} (h : document.Wf bytes)

include h

lemma DXBCDocument.Wf.table_index (hk : document.chunks[k]? = some chunk) : chunk.table_index = k := by
  have hidx := congrArg (fun l => l[k]?) h.chunk_indices
  simp only [List.getElem?_map, hk, map_some] at hidx
  have hlt : k < document.chunks.length := (List.getElem?_eq_some_iff.mp hk).1
  rw [List.getElem?_range hlt] at hidx
  exact some.inj hidx

variable {k : ℕ} {chunk : DXBCDocumentChunk} (hk : document.chunks[k]? = some chunk)

include hk

lemma DXBCDocument.Wf.chunk_bounds :
    32 + k * 4 + 4 ≤ chunk.offset ∧ chunk.offset + 8 + chunk.payload_size ≤ bytes.length := by
  have hlt : k < document.chunks.length := (List.getElem?_eq_some_iff.mp hk).1
  have hinside := h.chunks_inside chunk (mem_of_getElem? hk)
  have hraw := hinside.raw_size_eq
  have htable := hinside.after_table
  have hend := hinside.inside
  rw [← h.chunk_count_eq] at htable
  omega

/-- The instructions of a program lie in its payload, behind the program header. -/
theorem DXBCDocument.Wf.instruction_bounds (hkind : chunk.kind = .executable)
    (hi : i ∈ document.chunkInstructions k) :
    chunk.offset + 16 ≤ i.byte_offset ∧
      i.byte_offset + 4 * i.token_count ≤ chunk.offset + 8 + chunk.payload_size ∧
      0 < i.token_count := by
  have hprog := h.programs chunk (mem_of_getElem? hk) hkind
  rw [h.table_index hk] at hprog
  obtain ⟨left, hdec⟩ := hprog.decoded i hi
  have hbnds := hprog.tiles.bounds.2 i hi
  have hsize := hdec.byte_size_eq
  have hpay := hprog.payload_eq
  have hpos := hdec.token_count_pos
  omega

lemma DXBCDocument.Wf.program_header (hkind : chunk.kind = .executable) :
    8 ≤ chunk.payload_size := by
  have hprog := h.programs chunk (mem_of_getElem? hk) hkind
  have htwo := hprog.two_le
  have hpay := hprog.payload_eq
  omega

omit h

lemma DXBCDocument.Accepted.kind_eq (h : document.Accepted bytes) : chunk.kind = classify_chunk
    chunk.fourcc := by
  have hmem := mem_of_getElem? hk
  rw [(h.chunks_read chunk hmem).kind_eq, h.fourcc_eq chunk hmem]

lemma DXBCDocument.Accepted.length_fourcc (h : document.Accepted bytes) : chunk.fourcc.length = 4 := by
  have hbnds := h.chunk_bounds hk
  rw [h.fourcc_eq chunk (mem_of_getElem? hk), length_take, length_drop]
  omega

omit hk

end Accepted

lemma fourcc_value_inj {a b : Bytes} (ha : a.length = 4) (hb : b.length = 4)
    (h : fourcc_value a = fourcc_value b) : a = b := by
  have hslice : slice a 0 4 = slice b 0 4 := by
    rw [← leBytes_wordAt a 0 (by omega), ← leBytes_wordAt b 0 (by omega)]
    exact congrArg (fun w : UInt32 => leBytes 4 w.toNat) h
  rw [slice, slice, drop_zero, drop_zero, take_of_length_le (by omega),
    take_of_length_le (by omega)] at hslice
  exact hslice

/-! ## Lookups -/

lemma instruction_for_chunk_from_eq {chunk_index current : ℕ} (hle : current ≤ k)
    (instructions : List DXBCDocumentInstruction) :
    instruction_for_chunk_from chunk_index k current instructions =
      (instructions.filter fun i => i.chunk_index = chunk_index)[k - current]? := by
  induction instructions generalizing current with
  | nil => rfl
  | cons i is ih =>
    rw [instruction_for_chunk_from]
    split_ifs with hchunk hcur
    · rw [ih hle, filter_cons_of_neg (by simpa using hchunk)]
    · rw [filter_cons_of_pos (by simpa using hchunk), hcur, Nat.sub_self]
      rfl
    · rw [ih (by omega), filter_cons_of_pos (by simpa using hchunk),
        show k - current = k - (current + 1) + 1 by omega, getElem?_cons_succ]

lemma instruction_for_chunk_eq (document : DXBCDocument) (chunk_index k : ℕ) :
    instruction_for_chunk document chunk_index k = (document.chunkInstructions chunk_index)[k]? :=
  instruction_for_chunk_from_eq (Nat.zero_le k) _

lemma instruction_count_for_chunk_eq (document : DXBCDocument) (chunk_index : ℕ) :
    instruction_count_for_chunk document chunk_index =
      (document.chunkInstructions chunk_index).length :=
  countP_eq_length_filter

variable {offset : ℕ}

lemma first_byte_difference_eq_some {expected actual : Bytes} {size : ℕ}
    (h : first_byte_difference expected actual size start = some offset) :
    start ≤ offset ∧ offset < size ∧ byteAt expected offset ≠ byteAt actual offset := by
  have hmem := mem_range'_1.mp (mem_of_find?_eq_some h)
  have hdiffer := find?_some h
  rw [decide_eq_true_iff] at hdiffer
  exact ⟨by omega, by omega, hdiffer⟩

lemma first_byte_difference_eq_none {expected actual : Bytes} {size : ℕ}
    (h : first_byte_difference expected actual size start = none) (hstart : start ≤ offset)
    (hsize : offset < size) : byteAt expected offset = byteAt actual offset := by
  have hequal := find?_eq_none.mp h offset (mem_range'_1.mpr (by omega))
  rw [decide_eq_true_iff, not_not] at hequal
  exact hequal

/-! ## Reports -/

def DXBCDocument.programAt (document : DXBCDocument) (chunk_index : ℕ) : Option DXBCDocumentChunk :=
  document.chunks[chunk_index]?.filter fun chunk => chunk.kind = .executable

def DXBCDocument.instructionAt (document : DXBCDocument) (chunk_index instruction_index : ℕ) :
    Option DXBCDocumentInstruction :=
  (document.programAt chunk_index).bind fun _ =>
    (document.chunkInstructions chunk_index)[instruction_index]?

/-- The value at the coordinate of a difference, if the document has the coordinate. -/
def DXBCDocument.valueAt (rt : UnityCommon) (document : DXBCDocument) (d : DXBCDifference) :
    Option ℕ :=
  match d.status with
  | .containerVersion => some document.container_version.toNat
  | .chunkCount => some document.chunks.length
  | .chunkFourcc => document.chunks[d.chunk_index]?.map fun chunk =>
    (fourcc_value chunk.fourcc).toNat
  | .programVersion => (document.programAt d.chunk_index).map fun chunk =>
    (wordAt (document.payload_bytes chunk) 0).toNat
  | .instructionCount => (document.programAt d.chunk_index).map fun _ =>
    (document.chunkInstructions d.chunk_index).length
  | .instructionOpcode => (document.instructionAt d.chunk_index d.instruction_index).map fun i =>
    i.opcode.toNat
  | .instructionLength => (document.instructionAt d.chunk_index d.instruction_index).map fun i =>
    i.token_count
  | .instructionToken => (document.instructionAt d.chunk_index d.instruction_index).bind fun i =>
    (dxbc_document_instruction_token rt document i d.token_index).map UInt32.toNat
  | .chunkPayloadSize => document.chunks[d.chunk_index]?.map fun chunk => chunk.payload_size
  | .chunkOffset => document.chunks[d.chunk_index]?.map fun chunk => chunk.offset
  | .containerSize => some document.owned_bytes.length
  | .chunkPayload => document.chunks[d.chunk_index]?.bind fun chunk =>
    if chunk.offset + 8 ≤ d.first_differing_byte ∧
        d.first_differing_byte < chunk.offset + 8 + chunk.payload_size then
      document.owned_bytes[d.first_differing_byte]?.map UInt8.toNat
    else none
  | .rawByte => document.owned_bytes[d.first_differing_byte]?.map UInt8.toNat
  | _ => none

/-- The byte at which the coordinate of a difference starts. The last two statuses are about a
byte and have no other coordinate in it. -/
def DXBCDocument.byteOf (document : DXBCDocument) (d : DXBCDifference) : Option ℕ :=
  let chunk := document.chunks[d.chunk_index]?
  let instruction := document.instructionAt d.chunk_index d.instruction_index
  match d.status with
  | .containerVersion => some 20
  | .containerSize => some 24
  | .chunkCount => some 28
  | .chunkOffset => some (32 + d.chunk_index * 4)
  | .chunkFourcc => chunk.map fun chunk => chunk.offset
  | .chunkPayloadSize => chunk.map fun chunk => chunk.offset + 4
  | .programVersion => chunk.map fun chunk => chunk.offset + 8
  | .instructionCount => chunk.map fun chunk => chunk.offset + 12
  | .instructionOpcode | .instructionLength => instruction.map fun i => i.byte_offset
  | .instructionToken => instruction.map fun i => i.byte_offset + d.token_index * 4
  | _ => some d.first_differing_byte

/-- A difference gives the values at its coordinate, which both documents have, and the
values differ. Its byte is a byte of the expected container, the first of the coordinate. -/
structure Located (rt : UnityCommon) (expected actual : DXBCDocument) (d : DXBCDifference) :
    Prop where
  expected_eq : expected.valueAt rt d = some d.expected_value
  actual_eq : actual.valueAt rt d = some d.actual_value
  differ : d.expected_value ≠ d.actual_value
  byte_lt : d.first_differing_byte < expected.owned_bytes.length
  byte_eq : expected.byteOf d = some d.first_differing_byte

/-- A difference that is not one of the last two, which compare bytes. -/
@[simp] def DXBCDifference.IsStructure (d : DXBCDifference) : Prop :=
  d.status ≠ .chunkPayload ∧ d.status ≠ .rawByte

lemma getElem?_eq_byteAt (h : offset < bytes.length) :
    bytes[offset]? = some (byteAt bytes offset) := by
  rw [byteAt, getD_eq_getElem?_getD, getElem?_eq_getElem h]
  rfl

lemma byteAt_payload_bytes (document : DXBCDocument) (chunk : DXBCDocumentChunk) (offset : ℕ) :
    byteAt (document.payload_bytes chunk) offset =
      byteAt document.owned_bytes (chunk.offset + 8 + offset) := by
  unfold byteAt DXBCDocument.payload_bytes
  rw [getD_eq_getElem?_getD, getD_eq_getElem?_getD, getElem?_drop]

lemma compare_chunk_layout_eq_none {expected_chunk actual_chunk : DXBCDocumentChunk}
    {chunk_index : ℕ} : compare_chunk_layout expected_chunk actual_chunk chunk_index = none ↔
      expected_chunk.payload_size = actual_chunk.payload_size ∧
        expected_chunk.offset = actual_chunk.offset := by
  unfold compare_chunk_layout
  split_ifs with hsize hoff
  · simp [hsize]
  · simp [hoff]
  · simp [not_not.mp hsize, not_not.mp hoff]

variable {α : Type}

section Reports

open DXBCDocument

variable {rt : UnityCommon} {expected_document actual_document : DXBCDocument}
  {expected actual : Bytes} {chunk_index : ℕ} {expected_chunk actual_chunk : DXBCDocumentChunk}
  {d : DXBCDifference} {token_index : ℕ}

lemma located_token {instruction_index : ℕ}
    {expected_instruction actual_instruction : DXBCDocumentInstruction}
    (hexp : expected_document.instructionAt chunk_index instruction_index = some
      expected_instruction)
    (hact : actual_document.instructionAt chunk_index instruction_index = some actual_instruction)
    (hbyte : expected_instruction.byte_offset + 4 * expected_instruction.token_count ≤
      expected_document.owned_bytes.length)
    (htoken : token_index < expected_instruction.token_count)
    (hcnt : expected_instruction.token_count = actual_instruction.token_count)
    (h : compare_token rt expected_document actual_document chunk_index instruction_index
      expected_instruction actual_instruction token_index = some d) :
    Located rt expected_document actual_document d ∧ d.IsStructure := by
  have hread : ∀ (document : DXBCDocument) (i : DXBCDocumentInstruction),
      token_index < i.token_count → dxbc_document_instruction_token rt document i token_index =
        some (read_u32_le rt document.owned_bytes (i.byte_offset + token_index * 4)) := by
    intro document i hi
    exact if_neg (Nat.not_le.mpr hi)
  unfold compare_token at h
  rw [hread _ _ htoken, hread _ _ (hcnt ▸ htoken)] at h
  dsimp only at h
  split_ifs at h with hdiffer
  rw [← some.inj h]
  refine ⟨⟨?_, ?_, ?_, ?_, ?_⟩, by simp⟩
  · simp only [valueAt, hexp, bind_some, hread _ _ htoken, map_some]
  · simp only [valueAt, hact, bind_some, hread _ _ (hcnt ▸ htoken), map_some]
  · intro heq
    exact hdiffer (UInt32.toNat_inj.mp heq)
  · dsimp only
    omega
  · simp only [byteOf, hexp, map_some]

lemma programAt_eq (hchunk : document.chunks[chunk_index]? = some chunk)
    (hkind : chunk.kind = .executable) :
    document.programAt chunk_index = some chunk := by
  rw [programAt, hchunk, filter_some, if_pos (decide_eq_true hkind)]

lemma instructionAt_eq (k : ℕ) (hchunk : document.chunks[chunk_index]? = some chunk)
    (hkind : chunk.kind = .executable) :
    document.instructionAt chunk_index k = (document.chunkInstructions chunk_index)[k]? := by
  rw [instructionAt, programAt_eq hchunk hkind, bind_some]

variable {k : ℕ} (hexp : expected_document.chunks[chunk_index]? = some expected_chunk)
  (hact : actual_document.chunks[chunk_index]? = some actual_chunk)

include hexp hact

section Program

variable (hkind : expected_chunk.kind = .executable) (hkind' : actual_chunk.kind = .executable)

include hkind hkind'

lemma located_instruction (he : expected_document.Wf expected)
    (hcnt : (expected_document.chunkInstructions chunk_index).length =
      (actual_document.chunkInstructions chunk_index).length)
    (hk : k < (expected_document.chunkInstructions chunk_index).length)
    (h : compare_instruction rt expected_document actual_document expected_chunk chunk_index k =
      some d) : Located rt expected_document actual_document d ∧ d.IsStructure := by
  have hi := getElem?_eq_getElem hk
  have hi' := getElem?_eq_getElem (hcnt ▸ hk)
  have hexpectedAt := instructionAt_eq k hexp hkind
  have hactualAt := instructionAt_eq k hact hkind'
  obtain ⟨hstart, hend, hpos⟩ := he.instruction_bounds hexp hkind (getElem_mem hk)
  have hchunk := (he.chunk_bounds hexp).2
  rw [← he.owned_bytes_eq] at hchunk
  generalize (expected_document.chunkInstructions chunk_index)[k] = i at *
  generalize (actual_document.chunkInstructions chunk_index)[k] = i' at *
  rw [hi] at hexpectedAt
  rw [hi'] at hactualAt
  unfold compare_instruction at h
  rw [instruction_for_chunk_eq, instruction_for_chunk_eq, hi, hi'] at h
  dsimp only at h
  split_ifs at h with hopcode hlen
  · rw [← some.inj h]
    refine ⟨⟨?_, ?_, ?_, ?_, ?_⟩, by simp⟩
    · simp only [valueAt, hexpectedAt, map_some]
    · simp only [valueAt, hactualAt, map_some]
    · intro heq
      exact hopcode (UInt32.toNat_inj.mp heq)
    · dsimp only
      omega
    · simp only [byteOf, hexpectedAt, map_some]
  · rw [← some.inj h]
    refine ⟨⟨?_, ?_, hlen, ?_, ?_⟩, by simp⟩
    · simp only [valueAt, hexpectedAt, map_some]
    · simp only [valueAt, hactualAt, map_some]
    · dsimp only
      omega
    · simp only [byteOf, hexpectedAt, map_some]
  · obtain ⟨token_index, htoken, h⟩ := exists_of_findSome?_eq_some h
    exact located_token hexpectedAt hactualAt (by omega) (mem_range.mp htoken) (not_not.mp hlen) h

lemma located_program (he : expected_document.Wf expected)
    (h : compare_program rt expected_document actual_document expected_chunk actual_chunk
      chunk_index = some d) : Located rt expected_document actual_document d ∧ d.IsStructure := by
  have hchunk := (he.chunk_bounds hexp).2
  have hhdr := he.program_header hexp hkind
  rw [← he.owned_bytes_eq] at hchunk
  unfold compare_program at h
  rw [instruction_count_for_chunk_eq, instruction_count_for_chunk_eq] at h
  dsimp only at h
  split_ifs at h with hver hcnt
  · rw [← some.inj h]
    refine ⟨⟨?_, ?_, ?_, ?_, ?_⟩, by simp⟩
    · simp only [valueAt, programAt_eq hexp hkind, map_some]
    · simp only [valueAt, programAt_eq hact hkind', map_some]
    · intro heq
      exact hver (UInt32.toNat_inj.mp heq)
    · dsimp only
      omega
    · simp only [byteOf, hexp, map_some]
  · rw [← some.inj h]
    refine ⟨⟨?_, ?_, hcnt, ?_, ?_⟩, by simp⟩
    · simp only [valueAt, programAt_eq hexp hkind, map_some]
    · simp only [valueAt, programAt_eq hact hkind', map_some]
    · dsimp only
      omega
    · simp only [byteOf, hexp, map_some]
  · obtain ⟨k, hk, h⟩ := exists_of_findSome?_eq_some h
    exact located_instruction hexp hact hkind hkind' he (not_not.mp hcnt) (mem_range.mp hk) h

end Program

lemma located_structure (he : expected_document.Accepted expected)
    (ha : actual_document.Accepted actual)
    (h : compare_chunk_structure rt expected_document actual_document expected_chunk actual_chunk
      chunk_index = some d) : Located rt expected_document actual_document d ∧ d.IsStructure := by
  have hchunk := (he.chunk_bounds hexp).2
  rw [← he.owned_bytes_eq] at hchunk
  unfold compare_chunk_structure at h
  split_ifs at h with hfourcc hkind
  · rw [← some.inj h]
    refine ⟨⟨?_, ?_, ?_, ?_, ?_⟩, by simp⟩
    · simp only [valueAt, hexp, map_some]
    · simp only [valueAt, hact, map_some]
    · intro heq
      exact hfourcc (fourcc_value_inj (he.length_fourcc hexp) (ha.length_fourcc hact)
        (UInt32.toNat_inj.mp heq))
    · dsimp only
      omega
    · simp only [byteOf, hexp, map_some]
  · exact located_program hexp hact hkind.1 hkind.2 he.toWf h

variable (he : expected_document.Wf expected)

include he

lemma located_layout (h : compare_chunk_layout expected_chunk actual_chunk chunk_index = some d) :
    Located rt expected_document actual_document d ∧ d.IsStructure := by
  have hchunk := he.chunk_bounds hexp
  rw [← he.owned_bytes_eq] at hchunk
  unfold compare_chunk_layout at h
  split_ifs at h with hsize hoff
  · rw [← some.inj h]
    refine ⟨⟨?_, ?_, hsize, ?_, ?_⟩, by simp⟩
    · simp only [valueAt, hexp, map_some]
    · simp only [valueAt, hact, map_some]
    · dsimp only
      omega
    · simp only [byteOf, hexp, map_some]
  · rw [← some.inj h]
    refine ⟨⟨?_, ?_, hoff, ?_, ?_⟩, by simp⟩
    · simp only [valueAt, hexp, map_some]
    · simp only [valueAt, hact, map_some]
    · dsimp only
      omega
    · rfl

/-- A payload is compared after sizes and offsets, which are the same then. -/
theorem located_payload (ha : actual_document.Wf actual)
    (hlay : compare_chunk_layout expected_chunk actual_chunk chunk_index = none)
    (h : compare_chunk_payload expected_document actual_document expected_chunk actual_chunk
      chunk_index = some d) : Located rt expected_document actual_document d := by
  obtain ⟨hsize, hoff⟩ := compare_chunk_layout_eq_none.mp hlay
  have hchunk := (he.chunk_bounds hexp).2
  have hchunk' := (ha.chunk_bounds hact).2
  rw [← he.owned_bytes_eq] at hchunk
  rw [← ha.owned_bytes_eq] at hchunk'
  unfold compare_chunk_payload at h
  dsimp only at h
  split at h
  · rename_i difference hdifference
    obtain ⟨-, hlt, hdiffer⟩ := first_byte_difference_eq_some hdifference
    rw [byteAt_payload_bytes, byteAt_payload_bytes, ← hoff] at hdiffer
    rw [← some.inj h]
    refine ⟨?_, ?_, ?_, ?_, ?_⟩
    · simp only [valueAt, hexp, bind_some]
      rw [if_pos (by omega), getElem?_eq_byteAt (by omega), byteAt_payload_bytes]
      rfl
    · simp only [valueAt, hact, bind_some]
      rw [if_pos (by omega), getElem?_eq_byteAt (by omega), byteAt_payload_bytes, hoff]
      rfl
    · rw [byteAt_payload_bytes, byteAt_payload_bytes, ← hoff]
      intro heq
      exact hdiffer (UInt8.toNat_inj.mp heq)
    · dsimp only
      omega
    · rfl
  · simp at h

omit he

omit hexp hact

variable {compare : DXBCDocumentChunk → DXBCDocumentChunk → ℕ → Option DXBCDifference}

lemma compare_chunks_eq_some
    (h : compare_chunks expected_document actual_document compare = some d) :
    ∃ k expected_chunk actual_chunk, expected_document.chunks[k]? = some expected_chunk ∧
      actual_document.chunks[k]? = some actual_chunk ∧
      compare expected_chunk actual_chunk k = some d := by
  obtain ⟨k, -, hk⟩ := exists_of_findSome?_eq_some h
  split at hk
  · rename_i expected_chunk actual_chunk hexp hact
    exact ⟨k, expected_chunk, actual_chunk, hexp, hact, hk⟩
  · simp at hk

lemma compare_chunks_eq_none (h : compare_chunks expected_document actual_document compare = none)
    (hexp : expected_document.chunks[k]? = some expected_chunk)
    (hact : actual_document.chunks[k]? = some actual_chunk) :
    compare expected_chunk actual_chunk k = none := by
  have hlt : k < expected_document.chunks.length := (List.getElem?_eq_some_iff.mp hexp).1
  have hk := List.findSome?_eq_none_iff.mp h k (mem_range.mpr hlt)
  rw [hexp, hact] at hk
  exact hk

/-- Containers of one size that differ do so at the position of the last resort. -/
theorem raw_byte_position_eq_some (hlen : expected.length = actual.length)
    (hhdr : 20 ≤ expected.length) (hne : expected ≠ actual) :
    ∃ p, raw_byte_position expected actual = some p ∧ p < expected.length ∧
      byteAt expected p ≠ byteAt actual p := by
  unfold raw_byte_position
  cases hfst : first_byte_difference expected actual expected.length 0 with
  | none =>
    exfalso
    apply hne
    apply ext_getElem hlen
    intro k hk hk'
    have hequal := first_byte_difference_eq_none hfst (Nat.zero_le k) hk
    have hget := getElem?_eq_byteAt hk
    have hget' := getElem?_eq_byteAt hk'
    rw [hequal, ← hget', getElem?_eq_getElem hk, getElem?_eq_getElem hk'] at hget
    exact some.inj hget
  | some offset =>
    obtain ⟨-, hlt, hdiffer⟩ := first_byte_difference_eq_some hfst
    dsimp only
    split_ifs with hchecksum
    · -- The first difference is in the checksum, so the search starts again behind it.
      rw [any_some, decide_eq_true_iff] at hchecksum
      cases hsnd : first_byte_difference expected actual expected.length 20 with
      | some offset' =>
        obtain ⟨-, hlt', hdiffer'⟩ := first_byte_difference_eq_some hsnd
        exact ⟨offset', rfl, hlt', hdiffer'⟩
      | none =>
        cases hthird : first_byte_difference expected actual 20 4 with
        | some offset' =>
          obtain ⟨-, hlt', hdiffer'⟩ := first_byte_difference_eq_some hthird
          exact ⟨offset', rfl, by omega, hdiffer'⟩
        | none =>
          exact absurd (first_byte_difference_eq_none hthird hchecksum.1 hchecksum.2) hdiffer
    · exact ⟨offset, rfl, hlt, hdiffer⟩

include he

lemma located_header (h : compare_header expected_document actual_document = some d) :
    Located rt expected_document actual_document d ∧ d.IsStructure := by
  have hhdr := he.header.2.1
  rw [← he.owned_bytes_eq] at hhdr
  unfold compare_header at h
  split_ifs at h with hver hcnt
  · rw [← some.inj h]
    refine ⟨⟨rfl, rfl, ?_, ?_, ?_⟩, by simp⟩
    · intro heq
      exact hver (UInt32.toNat_inj.mp heq)
    · dsimp only
      omega
    · rfl
  · rw [← some.inj h]
    refine ⟨⟨rfl, rfl, hcnt, ?_, rfl⟩, by simp⟩
    dsimp only
    omega

lemma located_size (ha : actual_document.Wf actual)
    (h : compare_size expected.length actual.length = some d) :
    Located rt expected_document actual_document d ∧ d.IsStructure := by
  have hhdr := he.header.2.1
  rw [← he.owned_bytes_eq] at hhdr h
  rw [← ha.owned_bytes_eq] at h
  unfold compare_size at h
  split_ifs at h with hsize
  rw [← some.inj h]
  refine ⟨⟨rfl, rfl, hsize, ?_, rfl⟩, by simp⟩
  dsimp only
  omega

omit he in
lemma compare_size_eq_none {expected_size actual_size : ℕ} :
    compare_size expected_size actual_size = none ↔ expected_size = actual_size := by
  unfold compare_size
  split_ifs with hsize
  · simp [hsize]
  · simp [not_not.mp hsize]

lemma located_raw_bytes (ha : actual_document.Wf actual) (hlen : expected.length = actual.length)
    (hne : expected ≠ actual) :
    Located rt expected_document actual_document (compare_raw_bytes expected actual) := by
  have hhdr := he.header.2.1
  obtain ⟨p, hp, hlt, hdiffer⟩ := raw_byte_position_eq_some hlen (by omega) hne
  unfold compare_raw_bytes
  rw [hp]
  refine ⟨?_, ?_, ?_, ?_, rfl⟩
  · change (expected_document.owned_bytes[p]?).map _ = _
    rw [he.owned_bytes_eq, getElem?_eq_byteAt hlt]
    rfl
  · change (actual_document.owned_bytes[p]?).map _ = _
    rw [ha.owned_bytes_eq, getElem?_eq_byteAt (hlen ▸ hlt)]
    rfl
  · intro heq
    exact hdiffer (UInt8.toNat_inj.mp heq)
  · change p < _
    rw [he.owned_bytes_eq]
    exact hlt

omit he

lemma getD_or {P : α → Prop} {o o' : Option α} {x : α} (hsome : ∀ a, o = some a → P a)
    (hnone : o = none → P (o'.getD x)) :
    P ((o.or o').getD x) := by
  cases h : o with
  | some a => exact hsome a h
  | none => exact hnone h

structure Passed (rt : UnityCommon) (expected_document actual_document : DXBCDocument)
    (expected actual : Bytes) : Prop where
  header_eq : compare_header expected_document actual_document = none
  structure_eq : compare_chunks expected_document actual_document
    (compare_chunk_structure rt expected_document actual_document) = none
  layout_eq : compare_chunks expected_document actual_document compare_chunk_layout = none
  size_eq : expected.length = actual.length

/-- A located difference. If it only compares bytes, nothing else was left to report. -/
structure Reported (rt : UnityCommon) (expected_document actual_document : DXBCDocument)
    (expected actual : Bytes) (d : DXBCDifference) : Prop
    extends Located rt expected_document actual_document d where
  last : d.IsStructure ∨ Passed rt expected_document actual_document expected actual

/-- **Every report is located.** The layers are gone through in the order of the code. -/
theorem reported_documents (he : expected_document.Accepted expected)
    (ha : actual_document.Accepted actual) (hne : expected ≠ actual) :
    Reported rt expected_document actual_document expected actual
      (compare_documents rt expected_document actual_document expected actual) := by
  unfold compare_documents
  apply getD_or
  · intro d h
    obtain ⟨hloc, hstruct⟩ := located_header he.toWf h
    exact ⟨hloc, .inl hstruct⟩
  intro hhdr
  apply getD_or
  · intro d h
    obtain ⟨k, ec, ac, hec, hac, h⟩ := compare_chunks_eq_some h
    obtain ⟨hloc, hstruct⟩ := located_structure hec hac he ha h
    exact ⟨hloc, .inl hstruct⟩
  intro hstruct
  apply getD_or
  · intro d h
    obtain ⟨k, ec, ac, hec, hac, h⟩ := compare_chunks_eq_some h
    obtain ⟨hloc, hstruct⟩ := located_layout hec hac he.toWf h
    exact ⟨hloc, .inl hstruct⟩
  intro hlay
  apply getD_or
  · intro d h
    obtain ⟨hloc, hstruct⟩ := located_size he.toWf ha.toWf h
    exact ⟨hloc, .inl hstruct⟩
  intro hsize
  have hsize := compare_size_eq_none.mp hsize
  have hpassed : Passed rt expected_document actual_document expected actual :=
    ⟨hhdr, hstruct, hlay, hsize⟩
  cases h : compare_chunks expected_document actual_document
      (compare_chunk_payload expected_document actual_document) with
  | some d =>
    obtain ⟨k, ec, ac, hec, hac, h⟩ := compare_chunks_eq_some h
    exact ⟨located_payload hec hac he.toWf ha.toWf (compare_chunks_eq_none hlay hec hac) h,
      .inr hpassed⟩
  | none => exact ⟨located_raw_bytes he.toWf ha.toWf hsize hne, .inr hpassed⟩

/-! ## What passes without a report -/

lemma token_eq_of_compare {instruction_index : ℕ} {i' : DXBCDocumentInstruction}
    (htoken : token_index < i.token_count) (hcnt : i.token_count = i'.token_count)
    (h : compare_token rt expected_document actual_document chunk_index instruction_index i i'
      token_index = none) :
    wordAt expected_document.owned_bytes (i.byte_offset + 4 * token_index) =
      wordAt actual_document.owned_bytes (i'.byte_offset + 4 * token_index) := by
  unfold compare_token dxbc_document_instruction_token at h
  rw [if_neg (by omega), if_neg (by omega), read_u32_le_eq, read_u32_le_eq] at h
  dsimp only at h
  split_ifs at h with hdiffer
  rw [Nat.mul_comm 4]
  exact not_not.mp hdiffer

lemma words_eq_of_compare {i' : DXBCDocumentInstruction}
    (hi : (expected_document.chunkInstructions chunk_index)[k]? = some i)
    (hi' : (actual_document.chunkInstructions chunk_index)[k]? = some i')
    (h : compare_instruction rt expected_document actual_document expected_chunk chunk_index k
      = none) : i.words expected_document.owned_bytes = i'.words actual_document.owned_bytes := by
  unfold compare_instruction at h
  rw [instruction_for_chunk_eq, instruction_for_chunk_eq, hi, hi'] at h
  dsimp only at h
  split_ifs at h with hopcode hlen
  rw [not_not] at hlen
  unfold DXBCDocumentInstruction.words
  apply ext_getElem?
  intro t
  by_cases ht : t < i.token_count
  · have htoken := findSome?_eq_none_iff.mp h t (mem_range.mpr ht)
    rw [wordsAt_getElem? _ _ _ _ ht, wordsAt_getElem? _ _ _ _ (by omega),
      token_eq_of_compare ht hlen htoken]
  · rw [getElem?_eq_none (by rw [wordsAt_length]; omega),
      getElem?_eq_none (by rw [wordsAt_length]; omega)]

def DXBCDocument.chunkWords (document : DXBCDocument) (chunk_index : ℕ) : List (List UInt32) :=
  (document.chunkInstructions chunk_index).map fun i => i.words document.owned_bytes

lemma chunkWords_eq_of_compare
    (h : compare_program rt expected_document actual_document expected_chunk actual_chunk
      chunk_index = none) :
    expected_document.chunkWords chunk_index = actual_document.chunkWords chunk_index := by
  unfold compare_program at h
  rw [instruction_count_for_chunk_eq, instruction_count_for_chunk_eq] at h
  dsimp only at h
  split_ifs at h with hver hcnt
  rw [not_not] at hcnt
  unfold chunkWords
  apply ext_getElem
  · rw [length_map, length_map, hcnt]
  · intro k hk hk'
    rw [length_map] at hk hk'
    rw [getElem_map, getElem_map]
    exact words_eq_of_compare (getElem?_eq_getElem hk) (getElem?_eq_getElem hk')
      (findSome?_eq_none_iff.mp h k (mem_range.mpr hk))

lemma Passed.chunkWords_eq (he : expected_document.Accepted expected)
    (ha : actual_document.Accepted actual)
    (h : Passed rt expected_document actual_document expected actual)
    (hexp : expected_document.chunks[chunk_index]? = some expected_chunk)
    (hkind : expected_chunk.kind = .executable) :
    ∃ actual_chunk, actual_document.chunks[chunk_index]? = some actual_chunk ∧
      actual_chunk.kind = .executable ∧ actual_chunk.offset = expected_chunk.offset ∧
      expected_document.chunkWords chunk_index = actual_document.chunkWords chunk_index := by
  have hlt : chunk_index < expected_document.chunks.length :=
    (List.getElem?_eq_some_iff.mp hexp).1
  have hlen : expected_document.chunks.length = actual_document.chunks.length := by
    have hhdr := h.header_eq
    unfold compare_header at hhdr
    split_ifs at hhdr with hver hcnt
    exact not_not.mp hcnt
  have hact := List.getElem?_eq_getElem (hlen ▸ hlt)
  have hstruct := compare_chunks_eq_none h.structure_eq hexp hact
  have hlay := compare_chunks_eq_none h.layout_eq hexp hact
  unfold compare_chunk_structure at hstruct
  have hfourcc : expected_chunk.fourcc = actual_document.chunks[chunk_index].fourcc := by
    by_contra hne
    rw [if_pos hne] at hstruct
    simp at hstruct
  have hkind' : actual_document.chunks[chunk_index].kind = .executable := by
    rw [ha.kind_eq hact, ← hfourcc, ← he.kind_eq hexp]
    exact hkind
  rw [if_neg (not_not.mpr hfourcc), if_pos ⟨hkind, hkind'⟩] at hstruct
  exact ⟨_, hact, hkind', (compare_chunk_layout_eq_none.mp hlay).2.symm,
    chunkWords_eq_of_compare hstruct⟩

end Reports

/-- Tilings from one start with the same lengths put their instructions at the same places. -/
theorem Tiles.byte_offset_eq {stop stop' index : ℕ} {is' : List DXBCDocumentInstruction}
    (h : Tiles stop start index is) (h' : Tiles stop' start index is')
    (hcnts : is.map (·.token_count) = is'.map (·.token_count)) :
    is.map (·.byte_offset) = is'.map (·.byte_offset) := by
  induction is generalizing start index is' with
  | nil =>
    rw [map_eq_nil_iff.mp hcnts.symm]
  | cons i is ih =>
    cases is' with
    | nil => simp at hcnts
    | cons i' is' =>
      rw [map_cons, map_cons] at hcnts ⊢
      obtain ⟨hcnt, hcnts⟩ := cons_eq_cons.mp hcnts
      obtain ⟨hoff, -, -, hsize, hrest⟩ := h
      obtain ⟨hoff', -, -, hsize', hrest'⟩ := h'
      rw [hsize', ← hcnt, ← hsize] at hrest'
      rw [hoff, hoff', ih hrest hrest' hcnts]

lemma byteAt_eq_of_wordAt_eq {a b : Bytes} {pos : ℕ} (ha : pos + 4 ≤ a.length)
    (hb : pos + 4 ≤ b.length) (h : wordAt a pos = wordAt b pos) {j : ℕ} (hj : j < 4) :
    byteAt a (pos + j) = byteAt b (pos + j) := by
  have hslice : slice a pos 4 = slice b pos 4 := by
    rw [← leBytes_wordAt a pos ha, ← leBytes_wordAt b pos hb, h]
  rw [slice_four a ha, slice_four b hb] at hslice
  simp only [cons.injEq, and_true] at hslice
  obtain ⟨h0, h1, h2, h3⟩ := hslice
  obtain rfl | rfl | rfl | rfl : j = 0 ∨ j = 1 ∨ j = 2 ∨ j = 3 := by omega
  · exact h0
  · exact h1
  · exact h2
  · exact h3

section Programs

variable {rt : UnityCommon} {expected_document actual_document : DXBCDocument}
  {expected actual : Bytes} {chunk_index : ℕ} {expected_chunk : DXBCDocumentChunk}

/-- Where nothing was reported before the payloads, the bytes of all instructions agree. -/
theorem Passed.byte_eq (he : expected_document.Accepted expected)
    (ha : actual_document.Accepted actual)
    (h : Passed rt expected_document actual_document expected actual)
    (hexp : expected_document.chunks[chunk_index]? = some expected_chunk)
    (hkind : expected_chunk.kind = .executable)
    (hi : i ∈ expected_document.chunkInstructions chunk_index) {p : ℕ} (hp : i.byte_offset ≤ p)
    (hp' : p < i.byte_offset + i.byte_size) : expected[p]? = actual[p]? := by
  obtain ⟨actual_chunk, hact, hkind', hoff, hwords⟩ := h.chunkWords_eq he ha hexp hkind
  have hprog := he.programs _ (mem_of_getElem? hexp) hkind
  have hprog' := ha.programs _ (mem_of_getElem? hact) hkind'
  rw [he.table_index hexp] at hprog
  rw [ha.table_index hact] at hprog'
  have hbnds := he.instruction_bounds hexp hkind hi
  have hchunk := (he.chunk_bounds hexp).2
  unfold DXBCDocument.chunkWords at hwords
  rw [he.owned_bytes_eq, ha.owned_bytes_eq] at hwords
  -- The instructions have the same lengths, so they are at the same places.
  have hcnts : (expected_document.chunkInstructions chunk_index).map (·.token_count) =
      (actual_document.chunkInstructions chunk_index).map (·.token_count) := by
    have hlens := congrArg (List.map List.length) hwords
    simpa only [List.map_map, Function.comp_def, DXBCDocumentInstruction.words, wordsAt_length]
      using hlens
  have htiles' := hprog'.tiles
  rw [hoff] at htiles'
  have hoffs := hprog.tiles.byte_offset_eq htiles' hcnts
  obtain ⟨left, hdec⟩ := hprog.decoded i hi
  obtain ⟨n, hn, rfl⟩ := getElem_of_mem hi
  have hn' : n < (actual_document.chunkInstructions chunk_index).length := by
    have hlen := congrArg List.length hcnts
    rw [length_map, length_map] at hlen
    omega
  have hat : ∀ {β : Type} {f g : DXBCDocumentInstruction → β},
      (expected_document.chunkInstructions chunk_index).map f =
        (actual_document.chunkInstructions chunk_index).map g →
      f (expected_document.chunkInstructions chunk_index)[n] =
        g (actual_document.chunkInstructions chunk_index)[n] := by
    intro β f g hmap
    have hget := congrArg (fun l => l[n]?) hmap
    simpa only [List.getElem?_map, List.getElem?_eq_getElem hn, List.getElem?_eq_getElem hn',
      map_some, some.injEq] using hget
  have hword := hat hwords
  have hoffset_eq := hat hoffs
  have hcount_eq := hat hcnts
  generalize (expected_document.chunkInstructions chunk_index)[n] = i at *
  generalize (actual_document.chunkInstructions chunk_index)[n] = i' at *
  have hsize := hdec.byte_size_eq
  have hsize_eq := h.size_eq
  -- The byte is one of the four of a word.
  have ht : (p - i.byte_offset) / 4 < i.token_count := by omega
  have hget := congrArg (fun l => l[(p - i.byte_offset) / 4]?) hword
  dsimp only [DXBCDocumentInstruction.words] at hget
  rw [wordsAt_getElem? _ _ _ _ ht, wordsAt_getElem? _ _ _ _ (by omega), ← hoffset_eq] at hget
  have hbyte := byteAt_eq_of_wordAt_eq (by omega) (by omega) (some.inj hget)
    (show (p - i.byte_offset) % 4 < 4 by omega)
  rw [show i.byte_offset + 4 * ((p - i.byte_offset) / 4) + (p - i.byte_offset) % 4 = p by omega]
    at hbyte
  rw [getElem?_eq_byteAt (by omega), getElem?_eq_byteAt (by omega), hbyte]

end Programs

/-! ## Exchanged arguments -/

section Swap

variable {rt : UnityCommon} {e a : DXBCDocument} {chunk_index : ℕ}

lemma map_findSome?_congr {n : ℕ} {f g : ℕ → Option DXBCDifference}
    (h : ∀ k, (f k).map (·.status) = (g k).map (·.status)) :
    ((List.range n).findSome? f).map (·.status) = ((List.range n).findSome? g).map (·.status) := by
  rw [map_findSome?, map_findSome?]
  congr 1
  funext k
  exact h k

lemma status_test [DecidableEq α] {x y : α} {d d' : DXBCDifference}
    {rest rest' : Option DXBCDifference} (hd : d'.status = d.status)
    (hrest : x = y → rest'.map (·.status) = rest.map (·.status)) :
    (if y ≠ x then some d' else rest').map (·.status) =
      (if x ≠ y then some d else rest).map (·.status) := by
  by_cases h : x = y
  · rw [if_neg (not_not.mpr h.symm), if_neg (not_not.mpr h)]
    exact hrest h
  · rw [if_pos (Ne.symm h), if_pos h, map_some, map_some, hd]

lemma status_compare_token (k : ℕ) (i i' : DXBCDocumentInstruction) (t : ℕ) :
    (compare_token rt a e chunk_index k i' i t).map (·.status) =
      (compare_token rt e a chunk_index k i i' t).map (·.status) := by
  unfold compare_token
  cases dxbc_document_instruction_token rt e i t with
  | none => cases dxbc_document_instruction_token rt a i' t <;> rfl
  | some w =>
    cases dxbc_document_instruction_token rt a i' t with
    | none => rfl
    | some w' => exact status_test rfl fun _ => rfl

variable (c c' : DXBCDocumentChunk)

lemma status_compare_instruction (k : ℕ) :
    (compare_instruction rt a e c' chunk_index k).map (·.status) =
      (compare_instruction rt e a c chunk_index k).map (·.status) := by
  unfold compare_instruction
  cases instruction_for_chunk e chunk_index k with
  | none => cases instruction_for_chunk a chunk_index k <;> rfl
  | some i =>
    cases instruction_for_chunk a chunk_index k with
    | none => rfl
    | some i' =>
      dsimp only
      refine status_test rfl fun _ => ?_
      refine status_test rfl fun hlen => ?_
      rw [hlen]
      exact map_findSome?_congr fun t => status_compare_token k i i' t

lemma status_compare_program : (compare_program rt a e c' c chunk_index).map (·.status) =
      (compare_program rt e a c c' chunk_index).map (·.status) := by
  unfold compare_program
  refine status_test rfl fun _ => ?_
  refine status_test rfl fun hcnt => ?_
  rw [hcnt]
  exact map_findSome?_congr fun k => status_compare_instruction c c' k

lemma status_compare_chunk_structure :
    (compare_chunk_structure rt a e c' c chunk_index).map (·.status) =
      (compare_chunk_structure rt e a c c' chunk_index).map (·.status) := by
  unfold compare_chunk_structure
  refine status_test rfl fun _ => ?_
  by_cases hkind : c.kind = .executable ∧ c'.kind = .executable
  · rw [if_pos hkind, if_pos hkind.symm]
    exact status_compare_program c c'
  · rw [if_neg hkind, if_neg fun h => hkind h.symm]

lemma status_compare_chunk_layout : (compare_chunk_layout c' c chunk_index).map (·.status) =
      (compare_chunk_layout c c' chunk_index).map (·.status) := by
  unfold compare_chunk_layout
  refine status_test rfl fun _ => ?_
  exact status_test rfl fun _ => rfl

lemma first_byte_difference_comm (expected actual : Bytes) (size start : ℕ) :
    first_byte_difference actual expected size start =
      first_byte_difference expected actual size start := by
  unfold first_byte_difference
  congr 1
  funext offset
  exact decide_eq_decide.mpr ne_comm

lemma status_compare_chunks (hlen : e.chunks.length = a.chunks.length)
    {f g : DXBCDocumentChunk → DXBCDocumentChunk → ℕ → Option DXBCDifference}
    (h : ∀ k c c', e.chunks[k]? = some c → a.chunks[k]? = some c' →
      (g c' c k).map (·.status) = (f c c' k).map (·.status)) :
    (compare_chunks a e g).map (·.status) = (compare_chunks e a f).map (·.status) := by
  unfold compare_chunks
  rw [hlen]
  apply map_findSome?_congr
  intro k
  cases hc : e.chunks[k]? with
  | none => cases a.chunks[k]? <;> rfl
  | some c =>
    cases hc' : a.chunks[k]? with
    | none => rfl
    | some c' => exact h k c c' hc hc'

lemma status_compare_chunk_payload {c c' : DXBCDocumentChunk}
    (hsize : c.payload_size = c'.payload_size) :
    (compare_chunk_payload a e c' c chunk_index).map (·.status) =
      (compare_chunk_payload e a c c' chunk_index).map (·.status) := by
  unfold compare_chunk_payload
  dsimp only
  rw [first_byte_difference_comm, hsize]
  cases first_byte_difference (e.payload_bytes c) (a.payload_bytes c') c'.payload_size 0 <;> rfl

lemma status_or {o o' u u' : Option DXBCDifference} {x x' : DXBCDifference}
    (h : o'.map (·.status) = o.map (·.status))
    (hrest : o = none → (u'.getD x').status = (u.getD x).status) :
    ((o'.or u').getD x').status = ((o.or u).getD x).status := by
  cases o with
  | none =>
    rw [map_none, map_eq_none_iff] at h
    rw [h]
    exact hrest rfl
  | some d =>
    obtain ⟨d', rfl, hd⟩ := map_eq_some_iff.mp h
    exact hd

lemma status_compare_documents (rt : UnityCommon) (e a : DXBCDocument) (expected actual : Bytes) :
    (compare_documents rt a e actual expected).status =
      (compare_documents rt e a expected actual).status := by
  have hhdr : (compare_header a e).map (·.status) = (compare_header e a).map (·.status) := by
    unfold compare_header
    refine status_test rfl fun _ => ?_
    exact status_test rfl fun _ => rfl
  have hsize : (compare_size actual.length expected.length).map (·.status) =
      (compare_size expected.length actual.length).map (·.status) :=
    status_test rfl fun _ => rfl
  unfold compare_documents
  apply status_or hhdr
  intro hnone
  have hlen : e.chunks.length = a.chunks.length := by
    unfold compare_header at hnone
    split_ifs at hnone with hver hcnt
    exact not_not.mp hcnt
  apply status_or (status_compare_chunks hlen fun k c c' _ _ => status_compare_chunk_structure c c')
  intro _
  apply status_or (status_compare_chunks hlen fun k c c' _ _ => status_compare_chunk_layout c c')
  intro hlay
  apply status_or hsize
  intro _
  have hpay := status_compare_chunks hlen (f := compare_chunk_payload e a)
    (g := compare_chunk_payload a e) fun k c c' hc hc' =>
      status_compare_chunk_payload
        (compare_chunk_layout_eq_none.mp (compare_chunks_eq_none hlay hc hc')).1
  rw [← or_none (o := compare_chunks a e _), ← or_none (o := compare_chunks e a _)]
  exact status_or hpay fun _ => rfl

end Swap

/-! ## The comparison -/

/-- A difference is inside the instructions of a program of the expected document: the
instructions are not those of the actual document, or a byte of one of them is not. -/
def DiffersInProgram (expected_document actual_document : DXBCDocument)
    (expected actual : Bytes) : Prop :=
  ∃ chunk_index chunk, expected_document.chunks[chunk_index]? = some chunk ∧
    chunk.kind = .executable ∧
    (expected_document.chunkWords chunk_index ≠ actual_document.chunkWords chunk_index ∨
      ∃ i ∈ expected_document.chunkInstructions chunk_index, ∃ p, i.byte_offset ≤ p ∧
        p < i.byte_offset + i.byte_size ∧ expected[p]? ≠ actual[p]?)

lemma dxbc_compare_exact_eq {expected actual : CArray UInt8} {data data' : Bytes}
    {e a : DXBCDocument} {d' : DXBCDocumentDiagnostic} (hexp : expected.values = some data)
    (hact : actual.values = some data')
    (he : dxbc_document_parse rt dxbc_document_init (some data) = (true, e, d))
    (ha : dxbc_document_parse rt dxbc_document_init (some data') = (true, a, d')) :
    (dxbc_compare_exact rt expected actual).toDXBCDifference =
      if data = data' then dxbc_compare_result_init.toDXBCDifference
      else compare_documents rt e a data data' := by
  unfold dxbc_compare_exact
  rw [hexp, hact]
  dsimp only
  rw [he, ha]
  dsimp only
  split_ifs <;> rfl

/-- **Exact comparison.** For two accepted containers the result is equality exactly when the
bytes are equal. Every other result names a coordinate of both documents and gives the two
values there, which differ. The status does not depend on the order of the arguments. The two
results that only compare bytes never stand for a difference inside a program. -/
theorem dxbc_compare_exact_spec (rt : UnityCommon) (expected actual : CArray UInt8)
    (data data' : Bytes) (e a : DXBCDocument) (d d' : DXBCDocumentDiagnostic)
    (hexpected : expected.values = some data) (hactual : actual.values = some data')
    (he : dxbc_document_parse rt dxbc_document_init (some data) = (true, e, d))
    (ha : dxbc_document_parse rt dxbc_document_init (some data') = (true, a, d')) :
    ((dxbc_compare_exact rt expected actual).status = .equal ↔ data = data') ∧
    ((dxbc_compare_exact rt expected actual).status ≠ .equal →
      Located rt e a (dxbc_compare_exact rt expected actual).toDXBCDifference) ∧
    (dxbc_compare_exact rt actual expected).status =
      (dxbc_compare_exact rt expected actual).status ∧
    (DiffersInProgram e a data data' →
      (dxbc_compare_exact rt expected actual).toDXBCDifference.IsStructure) := by
  have heq := dxbc_compare_exact_eq hexpected hactual he ha
  have hswap := dxbc_compare_exact_eq hactual hexpected ha he
  have he := accepted_of_parse he
  have ha := accepted_of_parse ha
  rw [heq, hswap]
  by_cases hdata : data = data'
  · rw [if_pos hdata, if_pos hdata.symm]
    refine ⟨iff_of_true rfl hdata, fun h => absurd rfl h, rfl, fun _ => ?_⟩
    exact ⟨by decide, by decide⟩
  · rw [if_neg hdata, if_neg (Ne.symm hdata)]
    have hreported : Reported rt e a data data' (compare_documents rt e a data data') :=
      reported_documents he ha hdata
    have hne : (compare_documents rt e a data data').status ≠ .equal := by
      intro hstatus
      have hvalue := hreported.expected_eq
      rw [DXBCDocument.valueAt, hstatus] at hvalue
      simp at hvalue
    refine ⟨iff_of_false hne hdata, fun _ => hreported.toLocated,
      status_compare_documents rt e a data data', ?_⟩
    rintro ⟨chunk_index, chunk, hchunk, hkind, hdiffers⟩
    rcases hreported.last with hstructure | hpassed
    · exact hstructure
    · exfalso
      obtain ⟨actual_chunk, -, -, -, hwords⟩ := hpassed.chunkWords_eq he ha hchunk hkind
      rcases hdiffers with hdiffers | ⟨i, hi, p, hp, hp', hbyte⟩
      · exact hdiffers hwords
      · exact hbyte (hpassed.byte_eq he ha hchunk hkind hi hp hp')

def retRetContainer : Bytes :=
  [68, 88, 66, 67, 137, 198, 253, 172, 120, 103, 62, 188, 166, 178, 129, 9, 153, 95, 161, 39,
   1, 0, 0, 0, 60, 0, 0, 0, 1, 0, 0, 0, 36, 0, 0, 0, 83, 72, 69, 88, 16, 0, 0, 0,
   80, 0, 0, 0, 4, 0, 0, 0, 62, 0, 0, 1, 62, 0, 0, 1]

lemma eq_of_fst {β : Type} {r : Bool × α × β} (h : r.1 = true) : r = (true, r.2.1, r.2.2) := by
  rw [← h]

/-- Their difference is an opcode, and it is reported as one. -/
theorem dxbc_compare_exact_ret_ret : ∃ e a d d',
      dxbc_document_parse .reference dxbc_document_init (some nopRetContainer) = (true, e, d) ∧
      dxbc_document_parse .reference dxbc_document_init (some retRetContainer) = (true, a, d') ∧
      (dxbc_compare_exact .reference ⟨some nopRetContainer, 60, by simp [nopRetContainer]⟩
        ⟨some retRetContainer, 60, by simp [retRetContainer]⟩).status = .instructionOpcode ∧
      Located .reference e a
        (dxbc_compare_exact .reference ⟨some nopRetContainer, 60, by simp [nopRetContainer]⟩
          ⟨some retRetContainer, 60, by simp [retRetContainer]⟩).toDXBCDifference := by
  have he : (dxbc_document_parse .reference dxbc_document_init
      (some nopRetContainer)).1 = true := by decide +kernel
  have ha : (dxbc_document_parse .reference dxbc_document_init
      (some retRetContainer)).1 = true := by decide +kernel
  have hstatus : (dxbc_compare_exact .reference
      ⟨some nopRetContainer, 60, by simp [nopRetContainer]⟩
      ⟨some retRetContainer, 60, by simp [retRetContainer]⟩).status = .instructionOpcode := by
    decide +kernel
  have hspec := dxbc_compare_exact_spec .reference
    ⟨some nopRetContainer, 60, by simp [nopRetContainer]⟩
    ⟨some retRetContainer, 60, by simp [retRetContainer]⟩ _ _ _ _ _ _ rfl rfl (eq_of_fst he)
    (eq_of_fst ha)
  have hne : (dxbc_compare_exact .reference ⟨some nopRetContainer, 60, by simp [nopRetContainer]⟩
      ⟨some retRetContainer, 60, by simp [retRetContainer]⟩).status ≠ .equal := by
    rw [hstatus]
    decide
  exact ⟨_, _, _, _, eq_of_fst he, eq_of_fst ha, hstatus, hspec.2.1 hne⟩

end DXBCSandbox
