/-
What an accepted document looks like.

The reader walks a table of untrusted offsets and then a stream of untrusted
instruction lengths. The results here are the two geometric facts its clients
build on: the chunks are disjoint ranges of the buffer, and the instructions of an
executable chunk tile its payload. Both are read off the list of checks the walk
passed, one lemma per loop.
-/
import DXBCSandbox.Dxbc.Document

namespace DXBCSandbox

open List Option Checks

/-! ## The vocabulary -/

/-- The ranges of two chunks, header included, share no byte. -/
def DXBCDocumentChunk.Disjoint (a b : DXBCDocumentChunk) : Prop :=
  a.offset + a.raw_size ≤ b.offset ∨ b.offset + b.raw_size ≤ a.offset

/-- A chunk range inside `bytes` and behind the offset table. -/
structure DXBCDocumentChunk.Inside (chunk : DXBCDocumentChunk) (bytes : Bytes)
    (chunk_table_end : ℕ) : Prop where
  raw_size_eq : chunk.raw_size = 8 + chunk.payload_size
  after_table : chunk_table_end ≤ chunk.offset
  inside : chunk.offset + chunk.raw_size ≤ bytes.length

structure DXBCDocumentChunk.ReadFrom (chunk : DXBCDocumentChunk) (bytes : Bytes) : Prop where
  offset_eq : chunk.offset = (wordAt bytes (32 + chunk.table_index * 4)).toNat
  payload_size_eq : chunk.payload_size = (wordAt bytes (chunk.offset + 4)).toNat
  kind_eq : chunk.kind = classify_chunk ((bytes.drop chunk.offset).take 4)

/-- The instructions cover the bytes from `start` to `stop`: each is non-empty and
begins where the one before it ends. Their indices count up from `index`. -/
def Tiles (stop : ℕ) : (start index : ℕ) → List DXBCDocumentInstruction → Prop
  | start, _, [] => start = stop
  | start, index, i :: is =>
    i.byte_offset = start ∧ i.instruction_index = index ∧ 0 < i.token_count ∧
      i.byte_size = 4 * i.token_count ∧ Tiles stop (start + i.byte_size) (index + 1) is

/-- Bit 31 of a token: another extension token follows. -/
def Extended (w : UInt32) : Prop := w &&& 0x80000000 ≠ 0

instance (w : UInt32) : Decidable (Extended w) :=
  inferInstanceAs (Decidable (_ ≠ _))

/-- The words of an instruction behind its opcode token, and behind the length word
of a custom-data block. -/
def bodyWords (words : List UInt32) : List UInt32 :=
  words.drop (if words.headD 0 &&& 0x7ff = 53 then 2 else 1)

/-- The number of leading extended opcode tokens of an instruction: none unless its
opcode token announces one, and then up to the first that announces no other. -/
def leadingExtensions (words : List UInt32) : ℕ :=
  if Extended (words.headD 0) then
    ((bodyWords words).takeWhile fun w => decide (Extended w)).length + 1
  else 0

def DXBCDocumentInstruction.words (i : DXBCDocumentInstruction) (bytes : Bytes) :
    List UInt32 := wordsAt bytes i.byte_offset i.token_count

/-- The length of the instruction at byte `offset`, in words: the second word of a
custom-data block, the seven-bit field of any other opcode token. -/
def encodedTokenCount (bytes : Bytes) (offset : ℕ) : ℕ :=
  if wordAt bytes offset &&& 0x7ff = 53 then (wordAt bytes (offset + 4)).toNat
  else ((wordAt bytes offset >>> 24) &&& 0x7f).toNat

/-- `i` describes the instruction at byte `offset`, with `left` words before the end
of the program. -/
structure DXBCDocumentInstruction.DecodedAt (i : DXBCDocumentInstruction) (bytes : Bytes)
    (chunk_index index offset left : ℕ) : Prop where
  chunk_index_eq : i.chunk_index = chunk_index
  index_eq : i.instruction_index = index
  byte_offset_eq : i.byte_offset = offset
  byte_size_eq : i.byte_size = 4 * i.token_count
  opcode_eq : i.opcode = wordAt bytes offset &&& 0x7ff
  token_count_eq : i.token_count = encodedTokenCount bytes offset
  minimum : (if wordAt bytes offset &&& 0x7ff = 53 then 2 else 1) ≤ i.token_count
  token_count_le : i.token_count ≤ left
  extensions_eq : i.extended_opcode_token_count = leadingExtensions (i.words bytes)
  extensions_le : i.extended_opcode_token_count ≤ (bodyWords (i.words bytes)).length

variable {bytes : Bytes} {i : DXBCDocumentInstruction} {index : ℕ}

lemma DXBCDocumentInstruction.DecodedAt.token_count_pos {chunk_index offset left : ℕ}
    (h : i.DecodedAt bytes chunk_index index offset left) : 0 < i.token_count := by
  have hmin := h.minimum
  split at hmin
  · omega
  · omega

variable {document document' : DXBCDocument}

section Reader

variable {rt : UnityCommon}

/-! ## One instruction -/

variable {n word : ℕ}

lemma count_extensions_spec {chunk_index offset count : ℕ} {left : ℕ}
    (h : count_extensions rt bytes chunk_index index offset count left word = .ok n) :
    n = ((wordsAt bytes (offset + word * 4) left).takeWhile
        fun w => decide (Extended w)).length + 1 ∧ n ≤ left := by
  induction left generalizing word n with
  | zero => cases h
  | succ left ih =>
    rw [count_extensions, read_u32_le_eq] at h
    rw [wordsAt, takeWhile_cons]
    split at h
    · rename_i hext
      obtain ⟨m, hm, hn⟩ := bind_eq_ok.mp h
      have hm' := ih hm
      rw [show offset + (word + 1) * 4 = offset + word * 4 + 4 by omega] at hm'
      have hcont : decide (Extended (wordAt bytes (offset + word * 4))) = true :=
        decide_eq_true hext
      rw [if_pos hcont, length_cons, ← pure_eq_ok.mp hn, ← hm'.1]
      exact ⟨rfl, by omega⟩
    · rename_i hext
      have hcont : ¬decide (Extended (wordAt bytes (offset + word * 4))) = true := by
        rw [decide_eq_true_iff]
        exact hext
      rw [if_neg hcont, ← pure_eq_ok.mp h]
      exact ⟨rfl, by omega⟩

lemma bodyWords_wordsAt (bytes : Bytes) (offset n : ℕ) (hn : 0 < n) (m : ℕ)
    (hm : m = if wordAt bytes offset &&& 0x7ff = 53 then 2 else 1) (hle : m ≤ n) :
    (wordsAt bytes offset n).headD 0 = wordAt bytes offset ∧
      bodyWords (wordsAt bytes offset n) = wordsAt bytes (offset + m * 4) (n - m) := by
  have hhead : (wordsAt bytes offset n).headD 0 = wordAt bytes offset := by
    cases n with
    | zero => omega
    | succ n => rfl
  refine ⟨hhead, ?_⟩
  rw [bodyWords, hhead, ← hm]
  have hspl : n = m + (n - m) := by omega
  have hdrop : (wordsAt bytes offset (m + (n - m))).drop m =
      wordsAt bytes (offset + 4 * m) (n - m) := by
    rw [wordsAt_append, drop_left' (wordsAt_length _ _ _)]
  rw [← hspl] at hdrop
  rw [hdrop, Nat.mul_comm 4 m]

lemma parse_document_instruction_spec {chunk_index payload_offset declared_tokens : ℕ}
    (h : parse_document_instruction rt bytes chunk_index payload_offset declared_tokens index
      word = .ok i) :
    i.DecodedAt bytes chunk_index index (payload_offset + word * 4) (declared_tokens - word) := by
  unfold parse_document_instruction at h
  simp only [read_u32_le_eq, failWhen_bind_eq_ok] at h
  obtain ⟨hc, hz, hmin, hfit, h⟩ := h
  obtain ⟨n, hn, h⟩ := bind_eq_ok.mp h
  rw [Nat.not_lt] at hmin hfit
  rw [← pure_eq_ok.mp h]
  have hpos : 0 < encodedTokenCount bytes (payload_offset + word * 4) := by
    refine Nat.lt_of_lt_of_le ?_ hmin
    split
    · omega
    · omega
  obtain ⟨hhead, hbody⟩ := bodyWords_wordsAt bytes (payload_offset + word * 4)
    (encodedTokenCount bytes (payload_offset + word * 4)) hpos _ rfl hmin
  have hext : n = leadingExtensions (wordsAt bytes (payload_offset + word * 4)
        (encodedTokenCount bytes (payload_offset + word * 4))) ∧
      n ≤ (bodyWords (wordsAt bytes (payload_offset + word * 4)
        (encodedTokenCount bytes (payload_offset + word * 4)))).length := by
    rw [leadingExtensions, hhead, hbody]
    unfold count_opcode_extensions at hn
    split at hn
    · rename_i hbit
      rw [if_pos (show Extended _ from hbit), wordsAt_length]
      exact count_extensions_spec hn
    · rename_i hbit
      rw [if_neg (show ¬Extended _ from hbit), ← pure_eq_ok.mp hn]
      exact ⟨rfl, Nat.zero_le _⟩
  exact ⟨rfl, rfl, rfl, Nat.mul_comm _ _, rfl, rfl, hmin, hfit, hext.1, hext.2⟩

/-! ## The instruction loop -/

variable {is : List DXBCDocumentInstruction}

lemma parse_document_instructions_tiles {chunk_index payload_offset declared_tokens turns : ℕ}
    (hturns : declared_tokens - word ≤ turns) (hword : word ≤ declared_tokens)
    (h : parse_document_instructions rt bytes chunk_index payload_offset declared_tokens turns
      index word = .ok is) :
    Tiles (payload_offset + declared_tokens * 4) (payload_offset + word * 4) index is ∧
      ∀ i ∈ is, ∃ left, i.DecodedAt bytes chunk_index i.instruction_index i.byte_offset left := by
  induction turns generalizing index word is with
  | zero =>
    rw [← pure_eq_ok.mp h]
    have hend : word = declared_tokens := by omega
    rw [hend]
    exact ⟨rfl, by simp only [not_mem_nil, false_imp_iff, implies_true]⟩
  | succ turns ih =>
    rw [parse_document_instructions] at h
    split at h
    · rename_i hlt
      obtain ⟨i, hi, h⟩ := bind_eq_ok.mp h
      obtain ⟨rest, hrest, h⟩ := bind_eq_ok.mp h
      rw [← pure_eq_ok.mp h]
      have hdec := parse_document_instruction_spec hi
      have hpos := hdec.token_count_pos
      have hle := hdec.token_count_le
      obtain ⟨htiles, hall⟩ := ih (by omega) (by omega) hrest
      refine ⟨⟨hdec.byte_offset_eq, hdec.index_eq, hpos, hdec.byte_size_eq, ?_⟩, ?_⟩
      · rw [hdec.byte_size_eq]
        rw [show payload_offset + word * 4 + 4 * i.token_count =
          payload_offset + (word + i.token_count) * 4 by omega]
        exact htiles
      · intro j hj
        rcases mem_cons.mp hj with rfl | hj
        · rw [hdec.index_eq, hdec.byte_offset_eq]
          exact ⟨_, hdec⟩
        · exact hall j hj
    · rename_i hge
      rw [← pure_eq_ok.mp h]
      have hend : word = declared_tokens := by omega
      rw [hend]
      exact ⟨rfl, by simp only [not_mem_nil, false_imp_iff, implies_true]⟩

/-! ## Executable chunks -/

/-- The program an executable chunk declares, in words, header included. -/
def DXBCDocumentChunk.declaredTokens (chunk : DXBCDocumentChunk) (bytes : Bytes) : ℕ :=
  (wordAt bytes (chunk.offset + 12)).toNat

/-- `is` are the instructions of the executable chunk `chunk`: they tile its payload
from behind the program header to the declared length, which is the whole payload. -/
structure DXBCDocumentChunk.Program (chunk : DXBCDocumentChunk) (bytes : Bytes)
    (is : List DXBCDocumentInstruction) : Prop where
  two_le : 2 ≤ chunk.declaredTokens bytes
  payload_eq : chunk.payload_size = 4 * chunk.declaredTokens bytes
  tiles : Tiles (chunk.offset + 8 + chunk.declaredTokens bytes * 4) (chunk.offset + 8 + 2 * 4) 0 is
  decoded : ∀ i ∈ is, ∃ left,
    i.DecodedAt bytes chunk.table_index i.instruction_index i.byte_offset left

variable {chunk : DXBCDocumentChunk}

lemma parse_executable_chunk_spec (h : parse_executable_chunk rt document chunk = .ok document') :
    ∃ is, chunk.Program document.owned_bytes is ∧
      document'.instructions = document.instructions ++ is ∧
      document'.owned_bytes = document.owned_bytes ∧ document'.chunks = document.chunks ∧
      document'.magic = document.magic ∧ document'.declared_size = document.declared_size := by
  unfold parse_executable_chunk at h
  simp only [read_u32_le_eq, failWhen_bind_eq_ok] at h
  obtain ⟨hmod, h8, hlen, h⟩ := h
  obtain ⟨is, his, h⟩ := bind_eq_ok.mp h
  rw [← pure_eq_ok.mp h]
  rw [not_or, Decidable.not_not, Nat.not_lt] at hlen
  have hdecl : chunk.declaredTokens document.owned_bytes =
      (wordAt document.owned_bytes (chunk.offset + 8 + 4)).toNat := rfl
  obtain ⟨htiles, hdec⟩ := parse_document_instructions_tiles (Nat.le_refl _) hlen.2 his
  refine ⟨is, ⟨?_, ?_, ?_, hdec⟩, rfl, rfl, rfl, rfl, rfl⟩
  · rw [hdecl]
    exact hlen.2
  · rw [hdecl, hlen.1]
    omega
  · rw [hdecl]
    exact htiles

lemma DXBCDocumentChunk.Program.chunk_index (h : chunk.Program bytes is) (hi : i ∈ is) :
    i.chunk_index = chunk.table_index := by
  obtain ⟨_, hdec⟩ := h.decoded i hi
  exact hdec.chunk_index_eq

def DXBCDocument.chunkInstructions (document : DXBCDocument) (table_index : ℕ) :
    List DXBCDocumentInstruction :=
  document.instructions.filter fun i => i.chunk_index = table_index

/-- What a pass over executable chunks leaves alone. -/
structure DXBCDocument.SameContainer (document document' : DXBCDocument) : Prop where
  owned_bytes_eq : document'.owned_bytes = document.owned_bytes
  chunks_eq : document'.chunks = document.chunks
  magic_eq : document'.magic = document.magic
  declared_size_eq : document'.declared_size = document.declared_size

variable {chunks : List DXBCDocumentChunk}

/-- The second pass. Chunks are told apart by their table index, so appending the
instructions of one leaves those of every other chunk as they are. -/
theorem parse_executable_chunks_spec (hnodup : (chunks.map (·.table_index)).Nodup)
    (hfresh : ∀ c ∈ chunks, document.chunkInstructions c.table_index = [])
    (h : parse_executable_chunks rt chunks document = .ok document') :
    document.SameContainer document' ∧ (∀ c ∈ chunks, c.kind = .executable →
        c.Program document.owned_bytes (document'.chunkInstructions c.table_index)) ∧
      (∀ i ∈ document'.instructions, i ∈ document.instructions ∨
        ∃ c ∈ chunks, c.kind = .executable ∧ i.chunk_index = c.table_index) ∧
      (∀ t, (∀ c ∈ chunks, c.table_index ≠ t) →
        document'.chunkInstructions t = document.chunkInstructions t) := by
  induction chunks generalizing document with
  | nil =>
    rw [← pure_eq_ok.mp h]
    refine ⟨⟨rfl, rfl, rfl, rfl⟩, ?_, ?_, ?_⟩
    · intro c hc
      cases hc
    · intro i hi
      exact .inl hi
    · intro t _
      rfl
  | cons chunk chunks ih =>
    rw [map_cons, nodup_cons] at hnodup
    have hne : ∀ c ∈ chunks, c.table_index ≠ chunk.table_index := by
      intro c hc heq
      exact hnodup.1 (heq ▸ mem_map_of_mem hc)
    rw [parse_executable_chunks] at h
    split at h
    · rename_i hkind
      obtain ⟨document₁, h₁, h⟩ := bind_eq_ok.mp h
      obtain ⟨is, hprog, hinst, hbytes, hchunks, hmagic, hsize⟩ := parse_executable_chunk_spec h₁
      have hone : ∀ t, document₁.chunkInstructions t =
          document.chunkInstructions t ++ if t = chunk.table_index then is else [] := by
        intro t
        rw [DXBCDocument.chunkInstructions, hinst, filter_append]
        congr 1
        split
        · rename_i ht
          refine filter_eq_self.mpr ?_
          intro i hi
          rw [hprog.chunk_index hi, ht, decide_eq_true_iff]
        · rename_i ht
          refine filter_eq_nil_iff.mpr ?_
          intro i hi
          rw [hprog.chunk_index hi, decide_eq_true_iff]
          exact fun he => ht he.symm
      have hfresh₁ : ∀ c ∈ chunks, document₁.chunkInstructions c.table_index = [] := by
        intro c hc
        rw [hone, hfresh c (mem_cons_of_mem _ hc), if_neg (hne c hc), append_nil]
      obtain ⟨hsame, hprogs, hfrom, hother⟩ := ih hnodup.2 hfresh₁ h
      rw [hbytes] at hprogs
      refine ⟨⟨?_, ?_, ?_, ?_⟩, ?_, ?_, ?_⟩
      · rw [hsame.owned_bytes_eq, hbytes]
      · rw [hsame.chunks_eq, hchunks]
      · rw [hsame.magic_eq, hmagic]
      · rw [hsame.declared_size_eq, hsize]
      · intro c hc hexec
        rcases mem_cons.mp hc with rfl | hc
        · rw [hother _ hne, hone, hfresh _ (mem_cons_self ..), if_pos rfl, nil_append]
          exact hprog
        · exact hprogs c hc hexec
      · intro i hi
        rcases hfrom i hi with hold | ⟨c, hc, hexec, hidx⟩
        · rw [hinst] at hold
          rcases mem_append.mp hold with hold | hnew
          · exact .inl hold
          · exact .inr ⟨chunk, mem_cons_self .., hkind, hprog.chunk_index hnew⟩
        · exact .inr ⟨c, mem_cons_of_mem _ hc, hexec, hidx⟩
      · intro t ht
        rw [hother t (forall_mem_cons.mp ht).2, hone,
          if_neg (fun he => ht chunk (mem_cons_self ..) he.symm), append_nil]
    · rename_i hkind
      obtain ⟨hsame, hprogs, hfrom, hother⟩ :=
        ih hnodup.2 (forall_mem_cons.mp hfresh).2 h
      refine ⟨hsame, ?_, ?_, ?_⟩
      · intro c hc hexec
        rcases mem_cons.mp hc with rfl | hc
        · exact absurd hexec hkind
        · exact hprogs c hc hexec
      · intro i hi
        rcases hfrom i hi with hold | ⟨c, hc, hexec, hidx⟩
        · exact .inl hold
        · exact .inr ⟨c, mem_cons_of_mem _ hc, hexec, hidx⟩
      · intro t ht
        exact hother t (forall_mem_cons.mp ht).2

/-! ## The chunk table -/

variable {previous : List DXBCDocumentChunk} {chunk_table_end : ℕ}

lemma parse_document_chunk_spec {i : ℕ}
    (h : parse_document_chunk rt bytes chunk_table_end previous i = .ok chunk) :
    chunk.Inside bytes chunk_table_end ∧ chunk.ReadFrom bytes ∧ chunk.table_index = i ∧
      ∀ p ∈ previous, p.Disjoint chunk := by
  unfold parse_document_chunk at h
  simp only [read_u32_le_eq, failWhen_bind_eq_ok] at h
  obtain ⟨-, htable, -, hhdr, -, hpay, hover, h⟩ := h
  rw [← pure_eq_ok.mp h]
  refine ⟨⟨rfl, ?_, ?_⟩, ⟨rfl, rfl, rfl⟩, rfl, ?_⟩
  · exact Nat.not_lt.mp htable
  · dsimp only
    omega
  · intro p hp
    have hp' : ¬(_ ∧ _) := fun hboth => hover ⟨p, hp, hboth⟩
    unfold DXBCDocumentChunk.Disjoint
    dsimp only
    omega

structure ChunkTable (bytes : Bytes) (chunk_table_end : ℕ)
    (chunks : List DXBCDocumentChunk) : Prop where
  inside : ∀ c ∈ chunks, c.Inside bytes chunk_table_end
  read : ∀ c ∈ chunks, c.ReadFrom bytes
  disjoint : chunks.Pairwise DXBCDocumentChunk.Disjoint
  indices : chunks.map (·.table_index) = List.range chunks.length

lemma ChunkTable.append (h : ChunkTable bytes chunk_table_end chunks)
    (hin : chunk.Inside bytes chunk_table_end) (hread : chunk.ReadFrom bytes)
    (hidx : chunk.table_index = chunks.length) (hdis : ∀ p ∈ chunks, p.Disjoint chunk) :
    ChunkTable bytes chunk_table_end (chunks ++ [chunk]) := by
  refine ⟨?_, ?_, ?_, ?_⟩
  · intro c hc
    rcases mem_append.mp hc with hc | hc
    · exact h.inside c hc
    · rw [mem_singleton.mp hc]
      exact hin
  · intro c hc
    rcases mem_append.mp hc with hc | hc
    · exact h.read c hc
    · rw [mem_singleton.mp hc]
      exact hread
  · refine pairwise_append.mpr ⟨h.disjoint, pairwise_singleton _ _, ?_⟩
    intro p hp c hc
    rw [mem_singleton.mp hc]
    exact hdis p hp
  · rw [map_append, h.indices, length_append, length_singleton, range_succ, map_singleton, hidx]

lemma parse_document_chunks_spec (hprev : ChunkTable bytes chunk_table_end previous)
    (h : parse_document_chunks rt bytes chunk_table_end n previous = .ok chunks) :
    ChunkTable bytes chunk_table_end chunks := by
  induction n generalizing previous with
  | zero =>
    rw [← pure_eq_ok.mp h]
    exact hprev
  | succ n ih =>
    obtain ⟨chunk, hchunk, h⟩ := bind_eq_ok.mp h
    obtain ⟨hin, hread, hidx, hdis⟩ := parse_document_chunk_spec hchunk
    exact ih (hprev.append hin hread hidx hdis) h

/-! ## The document -/

/-- What the reader promises of a document over `bytes`. -/
structure DXBCDocument.Wf (document : DXBCDocument) (bytes : Bytes) : Prop where
  owned_bytes_eq : document.owned_bytes = bytes
  header : bytes.take 4 = asciiBytes "DXBC" ∧ 32 ≤ bytes.length ∧
    (wordAt bytes 24).toNat = bytes.length
  chunk_count_eq : document.chunks.length = (wordAt bytes 28).toNat
  chunk_indices : document.chunks.map (·.table_index) = List.range document.chunks.length
  chunks_read : ∀ c ∈ document.chunks, c.ReadFrom bytes
  chunks_inside : ∀ c ∈ document.chunks, c.Inside bytes (32 + (wordAt bytes 28).toNat * 4)
  chunks_disjoint : document.chunks.Pairwise DXBCDocumentChunk.Disjoint
  programs : ∀ c ∈ document.chunks, c.kind = .executable →
    c.Program bytes (document.chunkInstructions c.table_index)
  extensions : ∀ i ∈ document.instructions,
    i.extended_opcode_token_count = leadingExtensions (i.words bytes) ∧
      i.extended_opcode_token_count ≤ (bodyWords (i.words bytes)).length
  serialize_eq : dxbc_document_serialize_exact document = .ok bytes

lemma parse_document_chunks_length
    (h : parse_document_chunks rt bytes chunk_table_end n previous = .ok chunks) :
    chunks.length = previous.length + n := by
  induction n generalizing previous with
  | zero => rw [← pure_eq_ok.mp h, Nat.add_zero]
  | succ n ih =>
    obtain ⟨chunk, -, h⟩ := bind_eq_ok.mp h
    rw [ih h, length_append, length_singleton]
    omega

lemma nodup_table_index (h : parse_document_chunks rt bytes chunk_table_end n [] = .ok chunks) :
    (chunks.map (·.table_index)).Nodup := by
  have htable := parse_document_chunks_spec
    ⟨fun c hc => absurd hc not_mem_nil, fun c hc => absurd hc not_mem_nil, List.Pairwise.nil, rfl⟩ h
  rw [htable.indices]
  exact nodup_range

lemma parse_document_parts (h : parse_document rt bytes = .ok document) :
    ∃ chunks start, parse_document_chunks rt bytes (32 + (wordAt bytes 28).toNat * 4)
        (wordAt bytes 28).toNat [] = .ok chunks ∧
      parse_executable_chunks rt chunks start = .ok document ∧ start.instructions = [] ∧
      document.chunks = chunks := by
  unfold parse_document at h
  simp only [read_u32_le_eq, failWhen_bind_eq_ok] at h
  obtain ⟨-, -, -, -, -, -, -, h⟩ := h
  obtain ⟨chunks, hchunks, h⟩ := bind_eq_ok.mp h
  obtain ⟨-, h⟩ := failWhen_bind_eq_ok.mp h
  refine ⟨chunks, _, hchunks, h, rfl, ?_⟩
  exact (parse_executable_chunks_spec (nodup_table_index hchunks) (fun _ _ => rfl) h).1.chunks_eq

lemma parse_document_owned (h : parse_document rt bytes = .ok document) :
    ∀ i ∈ document.instructions, ∃ c ∈ document.chunks,
      c.kind = .executable ∧ i.chunk_index = c.table_index := by
  obtain ⟨chunks, start, hchunks, h, hstart, hsame⟩ := parse_document_parts h
  have hfresh : ∀ c ∈ chunks, start.chunkInstructions c.table_index = [] := by
    intro c _
    rw [DXBCDocument.chunkInstructions, hstart, filter_nil]
  obtain ⟨-, -, hfrom, -⟩ := parse_executable_chunks_spec (nodup_table_index hchunks) hfresh h
  intro i hi
  rcases hfrom i hi with hold | hnew
  · rw [hstart] at hold
    cases hold
  · rw [hsame]
    exact hnew

lemma parse_document_wf (h : parse_document rt bytes = .ok document) : document.Wf bytes := by
  unfold parse_document at h
  simp only [read_u32_le_eq, failWhen_bind_eq_ok] at h
  obtain ⟨hsize, hmagic, h32, -, -, hdecl, -, h⟩ := h
  obtain ⟨chunks, hchunks, h⟩ := bind_eq_ok.mp h
  obtain ⟨-, h⟩ := failWhen_bind_eq_ok.mp h
  have htable := parse_document_chunks_spec
    ⟨fun c hc => absurd hc not_mem_nil, fun c hc => absurd hc not_mem_nil,
      List.Pairwise.nil, rfl⟩ hchunks
  obtain ⟨hsame, hprogs, hfrom, -⟩ :=
    parse_executable_chunks_spec (nodup_table_index hchunks) (fun _ _ => rfl) h
  have hch : document.chunks = chunks := hsame.chunks_eq
  refine ⟨hsame.owned_bytes_eq, ⟨Decidable.not_not.mp hmagic, Nat.not_lt.mp h32,
    Decidable.not_not.mp hdecl⟩, ?_, ?_, ?_, ?_, ?_, ?_, ?_, ?_⟩
  · rw [hch, parse_document_chunks_length hchunks, length_nil, Nat.zero_add]
  · rw [hch]
    exact htable.indices
  · rw [hch]
    exact htable.read
  · rw [hch]
    exact htable.inside
  · rw [hch]
    exact htable.disjoint
  · rw [hch]
    exact hprogs
  · intro i hi
    rcases hfrom i hi with hold | ⟨c, hc, hexec, hidx⟩
    · cases hold
    · have hmem : i ∈ document.chunkInstructions c.table_index :=
        mem_filter.mpr ⟨hi, decide_eq_true hidx⟩
      obtain ⟨left, hdec⟩ := (hprogs c hc hexec).decoded i hmem
      exact ⟨hdec.extensions_eq, hdec.extensions_le⟩
  · rw [dxbc_document_serialize_exact, failWhen_bind_eq_ok, pure_eq_ok]
    refine ⟨?_, hsame.owned_bytes_eq⟩
    rw [hsame.owned_bytes_eq, hsame.declared_size_eq, hsame.magic_eq]
    rintro (hnil | hne | hne)
    · rw [show bytes = [] from hnil] at hsize
      exact hsize (by decide)
    · exact hdecl hne
    · exact hmagic hne

end Reader

lemma dxbc_document_parse_wf {rt : UnityCommon} {d : DXBCDocumentDiagnostic}
    (h : dxbc_document_parse rt document (some bytes) = (true, document', d)) :
    document'.Wf bytes := by
  rw [dxbc_document_parse] at h
  cases hparse : parse_document rt bytes with
  | error e =>
    rw [hparse] at h
    exact absurd (congrArg Prod.fst h) Bool.false_ne_true
  | ok parsed =>
    rw [hparse] at h
    have hdoc : parsed = document' := congrArg (fun r => r.2.1) h
    rw [← hdoc]
    exact parse_document_wf hparse

/-- **An accepted document describes its buffer.** The chunk ranges lie behind the
offset table, inside the buffer and apart from each other; the instructions of an
executable chunk tile its program; the recorded extension counts are those of the
tokens; the document writes back as its input. A rejected buffer leaves the document
of the caller as it was. -/
theorem dxbc_document_parse_structure (rt : UnityCommon) (document : DXBCDocument)
    (bytes : Option Bytes) :
    ((dxbc_document_parse rt document bytes).1 = true →
      ∃ data, bytes = some data ∧ (dxbc_document_parse rt document bytes).2.1.Wf data) ∧
    ((dxbc_document_parse rt document bytes).1 = false →
      (dxbc_document_parse rt document bytes).2.1 = document) := by
  cases bytes with
  | none => exact ⟨fun h => absurd h Bool.false_ne_true, fun _ => rfl⟩
  | some data =>
    rw [dxbc_document_parse]
    cases hparse : parse_document rt data with
    | error d => exact ⟨fun h => absurd h Bool.false_ne_true, fun _ => rfl⟩
    | ok parsed =>
      refine ⟨fun _ => ⟨data, rfl, parse_document_wf hparse⟩, ?_⟩
      intro h
      cases h.symm

/-- A container with one `SHEX` chunk of two instructions, `nop` and `ret`. -/
def nopRetContainer : Bytes :=
  [68, 88, 66, 67, 93, 37, 143, 150, 239, 161, 126, 76, 36, 146, 204, 124, 186, 27, 71, 99,
   1, 0, 0, 0, 60, 0, 0, 0, 1, 0, 0, 0, 36, 0, 0, 0, 83, 72, 69, 88, 16, 0, 0, 0,
   80, 0, 0, 0, 4, 0, 0, 0, 58, 0, 0, 1, 62, 0, 0, 1]

/-- It is accepted, so all of the above holds of it. -/
theorem dxbc_document_parse_nop_ret :
    (dxbc_document_parse .reference dxbc_document_init (some nopRetContainer)).1 = true ∧
      (dxbc_document_parse .reference dxbc_document_init (some nopRetContainer)).2.1.Wf
        nopRetContainer := by
  have hok : (dxbc_document_parse .reference dxbc_document_init
      (some nopRetContainer)).1 = true := by decide +kernel
  obtain ⟨data, hdata, hwf⟩ := (dxbc_document_parse_structure _ _ _).1 hok
  have heq : nopRetContainer = data := some.inj hdata
  rw [← heq] at hwf
  exact ⟨hok, hwf⟩

end DXBCSandbox
