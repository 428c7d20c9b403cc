/-
Calls of the writer of oracle packs.

A call that adds an entry succeeds for a valid input with a new digest, and appends the
entry. A call that adds a preprocess record that is already there changes nothing. So what a
sequence of calls leaves behind depends on the order of the calls only in the order of the
records, which sorting removes.
-/
import DXBCSandbox.Common.OraclePackWriter
import DXBCSandbox.Common.VariantKeyCodec
import DXBCSandbox.Lib.Runs

namespace DXBCSandbox

open List Option Checks

variable {rt : UnityCommon} {sha256 : Bytes → Digest}

/-! ## Keys -/

lemma validate_variant_key_bytes_serialize {key : VariantKey} {bytes : Bytes}
    (h : variant_key_serialize key = .ok bytes) :
    validate_variant_key_bytes sha256 bytes (sha256 bytes).toList = true := by
  obtain ⟨hmin, hmax, rest, hrest⟩ := variant_key_serialize_start h
  have hflds : ∃ tail, bytes.drop 0 = VARIANT_KEY_MAGIC ++ (leBytes 4 4 ++
      (leBytes 8 bytes.length ++ tail)) := by
    rw [drop_zero]
    unfold variantBytes identityNumbers numberBytes at hrest
    rw [flatMap_cons, flatMap_cons] at hrest
    simp only [append_assoc] at hrest
    exact ⟨_, hrest⟩
  obtain ⟨tail, hflds⟩ := hflds
  have hmagic : VARIANT_KEY_MAGIC.length = 8 := by decide
  simp only [drop_eq_append_iff, length_leBytes, hmagic, Nat.zero_add, Nat.reduceAdd] at hflds
  obtain ⟨h0, h8, h12, -⟩ := hflds
  have h8 : load_le32 bytes 8 = VARIANT_KEY_FORMAT_VERSION :=
    UInt32.toNat_inj.mp ((slice_eq_word_iff (by decide)).mp h8).2
  have h12 := ((slice_eq_size_iff hmax).mp h12).2
  unfold validate_variant_key_bytes
  rw [h0, h8, h12, if_neg (by
    rintro (h | h | h | h)
    · omega
    · exact h rfl
    · exact h rfl
    · exact h rfl)]
  exact beq_self_eq_true _

/-! ## One call -/

/-- The authority of a call names the fingerprints of the writer. -/
structure AuthorityMatches (compiler environment : Digest) (authority : OraclePackAuthorityInput) :
    Prop where
  compiler_eq : authority.compiler_fingerprint = some compiler
  environment_eq : authority.environment_fingerprint = some environment
  compiler_value : fingerprint_has_value (some compiler.toList) = true
  environment_value : fingerprint_has_value (some environment.toList) = true

variable {writer : OraclePackWriter}

lemma authority_matches_writer_iff {authority : OraclePackAuthorityInput} :
    authority_matches_writer writer authority = true ↔
      AuthorityMatches writer.compiler_fingerprint writer.environment_fingerprint authority := by
  unfold authority_matches_writer authority_is_valid
  rw [Bool.and_eq_true, Bool.and_eq_true, Bool.and_eq_true, beq_iff_eq, beq_iff_eq]
  constructor
  · rintro ⟨⟨hc, he⟩, hcomp, henv⟩
    rw [← hcomp] at hc
    rw [← henv] at he
    exact ⟨hcomp.symm, henv.symm, hc, he⟩
  · rintro ⟨hcomp, henv, hc, he⟩
    rw [hcomp, henv]
    exact ⟨⟨hc, he⟩, rfl, rfl⟩

structure AddsEntry (rt : UnityCommon) (sha256 : Bytes → Digest)
    (compiler environment : Digest) (input : OraclePackEntryInput) (entry : OwnedEntry) :
    Prop where
  authority : AuthorityMatches compiler environment input.authority
  dxbc_consistent : bytes_are_consistent input.stripped_dxbc = true
  glcore_consistent : bytes_are_consistent input.linked_glcore = true
  transcript_consistent : bytes_are_consistent input.compile_request_transcript = true
  dxbc : validate_dxbc rt input.stripped_dxbc.list = true
  transcript_ne : input.compile_request_transcript.list.length ≠ 0
  variant_key : variant_key_serialize input.variant_key = .ok entry.variant_key
  variant_key_digest : entry.variant_key_digest = sha256 entry.variant_key
  stripped_dxbc : entry.stripped_dxbc = input.stripped_dxbc.list
  linked_glcore : entry.linked_glcore = input.linked_glcore.list
  transcript : entry.transcript = input.compile_request_transcript.list
  transcript_digest : entry.transcript_digest = sha256 entry.transcript
  metadata : encode_metadata input.normalized_metadata = .ok entry.metadata

variable {compiler environment : Digest} {input : OraclePackEntryInput}

lemma AddsEntry.ok {entry : OwnedEntry}
    (h : AddsEntry rt sha256 compiler environment input entry) :
    EntryOk rt sha256 entry where
  variant_key := by
    rw [h.variant_key_digest]
    exact validate_variant_key_bytes_serialize h.variant_key
  dxbc := by
    rw [h.stripped_dxbc]
    exact h.dxbc
  transcript_ne := by
    rw [h.transcript]
    exact h.transcript_ne
  transcript_digest := h.transcript_digest
  metadata := by
    obtain ⟨hok, heq⟩ := encode_metadata_eq_ok.mp h.metadata
    exact ⟨_, _, hok.ok, heq⟩

variable {writer' : OraclePackWriter}

lemma pack_add_eq_ok : oracle_pack_writer_add rt sha256 writer input = .ok writer' ↔
      writer.finalized = false ∧ ∃ entry capacity,
        AddsEntry rt sha256 writer.compiler_fingerprint writer.environment_fingerprint input entry ∧
        (∀ e ∈ writer.entries, e.variant_key_digest ≠ entry.variant_key_digest) ∧
        grow_capacity OWNED_ENTRY_SIZE writer.entries.length writer.capacity = some capacity ∧
        writer' = { writer with entries := writer.entries ++ [entry], capacity } := by
  unfold oracle_pack_writer_add
  rw [ite_error_eq_ok, ite_error_eq_ok, ite_error_eq_ok, ite_error_eq_ok, ite_error_eq_ok]
  simp only [not_or, Bool.not_eq_true, Bool.not_eq_false]
  constructor
  · rintro ⟨⟨hdxbc, hglcore, htr, -, -⟩, hfin, hauth, ⟨-, hcnt⟩, hvalid, h⟩
    have hauth := authority_matches_writer_iff.mp hauth
    refine ⟨hfin, ?_⟩
    split at h
    · simp at h
    · rename_i variant_key hkey
      obtain ⟨hdig, h⟩ := ite_error_eq_ok.mp h
      split at h
      · simp at h
      · rename_i metadata hmeta
        split at h
        · simp at h
        · rename_i capacity hcap
          refine ⟨_, capacity, ⟨hauth, hdxbc, hglcore, htr, hvalid, ?_, hkey, rfl, rfl,
            rfl, rfl, rfl, hmeta⟩, ?_, hcap, (Except.ok.inj h).symm⟩
          · rw [length_list_of_consistent htr]
            exact hcnt
          · intro e he heq
            apply hdig
            rw [List.any_eq_true]
            exact ⟨e, he, beq_iff_eq.mpr heq⟩
  · rintro ⟨hfin, entry, capacity, hadds, hdig, hcap, rfl⟩
    refine ⟨⟨hadds.dxbc_consistent, hadds.glcore_consistent, hadds.transcript_consistent, ?_, ?_⟩,
      hfin, authority_matches_writer_iff.mpr hadds.authority, ⟨?_, ?_⟩, hadds.dxbc, ?_⟩
    · rw [hadds.authority.compiler_eq]
      simp
    · rw [hadds.authority.environment_eq]
      simp
    · rw [← length_list_of_consistent hadds.dxbc_consistent]
      exact validate_dxbc_length hadds.dxbc
    · rw [← length_list_of_consistent hadds.transcript_consistent]
      exact hadds.transcript_ne
    · rw [hadds.variant_key]
      dsimp only
      rw [if_neg (by
        rw [List.any_eq_true]
        rintro ⟨e, he, heq⟩
        rw [beq_iff_eq, ← hadds.variant_key_digest] at heq
        exact hdig e he heq), hadds.metadata]
      dsimp only
      rw [hcap, ← hadds.variant_key_digest, ← hadds.stripped_dxbc, ← hadds.linked_glcore,
        ← hadds.transcript, ← hadds.transcript_digest]

structure AddsPreprocess (sha256 : Bytes → Digest) (compiler environment : Digest)
    (input : OraclePackPreprocessInput) (record : OwnedPreprocess) : Prop where
  authority : AuthorityMatches compiler environment input.authority
  transcript_consistent : bytes_are_consistent input.request_transcript = true
  result_consistent : bytes_are_consistent input.serialized_result = true
  transcript : record.transcript = input.request_transcript.list
  result : record.result = input.serialized_result.list
  ok : PreprocessOk sha256 record

lemma PreprocessOk.eq {a b : OwnedPreprocess} (ha : PreprocessOk sha256 a)
    (hb : PreprocessOk sha256 b) (htr : a.transcript = b.transcript)
    (hres : a.result = b.result) : a = b := by
  apply OwnedPreprocess.ext htr _ hres
  · rw [ha.result_digest, hb.result_digest, hres]
  · rw [ha.request_digest, hb.request_digest, htr]

/-- What a record of the writer has to say about itself, and that no other has its digest. -/
structure WriterOk (rt : UnityCommon) (sha256 : Bytes → Digest) (writer : OraclePackWriter) :
    Prop where
  entries : ∀ entry ∈ writer.entries, EntryOk rt sha256 entry
  preprocesses : ∀ record ∈ writer.preprocesses, PreprocessOk sha256 record
  entries_nodup : (writer.entries.map OwnedEntry.variant_key_digest).Nodup
  preprocesses_nodup : (writer.preprocesses.map OwnedPreprocess.request_digest).Nodup

lemma pack_add_preprocess_eq_ok {input : OraclePackPreprocessInput}
    (hok : WriterOk rt sha256 writer) :
    oracle_pack_writer_add_preprocess sha256 writer input = .ok writer' ↔
      writer.finalized = false ∧ ∃ record,
        AddsPreprocess sha256 writer.compiler_fingerprint writer.environment_fingerprint input
          record ∧
        (record ∈ writer.preprocesses ∧ writer' = writer ∨
          (∀ r ∈ writer.preprocesses, r.request_digest ≠ record.request_digest) ∧
          ∃ capacity, grow_capacity OWNED_PREPROCESS_SIZE writer.preprocesses.length
            writer.preprocess_capacity = some capacity ∧
            writer' = { writer with
              preprocesses := writer.preprocesses ++ [record]
              preprocess_capacity := capacity }) := by
  unfold oracle_pack_writer_add_preprocess
  rw [ite_error_eq_ok, ite_error_eq_ok, ite_error_eq_ok, ite_error_eq_ok]
  simp only [not_or, Bool.not_eq_true, Bool.not_eq_false]
  constructor
  · rintro ⟨⟨htr, hres, -, -⟩, hfin, hauth, ⟨hcnt, hcnt'⟩, h⟩
    have hauth := authority_matches_writer_iff.mp hauth
    rw [← length_list_of_consistent htr] at hcnt
    rw [← length_list_of_consistent hres] at hcnt'
    refine ⟨hfin, ⟨input.request_transcript.list, sha256 input.request_transcript.list,
      input.serialized_result.list, sha256 input.serialized_result.list⟩,
      ⟨hauth, htr, hres, rfl, rfl, ⟨hcnt, hcnt', rfl, rfl⟩⟩, ?_⟩
    split at h
    · rename_i existing hfind
      left
      split_ifs at h with hsame
      have hmem := mem_of_find?_eq_some hfind
      have heq := (hok.preprocesses existing hmem).eq
        (⟨hcnt, hcnt', rfl, rfl⟩ : PreprocessOk sha256 ⟨input.request_transcript.list,
          sha256 input.request_transcript.list, input.serialized_result.list,
          sha256 input.serialized_result.list⟩) hsame.1 hsame.2
      exact ⟨heq ▸ hmem, (Except.ok.inj h).symm⟩
    · rename_i hfind
      right
      split at h
      · simp at h
      · rename_i capacity hcap
        refine ⟨?_, capacity, hcap, (Except.ok.inj h).symm⟩
        intro r hr heq
        have := find?_eq_none.mp hfind r hr
        exact this (beq_iff_eq.mpr heq)
  · rintro ⟨hfin, record, hadds, h⟩
    refine ⟨⟨hadds.transcript_consistent, hadds.result_consistent, ?_, ?_⟩, hfin,
      authority_matches_writer_iff.mpr hadds.authority, ⟨?_, ?_⟩, ?_⟩
    · rw [hadds.authority.compiler_eq]
      simp
    · rw [hadds.authority.environment_eq]
      simp
    · rw [← length_list_of_consistent hadds.transcript_consistent, ← hadds.transcript]
      exact hadds.ok.transcript_ne
    · rw [← length_list_of_consistent hadds.result_consistent, ← hadds.result]
      exact hadds.ok.result_ne
    · rw [← hadds.transcript, ← hadds.result, ← hadds.ok.request_digest, ← hadds.ok.result_digest]
      rcases h with ⟨hmem, rfl⟩ | ⟨hnew, capacity, hcap, rfl⟩
      · -- No other record has the digest, so this is the one that is found.
        cases hfind : writer'.preprocesses.find? (·.request_digest == record.request_digest) with
        | none =>
          have := find?_eq_none.mp hfind record hmem
          exact absurd (beq_self_eq_true _) this
        | some existing =>
          have hdig := find?_some hfind
          have heq : existing = record := inj_on_of_nodup_map hok.preprocesses_nodup
            (mem_of_find?_eq_some hfind) hmem (beq_iff_eq.mp hdig)
          dsimp only
          rw [heq, if_pos ⟨rfl, rfl⟩]
      · have hfind : writer.preprocesses.find? (·.request_digest == record.request_digest) =
            none := by
          rw [find?_eq_none]
          intro r hr heq
          exact hnew r hr (beq_iff_eq.mp heq)
        rw [hfind]
        dsimp only
        rw [hcap]

/-! ## Sequences of calls -/

inductive PackCall where
  | add (input : OraclePackEntryInput)
  | add_preprocess (input : OraclePackPreprocessInput)

def packCall (rt : UnityCommon) (sha256 : Bytes → Digest) (writer : OraclePackWriter) :
    PackCall → Except OraclePackStatus OraclePackWriter
  | .add input => oracle_pack_writer_add rt sha256 writer input
  | .add_preprocess input => oracle_pack_writer_add_preprocess sha256 writer input

def packCalls (rt : UnityCommon) (sha256 : Bytes → Digest) (writer : OraclePackWriter)
    (calls : List PackCall) : Except OraclePackStatus OraclePackWriter :=
  calls.foldlM (packCall rt sha256) writer

/-- Writers that differ in the order of their records only. -/
structure SameRecords (a b : OraclePackWriter) : Prop where
  compiler : a.compiler_fingerprint = b.compiler_fingerprint
  environment : a.environment_fingerprint = b.environment_fingerprint
  entries : a.entries.Perm b.entries
  capacity : a.capacity = b.capacity
  preprocesses : a.preprocesses.Perm b.preprocesses
  preprocess_capacity : a.preprocess_capacity = b.preprocess_capacity
  finalized : a.finalized = b.finalized

lemma SameRecords.refl (a : OraclePackWriter) : SameRecords a a :=
  ⟨rfl, rfl, .refl _, rfl, .refl _, rfl, rfl⟩

lemma SameRecords.trans (a b c : OraclePackWriter) (hab : SameRecords a b)
    (hbc : SameRecords b c) : SameRecords a c :=
  ⟨hab.compiler.trans hbc.compiler, hab.environment.trans hbc.environment,
    hab.entries.trans hbc.entries, hab.capacity.trans hbc.capacity,
    hab.preprocesses.trans hbc.preprocesses,
    hab.preprocess_capacity.trans hbc.preprocess_capacity, hab.finalized.trans hbc.finalized⟩

variable {writer writer' : OraclePackWriter}

lemma nodup_map_concat {α β : Type} {f : α → β} {as : List α} {a : α} (h : (as.map f).Nodup)
    (hnew : ∀ b ∈ as, f b ≠ f a) : ((as ++ [a]).map f).Nodup := by
  rw [map_append, map_cons, map_nil]
  apply h.append (nodup_singleton _)
  intro b hb hmem
  obtain ⟨c, hc, rfl⟩ := mem_map.mp hb
  exact hnew c hc (mem_singleton.mp hmem)

variable {call : PackCall}

lemma WriterOk.packCall (hok : WriterOk rt sha256 writer)
    (h : packCall rt sha256 writer call = .ok writer') : WriterOk rt sha256 writer' := by
  cases call with
  | add input =>
    obtain ⟨-, entry, capacity, hadds, hnew, -, rfl⟩ := pack_add_eq_ok.mp h
    refine ⟨?_, hok.preprocesses, nodup_map_concat hok.entries_nodup hnew, hok.preprocesses_nodup⟩
    intro e he
    rcases mem_append.mp he with he | he
    · exact hok.entries e he
    · rw [mem_singleton.mp he]
      exact hadds.ok
  | add_preprocess input =>
    obtain ⟨-, record, hadds, ⟨-, rfl⟩ | ⟨hnew, capacity, -, rfl⟩⟩ :=
      (pack_add_preprocess_eq_ok hok).mp h
    · exact hok
    · refine ⟨hok.entries, ?_, hok.entries_nodup, nodup_map_concat hok.preprocesses_nodup hnew⟩
      intro r hr
      rcases mem_append.mp hr with hr | hr
      · exact hok.preprocesses r hr
      · rw [mem_singleton.mp hr]
        exact hadds.ok

lemma SameRecords.packCall {v : OraclePackWriter} (hok : WriterOk rt sha256 writer)
    (hokv : WriterOk rt sha256 v) (hsame : SameRecords writer v)
    (h : packCall rt sha256 writer call = .ok writer') :
    ∃ v', packCall rt sha256 v call = .ok v' ∧ SameRecords writer' v' := by
  cases call with
  | add input =>
    obtain ⟨hfin, entry, capacity, hadds, hnew, hcap, rfl⟩ :=
      pack_add_eq_ok.mp h
    refine ⟨{ v with entries := v.entries ++ [entry], capacity },
      pack_add_eq_ok.mpr ⟨hsame.finalized ▸ hfin, entry, capacity, ?_, ?_, ?_,
        rfl⟩, ?_⟩
    · rw [← hsame.compiler, ← hsame.environment]
      exact hadds
    · intro e he
      exact hnew e (hsame.entries.mem_iff.mpr he)
    · rw [← hsame.entries.length_eq, ← hsame.capacity]
      exact hcap
    · exact ⟨hsame.compiler, hsame.environment, hsame.entries.append_right _, rfl,
        hsame.preprocesses, hsame.preprocess_capacity, hsame.finalized⟩
  | add_preprocess input =>
    obtain ⟨hfin, record, hadds, h⟩ :=
      (pack_add_preprocess_eq_ok hok).mp h
    have hadds' : AddsPreprocess sha256 v.compiler_fingerprint v.environment_fingerprint input
        record := by
      rw [← hsame.compiler, ← hsame.environment]
      exact hadds
    rcases h with ⟨hmem, rfl⟩ | ⟨hnew, capacity, hcap, rfl⟩
    · refine ⟨v, (pack_add_preprocess_eq_ok hokv).mpr
        ⟨hsame.finalized ▸ hfin, record, hadds', .inl ⟨?_, rfl⟩⟩, hsame⟩
      exact hsame.preprocesses.mem_iff.mp hmem
    · refine ⟨{ v with
          preprocesses := v.preprocesses ++ [record]
          preprocess_capacity := capacity },
        (pack_add_preprocess_eq_ok hokv).mpr ⟨hsame.finalized ▸ hfin, record,
          hadds', .inr ⟨?_, capacity, ?_, rfl⟩⟩, ?_⟩
      · intro r hr
        exact hnew r (hsame.preprocesses.mem_iff.mpr hr)
      · rw [← hsame.preprocesses.length_eq, ← hsame.preprocess_capacity]
        exact hcap
      · exact ⟨hsame.compiler, hsame.environment, hsame.entries, hsame.capacity,
          hsame.preprocesses.append_right _, rfl, hsame.finalized⟩

variable {w₁ w₂ : OraclePackWriter}

lemma swap_add_add {a b : OraclePackEntryInput}
    (h₁ : oracle_pack_writer_add rt sha256 writer a = .ok w₁)
    (h₂ : oracle_pack_writer_add rt sha256 w₁ b = .ok w₂) :
    ∃ v₁ v₂, oracle_pack_writer_add rt sha256 writer b = .ok v₁ ∧
      oracle_pack_writer_add rt sha256 v₁ a = .ok v₂ ∧ SameRecords w₂ v₂ := by
  obtain ⟨hfin, ea, c₁, ha, hnewa, hc₁, rfl⟩ := pack_add_eq_ok.mp h₁
  obtain ⟨-, eb, c₂, hb, hnewb, hc₂, rfl⟩ := pack_add_eq_ok.mp h₂
  have hne : ea.variant_key_digest ≠ eb.variant_key_digest :=
    hnewb ea (mem_append_right _ mem_cons_self)
  refine ⟨{ writer with entries := writer.entries ++ [eb], capacity := c₁ },
    { writer with entries := writer.entries ++ [eb] ++ [ea], capacity := c₂ },
    pack_add_eq_ok.mpr ⟨hfin, eb, c₁, hb, ?_, hc₁, rfl⟩,
    pack_add_eq_ok.mpr ⟨hfin, ea, c₂, ha, ?_, ?_, rfl⟩,
    ⟨rfl, rfl, ?_, rfl, .refl _, rfl, rfl⟩⟩
  · intro e he
    exact hnewb e (mem_append_left _ he)
  · intro e he
    rcases mem_append.mp he with he | he
    · exact hnewa e he
    · rw [mem_singleton.mp he]
      exact hne.symm
  · simpa using hc₂
  · simp only [append_assoc, cons_append, nil_append]
    exact (List.Perm.swap eb ea []).append_left writer.entries

variable {a b : OraclePackPreprocessInput}

lemma swap_preprocess_preprocess (hok : WriterOk rt sha256 writer)
    (h₁ : packCall rt sha256 writer (.add_preprocess a) = .ok w₁)
    (h₂ : packCall rt sha256 w₁ (.add_preprocess b) = .ok w₂) :
    ∃ v₁ v₂, packCall rt sha256 writer (.add_preprocess b) = .ok v₁ ∧
      packCall rt sha256 v₁ (.add_preprocess a) = .ok v₂ ∧ SameRecords w₂ v₂ := by
  have hok₁ := hok.packCall h₁
  obtain ⟨hfin, ra, ha, h₁⟩ := (pack_add_preprocess_eq_ok hok).mp h₁
  obtain ⟨hfin₁, rb, hb, h₂⟩ := (pack_add_preprocess_eq_ok hok₁).mp h₂
  rcases h₁ with ⟨hmema, rfl⟩ | ⟨hnewa, c₁, hc₁, rfl⟩
  · -- The first record was there, so it is there after the second.
    have hsnd : packCall rt sha256 w₁ (.add_preprocess b) = .ok w₂ :=
      (pack_add_preprocess_eq_ok hok).mpr ⟨hfin, rb, hb, h₂⟩
    have hok₂ := hok.packCall hsnd
    refine ⟨w₂, w₂, hsnd, (pack_add_preprocess_eq_ok hok₂).mpr ?_, .refl w₂⟩
    rcases h₂ with ⟨-, rfl⟩ | ⟨-, c₂, -, rfl⟩
    · exact ⟨hfin, ra, ha, .inl ⟨hmema, rfl⟩⟩
    · exact ⟨hfin, ra, ha, .inl ⟨mem_append_left _ hmema, rfl⟩⟩
  · rcases h₂ with ⟨hmemb, rfl⟩ | ⟨hnewb, c₂, hc₂, rfl⟩
    · rcases mem_append.mp hmemb with hmemb | hmemb
      · -- The second record was there before the first.
        refine ⟨writer, _, (pack_add_preprocess_eq_ok hok).mpr
          ⟨hfin, rb, hb, .inl ⟨hmemb, rfl⟩⟩, (pack_add_preprocess_eq_ok hok).mpr
          ⟨hfin, ra, ha, .inr ⟨hnewa, c₁, hc₁, rfl⟩⟩, .refl _⟩
      · -- Both calls add the same record.
        obtain rfl := mem_singleton.mp hmemb
        refine ⟨_, _, (pack_add_preprocess_eq_ok hok).mpr
          ⟨hfin, rb, hb, .inr ⟨hnewa, c₁, hc₁, rfl⟩⟩,
          (pack_add_preprocess_eq_ok hok₁).mpr
          ⟨hfin, rb, ha, .inl ⟨mem_append_right _ hmemb, rfl⟩⟩, .refl _⟩
    · have hne : ra.request_digest ≠ rb.request_digest :=
        hnewb ra (mem_append_right _ mem_cons_self)
      have hfst : packCall rt sha256 writer (.add_preprocess b) =
          .ok { writer with
            preprocesses := writer.preprocesses ++ [rb]
            preprocess_capacity := c₁ } :=
        (pack_add_preprocess_eq_ok hok).mpr ⟨hfin, rb, hb, .inr
          ⟨(forall_mem_append.mp hnewb).1, c₁, hc₁, rfl⟩⟩
      refine ⟨_, { writer with
          preprocesses := writer.preprocesses ++ [rb] ++ [ra]
          preprocess_capacity := c₂ }, hfst,
        (pack_add_preprocess_eq_ok (hok.packCall hfst)).mpr ⟨hfin, ra, ha,
          .inr ⟨?_, c₂, ?_, rfl⟩⟩, ⟨rfl, rfl, .refl _, rfl, ?_, rfl, rfl⟩⟩
      · intro r hr
        rcases mem_append.mp hr with hr | hr
        · exact hnewa r hr
        · rw [mem_singleton.mp hr]
          exact hne.symm
      · simpa using hc₂
      · simp only [append_assoc, cons_append, nil_append]
        exact (List.Perm.swap rb ra []).append_left writer.preprocesses

lemma swap_add_preprocess {a : OraclePackEntryInput} (hok : WriterOk rt sha256 writer)
    (h₁ : packCall rt sha256 writer (.add a) = .ok w₁)
    (h₂ : packCall rt sha256 w₁ (.add_preprocess b) = .ok w₂) :
    ∃ v₁, packCall rt sha256 writer (.add_preprocess b) = .ok v₁ ∧
      packCall rt sha256 v₁ (.add a) = .ok w₂ := by
  have hok₁ := hok.packCall h₁
  obtain ⟨hfin, ea, c₁, ha, hnewa, hc₁, rfl⟩ := pack_add_eq_ok.mp h₁
  obtain ⟨-, rb, hb, ⟨hmem, rfl⟩ | ⟨hnew, c₂, hc₂, rfl⟩⟩ :=
    (pack_add_preprocess_eq_ok hok₁).mp h₂
  · exact ⟨writer, (pack_add_preprocess_eq_ok hok).mpr
      ⟨hfin, rb, hb, .inl ⟨hmem, rfl⟩⟩, h₁⟩
  · exact ⟨_, (pack_add_preprocess_eq_ok hok).mpr
      ⟨hfin, rb, hb, .inr ⟨hnew, c₂, hc₂, rfl⟩⟩,
      pack_add_eq_ok.mpr ⟨hfin, ea, c₁, ha, hnewa, hc₁, rfl⟩⟩

lemma swap_preprocess_add {b : OraclePackEntryInput} (hok : WriterOk rt sha256 writer)
    (h₁ : packCall rt sha256 writer (.add_preprocess a) = .ok w₁)
    (h₂ : packCall rt sha256 w₁ (.add b) = .ok w₂) :
    ∃ v₁, packCall rt sha256 writer (.add b) = .ok v₁ ∧
      packCall rt sha256 v₁ (.add_preprocess a) = .ok w₂ := by
  obtain ⟨-, eb, c₂, hb, hnewb, hc₂, rfl⟩ := pack_add_eq_ok.mp h₂
  obtain ⟨hfin, ra, ha, ⟨hmem, rfl⟩ | ⟨hnew, c₁, hc₁, rfl⟩⟩ :=
    (pack_add_preprocess_eq_ok hok).mp h₁
  · have hok₂ : WriterOk rt sha256 _ := hok.packCall (show packCall _ _ _ (.add b) = _ from h₂)
    exact ⟨_, h₂, (pack_add_preprocess_eq_ok hok₂).mpr
      ⟨hfin, ra, ha, .inl ⟨hmem, rfl⟩⟩⟩
  · have hfst : packCall rt sha256 writer (.add b) =
        .ok { writer with entries := writer.entries ++ [eb], capacity := c₂ } :=
      pack_add_eq_ok.mpr ⟨hfin, eb, c₂, hb, hnewb, hc₂, rfl⟩
    exact ⟨_, hfst, (pack_add_preprocess_eq_ok (hok.packCall hfst)).mpr
      ⟨hfin, ra, ha, .inr ⟨hnew, c₁, hc₁, rfl⟩⟩⟩

variable {calls : List PackCall} {calls' : List PackCall}

/-- **The order of the calls does not matter.** -/
theorem packCalls_perm (hperm : calls.Perm calls') (hok : WriterOk rt sha256 writer)
    (h : packCalls rt sha256 writer calls = .ok writer') :
    ∃ v, packCalls rt sha256 writer calls' = .ok v ∧ SameRecords writer' v := by
  have hstep : ∀ w call w', WriterOk rt sha256 w → packCall rt sha256 w call = .ok w' →
      WriterOk rt sha256 w' := fun w call w' hok h => hok.packCall h
  have hcongr : ∀ w v call w', WriterOk rt sha256 w → WriterOk rt sha256 v → SameRecords w v →
      packCall rt sha256 w call = .ok w' →
      ∃ v', packCall rt sha256 v call = .ok v' ∧ SameRecords w' v' :=
    fun w v call w' hok hokv hsame h => hsame.packCall hok hokv h
  refine foldlM_ok_perm hstep SameRecords.refl SameRecords.trans hcongr ?_ hperm hok h
  intro w a b w₁ w₂ hok h₁ h₂
  cases a with
  | add a =>
    cases b with
    | add b => exact swap_add_add h₁ h₂
    | add_preprocess b =>
      obtain ⟨v₁, hv₁, hv₂⟩ := swap_add_preprocess hok h₁ h₂
      exact ⟨v₁, w₂, hv₁, hv₂, .refl w₂⟩
  | add_preprocess a =>
    cases b with
    | add b =>
      obtain ⟨v₁, hv₁, hv₂⟩ := swap_preprocess_add hok h₁ h₂
      exact ⟨v₁, w₂, hv₁, hv₂, .refl w₂⟩
    | add_preprocess b => exact swap_preprocess_preprocess hok h₁ h₂

/-! ## Calls that add new records -/

lemma packCalls_append {middle : OraclePackWriter}
    (h : packCalls rt sha256 writer calls = .ok middle)
    (h' : packCalls rt sha256 middle calls' = .ok writer') :
    packCalls rt sha256 writer (calls ++ calls') = .ok writer' := by
  unfold packCalls
  rw [foldlM_append]
  exact bind_eq_ok.mpr ⟨middle, h, h'⟩

def CallAdds (rt : UnityCommon) (sha256 : Bytes → Digest) (compiler environment : Digest)
    (call : PackCall) (entry : OwnedEntry) : Prop :=
  ∃ input, call = .add input ∧ AddsEntry rt sha256 compiler environment input entry

def CallAddsPreprocess (sha256 : Bytes → Digest) (compiler environment : Digest)
    (call : PackCall) (record : OwnedPreprocess) : Prop :=
  ∃ input, call = .add_preprocess input ∧ AddsPreprocess sha256 compiler environment input record

lemma grow_capacity_exists (element_size count capacity : ℕ) (hpos : 0 < element_size)
    (h8 : element_size * 8 ≤ SIZE_MAX) (h : element_size * (count * 2) ≤ SIZE_MAX) :
    ∃ c, grow_capacity element_size count capacity = some c := by
  have hdiv : ∀ n, element_size * n ≤ SIZE_MAX → ¬ SIZE_MAX / element_size < n := by
    intro n hn
    rw [not_lt, Nat.le_div_iff_mul_le hpos, Nat.mul_comm]
    exact hn
  unfold grow_capacity
  by_cases hcnt : count ≠ capacity
  · exact ⟨capacity, if_pos hcnt⟩
  · rw [not_not] at hcnt
    subst hcnt
    rw [if_neg (not_not.mpr rfl)]
    by_cases hzero : count = 0
    · simp only [if_pos hzero]
      refine ⟨8, if_neg ?_⟩
      rintro (hlt | hlt)
      · omega
      · exact hdiv 8 h8 hlt
    · have hle : count * 2 ≤ SIZE_MAX :=
        Nat.le_trans (Nat.le_mul_of_pos_left _ hpos) h
      have hmod : count * 2 % 2 ^ 64 = count * 2 := by
        apply Nat.mod_eq_of_lt
        unfold SIZE_MAX at hle
        omega
      simp only [if_neg hzero, hmod]
      refine ⟨count * 2, if_neg ?_⟩
      rintro (hlt | hlt)
      · omega
      · exact hdiv _ h hlt

lemma packCalls_entries {entries : List OwnedEntry}
    (hcalls : List.Forall₂ (CallAdds rt sha256 compiler environment) calls entries)
    (hfin : writer.finalized = false) (hcomp : writer.compiler_fingerprint = compiler)
    (henv : writer.environment_fingerprint = environment)
    (hnodup : ((writer.entries ++ entries).map OwnedEntry.variant_key_digest).Nodup)
    (hsize : 288 * (writer.entries.length + entries.length) ≤ SIZE_MAX) :
    ∃ capacity, packCalls rt sha256 writer calls =
      .ok { writer with entries := writer.entries ++ entries, capacity } := by
  induction hcalls generalizing writer with
  | nil =>
    refine ⟨writer.capacity, ?_⟩
    rw [append_nil]
    rfl
  | @cons call entry calls entries hcall _ ih =>
    obtain ⟨input, rfl, hadds⟩ := hcall
    rw [length_cons] at hsize
    obtain ⟨capacity, hcap⟩ := grow_capacity_exists OWNED_ENTRY_SIZE writer.entries.length
      writer.capacity (by decide) (by decide) (by
        unfold OWNED_ENTRY_SIZE
        omega)
    have hnew : ∀ e ∈ writer.entries, e.variant_key_digest ≠ entry.variant_key_digest := by
      intro e he
      rw [map_append, nodup_append] at hnodup
      exact hnodup.2.2 _ (mem_map_of_mem he) _ (mem_map_of_mem mem_cons_self)
    rw [← hcomp, ← henv] at hadds
    have hfst := pack_add_eq_ok.mpr ⟨hfin, entry, capacity, hadds, hnew, hcap, rfl⟩
    have hnodup' : (((writer.entries ++ [entry]) ++ entries).map
        OwnedEntry.variant_key_digest).Nodup := by
      rwa [append_assoc]
    have hsize' : 288 * ((writer.entries ++ [entry]).length + entries.length) ≤ SIZE_MAX := by
      rw [length_append, length_singleton]
      omega
    obtain ⟨capacity', hrest⟩ := @ih { writer with entries := writer.entries ++ [entry], capacity }
      hfin hcomp henv hnodup' hsize'
    refine ⟨capacity', foldlM_cons_eq_ok.mpr ⟨_, hfst, ?_⟩⟩
    rw [append_assoc] at hrest
    exact hrest

/-- The capacities that an array of preprocess records goes through. -/
def PowerCapacity (capacity : ℕ) : Prop := capacity = 0 ∨ ∃ j, capacity = 2 ^ j

lemma powerCapacity_grow {element_size count capacity c : ℕ} (h : PowerCapacity capacity)
    (hgrow : grow_capacity element_size count capacity = some c) : PowerCapacity c := by
  unfold grow_capacity at hgrow
  dsimp only at hgrow
  split_ifs at hgrow with hcnt hzero
  · rw [← some.inj hgrow]
    exact h
  · rw [← some.inj hgrow]
    exact .inr ⟨3, rfl⟩
  · rcases h with h | ⟨j, rfl⟩
    · exact absurd h hzero
    · rw [← some.inj hgrow, ← pow_succ]
      by_cases hj : j + 1 < 64
      · rw [Nat.mod_eq_of_lt (Nat.pow_lt_pow_right (by omega) hj)]
        exact .inr ⟨j + 1, rfl⟩
      · rw [Nat.mod_eq_zero_of_dvd (Nat.pow_dvd_pow 2 (by omega))]
        exact .inl rfl

/-- A power of two leaves the array less than half of the memory that the records take. -/
theorem powerCapacity_size {capacity : ℕ} (h : PowerCapacity capacity)
    (hsize : 162 * capacity ≤ SIZE_MAX) : 96 * (capacity * 2) ≤ SIZE_MAX := by
  unfold SIZE_MAX at *
  rcases h with rfl | ⟨j, rfl⟩
  · omega
  · have hj : j < 57 := by
      by_contra hj
      have hpow : 2 ^ 57 ≤ 2 ^ j := Nat.pow_le_pow_right (by omega) (by omega)
      omega
    have hpow : 2 ^ j ≤ 2 ^ 56 := Nat.pow_le_pow_right (by omega) (by omega)
    omega

lemma packCalls_preprocesses {records : List OwnedPreprocess}
    (hcalls : List.Forall₂ (CallAddsPreprocess sha256 compiler environment) calls records)
    (hok : WriterOk rt sha256 writer) (hfin : writer.finalized = false)
    (hcomp : writer.compiler_fingerprint = compiler)
    (henv : writer.environment_fingerprint = environment)
    (hcap : PowerCapacity writer.preprocess_capacity)
    (hnodup : ((writer.preprocesses ++ records).map OwnedPreprocess.request_digest).Nodup)
    (hsize : 162 * (writer.preprocesses.length + records.length) ≤ SIZE_MAX) :
    ∃ preprocess_capacity, packCalls rt sha256 writer calls = .ok { writer with
      preprocesses := writer.preprocesses ++ records, preprocess_capacity } := by
  induction hcalls generalizing writer with
  | nil =>
    refine ⟨writer.preprocess_capacity, ?_⟩
    rw [append_nil]
    rfl
  | @cons call record calls records hcall _ ih =>
    obtain ⟨input, rfl, hadds⟩ := hcall
    rw [length_cons] at hsize
    have hgrow : ∃ c, grow_capacity OWNED_PREPROCESS_SIZE writer.preprocesses.length
        writer.preprocess_capacity = some c := by
      by_cases hfull : writer.preprocesses.length = writer.preprocess_capacity
      · apply grow_capacity_exists OWNED_PREPROCESS_SIZE _ _ (by decide) (by decide)
        rw [hfull] at hsize ⊢
        exact powerCapacity_size hcap (by omega)
      · exact ⟨_, if_pos hfull⟩
    obtain ⟨c, hgrow⟩ := hgrow
    have hnew : ∀ r ∈ writer.preprocesses, r.request_digest ≠ record.request_digest := by
      intro r hr
      rw [map_append, nodup_append] at hnodup
      exact hnodup.2.2 _ (mem_map_of_mem hr) _ (mem_map_of_mem mem_cons_self)
    rw [← hcomp, ← henv] at hadds
    have hfst : packCall rt sha256 writer (.add_preprocess input) = .ok { writer with
        preprocesses := writer.preprocesses ++ [record], preprocess_capacity := c } :=
      (pack_add_preprocess_eq_ok hok).mpr
        ⟨hfin, record, hadds, .inr ⟨hnew, c, hgrow, rfl⟩⟩
    have hnodup' : (((writer.preprocesses ++ [record]) ++ records).map
        OwnedPreprocess.request_digest).Nodup := by
      rwa [append_assoc]
    have hsize' : 162 * ((writer.preprocesses ++ [record]).length + records.length) ≤ SIZE_MAX := by
      rw [length_append, length_singleton]
      omega
    obtain ⟨c', hrest⟩ := ih (hok.packCall hfst) hfin hcomp henv
      (powerCapacity_grow hcap hgrow) hnodup' hsize'
    refine ⟨c', foldlM_cons_eq_ok.mpr ⟨_, hfst, ?_⟩⟩
    rw [append_assoc] at hrest
    exact hrest

end DXBCSandbox
