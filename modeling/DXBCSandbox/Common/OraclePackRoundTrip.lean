/-
Oracle packs from the writer to the reader.

What a writer was given is what the reader shows (`oracle_pack_round_trip`), and the pack does
not depend on the order of the calls.
-/
import DXBCSandbox.Common.OraclePackCalls
import DXBCSandbox.Dxbc.DocumentSpec

namespace DXBCSandbox

open List Option Checks

variable {rt : UnityCommon} {sha256 : Bytes → Digest}

/-! ## The records of a writer -/

def PackCall.isAdd : PackCall → Bool
  | .add _ => true
  | .add_preprocess _ => false

def PackCall.requestDigest (sha256 : Bytes → Digest) : PackCall → Option Digest
  | .add _ => none
  | .add_preprocess input => some (sha256 input.request_transcript.list)

structure Recorded (rt : UnityCommon) (sha256 : Bytes → Digest) (calls : List PackCall)
    (before after : OraclePackWriter) : Prop where
  compiler : after.compiler_fingerprint = before.compiler_fingerprint
  environment : after.environment_fingerprint = before.environment_fingerprint
  finalized : after.finalized = before.finalized
  entries_old : ∀ e ∈ before.entries, e ∈ after.entries
  entries_new : ∀ e ∈ after.entries, e ∈ before.entries ∨ ∃ input, .add input ∈ calls ∧
    AddsEntry rt sha256 before.compiler_fingerprint before.environment_fingerprint input e
  entries_add : ∀ input, .add input ∈ calls → ∃ e ∈ after.entries,
    AddsEntry rt sha256 before.compiler_fingerprint before.environment_fingerprint input e
  entries_length : after.entries.length = before.entries.length + calls.countP PackCall.isAdd
  preprocesses_old : ∀ r ∈ before.preprocesses, r ∈ after.preprocesses
  preprocesses_new : ∀ r ∈ after.preprocesses, r ∈ before.preprocesses ∨
    ∃ input, .add_preprocess input ∈ calls ∧
      AddsPreprocess sha256 before.compiler_fingerprint before.environment_fingerprint input r
  preprocesses_add : ∀ input, .add_preprocess input ∈ calls → ∃ r ∈ after.preprocesses,
    AddsPreprocess sha256 before.compiler_fingerprint before.environment_fingerprint input r

variable {writer writer' : OraclePackWriter}

lemma recorded_packCall {call : PackCall} (hok : WriterOk rt sha256 writer)
    (h : packCall rt sha256 writer call = .ok writer') :
    Recorded rt sha256 [call] writer writer' := by
  cases call with
  | add input =>
    obtain ⟨-, entry, capacity, hadds, -, -, rfl⟩ := pack_add_eq_ok.mp h
    refine ⟨rfl, rfl, rfl, fun e he => mem_append_left _ he, ?_, ?_, ?_,
      fun r hr => hr, fun r hr => .inl hr, ?_⟩
    · intro e he
      rcases mem_append.mp he with he | he
      · exact .inl he
      · rw [mem_singleton.mp he]
        exact .inr ⟨input, mem_cons_self, hadds⟩
    · intro input' hinput
      obtain rfl : input' = input := PackCall.add.inj (mem_singleton.mp hinput)
      exact ⟨entry, mem_append_right _ mem_cons_self, hadds⟩
    · rw [length_append]
      rfl
    · intro input' hinput
      exact absurd (mem_singleton.mp hinput) (by simp)
  | add_preprocess input =>
    obtain ⟨-, record, hadds, h⟩ := (pack_add_preprocess_eq_ok hok).mp h
    have hother : ∀ input', PackCall.add input' ∉ [PackCall.add_preprocess input] := by
      simp
    rcases h with ⟨hmem, rfl⟩ | ⟨-, capacity, -, rfl⟩
    · refine ⟨rfl, rfl, rfl, fun e he => he, fun e he => .inl he,
        fun input' h => absurd h (hother input'), rfl, fun r hr => hr, fun r hr => .inl hr, ?_⟩
      intro input' hinput
      obtain rfl : input' = input := PackCall.add_preprocess.inj (mem_singleton.mp hinput)
      exact ⟨record, hmem, hadds⟩
    · refine ⟨rfl, rfl, rfl, fun e he => he, fun e he => .inl he,
        fun input' h => absurd h (hother input'), rfl,
        fun r hr => mem_append_left _ hr, ?_, ?_⟩
      · intro r hr
        rcases mem_append.mp hr with hr | hr
        · exact .inl hr
        · rw [mem_singleton.mp hr]
          exact .inr ⟨input, mem_cons_self, hadds⟩
      · intro input' hinput
        obtain rfl : input' = input :=
          PackCall.add_preprocess.inj (mem_singleton.mp hinput)
        exact ⟨record, mem_append_right _ mem_cons_self, hadds⟩

variable {calls : List PackCall}

lemma Recorded.cons {call : PackCall} {middle : OraclePackWriter}
    (hfst : Recorded rt sha256 [call] writer middle)
    (hrest : Recorded rt sha256 calls middle writer') :
    Recorded rt sha256 (call :: calls) writer writer' := by
  have hcomp := hfst.compiler
  have henv := hfst.environment
  obtain ⟨c, v, f, eo, en, ea, el, po, pn, pa⟩ := hrest
  rw [hcomp, henv] at en ea pn pa
  refine ⟨c.trans hcomp, v.trans henv, f.trans hfst.finalized,
    fun e he => eo e (hfst.entries_old e he), ?_, ?_, ?_,
    fun r hr => po r (hfst.preprocesses_old r hr), ?_, ?_⟩
  · intro e he
    rcases en e he with he | ⟨input, hinput, hadds⟩
    · rcases hfst.entries_new e he with he | ⟨input, hinput, hadds⟩
      · exact .inl he
      · rw [mem_singleton] at hinput
        exact .inr ⟨input, hinput ▸ mem_cons_self, hadds⟩
    · exact .inr ⟨input, mem_cons_of_mem _ hinput, hadds⟩
  · intro input hinput
    rcases mem_cons.mp hinput with hinput | hinput
    · obtain ⟨e, he, hadds⟩ := hfst.entries_add input (hinput ▸ mem_cons_self)
      exact ⟨e, eo e he, hadds⟩
    · exact ea input hinput
  · rw [el, hfst.entries_length, countP_cons, countP_cons, countP_nil]
    omega
  · intro r hr
    rcases pn r hr with hr | ⟨input, hinput, hadds⟩
    · rcases hfst.preprocesses_new r hr with hr | ⟨input, hinput, hadds⟩
      · exact .inl hr
      · rw [mem_singleton] at hinput
        exact .inr ⟨input, hinput ▸ mem_cons_self, hadds⟩
    · exact .inr ⟨input, mem_cons_of_mem _ hinput, hadds⟩
  · intro input hinput
    rcases mem_cons.mp hinput with hinput | hinput
    · obtain ⟨r, hr, hadds⟩ := hfst.preprocesses_add input (hinput ▸ mem_cons_self)
      exact ⟨r, po r hr, hadds⟩
    · exact pa input hinput

lemma recorded_packCalls (hok : WriterOk rt sha256 writer)
    (h : packCalls rt sha256 writer calls = .ok writer') :
    Recorded rt sha256 calls writer writer' := by
  induction calls generalizing writer with
  | nil =>
    obtain rfl : writer = writer' := Except.ok.inj h
    exact ⟨rfl, rfl, rfl, fun e he => he, fun e he => .inl he, by simp, rfl, fun r hr => hr,
      fun r hr => .inl hr, by simp⟩
  | cons call calls ih =>
    obtain ⟨middle, hfst, hrest⟩ := foldlM_cons_eq_ok.mp h
    exact (recorded_packCall hok hfst).cons (ih (hok.packCall hfst) hrest)

variable {authority : OraclePackAuthorityInput}

lemma pack_create_eq_ok : oracle_pack_writer_create authority = .ok writer ↔
      AuthorityMatches writer.compiler_fingerprint writer.environment_fingerprint authority ∧
        writer = ⟨writer.compiler_fingerprint, writer.environment_fingerprint, [], 0, [], 0,
          false⟩ := by
  obtain ⟨compiler, environment⟩ := authority
  unfold oracle_pack_writer_create
  constructor
  · intro h
    split at h
    · rename_i c e hc he
      obtain ⟨hvalid, h⟩ := ite_error_eq_ok.mp h
      rw [not_not, authority_is_valid, Bool.and_eq_true] at hvalid
      obtain rfl := (Except.ok.inj h).symm
      dsimp only at hc he hvalid
      rw [hc, he] at hvalid
      exact ⟨⟨hc, he, hvalid.1, hvalid.2⟩, rfl⟩
    · simp at h
  · rintro ⟨⟨hc, he, hcv, hev⟩, heq⟩
    dsimp only at hc he
    rw [hc, he]
    dsimp only
    rw [if_neg (by
      rw [not_not, authority_is_valid, Bool.and_eq_true]
      exact ⟨hcv, hev⟩), ← heq]

lemma writerOk_fresh (h : oracle_pack_writer_create authority = .ok writer) :
    WriterOk rt sha256 writer := by
  rw [(pack_create_eq_ok.mp h).2]
  exact ⟨by simp, by simp, by simp, by simp⟩

variable {bytes : Bytes}

/-- The content of the pack of a writer is one that the reader accepts. -/
theorem contentOk_writerContent (hok : WriterOk rt sha256 writer)
    (hcomp : fingerprint_has_value (some writer.compiler_fingerprint.toList) = true)
    (henv : fingerprint_has_value (some writer.environment_fingerprint.toList) = true)
    (h : finalize_bytes sha256 writer = .ok bytes) :
    ContentOk rt sha256 (writerContent writer) ∧
      bytes = (writerContent writer).packBytes sha256 := by
  obtain ⟨hsorted, hsorted', hsize, hbytes⟩ := finalize_bytes_eq_ok.mp h
  refine ⟨⟨hcomp, henv, ?_, ?_, hsorted, hsorted', hsize⟩, hbytes⟩
  · intro entry hent
    exact hok.entries entry ((perm_sortBy _ _).mem_iff.mp hent)
  · intro record hrec
    exact hok.preprocesses record ((perm_sortBy _ _).mem_iff.mp hrec)

variable {content : PackContent}

/-- A writer whose records are those of a content, already in order, produces its pack. -/
theorem ContentOk.finalize (hok : ContentOk rt sha256 content) (capacity preprocess_capacity : ℕ) :
    (oracle_pack_writer_finalize sha256 ⟨content.compiler_fingerprint,
      content.environment_fingerprint, content.entries, capacity, content.preprocesses,
      preprocess_capacity, false⟩).1 = .ok (content.packBytes sha256) := by
  have hcontent : writerContent ⟨content.compiler_fingerprint, content.environment_fingerprint,
      content.entries, capacity, content.preprocesses, preprocess_capacity, false⟩ = content := by
    unfold writerContent
    rw [hok.entries_sorted.sortBy_eq, hok.preprocesses_sorted.sortBy_eq]
  rw [oracle_pack_writer_finalize, if_neg Bool.false_ne_true]
  apply finalize_bytes_eq_ok.mpr
  rw [hcontent]
  exact ⟨hok.entries_sorted, hok.preprocesses_sorted, hok.size_le, rfl⟩

lemma written_content (hcreate : oracle_pack_writer_create authority = .ok writer)
    (hrun : packCalls rt sha256 writer calls = .ok writer')
    (hfinal : (oracle_pack_writer_finalize sha256 writer').1 = .ok bytes) :
    ContentOk rt sha256 (writerContent writer') ∧
      bytes = (writerContent writer').packBytes sha256 := by
  have hfresh : WriterOk rt sha256 writer := writerOk_fresh hcreate
  have hok : WriterOk rt sha256 writer' :=
    foldlM_ok_inv (fun w call w' hok h => hok.packCall h) hfresh hrun
  have hrec := recorded_packCalls hfresh hrun
  obtain ⟨hauth, hwriter⟩ := pack_create_eq_ok.mp hcreate
  have hfin : writer'.finalized = false := by
    rw [hrec.finalized, hwriter]
  rw [oracle_pack_writer_finalize, hfin, if_neg Bool.false_ne_true] at hfinal
  exact contentOk_writerContent hok (hrec.compiler ▸ hauth.compiler_value)
    (hrec.environment ▸ hauth.environment_value) hfinal

/-! ## The round trip -/

/-- An envelope shows the metadata of an input: its canonical bytes, and its precisions in
some order. -/
def ShowsMetadata (input : OraclePackNormalizedMetadataInput) (encoded : OraclePackBytes) : Prop :=
  ∃ ps : List Precision, ps.Perm (input.resource_precisions.list.map itemPrecision) ∧
    (∃ view, oracle_pack_metadata_view encoded = .ok view ∧
      view.canonical_bytes.list = input.canonical_bytes.list ∧
      view.resource_precision_count = ps.length) ∧
    ∀ index, oracle_pack_metadata_precision_at encoded index =
      if h : index < ps.length then .ok ⟨view_bytes ps[index].key, ps[index].value⟩
      else .error .notFound

structure ShowsEntry (sha256 : Bytes → Digest) (input : OraclePackEntryInput)
    (view : OraclePackEntryView) : Prop where
  variant_key : variant_key_serialize input.variant_key = .ok view.variant_key_bytes.list
  variant_key_digest : view.variant_key_digest = (sha256 view.variant_key_bytes.list).toList
  stripped_dxbc : view.stripped_dxbc.list = input.stripped_dxbc.list
  linked_glcore : view.linked_glcore.list = input.linked_glcore.list
  transcript : view.compile_request_transcript.list = input.compile_request_transcript.list
  transcript_digest : view.compile_request_digest =
    (sha256 input.compile_request_transcript.list).toList
  metadata : ShowsMetadata input.normalized_metadata view.normalized_metadata_bytes

structure ShowsPreprocess (sha256 : Bytes → Digest) (input : OraclePackPreprocessInput)
    (view : OraclePackPreprocessView) : Prop where
  transcript : view.request_transcript.list = input.request_transcript.list
  request_digest : view.request_digest = (sha256 input.request_transcript.list).toList
  result : view.serialized_result.list = input.serialized_result.list
  result_digest : view.result_digest = (sha256 input.serialized_result.list).toList

lemma showsMetadata_of_encode {input : OraclePackNormalizedMetadataInput}
    (h : encode_metadata input = .ok bytes) : ShowsMetadata input (view_bytes bytes) := by
  obtain ⟨hok, rfl⟩ := encode_metadata_eq_ok.mp h
  refine ⟨inputPrecisions input, perm_sortBy _ _, ⟨_, oracle_pack_metadata_view_eq hok.ok, ?_, rfl⟩,
    oracle_pack_metadata_precision_at_eq hok.ok⟩
  exact list_optional_view _

variable {compiler environment : Digest}

lemma AddsEntry.shows {input : OraclePackEntryInput} {entry : OwnedEntry}
    (h : AddsEntry rt sha256 compiler environment input entry) :
    ShowsEntry sha256 input (entryView entry) where
  variant_key := h.variant_key
  variant_key_digest := by
    rw [entryView, h.variant_key_digest, list_view_bytes]
  stripped_dxbc := h.stripped_dxbc
  linked_glcore := by
    rw [entryView, list_optional_view, h.linked_glcore]
  transcript := h.transcript
  transcript_digest := by
    rw [entryView, h.transcript_digest, h.transcript]
  metadata := showsMetadata_of_encode h.metadata

lemma AddsPreprocess.shows {input : OraclePackPreprocessInput} {record : OwnedPreprocess}
    (h : AddsPreprocess sha256 compiler environment input record) :
    ShowsPreprocess sha256 input (preprocessView record) where
  transcript := h.transcript
  request_digest := by
    rw [preprocessView, h.ok.request_digest, h.transcript]
  result := h.result
  result_digest := by
    rw [preprocessView, h.ok.result_digest, h.result]

def variant_key_digest (sha256 : Bytes → Digest) (key : VariantKey) :
    Except VariantKeyStatus Digest := do
  let bytes ← variant_key_serialize key
  pure (sha256 bytes)

/-- A pack shows what calls added, and nothing else. -/
structure Exposes (rt : UnityCommon) (sha256 : Bytes → Digest)
    (authority : OraclePackAuthorityInput) (calls : List PackCall) (pack : OraclePack) : Prop where
  compiler : authority.compiler_fingerprint.map Vector.toList =
    some (oracle_pack_authority pack).compiler_fingerprint
  environment : authority.environment_fingerprint.map Vector.toList =
    some (oracle_pack_authority pack).environment_fingerprint
  entry_count : pack.layout.entry_count = calls.countP PackCall.isAdd
  entry_at : ∀ index < pack.layout.entry_count, ∃ input view, .add input ∈ calls ∧
    oracle_pack_entry_at rt sha256 pack index = .ok view ∧ ShowsEntry sha256 input view
  entry_of : ∀ input, .add input ∈ calls → ∃ index < pack.layout.entry_count, ∃ view,
    oracle_pack_entry_at rt sha256 pack index = .ok view ∧ ShowsEntry sha256 input view
  lookup : ∀ input, .add input ∈ calls → ∃ digest view,
    variant_key_digest sha256 input.variant_key = .ok digest ∧
    oracle_pack_lookup_digest rt sha256 pack digest = .ok view ∧ ShowsEntry sha256 input view
  lookup_other : ∀ digest,
    (∀ input, .add input ∈ calls → variant_key_digest sha256 input.variant_key ≠ .ok digest) →
    oracle_pack_lookup_digest rt sha256 pack digest = .error .notFound
  preprocess_count : pack.layout.preprocess_count =
    (calls.filterMap (PackCall.requestDigest sha256)).dedup.length
  preprocess_at : ∀ index < pack.layout.preprocess_count, ∃ input view,
    .add_preprocess input ∈ calls ∧ oracle_pack_preprocess_at sha256 pack index = .ok view ∧
    ShowsPreprocess sha256 input view
  preprocess_of : ∀ input, .add_preprocess input ∈ calls →
    ∃ index < pack.layout.preprocess_count, ∃ view,
      oracle_pack_preprocess_at sha256 pack index = .ok view ∧ ShowsPreprocess sha256 input view
  lookup_preprocess : ∀ input, .add_preprocess input ∈ calls → ∃ view,
    oracle_pack_lookup_preprocess_digest sha256 pack (sha256 input.request_transcript.list) =
      .ok view ∧ ShowsPreprocess sha256 input view
  lookup_preprocess_other : ∀ digest,
    (∀ input, .add_preprocess input ∈ calls →
      sha256 input.request_transcript.list ≠ digest) →
    oracle_pack_lookup_preprocess_digest sha256 pack digest = .error .notFound

lemma variant_key_digest_eq {input : OraclePackEntryInput} {entry : OwnedEntry}
    (h : AddsEntry rt sha256 compiler environment input entry) :
    variant_key_digest sha256 input.variant_key = .ok entry.variant_key_digest := by
  rw [variant_key_digest, h.variant_key, h.variant_key_digest]
  rfl

lemma ContentOk.entries_nodup (hok : ContentOk rt sha256 content) :
    (content.entries.map OwnedEntry.variant_key_digest).Nodup := by
  apply List.Nodup.of_map Vector.toList
  rw [List.map_map]
  exact hok.entries_sorted.nodup

lemma ContentOk.preprocesses_nodup (hok : ContentOk rt sha256 content) :
    (content.preprocesses.map OwnedPreprocess.request_digest).Nodup := by
  apply List.Nodup.of_map Vector.toList
  rw [List.map_map]
  exact hok.preprocesses_sorted.nodup

/-- Sorted records of a writer are the records that calls left behind. -/
theorem exposes_writerContent (hcreate : oracle_pack_writer_create authority = .ok writer)
    (hrun : packCalls rt sha256 writer calls = .ok writer')
    (hok : ContentOk rt sha256 (writerContent writer')) :
    Exposes rt sha256 authority calls ((writerContent writer').pack sha256) := by
  obtain ⟨hauth, hfresh⟩ := pack_create_eq_ok.mp hcreate
  have hrec := recorded_packCalls (writerOk_fresh hcreate) hrun
  have hempty : writer.entries = [] := by rw [hfresh]
  have hempty' : writer.preprocesses = [] := by rw [hfresh]
  have hmem : ∀ e, e ∈ (writerContent writer').entries ↔ e ∈ writer'.entries :=
    fun e => (perm_sortBy _ _).mem_iff
  have hmem' : ∀ r, r ∈ (writerContent writer').preprocesses ↔ r ∈ writer'.preprocesses :=
    fun r => (perm_sortBy _ _).mem_iff
  -- Entries come from calls, and calls from entries.
  have hfrom : ∀ e ∈ (writerContent writer').entries, ∃ input, .add input ∈ calls ∧
      AddsEntry rt sha256 writer.compiler_fingerprint writer.environment_fingerprint input e := by
    intro e he
    rcases hrec.entries_new e ((hmem e).mp he) with he | h
    · rw [hempty] at he
      cases he
    · exact h
  have hto : ∀ input, .add input ∈ calls → ∃ e ∈ (writerContent writer').entries,
      AddsEntry rt sha256 writer.compiler_fingerprint writer.environment_fingerprint input e := by
    intro input hinput
    obtain ⟨e, he, hadds⟩ := hrec.entries_add input hinput
    exact ⟨e, (hmem e).mpr he, hadds⟩
  have hfrom' : ∀ r ∈ (writerContent writer').preprocesses, ∃ input,
      .add_preprocess input ∈ calls ∧ AddsPreprocess sha256 writer.compiler_fingerprint
        writer.environment_fingerprint input r := by
    intro r hr
    rcases hrec.preprocesses_new r ((hmem' r).mp hr) with hr | h
    · rw [hempty'] at hr
      cases hr
    · exact h
  have hto' : ∀ input, .add_preprocess input ∈ calls →
      ∃ r ∈ (writerContent writer').preprocesses, AddsPreprocess sha256
        writer.compiler_fingerprint writer.environment_fingerprint input r := by
    intro input hinput
    obtain ⟨r, hr, hadds⟩ := hrec.preprocesses_add input hinput
    exact ⟨r, (hmem' r).mpr hr, hadds⟩
  generalize hcontent : writerContent writer' = content at *
  refine ⟨?_, ?_, ?_, ?_, ?_, ?_, ?_, ?_, ?_, ?_, ?_, ?_⟩
  · rw [oracle_pack_authority_eq, hauth.compiler_eq, ← hcontent, ← hrec.compiler]
    rfl
  · rw [oracle_pack_authority_eq, hauth.environment_eq, ← hcontent, ← hrec.environment]
    rfl
  · change content.entries.length = _
    rw [← hcontent, length_writerContent_entries, hrec.entries_length, hempty, length_nil,
      Nat.zero_add]
  · intro index hidx
    change index < content.entries.length at hidx
    obtain ⟨input, hinput, hadds⟩ := hfrom _ (getElem_mem hidx)
    refine ⟨input, _, hinput, ?_, hadds.shows⟩
    rw [oracle_pack_entry_at_eq hok, dif_pos hidx]
  · intro input hinput
    obtain ⟨e, he, hadds⟩ := hto input hinput
    obtain ⟨index, hidx, rfl⟩ := getElem_of_mem he
    refine ⟨index, hidx, _, ?_, hadds.shows⟩
    rw [oracle_pack_entry_at_eq hok, dif_pos hidx]
  · intro input hinput
    obtain ⟨e, he, hadds⟩ := hto input hinput
    refine ⟨e.variant_key_digest, entryView e, variant_key_digest_eq hadds, ?_, hadds.shows⟩
    obtain ⟨e', he', hdig, hlookup⟩ | ⟨hne, -⟩ :=
      oracle_pack_lookup_digest_eq hok e.variant_key_digest
    · rw [hlookup, inj_on_of_nodup_map hok.entries_nodup he' he hdig]
    · exact absurd rfl (hne e he)
  · intro digest hother
    obtain ⟨e, he, rfl, -⟩ | ⟨-, hlookup⟩ := oracle_pack_lookup_digest_eq hok digest
    · obtain ⟨input, hinput, hadds⟩ := hfrom e he
      exact absurd (variant_key_digest_eq hadds) (hother input hinput)
    · exact hlookup
  · -- The digests of the records are those of the requests, without repetitions.
    change content.preprocesses.length = _
    rw [← length_map OwnedPreprocess.request_digest]
    apply List.Perm.length_eq
    rw [perm_ext_iff_of_nodup hok.preprocesses_nodup (nodup_dedup _)]
    intro digest
    rw [List.mem_map, List.mem_dedup, List.mem_filterMap]
    constructor
    · rintro ⟨r, hr, rfl⟩
      obtain ⟨input, hinput, hadds⟩ := hfrom' r hr
      refine ⟨_, hinput, ?_⟩
      rw [PackCall.requestDigest, hadds.ok.request_digest, hadds.transcript]
    · rintro ⟨call, hcall, hdig⟩
      cases call with
      | add input => exact absurd hdig (by simp [PackCall.requestDigest])
      | add_preprocess input =>
        obtain ⟨r, hr, hadds⟩ := hto' input hcall
        refine ⟨r, hr, ?_⟩
        rw [hadds.ok.request_digest, hadds.transcript]
        exact some.inj hdig
  · intro index hidx
    change index < content.preprocesses.length at hidx
    obtain ⟨input, hinput, hadds⟩ := hfrom' _ (getElem_mem hidx)
    refine ⟨input, _, hinput, ?_, hadds.shows⟩
    rw [oracle_pack_preprocess_at_eq hok, dif_pos hidx]
  · intro input hinput
    obtain ⟨r, hr, hadds⟩ := hto' input hinput
    obtain ⟨index, hidx, rfl⟩ := getElem_of_mem hr
    refine ⟨index, hidx, _, ?_, hadds.shows⟩
    rw [oracle_pack_preprocess_at_eq hok, dif_pos hidx]
  · intro input hinput
    obtain ⟨r, hr, hadds⟩ := hto' input hinput
    have hreq : sha256 input.request_transcript.list = r.request_digest := by
      rw [hadds.ok.request_digest, hadds.transcript]
    refine ⟨preprocessView r, ?_, hadds.shows⟩
    rw [hreq]
    obtain ⟨r', hr', hdig, hlookup⟩ | ⟨hne, -⟩ :=
      oracle_pack_lookup_preprocess_digest_eq hok r.request_digest
    · rw [hlookup, inj_on_of_nodup_map hok.preprocesses_nodup hr' hr hdig]
    · exact absurd rfl (hne r hr)
  · intro digest hother
    obtain ⟨r, hr, rfl, -⟩ | ⟨-, hlookup⟩ := oracle_pack_lookup_preprocess_digest_eq hok digest
    · obtain ⟨input, hinput, hadds⟩ := hfrom' r hr
      refine absurd ?_ (hother input hinput)
      rw [hadds.ok.request_digest, hadds.transcript]
    · exact hlookup

lemma toList_digest_injective : Function.Injective (Vector.toList : Digest → Bytes) :=
  fun _ _ => toList_digest_inj

lemma SameRecords.finalize_bytes {v : OraclePackWriter} (hok : WriterOk rt sha256 writer)
    (hsame : SameRecords writer v) (h : finalize_bytes sha256 writer = .ok bytes) :
    finalize_bytes sha256 v = .ok bytes := by
  have hents := hok.entries_nodup.map toList_digest_injective
  have hpres := hok.preprocesses_nodup.map toList_digest_injective
  rw [List.map_map] at hents hpres
  have hcontent : writerContent v = writerContent writer := by
    unfold writerContent
    rw [hsame.compiler, hsame.environment]
    congr 1
    · exact (sortBy_perm hents hsame.entries).symm
    · exact (sortBy_perm hpres hsame.preprocesses).symm
  rw [finalize_bytes_eq_ok] at h ⊢
  rw [hcontent]
  exact h

/-- **The round trip of an oracle pack.** A fresh writer takes calls that all succeed, and
finalises. The reader opens the bytes and shows what the calls added: every entry and every
preprocess record, by index and by digest, and nothing else. The calls succeed in any other
order too, and the bytes are the same. -/
theorem oracle_pack_round_trip (rt : UnityCommon) (sha256 : Bytes → Digest)
    (authority : OraclePackAuthorityInput) (calls : List PackCall)
    (writer writer' : OraclePackWriter) (bytes : Bytes)
    (hcreate : oracle_pack_writer_create authority = .ok writer)
    (hrun : packCalls rt sha256 writer calls = .ok writer')
    (hfinalize : (oracle_pack_writer_finalize sha256 writer').1 = .ok bytes) :
    (∃ pack, oracle_pack_open_memory rt sha256 bytes = .ok pack ∧
      Exposes rt sha256 authority calls pack) ∧
    ∀ calls', calls.Perm calls' → ∃ v, packCalls rt sha256 writer calls' = .ok v ∧
      (oracle_pack_writer_finalize sha256 v).1 = .ok bytes := by
  have hfresh : WriterOk rt sha256 writer := writerOk_fresh hcreate
  have hok : WriterOk rt sha256 writer' :=
    foldlM_ok_inv (fun w call w' hok h => hok.packCall h) hfresh hrun
  have hfinalized : writer'.finalized = false := by
    rw [(recorded_packCalls hfresh hrun).finalized, (pack_create_eq_ok.mp hcreate).2]
  have hbytes : finalize_bytes sha256 writer' = .ok bytes := by
    rw [oracle_pack_writer_finalize, hfinalized, if_neg Bool.false_ne_true] at hfinalize
    exact hfinalize
  constructor
  · obtain ⟨hcontent, rfl⟩ := written_content hcreate hrun hfinalize
    exact ⟨_, oracle_pack_open_memory_eq hcontent, exposes_writerContent hcreate hrun hcontent⟩
  · intro calls' hperm
    obtain ⟨v, hrun', hsame⟩ := packCalls_perm hperm hfresh hrun
    refine ⟨v, hrun', ?_⟩
    rw [oracle_pack_writer_finalize, ← hsame.finalized, hfinalized, if_neg Bool.false_ne_true]
    exact hsame.finalize_bytes hok hbytes

/-! ## A pack with one entry and one preprocess record -/

def lengthDigest (bytes : Bytes) : Digest := Vector.replicate 32 (UInt8.ofNat bytes.length)

def sampleEntry (sha256 : Bytes → Digest) (variant_key : Bytes) : OwnedEntry where
  variant_key
  variant_key_digest := sha256 variant_key
  stripped_dxbc := nopRetContainer
  linked_glcore := []
  transcript := [1]
  transcript_digest := sha256 [1]
  metadata := metadataBytes [] []

def sampleRecord (sha256 : Bytes → Digest) : OwnedPreprocess where
  transcript := [2]
  request_digest := sha256 [2]
  result := [3]
  result_digest := sha256 [3]

def sampleContent (sha256 : Bytes → Digest) (variant_key : Bytes) : PackContent where
  compiler_fingerprint := Vector.replicate 32 1
  environment_fingerprint := Vector.replicate 32 2
  entries := [sampleEntry sha256 variant_key]
  preprocesses := [sampleRecord sha256]

def sampleAuthority : OraclePackAuthorityInput where
  compiler_fingerprint := some (Vector.replicate 32 1)
  environment_fingerprint := some (Vector.replicate 32 2)

def sampleMetadata : OraclePackNormalizedMetadataInput where
  canonical_bytes := null_bytes
  resource_precisions := .null

lemma metadataOk_empty : MetadataOk [] [] :=
  ⟨by simp, by simp, List.Pairwise.nil, by decide⟩

lemma encode_sampleMetadata : encode_metadata sampleMetadata = .ok (metadataBytes [] []) :=
  encode_metadata_eq_ok.mpr ⟨⟨rfl, rfl, by simp [sampleMetadata, CArray.list, CArray.null],
    metadataOk_empty⟩, rfl⟩

lemma validate_nopRetContainer : validate_dxbc .reference nopRetContainer = true := by
  decide +kernel

lemma preprocessOk_sample : PreprocessOk sha256 (sampleRecord sha256) :=
  ⟨by simp [sampleRecord], by simp [sampleRecord], rfl, rfl⟩

lemma contentOk_sample {variant_key : Bytes}
    (hkey : validate_variant_key_bytes sha256 variant_key (sha256 variant_key).toList = true)
    (hsize : variant_key.length ≤ 65536) :
    ContentOk .reference sha256 (sampleContent sha256 variant_key) where
  compiler := by
    change fingerprint_has_value (some (Vector.replicate 32 1).toList) = true
    decide
  environment := by
    change fingerprint_has_value (some (Vector.replicate 32 2).toList) = true
    decide
  entries := by
    intro entry hent
    rw [mem_singleton.mp hent]
    exact ⟨hkey, validate_nopRetContainer, by simp [sampleEntry], rfl, _, _, metadataOk_empty, rfl⟩
  preprocesses := by
    intro record hrec
    rw [mem_singleton.mp hrec]
    exact preprocessOk_sample
  entries_sorted := pairwise_singleton _ _
  preprocesses_sorted := pairwise_singleton _ _
  size_le := by
    have hent : (recordsBytes (sampleContent sha256 variant_key).entryRecords).length =
        entrySize (sampleEntry sha256 variant_key) := by
      rw [← length_entryBytes]
      exact congrArg length (append_nil _)
    have hrec : (recordsBytes (sampleContent sha256 variant_key).preprocessRecords).length =
        preprocessSize (sampleRecord sha256) := by
      rw [← length_preprocessBytes]
      exact congrArg length (append_nil _)
    have hmeta : (metadataBytes [] []).length = 40 := length_metadataBytes _ _
    have hdxbc : nopRetContainer.length = 60 := rfl
    unfold PackContent.packSize PackContent.preprocessOffset PackContent.payloadOffset
      PackContent.preprocessDirectory
    rw [hent, hrec]
    unfold entrySize preprocessSize SIZE_MAX
    simp only [sampleContent, sampleEntry, sampleRecord, hmeta, hdxbc, length_cons, length_nil]
    omega

lemma exists_variant_key : ∃ key bytes, variant_key_serialize key = .ok bytes ∧
    bytes.length ≤ 65536 := by
  have hinit : ∃ key, variant_key_init (indexDescriptor 3 5) = .ok key ∧ keySize key ≤ 65536 :=
    ⟨_, if_neg (by decide), by decide⟩
  obtain ⟨key, hkey, hsize⟩ := hinit
  refine ⟨key, _, variant_key_serialize_eq (variant_key_init_ok hkey).1, ?_⟩
  rw [length_keyBytes]
  exact hsize

/-- The round trip of a writer that took one call of each kind. -/
theorem oracle_pack_round_trip_sample : ∃ calls writer writer' bytes, calls.length = 2 ∧
      oracle_pack_writer_create sampleAuthority = .ok writer ∧
      packCalls .reference lengthDigest writer calls = .ok writer' ∧
      (oracle_pack_writer_finalize lengthDigest writer').1 = .ok bytes ∧
      ∃ pack, oracle_pack_open_memory .reference lengthDigest bytes = .ok pack ∧
        Exposes .reference lengthDigest sampleAuthority calls pack := by
  obtain ⟨key, bytes, hkey, hlength⟩ := exists_variant_key
  have hcontent : ContentOk .reference lengthDigest (sampleContent lengthDigest bytes) :=
    contentOk_sample (validate_variant_key_bytes_serialize hkey) hlength
  have hauthority : AuthorityMatches (Vector.replicate 32 1) (Vector.replicate 32 2)
      sampleAuthority := ⟨rfl, rfl, hcontent.compiler, hcontent.environment⟩
  have hcreate : oracle_pack_writer_create sampleAuthority =
      .ok ⟨Vector.replicate 32 1, Vector.replicate 32 2, [], 0, [], 0, false⟩ :=
    pack_create_eq_ok.mpr ⟨hauthority, rfl⟩
  have hentry : AddsEntry .reference lengthDigest (Vector.replicate 32 1) (Vector.replicate 32 2)
      ⟨key, view_bytes nopRetContainer, null_bytes, view_bytes [1], sampleMetadata,
        sampleAuthority⟩ (sampleEntry lengthDigest bytes) :=
    ⟨hauthority, rfl, rfl, rfl, validate_nopRetContainer, Nat.one_ne_zero, hkey, rfl, rfl, rfl, rfl,
      rfl, encode_sampleMetadata⟩
  have hrecord : AddsPreprocess lengthDigest (Vector.replicate 32 1) (Vector.replicate 32 2)
      ⟨view_bytes [2], view_bytes [3], sampleAuthority⟩ (sampleRecord lengthDigest) :=
    ⟨hauthority, rfl, rfl, rfl, rfl, preprocessOk_sample⟩
  have hadd : ∃ capacity, packCalls .reference lengthDigest
      ⟨Vector.replicate 32 1, Vector.replicate 32 2, [], 0, [], 0, false⟩ [.add _] =
      .ok ⟨_, _, [sampleEntry lengthDigest bytes], capacity, [], 0, false⟩ :=
    packCalls_entries (.cons ⟨_, rfl, hentry⟩ .nil) rfl rfl rfl (nodup_singleton _) (by
      change 288 * 1 ≤ SIZE_MAX
      decide)
  obtain ⟨capacity, hadd⟩ := hadd
  have hok := foldlM_ok_inv (fun w call w' h hcall => h.packCall hcall) (writerOk_fresh hcreate)
    hadd
  have hpreprocess : ∃ capacity', packCalls .reference lengthDigest
      ⟨Vector.replicate 32 1, Vector.replicate 32 2, [sampleEntry lengthDigest bytes], capacity, [],
        0, false⟩ [.add_preprocess _] =
      .ok ⟨_, _, [sampleEntry lengthDigest bytes], capacity, [sampleRecord lengthDigest], capacity',
        false⟩ :=
    packCalls_preprocesses (.cons ⟨_, rfl, hrecord⟩ .nil) hok rfl rfl rfl (.inl rfl)
      (nodup_singleton _) (by
        change 162 * 1 ≤ SIZE_MAX
        decide)
  obtain ⟨capacity', hpreprocess⟩ := hpreprocess
  have hrun := packCalls_append hadd hpreprocess
  have hfinalize := hcontent.finalize capacity capacity'
  exact ⟨_, _, _, _, rfl, hcreate, hrun, hfinalize,
    (oracle_pack_round_trip _ _ _ _ _ _ _ hcreate hrun hfinalize).1⟩

end DXBCSandbox
