/-
Oracle packs from the reader to the writer.

The views of an accepted pack are fed to a fresh writer, which produces the pack again
(`oracle_pack_canonical`). The writer takes keys and the reader shows their bytes. The
reader does not parse a key, so the bytes that it shows need not be those of a key.
-/
import DXBCSandbox.Common.OraclePackRoundTrip

namespace DXBCSandbox

open List Checks

variable {rt : UnityCommon} {sha256 : Bytes → Digest}

/-! ## Feeding views to a writer -/

def arrayOf {α : Type} : List α → CArray α
  | [] => .null
  | a :: as => ⟨some (a :: as), as.length + 1, by simp⟩

def authorityInput (view : OraclePackAuthorityView) : OraclePackAuthorityInput where
  compiler_fingerprint :=
    if h : view.compiler_fingerprint.length = 32 then some (digestOf _ h) else none
  environment_fingerprint :=
    if h : view.environment_fingerprint.length = 32 then some (digestOf _ h) else none

def metadataInput (encoded : OraclePackBytes) :
    Except OraclePackStatus OraclePackNormalizedMetadataInput := do
  let view ← oracle_pack_metadata_view encoded
  let precisions ← (List.range view.resource_precision_count).mapM
    (oracle_pack_metadata_precision_at encoded)
  pure
    { canonical_bytes := view.canonical_bytes
      resource_precisions := arrayOf (precisions.map fun p => ⟨p.resource_key, p.precision⟩) }

/-- The view of an entry, as a call. The writer takes a key and not its bytes. -/
def entryCall (authority : OraclePackAuthorityInput) (key : VariantKey)
    (view : OraclePackEntryView) : Except OraclePackStatus PackCall := do
  let normalized_metadata ← metadataInput view.normalized_metadata_bytes
  pure (.add
    { variant_key := key
      stripped_dxbc := view.stripped_dxbc
      linked_glcore := view.linked_glcore
      compile_request_transcript := view.compile_request_transcript
      normalized_metadata
      authority })

def preprocessCall (authority : OraclePackAuthorityInput) (view : OraclePackPreprocessView) :
    PackCall :=
  .add_preprocess
    { request_transcript := view.request_transcript
      serialized_result := view.serialized_result
      authority }

/-- All views of a pack, as calls. The keys are those of the entries. -/
def feedCalls (rt : UnityCommon) (sha256 : Bytes → Digest) (pack : OraclePack)
    (keys : ℕ → VariantKey) : Except OraclePackStatus (List PackCall) := do
  let authority := authorityInput (oracle_pack_authority pack)
  let entries ← (List.range pack.layout.entry_count).mapM fun i => do
    let view ← oracle_pack_entry_at rt sha256 pack i
    entryCall authority (keys i) view
  let preprocesses ← (List.range pack.layout.preprocess_count).mapM fun i => do
    let view ← oracle_pack_preprocess_at sha256 pack i
    pure (preprocessCall authority view)
  pure (entries ++ preprocesses)

lemma list_arrayOf {α : Type} (items : List α) : (arrayOf items).list = items := by
  cases items <;> rfl

lemma bytes_are_consistent_arrayOf {α : Type} (items : List α) :
    bytes_are_consistent (arrayOf items) = true := by
  cases items <;> rfl

lemma forall₂_eq_map {α β : Type} {g : β → α} {as : List α} {bs : List β}
    (h : List.Forall₂ (fun a b => a = g b) as bs) : as = bs.map g := by
  induction h with
  | nil => rfl
  | cons ha _ ih => rw [ha, ih, map_cons]

lemma metadataInput_envelope {canonical : Bytes} {ps : List Precision}
    (hok : MetadataOk canonical ps) :
    ∃ input, metadataInput (view_bytes (metadataBytes canonical ps)) = .ok input ∧
      encode_metadata input = .ok (metadataBytes canonical ps) := by
  have hread : ∀ i (hi : i < ps.length), ∃ view,
      oracle_pack_metadata_precision_at (view_bytes (metadataBytes canonical ps)) i = .ok view ∧
      view = ⟨view_bytes ps[i].key, ps[i].value⟩ := by
    intro i hi
    refine ⟨_, ?_, rfl⟩
    rw [oracle_pack_metadata_precision_at_eq hok, dif_pos hi]
  obtain ⟨views, hviews, hall⟩ := mapM_range_exists
    (R := fun (view : OraclePackResourcePrecisionView) (p : Precision) =>
      view = ⟨view_bytes p.key, p.value⟩) ps hread
  have hviews_eq := forall₂_eq_map hall
  let items : List OraclePackResourcePrecisionInput :=
    ps.map fun p => ⟨view_bytes p.key, p.value⟩
  refine ⟨⟨optional_view canonical, arrayOf items⟩, ?_, ?_⟩
  · unfold metadataInput
    rw [bind_eq_ok]
    refine ⟨_, oracle_pack_metadata_view_eq hok, ?_⟩
    rw [bind_eq_ok]
    refine ⟨views, hviews, ?_⟩
    rw [hviews_eq, map_map]
    rfl
  · have hitems : items.map itemPrecision = ps := by
      simp only [items, map_map]
      exact map_id ps
    have hinput : inputPrecisions ⟨optional_view canonical, arrayOf items⟩ = ps := by
      rw [inputPrecisions, list_arrayOf, hitems, hok.sorted.sortBy_eq]
    rw [encode_metadata_eq_ok, hinput, list_optional_view]
    refine ⟨⟨bytes_are_consistent_optional_view _, bytes_are_consistent_arrayOf _, ?_, ?_⟩, rfl⟩
    · rw [list_arrayOf]
      intro item hitem
      obtain ⟨p, hp, rfl⟩ := mem_map.mp hitem
      exact bytes_are_consistent_view_bytes (length_pos_of_ne_nil (hok.key_ne p hp))
    · rw [hinput, list_optional_view]
      exact hok

/-! ## An accepted pack is produced again -/

section Content

variable {content : PackContent}

lemma two_le_preprocessSize {record : OwnedPreprocess} (h : PreprocessOk sha256 record) :
    114 ≤ (preprocessBytes record).length := by
  have htr := h.transcript_ne
  have hres := h.result_ne
  rw [length_preprocessBytes]
  unfold preprocessSize
  omega

lemma mul_length_le_recordsBytes {least : ℕ} {rs : List (Digest × Bytes)}
    (h : ∀ r ∈ rs, least ≤ r.2.length) : rs.length * least ≤ (recordsBytes rs).length := by
  induction rs with
  | nil => simp
  | cons r rs ih =>
    have hr := h r mem_cons_self
    have ih := ih fun r' hr' => h r' (mem_cons_of_mem _ hr')
    rw [recordsBytes_cons, length_append, length_cons, Nat.add_mul]
    omega

variable (hok : ContentOk rt sha256 content)

include hok

lemma ContentOk.entries_size (hkeys : ∀ entry ∈ content.entries, 340 ≤ entry.variant_key.length) :
    288 * content.entries.length ≤ SIZE_MAX := by
  have hleast : content.entryRecords.length * 340 ≤ (recordsBytes content.entryRecords).length := by
    apply mul_length_le_recordsBytes
    intro r hr
    obtain ⟨entry, hent, rfl⟩ := mem_map.mp hr
    have hkey := hkeys entry hent
    rw [length_entryBytes]
    unfold entrySize
    omega
  have hlen : content.entryRecords.length = content.entries.length := length_map _
  have hsize := hok.size_le
  unfold PackContent.packSize PackContent.preprocessOffset at hsize
  omega

lemma ContentOk.preprocesses_size : 162 * content.preprocesses.length ≤ SIZE_MAX := by
  have hleast : content.preprocessRecords.length * 114 ≤
      (recordsBytes content.preprocessRecords).length := by
    apply mul_length_le_recordsBytes
    intro r hr
    obtain ⟨record, hrec, rfl⟩ := mem_map.mp hr
    exact two_le_preprocessSize (hok.preprocesses record hrec)
  have hlen : content.preprocessRecords.length = content.preprocesses.length :=
    length_map _
  have hsize := hok.size_le
  unfold PackContent.packSize PackContent.preprocessOffset PackContent.payloadOffset at hsize
  omega

omit hok in
lemma authorityInput_pack : authorityInput (oracle_pack_authority (content.pack sha256)) =
      ⟨some content.compiler_fingerprint, some content.environment_fingerprint⟩ := by
  rw [oracle_pack_authority_eq]
  unfold authorityInput
  rw [dif_pos (length_digest _), dif_pos (length_digest _)]
  rfl

lemma ContentOk.authorityMatches :
    AuthorityMatches content.compiler_fingerprint content.environment_fingerprint
      (authorityInput (oracle_pack_authority (content.pack sha256))) := by
  rw [authorityInput_pack]
  exact ⟨rfl, rfl, hok.compiler, hok.environment⟩

omit hok

lemma EntryOk.variant_key_digest_eq {entry : OwnedEntry} (hok : EntryOk rt sha256 entry) :
    entry.variant_key_digest = sha256 entry.variant_key := by
  have hkey := hok.variant_key
  unfold validate_variant_key_bytes at hkey
  split_ifs at hkey
  exact toList_digest_inj (beq_iff_eq.mp hkey).symm

lemma entryCall_adds {entry : OwnedEntry} {key : VariantKey}
    {authority : OraclePackAuthorityInput} {compiler environment : Digest}
    (hok : EntryOk rt sha256 entry) (hauth : AuthorityMatches compiler environment authority)
    (hkey : variant_key_serialize key = .ok entry.variant_key) :
    ∃ call, entryCall authority key (entryView entry) = .ok call ∧
      CallAdds rt sha256 compiler environment call entry := by
  obtain ⟨canonical, ps, hmeta, henvl⟩ := hok.metadata
  obtain ⟨input, hinput, hencode⟩ := metadataInput_envelope hmeta
  rw [← henvl] at hinput hencode
  have hdxbc : 0 < entry.stripped_dxbc.length := by
    have hne := validate_dxbc_length hok.dxbc
    omega
  have htr : 0 < entry.transcript.length := by
    have hne := hok.transcript_ne
    omega
  refine ⟨_, bind_eq_ok.mpr ⟨input, hinput, rfl⟩, _, rfl, ?_⟩
  exact
    { authority := hauth
      dxbc_consistent := bytes_are_consistent_view_bytes hdxbc
      glcore_consistent := bytes_are_consistent_optional_view _
      transcript_consistent := bytes_are_consistent_view_bytes htr
      dxbc := hok.dxbc
      transcript_ne := hok.transcript_ne
      variant_key := hkey
      variant_key_digest := hok.variant_key_digest_eq
      stripped_dxbc := rfl
      linked_glcore := (list_optional_view _).symm
      transcript := rfl
      transcript_digest := hok.transcript_digest
      metadata := hencode }

lemma preprocessCall_adds {record : OwnedPreprocess} {authority : OraclePackAuthorityInput}
    {compiler environment : Digest} (hok : PreprocessOk sha256 record)
    (hauth : AuthorityMatches compiler environment authority) :
    CallAddsPreprocess sha256 compiler environment
      (preprocessCall authority (preprocessView record)) record := by
  have htr : 0 < record.transcript.length := by
    have hne := hok.transcript_ne
    omega
  have hres : 0 < record.result.length := by
    have hne := hok.result_ne
    omega
  exact ⟨_, rfl, hauth, bytes_are_consistent_view_bytes htr,
    bytes_are_consistent_view_bytes hres, rfl, rfl, hok⟩

/-- The keys of a pack serialise to the bytes that its entries show. -/
def KeysOf (rt : UnityCommon) (sha256 : Bytes → Digest) (pack : OraclePack)
    (keys : ℕ → VariantKey) : Prop :=
  ∀ i view, oracle_pack_entry_at rt sha256 pack i = .ok view →
    variant_key_serialize (keys i) = .ok view.variant_key_bytes.list

include hok

lemma feedCalls_eq_ok {keys : ℕ → VariantKey}
    (hkeys : KeysOf rt sha256 (content.pack sha256) keys) :
    ∃ calls calls', feedCalls rt sha256 (content.pack sha256) keys = .ok (calls ++ calls') ∧
      List.Forall₂ (CallAdds rt sha256 content.compiler_fingerprint
        content.environment_fingerprint) calls content.entries ∧
      List.Forall₂ (CallAddsPreprocess sha256 content.compiler_fingerprint
        content.environment_fingerprint) calls' content.preprocesses := by
  have hauth := hok.authorityMatches
  obtain ⟨calls, hcalls, hadds⟩ := mapM_range_exists
    (g := fun i => do
      let view ← oracle_pack_entry_at rt sha256 (content.pack sha256) i
      entryCall (authorityInput (oracle_pack_authority (content.pack sha256))) (keys i) view)
    (R := CallAdds rt sha256 content.compiler_fingerprint content.environment_fingerprint)
    content.entries (by
      intro i hi
      have hview := oracle_pack_entry_at_eq hok i
      rw [dif_pos hi] at hview
      obtain ⟨call, hcall, hadds⟩ := entryCall_adds (hok.entries _ (getElem_mem hi)) hauth
        (hkeys i _ hview)
      exact ⟨call, bind_eq_ok.mpr ⟨_, hview, hcall⟩, hadds⟩)
  obtain ⟨calls', hcalls', hadds'⟩ := mapM_range_exists
    (g := fun i => do
      let view ← oracle_pack_preprocess_at sha256 (content.pack sha256) i
      pure (preprocessCall (authorityInput (oracle_pack_authority (content.pack sha256))) view))
    (R := CallAddsPreprocess sha256 content.compiler_fingerprint content.environment_fingerprint)
    content.preprocesses (by
      intro i hi
      have hview := oracle_pack_preprocess_at_eq hok i
      rw [dif_pos hi] at hview
      exact ⟨_, bind_eq_ok.mpr ⟨_, hview, rfl⟩,
        preprocessCall_adds (hok.preprocesses _ (getElem_mem hi)) hauth⟩)
  refine ⟨calls, calls', ?_, hadds, hadds'⟩
  unfold feedCalls
  exact bind_eq_ok.mpr ⟨calls, hcalls, bind_eq_ok.mpr ⟨calls', hcalls', rfl⟩⟩

lemma ContentOk.refeed {keys : ℕ → VariantKey}
    (hkeys : KeysOf rt sha256 (content.pack sha256) keys) :
    ∃ calls writer writer', feedCalls rt sha256 (content.pack sha256) keys = .ok calls ∧
      oracle_pack_writer_create (authorityInput (oracle_pack_authority (content.pack sha256))) =
        .ok writer ∧
      packCalls rt sha256 writer calls = .ok writer' ∧
      (oracle_pack_writer_finalize sha256 writer').1 = .ok (content.packBytes sha256) := by
  obtain ⟨calls, calls', hfeed, hadds, hadds'⟩ := feedCalls_eq_ok hok hkeys
  have hcreate : oracle_pack_writer_create
      (authorityInput (oracle_pack_authority (content.pack sha256))) =
      .ok ⟨content.compiler_fingerprint, content.environment_fingerprint, [], 0, [], 0, false⟩ :=
    pack_create_eq_ok.mpr ⟨hok.authorityMatches, rfl⟩
  have hkeySize : ∀ entry ∈ content.entries, 340 ≤ entry.variant_key.length := by
    intro entry hent
    obtain ⟨i, hi, rfl⟩ := getElem_of_mem hent
    have hview := oracle_pack_entry_at_eq hok i
    rw [dif_pos hi] at hview
    exact (variant_key_serialize_start (hkeys i _ hview)).1
  have hents : ∃ capacity, packCalls rt sha256 ⟨content.compiler_fingerprint,
      content.environment_fingerprint, [], 0, [], 0, false⟩ calls =
      .ok ⟨content.compiler_fingerprint, content.environment_fingerprint, content.entries,
        capacity, [], 0, false⟩ :=
    packCalls_entries hadds rfl rfl rfl hok.entries_nodup (by
      rw [length_nil, Nat.zero_add]
      exact hok.entries_size hkeySize)
  obtain ⟨capacity, hents⟩ := hents
  have hwriter := foldlM_ok_inv (fun w call w' h hcall => h.packCall hcall)
    (writerOk_fresh hcreate) hents
  have hpres : ∃ capacity', packCalls rt sha256 ⟨content.compiler_fingerprint,
      content.environment_fingerprint, content.entries, capacity, [], 0, false⟩ calls' =
      .ok ⟨content.compiler_fingerprint, content.environment_fingerprint, content.entries,
        capacity, content.preprocesses, capacity', false⟩ :=
    packCalls_preprocesses hadds' hwriter rfl rfl rfl (.inl rfl) hok.preprocesses_nodup (by
      rw [length_nil, Nat.zero_add]
      exact hok.preprocesses_size)
  obtain ⟨capacity', hpres⟩ := hpres
  refine ⟨_, _, ⟨content.compiler_fingerprint, content.environment_fingerprint, content.entries,
    capacity, content.preprocesses, capacity', false⟩, hfeed, hcreate,
    packCalls_append hents hpres, hok.finalize _ _⟩

omit hok

/-! ## Views determine the pack -/

lemma open_memory_spec {data : Bytes} {pack : OraclePack}
    (h : oracle_pack_open_memory rt sha256 data = .ok pack) :
    ∃ content, ContentOk rt sha256 content ∧ data = content.packBytes sha256 ∧
      pack = content.pack sha256 := by
  obtain ⟨layout, hlay, hpack⟩ := bind_eq_ok.mp h
  obtain ⟨content, hok, rfl, rfl⟩ := validate_pack_spec hlay
  exact ⟨content, hok, rfl, (Except.ok.inj hpack).symm⟩

lemma entryView_injective : Function.Injective entryView := by
  intro a b h
  have hglcore := congrArg (fun v => v.linked_glcore.list) h
  simp only [entryView, list_optional_view] at hglcore
  exact OwnedEntry.ext (congrArg (fun v => v.variant_key_bytes.list) h)
    (toList_digest_inj (congrArg OraclePackEntryView.variant_key_digest h))
    (congrArg (fun v => v.stripped_dxbc.list) h) hglcore
    (congrArg (fun v => v.compile_request_transcript.list) h)
    (toList_digest_inj (congrArg OraclePackEntryView.compile_request_digest h))
    (congrArg (fun v => v.normalized_metadata_bytes.list) h)

lemma preprocessView_injective : Function.Injective preprocessView := by
  intro a b h
  exact OwnedPreprocess.ext (congrArg (fun v => v.request_transcript.list) h)
    (toList_digest_inj (congrArg OraclePackPreprocessView.request_digest h))
    (congrArg (fun v => v.serialized_result.list) h)
    (toList_digest_inj (congrArg OraclePackPreprocessView.result_digest h))

lemma eq_of_reads {α β : Type} {view : α → β} (hview : Function.Injective view)
    {as bs : List α} (h : ∀ i, (if hi : i < as.length then Except.ok (view as[i])
      else Except.error OraclePackStatus.notFound) =
      if hi : i < bs.length then Except.ok (view bs[i]) else Except.error .notFound) :
    as = bs := by
  have hlt : ∀ i, i < as.length ↔ i < bs.length := by
    intro i
    have hi := h i
    constructor
    · intro ha
      by_contra hb
      rw [dif_pos ha, dif_neg hb] at hi
      simp at hi
    · intro hb
      by_contra ha
      rw [dif_pos hb, dif_neg ha] at hi
      simp at hi
  apply ext_getElem
  · have ha := hlt as.length
    have hb := hlt bs.length
    omega
  · intro i ha hb
    have hi := h i
    rw [dif_pos ha, dif_pos hb] at hi
    exact hview (Except.ok.inj hi)

include hok

lemma content_eq_of_views {content' : PackContent} (hok' : ContentOk rt sha256 content')
    (hauth : oracle_pack_authority (content.pack sha256) = oracle_pack_authority (content'.pack
      sha256))
    (hents : ∀ i, oracle_pack_entry_at rt sha256 (content.pack sha256) i = oracle_pack_entry_at
      rt sha256 (content'.pack sha256) i)
    (hpres : ∀ i, oracle_pack_preprocess_at sha256 (content.pack sha256) i =
      oracle_pack_preprocess_at sha256 (content'.pack sha256) i) : content = content' := by
  rw [oracle_pack_authority_eq, oracle_pack_authority_eq] at hauth
  simp only [oracle_pack_entry_at_eq hok, oracle_pack_entry_at_eq hok'] at hents
  simp only [oracle_pack_preprocess_at_eq hok, oracle_pack_preprocess_at_eq hok'] at hpres
  have hcomp := toList_digest_inj (congrArg OraclePackAuthorityView.compiler_fingerprint hauth)
  have henv := toList_digest_inj (congrArg OraclePackAuthorityView.environment_fingerprint hauth)
  have hents := eq_of_reads entryView_injective hents
  have hpres := eq_of_reads preprocessView_injective hpres
  obtain ⟨c, e, entries, preprocesses⟩ := content
  obtain ⟨c', e', entries', preprocesses'⟩ := content'
  dsimp only at hcomp henv hents hpres
  rw [hcomp, henv, hents, hpres]

lemma content_eq_of_packBytes {content' : PackContent} (hok' : ContentOk rt sha256 content')
    (h : content.packBytes sha256 = content'.packBytes sha256) : content = content' := by
  have hopen := oracle_pack_open_memory_eq hok
  rw [h, oracle_pack_open_memory_eq hok'] at hopen
  have hpack := Except.ok.inj hopen
  apply content_eq_of_views hok hok'
  · rw [hpack]
  · intro i
    rw [hpack]
  · intro i
    rw [hpack]

end Content

/-- **Accepted packs are canonical.** Two buffers that the reader accepts and that show the
same authority, entries and preprocess records are equal. The views of a buffer, fed to a
fresh writer with keys that serialise to the key bytes, produce the buffer again. -/
theorem oracle_pack_canonical (rt : UnityCommon) (sha256 : Bytes → Digest)
    (data : Bytes) (pack : OraclePack)
    (hopen : oracle_pack_open_memory rt sha256 data = .ok pack) :
    (∀ keys, KeysOf rt sha256 pack keys → ∃ calls writer writer',
      feedCalls rt sha256 pack keys = .ok calls ∧
      oracle_pack_writer_create (authorityInput (oracle_pack_authority pack)) = .ok writer ∧
      packCalls rt sha256 writer calls = .ok writer' ∧
      (oracle_pack_writer_finalize sha256 writer').1 = .ok data) ∧
    ∀ data' pack', oracle_pack_open_memory rt sha256 data' = .ok pack' →
      oracle_pack_authority pack = oracle_pack_authority pack' →
      (∀ i, oracle_pack_entry_at rt sha256 pack i = oracle_pack_entry_at rt sha256 pack' i) →
      (∀ i, oracle_pack_preprocess_at sha256 pack i = oracle_pack_preprocess_at sha256 pack' i) →
      data = data' := by
  obtain ⟨content, hok, rfl, rfl⟩ := open_memory_spec hopen
  constructor
  · intro keys hkeys
    exact hok.refeed hkeys
  · intro data' pack' hopen' hauthority hentries hpreprocesses
    obtain ⟨content', hok', rfl, rfl⟩ := open_memory_spec hopen'
    rw [content_eq_of_views hok hok' hauthority hentries hpreprocesses]

/-- A pack with one entry and one preprocess record is reproduced. -/
theorem oracle_pack_canonical_sample : ∃ data pack key calls writer writer',
      oracle_pack_open_memory .reference lengthDigest data = .ok pack ∧
      pack.layout.entry_count = 1 ∧ pack.layout.preprocess_count = 1 ∧
      feedCalls .reference lengthDigest pack (fun _ => key) = .ok calls ∧
      oracle_pack_writer_create (authorityInput (oracle_pack_authority pack)) = .ok writer ∧
      packCalls .reference lengthDigest writer calls = .ok writer' ∧
      (oracle_pack_writer_finalize lengthDigest writer').1 = .ok data := by
  obtain ⟨key, bytes, hkey, hlength⟩ := exists_variant_key
  have hok : ContentOk .reference lengthDigest (sampleContent lengthDigest bytes) :=
    contentOk_sample (validate_variant_key_bytes_serialize hkey) hlength
  have hkeys : KeysOf .reference lengthDigest ((sampleContent lengthDigest bytes).pack lengthDigest)
      (fun _ => key) := by
    intro i view hview
    rw [oracle_pack_entry_at_eq hok] at hview
    split_ifs at hview with hi
    obtain rfl : i = 0 := Nat.lt_one_iff.mp hi
    rw [← Except.ok.inj hview]
    exact hkey
  have hopen := oracle_pack_open_memory_eq hok
  obtain ⟨calls, writer, writer', hfeed, hcreate, hrun, hfinalize⟩ :=
    (oracle_pack_canonical _ _ _ _ hopen).1 _ hkeys
  exact ⟨_, _, key, calls, writer, writer', hopen, rfl, rfl, hfeed, hcreate, hrun, hfinalize⟩

/-- The first 20 bytes of a key, and no more. -/
def headerKey : Bytes := VARIANT_KEY_MAGIC ++ [4, 0, 0, 0, 20, 0, 0, 0, 0, 0, 0, 0]

/-- Whatever the digest is, the reader accepts a pack with the header of a key in the place of a
key, and no writer produces it. -/
theorem oracle_pack_header_key :
    ¬ ∃ sha256 : Bytes → Digest, ∀ data pack,
      oracle_pack_open_memory .reference sha256 data = .ok pack →
      ∃ authority calls writer writer', oracle_pack_writer_create authority = .ok writer ∧
        packCalls .reference sha256 writer calls = .ok writer' ∧
        (oracle_pack_writer_finalize sha256 writer').1 = .ok data := by
  rintro ⟨sha256, hall⟩
  have hok : ContentOk .reference sha256 (sampleContent sha256 headerKey) :=
    contentOk_sample ((if_neg (by decide)).trans (beq_self_eq_true _)) (by decide)
  obtain ⟨authority, calls, writer, writer', hcreate, hrun, hfinalize⟩ :=
    hall _ _ (oracle_pack_open_memory_eq hok)
  -- The writer has the entry of the pack, so a call added it.
  obtain ⟨hcontent, hbytes⟩ := written_content hcreate hrun hfinalize
  have heq : sampleContent sha256 headerKey = writerContent writer' :=
    content_eq_of_packBytes hok hcontent hbytes
  have hentry : sampleEntry sha256 headerKey ∈ writer'.entries := by
    have hmem : sampleEntry sha256 headerKey ∈ (writerContent writer').entries := by
      rw [← heq]
      exact mem_cons_self
    exact (perm_sortBy _ _).mem_iff.mp hmem
  rcases (recorded_packCalls (writerOk_fresh hcreate) hrun).entries_new _ hentry with
    hold | ⟨input, -, hadds⟩
  · rw [(pack_create_eq_ok.mp hcreate).2] at hold
    cases hold
  · have hlength : 340 ≤ headerKey.length := (variant_key_serialize_start hadds.variant_key).1
    exact absurd hlength (by decide)

end DXBCSandbox
