/-
The metadata envelope as a format.

An envelope stands for canonical bytes and a map from resource keys to precisions. The writer takes
the map as a list of records in any order, the reader gives it back in the order of the keys, and
an input is compared with an envelope by writing the input and comparing bytes.
-/
import DXBCSandbox.Common.OraclePackMetadata
import Mathlib.Data.List.Perm.Basic
import Mathlib.Data.List.Sigma

namespace DXBCSandbox

open List Option Checks Precision

/-! ## Records as a map -/

def Precision.pair (p : Precision) : Σ _ : Bytes, UInt32 := ⟨p.key, p.value⟩

lemma Precision.pair_injective : Function.Injective pair := by
  intro p q h
  rw [pair, pair, Sigma.mk.injEq] at h
  exact Precision.ext h.1 (eq_of_heq h.2)

def precisionMap (ps : List Precision) (key : Bytes) : Option UInt32 :=
  (ps.map pair).dlookup key

variable {ps : List Precision}

lemma nodupKeys_map_pair : (ps.map pair).NodupKeys ↔ (ps.map key).Nodup := by
  rw [List.NodupKeys, List.keys, List.map_map]
  exact Iff.rfl

/-- **Records with distinct keys are their map.** A record that one list lacks, or has with another
precision, shows in the map. -/
theorem precisionMap_eq_iff_perm {qs : List Precision} (hps : (ps.map key).Nodup)
    (hqs : (qs.map key).Nodup) :
    (∀ key, precisionMap ps key = precisionMap qs key) ↔ ps.Perm qs := by
  rw [← nodupKeys_map_pair] at hps hqs
  rw [← map_perm_map_iff pair_injective]
  constructor
  · intro hmap
    apply lookup_ext hps hqs
    intro key value
    rw [mem_def, mem_def]
    exact iff_of_eq (congrArg (· = some value) (hmap key))
  · intro hperm key
    exact perm_dlookup key hps hperm

/-! ## Inputs -/

def inputRecords (input : OraclePackNormalizedMetadataInput) : List Precision :=
  input.resource_precisions.list.map itemPrecision

structure ConsistentInput (input : OraclePackNormalizedMetadataInput) : Prop where
  canonical : bytes_are_consistent input.canonical_bytes = true
  precisions : bytes_are_consistent input.resource_precisions = true
  keys : ∀ item ∈ input.resource_precisions.list, bytes_are_consistent item.resource_key = true

lemma inputPrecisions_perm (input : OraclePackNormalizedMetadataInput) :
    (inputPrecisions input).Perm (inputRecords input) :=
  perm_sortBy _ _

variable {input : OraclePackNormalizedMetadataInput}

lemma MetadataInputOk.nodup (h : MetadataInputOk input) :
    ((inputRecords input).map key).Nodup :=
  ((inputPrecisions_perm input).map _).nodup_iff.mp h.ok.sorted.nodup

lemma MetadataInputOk.consistent (h : MetadataInputOk input) : ConsistentInput input :=
  ⟨h.canonical, h.precisions, h.keys⟩

/-- Two inputs with the same records in another order. -/
structure PermutedInput (input input' : OraclePackNormalizedMetadataInput) : Prop where
  canonical : input'.canonical_bytes = input.canonical_bytes
  consistent : bytes_are_consistent input'.resource_precisions =
    bytes_are_consistent input.resource_precisions
  perm : input.resource_precisions.list.Perm input'.resource_precisions.list

lemma qsort_precisions_eq (items : List OraclePackResourcePrecisionInput) :
    qsort compare_precision_items items =
      sortBy (fun item : OraclePackResourcePrecisionInput => item.resource_key.list) items := by
  rw [qsort, compare_precision_items_eq, sortBy]
  rfl

lemma sortedBy_sortBy_iff {items : List OraclePackResourcePrecisionInput} :
    SortedBy key (sortBy key (items.map itemPrecision)) ↔
      (items.map fun item => item.resource_key.list).Nodup := by
  have hkeys : (items.map itemPrecision).map key =
      items.map fun item => item.resource_key.list := by
    rw [List.map_map]
    rfl
  rw [← hkeys]
  constructor
  · intro h
    exact ((perm_sortBy key _).map _).nodup_iff.mp h.nodup
  · exact sortedBy_sortBy

/-- The order of the items shows neither in the result nor in the failure. -/
theorem sort_precisions_perm {items items' : List OraclePackResourcePrecisionInput}
    (hperm : items.Perm items') : sort_precisions items = sort_precisions items' := by
  unfold sort_precisions
  dsimp only
  rw [hperm.length_eq]
  by_cases hmul : multiply_size items'.length 8 = none
  · rw [if_pos hmul, if_pos hmul]
  rw [if_neg hmul, if_neg hmul]
  have hbad : (∃ item ∈ items, ¬ bytes_are_consistent item.resource_key ∨
      item.resource_key.count = 0 ∨ ¬ precision_is_valid item.precision) ↔
      ∃ item ∈ items', ¬ bytes_are_consistent item.resource_key ∨
        item.resource_key.count = 0 ∨ ¬ precision_is_valid item.precision :=
    exists_congr fun item => and_congr_left fun _ => hperm.mem_iff
  by_cases hvalid : ∃ item ∈ items', ¬ bytes_are_consistent item.resource_key ∨
      item.resource_key.count = 0 ∨ ¬ precision_is_valid item.precision
  · rw [if_pos hvalid, if_pos (hbad.mpr hvalid)]
  rw [if_neg hvalid, if_neg (hbad.not.mpr hvalid)]
  have hadjacent : ∀ is : List OraclePackResourcePrecisionInput,
      adjacent_any (fun a b => compare_precision_items a b = .eq)
        (qsort compare_precision_items is) = false ↔
      (is.map fun item => item.resource_key.list).Nodup :=
    fun _ => adjacent_equal_eq_false.trans sortedBy_sortBy_iff
  by_cases hnodup : (items.map fun item => item.resource_key.list).Nodup
  · have hnodup' := (hperm.map _).nodup_iff.mp hnodup
    rw [(hadjacent items).mpr hnodup, (hadjacent items').mpr hnodup', qsort_precisions_eq,
      qsort_precisions_eq, sortBy_perm hnodup hperm]
  · have hnodup' := (hperm.map _).nodup_iff.not.mp hnodup
    rw [← hadjacent items, Bool.not_eq_false] at hnodup
    rw [← hadjacent items', Bool.not_eq_false] at hnodup'
    rw [hnodup, hnodup', if_pos rfl, if_pos rfl]

lemma encode_metadata_perm {input' : OraclePackNormalizedMetadataInput}
    (h : PermutedInput input input') : encode_metadata input = encode_metadata input' := by
  unfold encode_metadata
  rw [h.canonical, h.consistent, sort_precisions_perm h.perm]

/-! ## Envelopes -/

variable {encoded : OraclePackBytes}

lemma eq_view_bytes (hne : encoded.list ≠ []) : encoded = view_bytes encoded.list := by
  obtain ⟨values, count, hcnt⟩ := encoded
  cases values with
  | none => exact absurd rfl hne
  | some bytes =>
    obtain rfl := hcnt bytes rfl
    rfl

lemma metadataBytes_ne_nil (canonical : Bytes) (ps : List Precision) :
    metadataBytes canonical ps ≠ [] := by
  apply ne_nil_of_length_pos
  rw [length_metadataBytes, metadataSize]
  omega

variable {canonical : Bytes}

lemma eq_view_metadataBytes (h : encoded.list = metadataBytes canonical ps) :
    encoded = view_bytes (metadataBytes canonical ps) := by
  rw [← h]
  apply eq_view_bytes
  rw [h]
  exact metadataBytes_ne_nil canonical ps

lemma parse_metadata_accepts_iff : (∃ layout, parse_metadata encoded = .ok layout) ↔
      ∃ canonical ps, MetadataOk canonical ps ∧ encoded.list = metadataBytes canonical ps := by
  constructor
  · rintro ⟨layout, h⟩
    obtain ⟨-, h⟩ := ite_error_eq_ok.mp h
    exact parse_metadata_bytes_spec h
  · rintro ⟨canonical, ps, hok, hbytes⟩
    rw [eq_view_metadataBytes hbytes]
    exact ⟨_, parse_metadata_envelope hok⟩

def envelopeInput (canonical : Bytes) (ps : List Precision) :
    OraclePackNormalizedMetadataInput where
  canonical_bytes := optional_view canonical
  resource_precisions :=
    if ps = [] then ⟨none, 0, nofun⟩
    else
      { values := some (ps.map fun p => ⟨view_bytes p.key, p.value⟩)
        count := ps.length
        count_eq := fun l h => by rw [← Option.some.inj h, List.length_map] }

lemma list_envelopeInput (canonical : Bytes) (ps : List Precision) :
    (envelopeInput canonical ps).resource_precisions.list =
      ps.map fun p => ⟨view_bytes p.key, p.value⟩ := by
  unfold envelopeInput
  by_cases hnil : ps = []
  · rw [if_pos hnil, hnil]
    rfl
  · rw [if_neg hnil]
    rfl

lemma inputRecords_envelopeInput (canonical : Bytes) (ps : List Precision) :
    inputRecords (envelopeInput canonical ps) = ps := by
  rw [inputRecords, list_envelopeInput, List.map_map]
  exact List.map_id ps

lemma encode_envelopeInput (hok : MetadataOk canonical ps) :
    encode_metadata (envelopeInput canonical ps) = .ok (metadataBytes canonical ps) := by
  have hrecs : inputPrecisions (envelopeInput canonical ps) = ps := by
    show sortBy key (inputRecords (envelopeInput canonical ps)) = ps
    rw [inputRecords_envelopeInput, hok.sorted.sortBy_eq]
  have hcanon : (envelopeInput canonical ps).canonical_bytes.list = canonical :=
    list_optional_view canonical
  rw [encode_metadata_eq_ok, hrecs, hcanon]
  refine ⟨⟨bytes_are_consistent_optional_view canonical, ?_, ?_, ?_⟩, rfl⟩
  · unfold envelopeInput
    by_cases hnil : ps = []
    · rw [if_pos hnil]
      rfl
    · have hcnt : (ps.length == 0) = false := by simpa using hnil
      rw [if_neg hnil, bytes_are_consistent, hcnt]
      rfl
  · intro item hitem
    rw [list_envelopeInput] at hitem
    obtain ⟨p, hp, rfl⟩ := mem_map.mp hitem
    exact bytes_are_consistent_view_bytes (length_pos_of_ne_nil (hok.key_ne p hp))
  · rw [hcanon, hrecs]
    exact hok

lemma metadataBytes_injective {canonical' : Bytes} {ps' : List Precision}
    (hok : MetadataOk canonical ps) (hok' : MetadataOk canonical' ps')
    (h : metadataBytes canonical ps = metadataBytes canonical' ps') :
    canonical = canonical' ∧ ps = ps' := by
  have hview := oracle_pack_metadata_view_eq hok
  rw [h, oracle_pack_metadata_view_eq hok', Except.ok.injEq,
    OraclePackNormalizedMetadataView.mk.injEq] at hview
  obtain ⟨hcanon, hcnt⟩ := hview
  constructor
  · have hlists := congrArg CArray.list hcanon
    rw [list_optional_view, list_optional_view] at hlists
    exact hlists.symm
  · apply ext_getElem hcnt.symm
    intro index hidx hidx'
    have hat := oracle_pack_metadata_precision_at_eq hok index
    rw [h, oracle_pack_metadata_precision_at_eq hok', dif_pos hidx, dif_pos hidx',
      Except.ok.injEq, OraclePackResourcePrecisionView.mk.injEq] at hat
    have hkey := congrArg CArray.list hat.1
    rw [list_view_bytes, list_view_bytes] at hkey
    exact (Precision.ext hkey hat.2).symm

lemma memcmp_eq_iff {a b : Bytes} (h : a.length = b.length) : memcmp a b = .eq ↔ a = b := by
  rw [memcmp_eq h]
  exact Std.LawfulEqOrd.compare_eq_iff_eq

/-- The comparison of an input with an envelope is that of the bytes it is written as. -/
theorem matches_input_iff_encode {layout : MetadataLayout}
    (hparse : parse_metadata encoded = .ok layout) :
    oracle_pack_metadata_matches_input encoded input = .ok true ↔
      encode_metadata input = .ok encoded.list := by
  obtain ⟨hcons, -⟩ := ite_error_eq_ok.mp hparse
  have hcnt := length_list_of_consistent (not_not.mp hcons)
  unfold oracle_pack_metadata_matches_input
  rw [if_neg hcons, hparse]
  constructor
  · intro h
    obtain ⟨_, -, h⟩ := bind_eq_ok.mp h
    obtain ⟨canonical, hencode, h⟩ := bind_eq_ok.mp h
    obtain ⟨hlen, hbytes⟩ := of_decide_eq_true (pure_eq_ok.mp h)
    rw [hencode, (memcmp_eq_iff (hlen.trans hcnt.symm)).mp hbytes]
  · intro hencode
    refine bind_eq_ok.mpr ⟨layout, rfl, bind_eq_ok.mpr ⟨encoded.list, hencode, ?_⟩⟩
    exact pure_eq_ok.mpr (decide_eq_true ⟨hcnt, (memcmp_eq_iff rfl).mpr rfl⟩)

/-- An input is written as a given envelope exactly when it has its content. -/
theorem encode_eq_envelope_iff (hok : MetadataOk canonical ps) :
    encode_metadata input = .ok (metadataBytes canonical ps) ↔
      ConsistentInput input ∧ ((inputRecords input).map key).Nodup ∧
        input.canonical_bytes.list = canonical ∧ (inputRecords input).Perm ps := by
  rw [encode_metadata_eq_ok]
  constructor
  · rintro ⟨hinput, hbytes⟩
    obtain ⟨hcanon, hps⟩ := metadataBytes_injective hok hinput.ok hbytes
    refine ⟨hinput.consistent, hinput.nodup, hcanon.symm, ?_⟩
    rw [hps]
    exact (inputPrecisions_perm input).symm
  · rintro ⟨hcons, hnodup, rfl, hperm⟩
    have hps : inputPrecisions input = ps := by
      show sortBy key (inputRecords input) = ps
      rw [sortBy_perm hnodup hperm, hok.sorted.sortBy_eq]
    rw [hps]
    refine ⟨⟨hcons.canonical, hcons.precisions, hcons.keys, ?_⟩, rfl⟩
    rw [hps]
    exact hok

structure MetadataEnvelope (encoded : OraclePackBytes) (canonical : Bytes)
    (ps : List Precision) : Prop where
  /-- The records, by growing key. -/
  sorted : SortedBy key ps
  view : ∃ view, oracle_pack_metadata_view encoded = .ok view ∧
    view.canonical_bytes.list = canonical ∧ view.resource_precision_count = ps.length
  precision_at : ∀ index, oracle_pack_metadata_precision_at encoded index =
    if h : index < ps.length then .ok ⟨view_bytes ps[index].key, ps[index].value⟩
    else .error .notFound
  /-- It is what the inputs of this content are written as. -/
  written : ∀ input, encode_metadata input = .ok encoded.list →
    input.canonical_bytes.list = canonical ∧ (inputRecords input).Perm ps
  /-- The check accepts the inputs of this content, and no record may be given twice. -/
  matches_input : ∀ input, oracle_pack_metadata_matches_input encoded input = .ok true ↔
    ConsistentInput input ∧ ((inputRecords input).map key).Nodup ∧
      input.canonical_bytes.list = canonical ∧
      ∀ key, precisionMap (inputRecords input) key = precisionMap ps key

lemma metadataEnvelope_of_ok (hok : MetadataOk canonical ps)
    (hbytes : encoded.list = metadataBytes canonical ps) :
    MetadataEnvelope encoded canonical ps := by
  obtain rfl := eq_view_metadataBytes hbytes
  refine ⟨hok.sorted, ⟨_, oracle_pack_metadata_view_eq hok, list_optional_view canonical, rfl⟩,
    oracle_pack_metadata_precision_at_eq hok, ?_, ?_⟩
  · intro input hencode
    exact ((encode_eq_envelope_iff hok).mp hencode).2.2
  · intro input
    rw [matches_input_iff_encode (parse_metadata_envelope hok), list_view_bytes,
      encode_eq_envelope_iff hok]
    apply and_congr_right
    intro _
    apply and_congr_right
    intro hnodup
    rw [precisionMap_eq_iff_perm hnodup hok.sorted.nodup]

/-- **The metadata envelope.** The reader accepts what the writer produces for records with
distinct keys, and nothing else. The order of the records does not show in what is written, nor in
how writing fails. An accepted byte string shows its records by growing key, and matches an input
exactly when the canonical bytes and the maps from keys to precisions are the same. -/
theorem oracle_pack_metadata_envelope (encoded : OraclePackBytes) :
    ((∃ layout, parse_metadata encoded = .ok layout) ↔
      ∃ input, ((inputRecords input).map key).Nodup ∧
        encode_metadata input = .ok encoded.list) ∧
    (∀ input input', PermutedInput input input' → encode_metadata input = encode_metadata input') ∧
    ((∃ layout, parse_metadata encoded = .ok layout) →
      ∃ canonical ps, MetadataEnvelope encoded canonical ps) := by
  refine ⟨?_, fun _ _ h => encode_metadata_perm h, ?_⟩
  · rw [parse_metadata_accepts_iff]
    constructor
    · rintro ⟨canonical, ps, hok, hbytes⟩
      refine ⟨envelopeInput canonical ps, ?_, ?_⟩
      · rw [inputRecords_envelopeInput]
        exact hok.sorted.nodup
      · rw [hbytes]
        exact encode_envelopeInput hok
    · rintro ⟨input, -, hencode⟩
      obtain ⟨hinput, hbytes⟩ := encode_metadata_eq_ok.mp hencode
      exact ⟨_, _, hinput.ok, hbytes⟩
  · intro hparse
    obtain ⟨canonical, ps, hok, hbytes⟩ := parse_metadata_accepts_iff.mp hparse
    exact ⟨canonical, ps, metadataEnvelope_of_ok hok hbytes⟩

def twoRecordInput : OraclePackNormalizedMetadataInput :=
  envelopeInput [7] [⟨asciiBytes "uav:1:b", 2⟩, ⟨asciiBytes "tex:0:a", 1⟩]

/-- They are accepted as written, and shown in the order of their keys. -/
theorem oracle_pack_metadata_two_records :
    ∃ encoded canonical ps, encode_metadata twoRecordInput = .ok encoded ∧
      MetadataEnvelope (view_bytes encoded) canonical ps ∧
      oracle_pack_metadata_precision_at (view_bytes encoded) 0 =
        .ok ⟨view_bytes (asciiBytes "tex:0:a"), 1⟩ := by
  have hok : MetadataOk [7] [⟨asciiBytes "tex:0:a", 1⟩, ⟨asciiBytes "uav:1:b", 2⟩] :=
    ⟨by decide, by decide, by unfold SortedBy; decide, by decide⟩
  have hrecords : inputPrecisions twoRecordInput =
      [⟨asciiBytes "tex:0:a", 1⟩, ⟨asciiBytes "uav:1:b", 2⟩] := by decide
  have hbytes : encode_metadata twoRecordInput =
      .ok (metadataBytes [7] [⟨asciiBytes "tex:0:a", 1⟩, ⟨asciiBytes "uav:1:b", 2⟩]) := by
    rw [encode_metadata_eq_ok, hrecords]
    refine ⟨⟨by decide, by decide, by decide, ?_⟩, rfl⟩
    rw [hrecords]
    exact hok
  obtain ⟨canonical, ps, henvelope⟩ := (oracle_pack_metadata_envelope (view_bytes
    (metadataBytes [7] [⟨asciiBytes "tex:0:a", 1⟩, ⟨asciiBytes "uav:1:b", 2⟩]))).2.2
    ⟨_, parse_metadata_envelope hok⟩
  exact ⟨_, canonical, ps, hbytes, henvelope, oracle_pack_metadata_precision_at_eq hok 0⟩

end DXBCSandbox
