/-
What the reflection certificate certifies.

A certificate is given exactly when the compiler reported the expected rows, each as often as it is
expected. The two digests say the same, although neither looks at the matching, and neither depends
on the order of the groups that the compiler reported nor on the order of the constants in a group.
-/
import DXBCSandbox.Compiler.ReflectionDigest
import DXBCSandbox.Compiler.ReflectionShape
import Mathlib.Data.Multiset.Bind

namespace DXBCSandbox

open List

/-! ## Groups

A group is a record that is not a constant, with the constants that follow it. Statistics may stand
anywhere. -/

def observedGroups : List UnityCompilerReflectionRecord → Multiset UnityCompilerReflectionRecord ×
      Multiset (UnityCompilerReflectionRecord × Multiset UnityCompilerReflectionRecord)
  | [] => (0, 0)
  | record :: records =>
    let (constants, groups) := observedGroups records
    if record.kind = .stats then (constants, groups)
    else if record.kind = .constant then (record ::ₘ constants, groups)
    else (0, (record, constants) ::ₘ groups)

def groupRows (group : UnityCompilerReflectionRecord × Multiset UnityCompilerReflectionRecord) :
    Multiset BindingRow :=
  rowOf none group.1.binding ::ₘ group.2.map fun constant =>
    rowOf (ownerBehind none group.1.binding) constant.binding

lemma rowOf_plain {b : Binding} (h : b.kind ≠ .constant) (owner : Option Binding) :
    rowOf owner b = rowOf none b := by
  rw [rowOf, rowOf, if_neg h, if_neg h]

lemma ownerBehind_plain {b : Binding} (h : b.kind ≠ .constant) (hstats : b.kind ≠ .stats)
    (owner : Option Binding) : ownerBehind owner b = ownerBehind none b := by
  unfold ownerBehind
  by_cases hbuf : b.kind = .constantBuffer
  · rw [if_pos hbuf, if_pos hbuf]
  · rw [if_neg hbuf, if_neg hbuf, if_neg (not_or.mpr ⟨h, hstats⟩), if_neg (not_or.mpr ⟨h, hstats⟩)]

lemma bindingRows_eq_groups (owner : Option Binding)
    (records : List UnityCompilerReflectionRecord) :
    (↑(bindingRows owner (records.map UnityCompilerReflectionRecord.binding)) :
      Multiset BindingRow) =
      (observedGroups records).1.map (fun constant => rowOf owner constant.binding) +
        (observedGroups records).2.bind groupRows := by
  induction records generalizing owner with
  | nil => rfl
  | cons record records ih =>
    have hkind : record.binding.kind = record.kind := rfl
    unfold observedGroups
    rw [map_cons, bindingRows]
    dsimp only
    by_cases hstats : record.kind = .stats
    · rw [if_pos (hkind.trans hstats), if_pos hstats]
      exact ih owner
    have hbind : record.binding.kind ≠ .stats := hstats
    rw [if_neg hbind, if_neg hstats, ← Multiset.cons_coe, ih]
    by_cases hconst : record.kind = .constant
    · have howner : ownerBehind owner record.binding = owner := by
        rw [ownerBehind, hkind, hconst, if_neg (by decide), if_pos (Or.inl rfl)]
      rw [if_pos hconst, howner, Multiset.map_cons, Multiset.cons_add]
    · have hplain : record.binding.kind ≠ .constant := hconst
      rw [if_neg hconst, Multiset.map_zero, Multiset.zero_add, Multiset.cons_bind,
        rowOf_plain hplain, ownerBehind_plain hplain hbind, groupRows, Multiset.cons_add]

/-- Neither the order of the groups nor that of the constants in a group matters. -/
theorem observedRows_of_groups {records records' : List UnityCompilerReflectionRecord}
    (h : observedGroups records = observedGroups records') :
    observedRows records = observedRows records' := by
  unfold observedRows
  rw [bindingRows_eq_groups, bindingRows_eq_groups, h]

/-! ## Status and digests -/

section

variable {common_sha256 : Bytes → Digest} {player : PlayerSubProgramMetadata}
  {common : SerializedProgramParameters} {residual : Option SerializedProgramParameters}
  {expected : List ExpectedReflectionRecord}

def expectedRowList (expected : List ExpectedReflectionRecord) : List BindingRow :=
  bindingRows none (expected.map ExpectedReflectionRecord.binding)

def observedRowList (observed : List UnityCompilerReflectionRecord) : List BindingRow :=
  bindingRows none (observed.map UnityCompilerReflectionRecord.binding)

/-- The check of the counts passes: a record has no more values than its array. -/
theorem any_value_count (records : List UnityCompilerReflectionRecord) : (records.any fun record =>
      record.values.length > UNITY_COMPILER_REFLECTION_MAX_VALUES) = false := by
  rw [any_eq_false]
  intro record _ hlen
  exact Nat.not_lt.mpr record.value_count_le (of_decide_eq_true hlen)

lemma certificate_status
    (hbuild : build_merged_expected_records player common residual = some expected)
    (records : List UnityCompilerReflectionRecord) :
    (unity_reflection_certify_d3d11_bindings common_sha256 player common residual records).status =
      certificateStatus (expectedRows expected) (observedRows records) := by
  unfold unity_reflection_certify_d3d11_bindings
  dsimp only
  rw [any_value_count, hbuild, if_neg Bool.false_ne_true]
  exact certify_common_parameters_status (expectedShape_of_build hbuild) records _

lemma certify_common_parameters_digests (expected : List ExpectedReflectionRecord)
    (records : List UnityCompilerReflectionRecord) (report : UnityReflectionCertificateReport) :
    (certify_common_parameters common_sha256 expected records report).expected_bindings_digest =
        report.expected_bindings_digest ∧
      (certify_common_parameters common_sha256 expected records report).observed_bindings_digest =
        report.observed_bindings_digest := by
  unfold certify_common_parameters
  cases certify_loop expected 0 ⟨fun _ => false, none, false, 0⟩ records with
  | error failure => exact ⟨rfl, rfl⟩
  | ok s =>
    dsimp only
    cases first_unmatched expected s.matched 0 expected.length fun _ => true with
    | some index => exact ⟨rfl, rfl⟩
    | none => exact ⟨rfl, rfl⟩

lemma certificate_digests
    (hbuild : build_merged_expected_records player common residual = some expected)
    (records : List UnityCompilerReflectionRecord) :
    (unity_reflection_certify_d3d11_bindings common_sha256 player common residual
        records).expected_bindings_digest =
        fingerprint_bindings common_sha256 (expected.map (summarize_expected common_sha256)) ∧
      (unity_reflection_certify_d3d11_bindings common_sha256 player common residual
        records).observed_bindings_digest =
        fingerprint_bindings common_sha256 (records.map (summarize_observed common_sha256)) := by
  unfold unity_reflection_certify_d3d11_bindings
  dsimp only
  rw [any_value_count, hbuild, if_neg Bool.false_ne_true]
  exact certify_common_parameters_digests expected records _

lemma fingerprint_expected_iff (expected : List ExpectedReflectionRecord) (digest : Digest) :
    fingerprint_bindings common_sha256 (expected.map (summarize_expected common_sha256)) =
        some digest ↔
      (∀ row ∈ expectedRowList expected, BindingRow.Valid row) ∧ digest = common_sha256
        (binding_set_bytes ((expectedRowList expected).map (rowDigest common_sha256))) := by
  apply fingerprint_bindings_eq_some_iff
  rw [forall₂_map_left_iff, forall₂_map_right_iff, forall₂_same]
  intro record _
  exact summarizes_expected record

lemma fingerprint_observed_iff (records : List UnityCompilerReflectionRecord) (digest : Digest) :
    fingerprint_bindings common_sha256 (records.map (summarize_observed common_sha256)) =
        some digest ↔
      (∀ row ∈ observedRowList records, BindingRow.Valid row) ∧ digest = common_sha256
        (binding_set_bytes ((observedRowList records).map (rowDigest common_sha256))) := by
  apply fingerprint_bindings_eq_some_iff
  rw [forall₂_map_left_iff, forall₂_map_right_iff, forall₂_same]
  intro record _
  exact summarizes_observed record

lemma ExpectedShape.valid (h : ExpectedShape expected) :
    ∀ row ∈ expectedRowList expected, BindingRow.Valid row := by
  intro row hrow
  obtain ⟨i, hi⟩ := List.getElem?_of_mem hrow
  obtain ⟨e, he, hrowOf⟩ := h.of_row hi
  have hmem := mem_of_getElem? he
  have hbind : row.1 = e.binding := congrArg Prod.fst hrowOf
  have hlen : e.binding.values.length = e.values.length := length_hashed_values _ _
  refine ⟨?_, ?_, h.owned row hrow⟩
  · rw [hbind, hlen]
    exact h.values_le e hmem
  · intro hkind
    rw [hbind] at hkind ⊢
    rw [hlen]
    exact h.buffer_values e hmem hkind

lemma certificateStatus_iff {expected observed : Multiset BindingRow} :
    certificateStatus expected observed = .ok ∨ certificateStatus expected observed = .compatible ↔
      observed = expected := by
  unfold certificateStatus
  by_cases hle : observed ≤ expected
  · rw [if_neg (not_not.mpr hle)]
    by_cases heq : observed = expected
    · rw [if_neg (not_not.mpr heq)]
      refine iff_of_true ?_ heq
      split_ifs
      · exact Or.inr rfl
      · exact Or.inl rfl
    · rw [if_pos heq]
      exact iff_of_false (by simp) heq
  · rw [if_pos hle]
    refine iff_of_false (by simp) ?_
    rintro rfl
    exact hle le_rfl

/-- Both digests are there and equal exactly when the rows are the same. -/
theorem digests_eq_iff (h : ExpectedShape expected) (records : List UnityCompilerReflectionRecord)
    (hfree : CollisionFree common_sha256 (expectedRowList expected) (observedRowList records)) :
    (∃ digest,
      fingerprint_bindings common_sha256 (expected.map (summarize_expected common_sha256)) =
        some digest ∧
      fingerprint_bindings common_sha256 (records.map (summarize_observed common_sha256)) =
        some digest) ↔
      observedRows records = expectedRows expected := by
  have hrows : observedRows records = expectedRows expected ↔
      (expectedRowList expected).Perm (observedRowList records) :=
    eq_comm.trans Multiset.coe_eq_coe
  simp only [fingerprint_expected_iff, fingerprint_observed_iff]
  rw [hrows]
  constructor
  · rintro ⟨digest, ⟨hvalid, hdig⟩, hvalid', hdig'⟩
    apply (digest_eq_iff_perm (rowList_bindingRows hvalid) (rowList_bindingRows hvalid') hfree).mp
    exact hdig.symm.trans hdig'
  · intro hperm
    have hvalid' : ∀ row ∈ observedRowList records, BindingRow.Valid row :=
      fun row hrow => h.valid row (hperm.symm.subset hrow)
    refine ⟨_, ⟨h.valid, rfl⟩, hvalid', ?_⟩
    exact (digest_eq_iff_perm (rowList_bindingRows h.valid) (rowList_bindingRows hvalid')
      hfree).mpr hperm

lemma fingerprint_of_groups {records records' : List UnityCompilerReflectionRecord}
    (h : observedGroups records = observedGroups records') :
    fingerprint_bindings common_sha256 (records.map (summarize_observed common_sha256)) =
      fingerprint_bindings common_sha256 (records'.map (summarize_observed common_sha256)) := by
  have hperm : (observedRowList records).Perm (observedRowList records') :=
    Multiset.coe_eq_coe.mp (observedRows_of_groups h)
  apply Option.ext
  intro digest
  rw [fingerprint_observed_iff, fingerprint_observed_iff,
    binding_set_bytes_eq_iff.mpr (hperm.map (rowDigest common_sha256))]
  refine and_congr_left fun _ => ?_
  exact forall_congr' fun row => imp_congr_left hperm.mem_iff

/-- **The certificate is exact.** It is given exactly when the compiler reported the expected rows,
and, where SHA-256 has no collision, exactly when both digests are there and equal. Groups and the
constants in a group may come in any order. -/
theorem unity_reflection_certify_d3d11_bindings_exact
    (hbuild : build_merged_expected_records player common residual = some expected)
    (observed : List UnityCompilerReflectionRecord) :
    let certify records :=
      unity_reflection_certify_d3d11_bindings common_sha256 player common residual records
    (((certify observed).status = .ok ∨ (certify observed).status = .compatible) ↔
        observedRows observed = expectedRows expected) ∧
      (CollisionFree common_sha256 (expectedRowList expected) (observedRowList observed) →
        (observedRows observed = expectedRows expected ↔
          ∃ digest, (certify observed).expected_bindings_digest = some digest ∧
            (certify observed).observed_bindings_digest = some digest)) ∧
      ∀ reordered, observedGroups reordered = observedGroups observed →
        (certify reordered).status = (certify observed).status ∧
          (certify reordered).observed_bindings_digest =
            (certify observed).observed_bindings_digest := by
  intro certify
  refine ⟨?_, ?_, ?_⟩
  · rw [certificate_status hbuild]
    exact certificateStatus_iff
  · intro hfree
    obtain ⟨hexpected, hobserved⟩ := @certificate_digests common_sha256 _ _ _ _ hbuild observed
    rw [hexpected, hobserved]
    exact (digests_eq_iff (expectedShape_of_build hbuild) observed hfree).symm
  · intro reordered hgroups
    refine ⟨?_, ?_⟩
    · rw [certificate_status hbuild, certificate_status hbuild, observedRows_of_groups hgroups]
    · rw [(certificate_digests hbuild reordered).2, (certificate_digests hbuild observed).2]
      exact fingerprint_of_groups hgroups

end

/-! ## A sample

A buffer `B` of 16 bytes with one vector `x`, and what the compiler reports for it. -/

def digestOfNumber (n : ℕ) : Digest :=
  Vector.ofFn fun i => UInt8.ofNat (n / 256 ^ (31 - i.val))

/-- SHA-256 of the five texts that the sample hashes, which differ in their lengths but for the two
names. -/
def sampleSha256 (text : Bytes) : Digest :=
  if text = asciiBytes "B" then
    digestOfNumber 0xdf7e70e5021544f4834bbee64a9e3789febc4be81470df629cad6ddb03320a5c
  else if text = asciiBytes "x" then
    digestOfNumber 0x2d711642b726b04401627ca9fbac32f5c8530fb1903cc4db02258717921a4881
  else if text.length = 119 then
    digestOfNumber 0x94bf9bbeee1d89d44c012c31016a9fe277bd828b6119eac3e40b60a2492a0d94
  else if text.length = 183 then
    digestOfNumber 0x67e8d7381d464ebc5235df5353985b8f8813885bd2b6087dc83839b36442efc2
  else
    digestOfNumber 0xd20e09bb1ecaefa10a566ea41830c25ce6634a9867659a67818bbd4a04261d51

def samplePlayer : PlayerSubProgramMetadata := ⟨0, .ofList []⟩

def sampleCommon : SerializedProgramParameters where
  version := 0
  dialect := .unity_2021_3_35f1
  is_binary := false
  constant_buffers := .ofList [{
    name := some ⟨asciiBytes "B", by decide⟩
    role := .named
    size := 16
    has_is_partial := false
    is_partial := false
    vars := .ofList [⟨some ⟨asciiBytes "x", by decide⟩, #v[0, 0, 0, 4, 0, 0]⟩]
    struct_params := .ofList [] }]
  resources := .ofList []

def sampleExpected : List ExpectedReflectionRecord :=
  [⟨.constantBuffer, some ⟨asciiBytes "B", by decide⟩, none, [16, -1]⟩,
    ⟨.constant, some ⟨asciiBytes "x", by decide⟩, none, [0, 0, 0, 1, 4, 0]⟩]

def sampleObserved : List UnityCompilerReflectionRecord :=
  [⟨.stats, none, [7], by decide⟩,
    ⟨.constantBuffer, some ⟨asciiBytes "B", by decide⟩, [16, 1], by decide⟩,
    ⟨.constant, some ⟨asciiBytes "x", by decide⟩, [0, 0, 0, 1, 4, 0], by decide⟩]

lemma sample_collisionFree : CollisionFree sampleSha256 (expectedRowList sampleExpected)
      (observedRowList sampleObserved) := by
  have hrows : observedRowList sampleObserved = expectedRowList sampleExpected := by
    decide +kernel
  have hdigests : ((hashedTexts sampleSha256 (expectedRowList sampleExpected)).map
      sampleSha256).Nodup := by decide +kernel
  intro a ha b hb heq
  rw [hrows, Set.mem_ofPred_eq, mem_append, or_self] at ha hb
  exact inj_on_of_nodup_map hdigests ha hb heq

theorem sample_certificate_exact :
    let report := unity_reflection_certify_d3d11_bindings sampleSha256 samplePlayer sampleCommon
      none sampleObserved
    (report.status = .ok ∨ report.status = .compatible) ∧
      ∃ digest, report.expected_bindings_digest = some digest ∧
        report.observed_bindings_digest = some digest := by
  have hbuild : build_merged_expected_records samplePlayer sampleCommon none =
      some sampleExpected := by decide +kernel
  have hrows : observedRows sampleObserved = expectedRows sampleExpected := by decide +kernel
  obtain ⟨hstatus, hdigests, -⟩ := @unity_reflection_certify_d3d11_bindings_exact sampleSha256
    _ _ _ _ hbuild sampleObserved
  exact ⟨hstatus.mpr hrows, (hdigests sample_collisionFree).mp hrows⟩

end DXBCSandbox
