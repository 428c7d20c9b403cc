/-
The reflection certificate (`src/compiler/unity_reflection_certificate.c`).

The records that the compiler reported are matched one by one with the expected records, a constant
only inside the constant buffer that it follows. Besides, both sides get a digest of their own, over
the sorted digests of their records. SHA-256 comes from `external/UnityCommon`.
-/
import DXBCSandbox.Common.OraclePack
import DXBCSandbox.Compiler.ReflectionExpected
import DXBCSandbox.Lib.KeySort

namespace DXBCSandbox

/-! ## Matching -/

/-- `observed` is the prefix, a dot and the name. The source compares the sizes first, so the rest
is compared in bounds. -/
def dotted_name_matches (prefix_name name observed : CString) : Bool :=
  let prefix_size := prefix_name.bytes.length
  observed.bytes.length = prefix_size + 1 + name.bytes.length ∧
    observed.bytes.take prefix_size = prefix_name.bytes ∧
    observed.bytes[prefix_size]? = some 46 ∧
    (observed.bytes.drop (prefix_size + 1)).take name.bytes.length = name.bytes

variable (expected : ExpectedReflectionRecord)

def expected_name_matches_observed (observed : UnityCompilerReflectionRecord) : Bool :=
  if expected.kind ≠ observed.kind then false
  else match expected.name, observed.name with
    | none, none => true
    | some name, some observed =>
      match expected.prefix_name with
      | some prefix_name => dotted_name_matches prefix_name name observed
      | none => name.bytes = observed.bytes
    | _, _ => false

def expected_matches_observed (observed : UnityCompilerReflectionRecord) : Bool :=
  if !expected_name_matches_observed expected observed then false
  else if expected.kind = .constantBuffer then
    expected.values.length = 2 ∧ observed.values.length = 2 ∧
      expected.values.head? = observed.values.head?
  else expected.values = observed.values

def expected_binding_values_match_observed (observed : UnityCompilerReflectionRecord) : Bool :=
  expected.kind = observed.kind ∧ expected.kind ≠ .constantBuffer ∧ expected.kind ≠ .constant ∧
    expected.values = observed.values

/-! ## Summaries and digests -/

def UNITY_REFLECTION_NAME_PREVIEW_SIZE : ℕ := 96

structure UnityReflectionCertificateRecordSummary where
  kind : UnityCompilerReflectionKind
  has_name : Bool
  name_preview : Bytes
  name_length : ℕ
  name_sha256 : Digest
  values : List Int32

section

variable (common_sha256 : Bytes → Digest)

def name_text (prefix_name : Option CString) (name : CString) : Bytes :=
  match prefix_name with
  | some prefix_name => prefix_name.bytes ++ 46 :: name.bytes
  | none => name.bytes

/-- The parts of a name are hashed and copied one after the other. -/
def summarize_name_parts (summary : UnityReflectionCertificateRecordSummary)
    (prefix_name name : Option CString) : UnityReflectionCertificateRecordSummary :=
  match name with
  | none => summary
  | some name =>
    let text := name_text prefix_name name
    { summary with
      has_name := true
      name_preview := text.take (UNITY_REFLECTION_NAME_PREVIEW_SIZE - 1)
      name_length := if text.length > SIZE_MAX then SIZE_MAX else text.length
      name_sha256 := common_sha256 text }

def empty_summary (kind : UnityCompilerReflectionKind) (values : List Int32) :
    UnityReflectionCertificateRecordSummary :=
  ⟨kind, false, [], 0, .replicate _ 0, values⟩

def summarize_expected (record : ExpectedReflectionRecord) :
    UnityReflectionCertificateRecordSummary :=
  summarize_name_parts common_sha256 (empty_summary record.kind record.values) record.prefix_name
    record.name

def summarize_observed (record : UnityCompilerReflectionRecord) :
    UnityReflectionCertificateRecordSummary :=
  summarize_name_parts common_sha256 (empty_summary record.kind record.values) none record.name

def binding_hash_word (value : ℕ) : Bytes := leBytes 8 value

def binding_record_domain : Bytes :=
  asciiBytes "DXBCSandbox.ReflectionBindingRecord.v1" ++ [0]

def binding_set_domain : Bytes := asciiBytes "DXBCSandbox.ReflectionBindingSet.v1" ++ [0]

/-- The values that are hashed: the count of variables of a constant buffer is left out. -/
def hashed_values (kind : UnityCompilerReflectionKind) (values : List Int32) : List Int32 :=
  if kind = .constantBuffer then values.set 1 UNITY_REFLECTION_CB_VARIABLE_COUNT_UNAVAILABLE
  else values

/-- What is hashed for a record. A constant ends with the digest of its constant buffer. -/
def binding_record_bytes (summary : UnityReflectionCertificateRecordSummary) (owner : Digest) :
    Bytes :=
  binding_record_domain ++ binding_hash_word summary.kind.number ++
    binding_hash_word (if summary.has_name then 1 else 0) ++
    binding_hash_word summary.name_length ++ summary.name_sha256.toList ++
    binding_hash_word summary.values.length ++
    ((hashed_values summary.kind summary.values).flatMap fun value =>
      binding_hash_word value.toUInt32.toNat) ++
    if summary.kind = .constant then owner.toList else []

/-- The loop over the records: the digests of the rows. `owner` is the digest of the constant buffer
that a constant would follow. -/
def binding_rows : Option Digest → List UnityReflectionCertificateRecordSummary →
    Option (List Digest)
  | _, [] => some []
  | owner, summary :: summaries =>
    if summary.kind = .stats then binding_rows owner summaries
    else if summary.values.length > UNITY_COMPILER_REFLECTION_MAX_VALUES ∨
        (summary.kind = .constantBuffer ∧ summary.values.length ≠ 2) ∨
        (summary.kind = .constant ∧ owner = none) then none
    else
      let row := common_sha256 (binding_record_bytes summary (owner.getD (.replicate _ 0)))
      let owner := if summary.kind = .constantBuffer then some row
        else if summary.kind = .constant then owner else none
      (binding_rows owner summaries).map (row :: ·)

def sort_rows (rows : List Digest) : List Digest := sortBy Vector.toList rows

def binding_set_bytes (rows : List Digest) : Bytes :=
  binding_set_domain ++ binding_hash_word rows.length ++ (sort_rows rows).flatMap Vector.toList

def fingerprint_bindings (summaries : List UnityReflectionCertificateRecordSummary) :
    Option Digest :=
  (binding_rows common_sha256 none summaries).map fun rows =>
    common_sha256 (binding_set_bytes rows)

end

/-! ## The certificate -/

inductive UnityReflectionCertificateStatus where
  | ok | compatible | invalidArgument | invalidMetadata | extraRecord | missingRecord
  deriving DecidableEq

inductive UnityReflectionCertificateAuthority where
  | commonOnly | commonPlusResidual
  deriving DecidableEq

/-- A digest is `none` while its validity flag is not set, and a record index while it is
`SIZE_MAX`. -/
structure UnityReflectionCertificateReport where
  status : UnityReflectionCertificateStatus
  authority : UnityReflectionCertificateAuthority
  expected_record_count : ℕ
  expected_non_input_record_count : ℕ
  observed_record_count : ℕ
  matched_record_count : ℕ
  expected_bindings_digest : Option Digest
  observed_bindings_digest : Option Digest
  ignored_stats_record_count : ℕ
  expected_record_index : Option ℕ
  observed_record_index : Option ℕ
  expected_record : Option UnityReflectionCertificateRecordSummary
  observed_record : Option UnityReflectionCertificateRecordSummary

def unity_reflection_certificate_report_init : UnityReflectionCertificateReport :=
  ⟨.ok, .commonOnly, 0, 0, 0, 0, none, none, 0, none, none, none, none⟩

/-- The first record from `lo` up to `hi` that is not matched yet and is as wanted. -/
def first_unmatched (expected : List ExpectedReflectionRecord) (matched : ℕ → Bool) (lo hi : ℕ)
    (wanted : ExpectedReflectionRecord → Bool) : Option ℕ :=
  (List.range' lo (hi - lo)).find? fun index => !matched index && (expected[index]?).any wanted

def constant_block_end (expected : List ExpectedReflectionRecord) (cb_index : ℕ) : ℕ :=
  cb_index + 1 + ((expected.drop (cb_index + 1)).takeWhile fun record =>
    record.kind = .constant).length

section

variable (common_sha256 : Bytes → Digest)

def fail_common_record (report : UnityReflectionCertificateReport)
    (status : UnityReflectionCertificateStatus) (expected : List ExpectedReflectionRecord)
    (expected_index : Option ℕ) (observed : Option (ℕ × UnityCompilerReflectionRecord)) :
    UnityReflectionCertificateReport :=
  { report with
    status
    expected_record_index := expected_index
    expected_record := (expected_index.bind fun index => expected[index]?).map
      (summarize_expected common_sha256)
    observed_record_index := observed.map Prod.fst
    observed_record := observed.map fun observed => summarize_observed common_sha256 observed.2 }

/-- What the loop over the observed records carries. -/
structure CertifyState where
  matched : ℕ → Bool
  current_expected_cb : Option ℕ
  discarded_cb_count : Bool
  matched_record_count : ℕ

variable (expected : List ExpectedReflectionRecord)

/-- The record that an observed record is matched with or, on failure, the record that the report
names beside it. -/
def find_expected (s : CertifyState) (observed : UnityCompilerReflectionRecord) :
    Except (Option ℕ) ℕ :=
  let named record := expected_name_matches_observed record observed
  let range : Option (ℕ × ℕ) :=
    if observed.kind = .constant then
      s.current_expected_cb.map fun cb => (cb + 1, constant_block_end expected cb)
    else some (0, expected.length)
  match range with
  | none => .error none
  | some (lo, hi) =>
    match first_unmatched expected s.matched lo hi
        (fun record => expected_matches_observed record observed) with
    | some found => .ok found
    | none =>
      match first_unmatched expected s.matched lo hi named with
      | some nearest => .error (some nearest)
      | none => .error (first_unmatched expected s.matched lo hi fun record =>
        expected_binding_values_match_observed record observed)

def certify_step (s : CertifyState) (observed : UnityCompilerReflectionRecord) :
    Except (Option ℕ) CertifyState :=
  match find_expected expected s observed with
  | .error nearest => .error nearest
  | .ok found => .ok {
      matched := Function.update s.matched found true
      current_expected_cb :=
        if observed.kind = .constantBuffer then some found
        else if observed.kind = .constant then s.current_expected_cb
        else none
      discarded_cb_count := s.discarded_cb_count || observed.kind = .constantBuffer
      matched_record_count := s.matched_record_count + 1 }

/-- The loop over the observed records, from `index` on. An error is the observed record that was
not matched, the expected record to name beside it, and the count so far. -/
def certify_loop (expected : List ExpectedReflectionRecord) (index : ℕ) (s : CertifyState) :
    List UnityCompilerReflectionRecord →
      Except ((ℕ × UnityCompilerReflectionRecord) × Option ℕ × ℕ) CertifyState
  | [] => .ok s
  | observed :: rest =>
    if observed.kind = .stats then certify_loop expected (index + 1) s rest
    else match certify_step expected s observed with
      | .error nearest => .error ((index, observed), nearest, s.matched_record_count)
      | .ok s => certify_loop expected (index + 1) s rest

def certify_common_parameters (observed_records : List UnityCompilerReflectionRecord)
    (report : UnityReflectionCertificateReport) : UnityReflectionCertificateReport :=
  match certify_loop expected 0 ⟨fun _ => false, none, false, 0⟩ observed_records with
  | .error (observed, nearest, count) =>
    fail_common_record common_sha256 { report with matched_record_count := count } .extraRecord
      expected nearest (some observed)
  | .ok s =>
    let report := { report with matched_record_count := s.matched_record_count }
    match first_unmatched expected s.matched 0 expected.length fun _ => true with
    | some index =>
      fail_common_record common_sha256 report .missingRecord expected (some index) none
    | none => { report with status := if s.discarded_cb_count then .compatible else .ok }

def unity_reflection_certify_d3d11_bindings (player : PlayerSubProgramMetadata)
    (common_parameters : SerializedProgramParameters)
    (residual_parameters : Option SerializedProgramParameters)
    (observed_records : List UnityCompilerReflectionRecord) : UnityReflectionCertificateReport :=
  let report := { unity_reflection_certificate_report_init with
    authority := if residual_parameters.isSome then .commonPlusResidual else .commonOnly }
  if observed_records.any fun record =>
      record.values.length > UNITY_COMPILER_REFLECTION_MAX_VALUES then
    { report with status := .invalidArgument }
  else
    let ignored := (observed_records.filter fun record => record.kind = .stats).length
    let report := { report with
      ignored_stats_record_count := ignored
      observed_record_count := observed_records.length - ignored }
    match build_merged_expected_records player common_parameters residual_parameters with
    | none => { report with status := .invalidMetadata }
    | some expected =>
      let expected_digest := fingerprint_bindings common_sha256
        (expected.map (summarize_expected common_sha256))
      certify_common_parameters common_sha256 expected observed_records { report with
        expected_record_count := expected.length
        expected_bindings_digest := expected_digest
        expected_non_input_record_count := if expected_digest.isSome then
          (expected.filter fun record => record.kind ≠ .input).length else 0
        observed_bindings_digest := fingerprint_bindings common_sha256
          (observed_records.map (summarize_observed common_sha256)) }

end

end DXBCSandbox
