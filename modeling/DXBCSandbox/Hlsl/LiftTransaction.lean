/-
Lift transactions (`src/translation/hlsl_lift_transaction.c` and
`src/translation/hlsl_lift_control.c`).

A transaction holds the program and the compiled artifact it has accepted last, and a journal of
the steps that led there. A step is offered by `hlsl_lift_transaction_try_copy`, `_try_result` or
`_try_high_level`, compiled, compared with the target container and accepted only when the two are
equal.

The callbacks of the services may keep state of their own and answer as they like, and so may the
allocator; all of it is a value of the type `World` that every call hands on. The planning of a
rewrite (`src/translation/hlsl_copy_lift.c`), the check of a source map and the digests are
functions of the model: nothing is assumed of them.
-/
import DXBCSandbox.Common.OraclePack
import DXBCSandbox.Dxbc.Compare
import DXBCSandbox.Lib.Fallible

namespace DXBCSandbox.Lift

open Fallible

/-! ## Data -/

inductive HLSLLiftStatus where
  | verified
  | preconditionRejected
  | emissionRejected
  | compilerRejected
  | compilerUnavailable
  | cancelled
  | budgetExhausted
  | dxbcMismatch
  | invalidDxbc
  | invalidArgument
  | outOfMemory
  | clockUnavailable
  | compositionUnsupported
  | authorityMismatch
  | provenanceMismatch
  deriving DecidableEq

inductive HLSLCopyLiftStatus where
  | ok
  | invalidProgram
  | unsupportedStage
  | notPlainCopy
  | precisionControl
  | effectfulRegion
  | relativeAddressing
  | partialUse
  | undefinedSource
  | sourceChanged
  | noUses
  | notPlainResult
  | multipleUses
  | nonbijectiveLanes
  | outOfMemory
  deriving DecidableEq

structure HLSLCopyLiftEdit where
  instruction_index : ℤ
  operand_index : ℤ
  logical_lane_mask : UInt8
  source_components : Vector UInt8 4

/-- What a planned rewrite says of itself. -/
structure HLSLCopyLift (Program : Type) where
  program : Program
  producer_instruction : ℤ
  edits : List HLSLCopyLiftEdit

structure HLSLLiftArtifact (SourceMap : Type) where
  source : Option CString
  dxbc : CArray UInt8
  cache_hit : Bool
  has_request_identity : Bool
  request_digest : Digest
  controls_digest : Digest
  expression_source_map : Option SourceMap

structure HLSLLiftLimits where
  max_candidates : ℕ
  max_compiles : ℕ
  max_elapsed_ms : ℕ

structure HLSLLiftResult where
  status : HLSLLiftStatus
  precondition : HLSLCopyLiftStatus
  comparison : DXBCCompareResult
  compared : Bool
  cache_hit : Bool
  source_sha256 : CString
  output_sha256 : CString
  request_sha256 : CString
  controls_sha256 : CString

structure HLSLLiftStats where
  candidates : ℕ
  compiles : ℕ
  cache_hits : ℕ
  accepted : ℕ
  elapsed_ms : ℕ

structure HLSLLiftStep where
  identifier : String
  version : ℕ
  instruction_index : ℤ
  source_instruction_index : UInt32
  producer_instruction_index : ℤ
  producer_source_instruction_index : UInt32
  edits : List HLSLCopyLiftEdit
  before : HLSLLiftResult
  after : HLSLLiftResult

structure HLSLLiftControl where
  started_ms : ℕ
  elapsed_ms : ℕ
  max_elapsed_ms : ℕ
  status : HLSLLiftStatus

structure AcceptedCopy (Program : Type) where
  copy : HLSLCopyLift Program
  step : HLSLLiftStep

/-- The transaction. The list of copies is the chain of `previous` links, the newest first, and a
high-level step that has not been written yet is `none`. -/
structure HLSLLiftTransaction (Program SourceMap : Type) where
  program : Program
  target : CArray UInt8
  limits : HLSLLiftLimits
  stats : HLSLLiftStats
  accepted : HLSLLiftArtifact SourceMap
  accepted_result : HLSLLiftResult
  high_level_step : Option HLSLLiftStep
  copies : List (AcceptedCopy Program)
  control : HLSLLiftControl
  high_level : Bool

def HLSL_COPY_LIFT_ID : String := "copy-swizzle"
def HLSL_COPY_LIFT_VERSION : ℕ := 1
def HLSL_RESULT_LIFT_ID : String := "single-use-result"
def HLSL_RESULT_LIFT_VERSION : ℕ := 1
def HLSL_HIGH_LEVEL_LIFT_ID : String := "float4-expressions"
def HLSL_HIGH_LEVEL_LIFT_VERSION : ℕ := 62
def HLSL_UNITY_UV_LIFT_ID : String := "unity-packed-uv-adjust"
def HLSL_UNITY_UV_LIFT_VERSION : ℕ := 1

structure HLSLLiftServices (World Program SourceMap : Type) where
  compile : Program → ℕ → World → (HLSLLiftStatus × HLSLLiftArtifact SourceMap) × World
  monotonic_ms : World → Option ℕ × World
  cancelled : Option (World → Bool × World)
  compile_high_level :
    Option (Program → ℕ → World → (HLSLLiftStatus × HLSLLiftArtifact SourceMap) × World)
  require_request_identity : Bool
  require_expression_source_map : Bool

structure Callees (World Program SourceMap : Type) where
  rt : UnityCommon
  sha256 : Bytes → Digest
  digest_to_hex : Digest → CString
  /-- Whether an allocation succeeds. -/
  calloc : World → Bool × World
  hlsl_copy_lift_create :
    Program → ℤ → World → Except HLSLCopyLiftStatus (HLSLCopyLift Program) × World
  hlsl_result_lift_create :
    Program → ℤ → World → Except HLSLCopyLiftStatus (HLSLCopyLift Program) × World
  /-- `program->instructions[index].source_instruction_index` -/
  source_instruction_index : Program → ℤ → UInt32
  hlsl_expression_source_map_matches : Option SourceMap → Program → CString → Bool
  /-- The map has two records, and the first is of the kind `HLSL_EXPRESSION_ORIGIN_UNITY_UV`. -/
  is_unity_uv : SourceMap → Bool

/-! ## Results -/

def result_init : HLSLLiftResult where
  status := .invalidArgument
  precondition := .invalidProgram
  comparison := dxbc_compare_result_init
  compared := false
  cache_hit := false
  source_sha256 := default
  output_sha256 := default
  request_sha256 := default
  controls_sha256 := default

def artifact_request_identity_valid {SourceMap : Type} (artifact : HLSLLiftArtifact SourceMap) :
    Bool :=
  artifact.has_request_identity && artifact.request_digest.toList.any (· ≠ 0) &&
    artifact.controls_digest.toList.any (· ≠ 0)

section

variable {World Program SourceMap : Type} (services : HLSLLiftServices World Program SourceMap)
  (callees : Callees World Program SourceMap)

def hash_hex (bytes : Bytes) : CString := callees.digest_to_hex (callees.sha256 bytes)

/-- What `verify_program` writes down of an artifact. -/
def observe_artifact (artifact : HLSLLiftArtifact SourceMap) (result : HLSLLiftResult) :
    HLSLLiftResult :=
  { result with
    cache_hit := artifact.cache_hit
    source_sha256 :=
      match artifact.source with
      | some source => hash_hex callees source.bytes
      | none => result.source_sha256
    output_sha256 :=
      match artifact.dxbc.values with
      | some bytes =>
        if artifact.dxbc.count ≠ 0 then hash_hex callees bytes else result.output_sha256
      | none => result.output_sha256
    request_sha256 :=
      if artifact.has_request_identity then callees.digest_to_hex artifact.request_digest
      else result.request_sha256
    controls_sha256 :=
      if artifact.has_request_identity then callees.digest_to_hex artifact.controls_digest
      else result.controls_sha256 }

/-! ## The deadline -/

def hlsl_lift_control_begin (max_elapsed_ms : ℕ) (world : World) : HLSLLiftControl × World :=
  match services.monotonic_ms world with
  | (some started_ms, world) => (⟨started_ms, 0, max_elapsed_ms, .verified⟩, world)
  | (none, world) => (⟨0, 0, max_elapsed_ms, .clockUnavailable⟩, world)

/-- `control->cancelled && control->cancelled(control->context)` -/
def is_cancelled (world : World) : Bool × World :=
  match services.cancelled with
  | some cancelled => cancelled world
  | none => (false, world)

def hlsl_lift_control_check (control : HLSLLiftControl) (world : World) : HLSLLiftControl × World :=
  if control.status ≠ .verified then (control, world)
  else
    match is_cancelled services world with
    | (true, world) => ({ control with status := .cancelled }, world)
    | (false, world) =>
      match services.monotonic_ms world with
      | (none, world) => ({ control with status := .clockUnavailable }, world)
      | (some now, world) =>
        if now < control.started_ms ∨ now - control.started_ms < control.elapsed_ms then
          ({ control with status := .clockUnavailable }, world)
        else
          let elapsed_ms := now - control.started_ms
          if control.max_elapsed_ms ≤ elapsed_ms then
            ({ control with elapsed_ms, status := .budgetExhausted }, world)
          else ({ control with elapsed_ms }, world)

/-! ## Verification -/

/-- A call under way: the transaction, the caller's record and everything outside. -/
structure CallState (World Program SourceMap : Type) where
  world : World
  transaction : HLSLLiftTransaction Program SourceMap
  result : HLSLLiftResult

/-- A part of a call; a status other than `HLSL_LIFT_VERIFIED` ends the call. -/
abbrev Action (World Program SourceMap : Type) :=
  Fallible (CallState World Program SourceMap) HLSLLiftStatus

def outside {α : Type} (f : World → α × World) : Action World Program SourceMap α := fun s =>
  (.ok (f s.world).1, { s with world := (f s.world).2 })

def work_status : Action World Program SourceMap Unit := do
  let s ← current
  let control ← outside (hlsl_lift_control_check services s.transaction.control)
  update fun s => { s with transaction := { s.transaction with
    control := control
    stats := { s.transaction.stats with elapsed_ms := control.elapsed_ms } } }
  failWhen (control.status ≠ .verified) control.status

/-- `transaction->control.status = status; return status;` -/
def stop {α : Type} (status : HLSLLiftStatus) : Action World Program SourceMap α := do
  update fun s => { s with transaction := { s.transaction with
    control := { s.transaction.control with status := status } } }
  fail status

def admit_candidate : Action World Program SourceMap Unit := do
  let s ← current
  if s.transaction.limits.max_candidates ≤ s.transaction.stats.candidates then
    stop .budgetExhausted
  else
    update fun s => { s with transaction := { s.transaction with
      stats := { s.transaction.stats with candidates := s.transaction.stats.candidates + 1 } } }

def admit_compile : Action World Program SourceMap Unit := do
  let s ← current
  if s.transaction.limits.max_compiles ≤ s.transaction.stats.compiles then
    stop .budgetExhausted
  else
    update fun s => { s with transaction := { s.transaction with
      stats := { s.transaction.stats with compiles := s.transaction.stats.compiles + 1 } } }

def compile_status : HLSLLiftStatus → Action World Program SourceMap Unit
  | .verified => pure ()
  | .emissionRejected => fail .emissionRejected
  | .compilerRejected => fail .compilerRejected
  | .compilerUnavailable => fail .compilerUnavailable
  | .invalidDxbc => fail .invalidDxbc
  | .outOfMemory => fail .outOfMemory
  | .cancelled => stop .cancelled
  | .budgetExhausted => stop .budgetExhausted
  | _ => fail .invalidArgument

def comparison_status : DXBCCompareStatus → HLSLLiftStatus
  | .equal => .verified
  | .expectedInvalid => .invalidDxbc
  | .actualInvalid => .invalidDxbc
  | .invalidArgument => .invalidDxbc
  | _ => .dxbcMismatch

def AuthorityMismatch (accepted artifact : HLSLLiftArtifact SourceMap) : Prop :=
  (services.require_request_identity = true ∨ artifact.has_request_identity = true) ∧
      artifact_request_identity_valid artifact = false ∨
    accepted.has_request_identity = true ∧
      (artifact.has_request_identity = false ∨ accepted.controls_digest ≠ artifact.controls_digest)

instance (accepted artifact : HLSLLiftArtifact SourceMap) :
    Decidable (AuthorityMismatch services accepted artifact) := by
  unfold AuthorityMismatch
  infer_instance

/-- `compile` is the service of the program's form; `high_level` says which of the two it is. -/
def verify_program
    (compile : Program → ℕ → World → (HLSLLiftStatus × HLSLLiftArtifact SourceMap) × World)
    (program : Program) (high_level : Bool) :
    Action World Program SourceMap (HLSLLiftArtifact SourceMap) := do
  work_status services
  admit_compile
  let s ← current
  let (status, artifact) ← outside
    (compile program (s.transaction.limits.max_elapsed_ms - s.transaction.stats.elapsed_ms))
  update fun s => { s with
    result := observe_artifact callees artifact s.result
    transaction := { s.transaction with stats := { s.transaction.stats with
      cache_hits := s.transaction.stats.cache_hits + artifact.cache_hit.toNat } } }
  work_status services
  compile_status status
  match artifact.source with
  | none => fail .emissionRejected
  | some source => do
    failWhen (source.bytes = []) .emissionRejected
    failWhen (high_level = true ∧ (services.require_expression_source_map = true ∨
          artifact.expression_source_map.isSome = true) ∧
        callees.hlsl_expression_source_map_matches artifact.expression_source_map program source =
          false) .provenanceMismatch
    failWhen (AuthorityMismatch services s.transaction.accepted artifact) .authorityMismatch
    let comparison := dxbc_compare_exact callees.rt s.transaction.target artifact.dxbc
    update fun s => { s with result := { s.result with compared := true, comparison } }
    work_status services
    failWhen (comparison_status comparison.status ≠ .verified) (comparison_status comparison.status)
    pure artifact

/-! ## Operations -/

variable (transaction : HLSLLiftTransaction Program SourceMap)

def record_step (identifier : String) (version : ℕ) (instruction : ℤ)
    (copy : Option (HLSLCopyLift Program)) (result : HLSLLiftResult) : HLSLLiftStep :=
  let producer := (copy.map HLSLCopyLift.producer_instruction).getD (-1)
  { identifier
    version
    instruction_index := instruction
    source_instruction_index :=
      if instruction < 0 then 0
      else callees.source_instruction_index transaction.program instruction
    producer_instruction_index := producer
    producer_source_instruction_index :=
      if producer < 0 then 0 else callees.source_instruction_index transaction.program producer
    edits := (copy.map HLSLCopyLift.edits).getD []
    before := transaction.accepted_result
    after := result }

def accept_copy (instruction : ℤ) (forward_result : Bool) (copy : HLSLCopyLift Program)
    (artifact : HLSLLiftArtifact SourceMap) (result : HLSLLiftResult)
    (transaction : HLSLLiftTransaction Program SourceMap) : HLSLLiftTransaction Program SourceMap :=
  let step := record_step callees transaction
    (if forward_result then HLSL_RESULT_LIFT_ID else HLSL_COPY_LIFT_ID)
    (if forward_result then HLSL_RESULT_LIFT_VERSION else HLSL_COPY_LIFT_VERSION)
    instruction (some copy) result
  { transaction with
    accepted_result := result
    copies := ⟨copy, step⟩ :: transaction.copies
    program := copy.program
    accepted := artifact
    stats := { transaction.stats with accepted := transaction.stats.accepted + 1 } }

def try_lift (instruction : ℤ) (forward_result : Bool) : Action World Program SourceMap Unit := do
  let s ← current
  failWhen (s.transaction.high_level = true) .compositionUnsupported
  work_status services
  admit_candidate
  let create := if forward_result then callees.hlsl_result_lift_create
    else callees.hlsl_copy_lift_create
  let candidate ← outside (create s.transaction.program instruction)
  match candidate with
  | .error precondition => do
    update fun s => { s with result := { s.result with precondition } }
    work_status services
    fail (if precondition = .outOfMemory then .outOfMemory else .preconditionRejected)
  | .ok copy => do
    update fun s => { s with result := { s.result with precondition := .ok } }
    work_status services
    let node ← outside callees.calloc
    failWhen (node = false) .outOfMemory
    let artifact ← verify_program services callees services.compile copy.program false
    update fun s =>
      let result := { s.result with status := .verified }
      { s with
        result := result
        transaction :=
          accept_copy callees instruction forward_result copy artifact result s.transaction }

def accept_high_level (artifact : HLSLLiftArtifact SourceMap) (result : HLSLLiftResult)
    (transaction : HLSLLiftTransaction Program SourceMap) : HLSLLiftTransaction Program SourceMap :=
  let unity_uv := (artifact.expression_source_map.map callees.is_unity_uv).getD false
  let step := record_step callees transaction
    (if unity_uv then HLSL_UNITY_UV_LIFT_ID else HLSL_HIGH_LEVEL_LIFT_ID)
    (if unity_uv then HLSL_UNITY_UV_LIFT_VERSION else HLSL_HIGH_LEVEL_LIFT_VERSION)
    (-1) none result
  { transaction with
    accepted_result := result
    high_level_step := some step
    accepted := artifact
    high_level := true
    stats := { transaction.stats with accepted := transaction.stats.accepted + 1 } }

def try_high_level : Action World Program SourceMap Unit :=
  match services.compile_high_level with
  | none => fail .invalidArgument
  | some compile_high_level => do
    let s ← current
    failWhen (s.transaction.high_level = true) .compositionUnsupported
    work_status services
    admit_candidate
    let artifact ← verify_program services callees compile_high_level s.transaction.program true
    update fun s =>
      let result := { s.result with status := .verified }
      { s with
        result := result
        transaction := accept_high_level callees artifact result s.transaction }

/-- A call from its entry to its return: the caller's record starts empty and ends with the status
that the call returns. -/
def complete (action : Action World Program SourceMap Unit)
    (transaction : HLSLLiftTransaction Program SourceMap) (world : World) :
    HLSLLiftResult × HLSLLiftTransaction Program SourceMap × World :=
  match action ⟨world, transaction, result_init⟩ with
  | (.ok _, s) => ({ s.result with status := .verified }, s.transaction, s.world)
  | (.error status, s) => ({ s.result with status }, s.transaction, s.world)

def hlsl_lift_transaction_try_copy (instruction : ℤ) (world : World) :
    HLSLLiftResult × HLSLLiftTransaction Program SourceMap × World :=
  complete (try_lift services callees instruction false) transaction world

def hlsl_lift_transaction_try_result (instruction : ℤ) (world : World) :
    HLSLLiftResult × HLSLLiftTransaction Program SourceMap × World :=
  complete (try_lift services callees instruction true) transaction world

def hlsl_lift_transaction_try_high_level (world : World) :
    HLSLLiftResult × HLSLLiftTransaction Program SourceMap × World :=
  complete (try_high_level services callees) transaction world

def new_transaction (baseline : Program) (target : CArray UInt8) (limits : HLSLLiftLimits)
    (control : HLSLLiftControl) : HLSLLiftTransaction Program SourceMap where
  program := baseline
  target := target
  limits := limits
  stats := ⟨0, 0, 0, 0, 0⟩
  accepted := ⟨none, .null, false, false, .replicate _ 0, .replicate _ 0, none⟩
  accepted_result := result_init
  high_level_step := none
  copies := []
  control := control
  high_level := false

/-- The artifact of the baseline is compiled into the accepted slot. The check of the accepted
controls then compares the artifact with itself, which is the same as comparing it with the empty
artifact of a new transaction: neither finds a difference. -/
def hlsl_lift_transaction_begin (baseline : Program) (target : CArray UInt8)
    (limits : HLSLLiftLimits) (world : World) :
    Option (HLSLLiftTransaction Program SourceMap) × HLSLLiftResult × World :=
  let comparison := dxbc_compare_exact callees.rt target target
  let reject (status : HLSLLiftStatus) (world : World) :
      Option (HLSLLiftTransaction Program SourceMap) × HLSLLiftResult × World :=
    (none, { result_init with comparison, status }, world)
  if target.values = none ∨ target.count = 0 then (none, result_init, world)
  else if comparison.status ≠ .equal then reject .invalidDxbc world
  else
    match callees.calloc world with
    | (false, world) => reject .outOfMemory world
    | (true, world) =>
      match hlsl_lift_control_begin services limits.max_elapsed_ms world with
      | (control, world) =>
        if control.status ≠ .verified then reject control.status world
        else
          match callees.calloc world with
          | (false, world) => reject .outOfMemory world
          | (true, world) =>
            match verify_program services callees services.compile baseline false
                ⟨world, new_transaction baseline target limits control,
                  { result_init with comparison }⟩ with
            | (.error status, s) => (none, { s.result with status }, s.world)
            | (.ok artifact, s) =>
              let result := { s.result with status := .verified }
              (some { s.transaction with
                accepted := artifact
                accepted_result := result }, result, s.world)

end

/-! ## The journal -/

section

variable {Program SourceMap : Type}

def hlsl_lift_transaction_step_count (transaction : HLSLLiftTransaction Program SourceMap) : ℕ :=
  transaction.stats.accepted

/-- `for (; remaining; --remaining) copy = copy->previous;` -/
def previous : ℕ → List (AcceptedCopy Program) → List (AcceptedCopy Program)
  | 0, copies => copies
  | remaining + 1, copies => previous remaining copies.tail

def hlsl_lift_transaction_step (transaction : HLSLLiftTransaction Program SourceMap) (index : ℕ) :
    Option HLSLLiftStep :=
  if transaction.stats.accepted ≤ index then none
  else
    let copies := transaction.stats.accepted - transaction.high_level.toNat
    if index = copies then transaction.high_level_step
    else (previous (copies - index - 1) transaction.copies).head?.map AcceptedCopy.step

end

end DXBCSandbox.Lift
