/-
The journal of a lift transaction is a chain.

Everything but the acceptance of a candidate leaves the accepted program, artifact and journal
alone, so a call either changes nothing of them or appends one step. The steps of the journal are
then the accepted calls in their order, and what one step calls its `after` the next calls its
`before`.
-/
import DXBCSandbox.Dxbc.CompareSpec
import DXBCSandbox.Hlsl.LiftTransaction

namespace DXBCSandbox

open List Option

namespace Lift

open Fallible

variable {World Program SourceMap : Type}

structure Ledger (Program SourceMap : Type) where
  program : Program
  count : ℕ
  accepted : HLSLLiftArtifact SourceMap
  accepted_result : HLSLLiftResult
  high_level_step : Option HLSLLiftStep
  copies : List (AcceptedCopy Program)
  high_level : Bool

def ledger (transaction : HLSLLiftTransaction Program SourceMap) : Ledger Program SourceMap where
  program := transaction.program
  count := transaction.stats.accepted
  accepted := transaction.accepted
  accepted_result := transaction.accepted_result
  high_level_step := transaction.high_level_step
  copies := transaction.copies
  high_level := transaction.high_level

def CallState.ledger (s : CallState World Program SourceMap) : Ledger Program SourceMap :=
  Lift.ledger s.transaction

/-- The result was recorded from the artifact. -/
structure Describes (callees : Callees World Program SourceMap) (result : HLSLLiftResult)
    (artifact : HLSLLiftArtifact SourceMap) : Prop where
  source : ∃ source, artifact.source = some source ∧
    result.source_sha256 = hash_hex callees source.bytes
  output : ∃ bytes, artifact.dxbc.values = some bytes ∧ (bytes ≠ [] →
    result.output_sha256 = hash_hex callees bytes)
  request : artifact.has_request_identity = true →
    result.request_sha256 = callees.digest_to_hex artifact.request_digest ∧
      result.controls_sha256 = callees.digest_to_hex artifact.controls_digest
  cache_hit : result.cache_hit = artifact.cache_hit

variable {transaction' : HLSLLiftTransaction Program SourceMap} {forward_result : Bool}
    {instruction : ℤ} {program : Program}

section

variable {services : HLSLLiftServices World Program SourceMap}
  {callees : Callees World Program SourceMap}

/-! ## Counted calls -/

/-- A count of calls that the world keeps, with what it counts at most for a candidate and for a
compile. -/
structure CallCount (World : Type) where
  calls : World → ℕ
  candidate : ℕ
  compile : ℕ

/-- A planned rewrite is a candidate, and so is the compile of the high-level form. -/
structure CallCount.Counts (count : CallCount World)
    (services : HLSLLiftServices World Program SourceMap)
    (callees : Callees World Program SourceMap) : Prop where
  plan : ∀ (forward_result : Bool) program instruction world,
    count.calls ((if forward_result then callees.hlsl_result_lift_create
      else callees.hlsl_copy_lift_create) program instruction world).2 ≤
        count.calls world + count.candidate
  compile : ∀ program ms world,
    count.calls (services.compile program ms world).2 ≤ count.calls world + count.compile
  compile_high_level : ∀ f ∈ services.compile_high_level, ∀ program ms world,
    count.calls (f program ms world).2 ≤ count.calls world + (count.candidate + count.compile)
  monotonic_ms : ∀ world, count.calls (services.monotonic_ms world).2 ≤ count.calls world
  cancelled : ∀ f ∈ services.cancelled, ∀ world, count.calls (f world).2 ≤ count.calls world
  calloc : ∀ world, count.calls (callees.calloc world).2 ≤ count.calls world

/-- What may be admitted of the calls from where their count is `base`. -/
structure Bill (World : Type) extends CallCount World where
  max_candidates : ℕ
  max_compiles : ℕ
  base : ℕ

/-- What has been admitted keeps to the bill, and covers the calls so far and those still due. -/
structure Bill.Covers (bill : Bill World) (due : ℕ) (limits : HLSLLiftLimits)
    (candidates compiles : ℕ) (world : World) : Prop where
  max_candidates : limits.max_candidates ≤ bill.max_candidates
  max_compiles : limits.max_compiles ≤ bill.max_compiles
  candidates_le : candidates ≤ bill.max_candidates
  compiles_le : compiles ≤ bill.max_compiles
  calls : bill.calls world + due ≤
    bill.base + candidates * bill.candidate + compiles * bill.compile

/-- The transaction at a point of the world keeps to the bill. -/
def Bill.Paid (bill : Bill World) (due : ℕ) (world : World)
    (transaction : HLSLLiftTransaction Program SourceMap) : Prop :=
  bill.Covers due transaction.limits transaction.stats.candidates transaction.stats.compiles world

variable {bill : Bill World} {due : ℕ}

lemma calls_control_check (hcount : bill.Counts services callees) (control : HLSLLiftControl)
    (world : World) :
    bill.calls (hlsl_lift_control_check services control world).2 ≤ bill.calls world := by
  have hcancelled : bill.calls (is_cancelled services world).2 ≤ bill.calls world := by
    unfold is_cancelled
    cases hservice : services.cancelled with
    | none => exact Nat.le_refl _
    | some cancelled => exact hcount.cancelled cancelled hservice world
  unfold hlsl_lift_control_check
  split
  · exact Nat.le_refl _
  · rcases hasked : is_cancelled services world with ⟨_ | _, world₁⟩ <;> rw [hasked] at hcancelled
    · have hclock := (hcount.monotonic_ms world₁).trans hcancelled
      dsimp only
      rcases hread : services.monotonic_ms world₁ with ⟨_ | now, world₂⟩ <;> rw [hread] at hclock
      · exact hclock
      · dsimp only
        split_ifs <;> exact hclock
    · exact hcancelled

/-! ## What a call leaves alone -/

/-- A call has accepted nothing so far, the record of it satisfies `R`, and its calls are paid. -/
structure Kept (bill : Bill World) (due : ℕ) (start : HLSLLiftTransaction Program SourceMap)
    (R : HLSLLiftResult → Prop) (s : CallState World Program SourceMap) : Prop where
  target : s.transaction.target = start.target
  ledger : s.ledger = ledger start
  result : R s.result
  paid : bill.Paid due s.world s.transaction

def Refused (bill : Bill World) (start : HLSLLiftTransaction Program SourceMap)
    (status : HLSLLiftStatus) (s : CallState World Program SourceMap) : Prop :=
  status ≠ .verified ∧ Kept bill 0 start (fun _ => True) s

variable {start : HLSLLiftTransaction Program SourceMap} {R R' : HLSLLiftResult → Prop}
  {s : CallState World Program SourceMap} {α : Type}

lemma Kept.refused {status : HLSLLiftStatus} (h : Kept bill due start R s)
    (hne : status ≠ .verified) : Refused bill start status s :=
  ⟨hne, h.target, h.ledger, trivial,
    { h.paid with calls := (Nat.le_add_right _ _).trans h.paid.calls }⟩

/-- A view that does not see the record of a call may change it. -/
theorem Kept.with_result (h : Kept bill due start R s) {result : HLSLLiftResult}
    (hresult : R' result) : Kept bill due start R' { s with result } :=
  ⟨h.target, h.ledger, hresult, h.paid⟩

/-- What is due pays for a call outside. -/
theorem ensures_outside {f : World → α × World} (rest : ℕ)
    (hf : ∀ world, bill.calls (f world).2 + rest ≤ bill.calls world + due) :
    Ensures (Kept bill due start R : CallState World Program SourceMap → Prop) (outside f)
      (fun _ => Kept bill rest start R) (Refused bill start) :=
  fun s h => ⟨h.target, h.ledger, h.result,
    { h.paid with calls := (hf s.world).trans h.paid.calls }⟩

lemma ensures_work_status (hcount : bill.Counts services callees) :
    Ensures (Kept bill due start R) (work_status services) (fun _ => Kept bill due start R)
      (Refused bill start) := by
  apply Ensures.current
  intro s _
  apply (ensures_outside due fun world =>
    Nat.add_le_add_right (calls_control_check hcount s.transaction.control world) due).bind
  intro control
  apply Ensures.update (M := Kept bill due start R) fun _ h =>
    ⟨h.target, h.ledger, h.result, h.paid⟩
  exact ensures_failWhen (fun hne _ h => h.refused hne) fun _ _ h => h

lemma ensures_stop {Q : α → CallState World Program SourceMap → Prop} {status : HLSLLiftStatus}
    (hne : status ≠ .verified) :
    Ensures (Kept bill due start R) (stop status : Action World Program SourceMap α) Q
      (Refused bill start) :=
  fun s h => Kept.refused (s := { s with transaction := { s.transaction with
    control := { s.transaction.control with status } } }) ⟨h.target, h.ledger, h.result, h.paid⟩ hne

lemma ensures_admit_candidate :
    Ensures (Kept bill due start R : CallState World Program SourceMap → Prop) admit_candidate
      (fun _ => Kept bill (due + bill.candidate) start R) (Refused bill start) := by
  apply Ensures.current_eq
  intro s h
  split
  · rintro _ rfl
    exact ensures_stop (Q := fun (_ : Unit) _ => False) (by decide) _ h
  next hmax =>
    rintro _ rfl
    refine ⟨h.target, h.ledger, h.result, { h.paid with
      candidates_le := (Nat.not_le.mp hmax).trans_le h.paid.max_candidates, calls := ?_ }⟩
    have hcalls := h.paid.calls
    dsimp only
    rw [Nat.succ_mul]
    omega

lemma ensures_admit_compile :
    Ensures (Kept bill due start R : CallState World Program SourceMap → Prop) admit_compile
      (fun _ => Kept bill (due + bill.compile) start R) (Refused bill start) := by
  apply Ensures.current_eq
  intro s h
  split
  · rintro _ rfl
    exact ensures_stop (Q := fun (_ : Unit) _ => False) (by decide) _ h
  next hmax =>
    rintro _ rfl
    refine ⟨h.target, h.ledger, h.result, { h.paid with
      compiles_le := (Nat.not_le.mp hmax).trans_le h.paid.max_compiles, calls := ?_ }⟩
    have hcalls := h.paid.calls
    dsimp only
    rw [Nat.succ_mul]
    omega

lemma ensures_compile_status (status : HLSLLiftStatus) :
    Ensures (Kept bill due start R : CallState World Program SourceMap → Prop)
      (compile_status status) (fun _ => Kept bill due start R) (Refused bill start) := by
  cases status with
  | verified => exact fun _ h => h
  | cancelled => exact ensures_stop (by decide)
  | budgetExhausted => exact ensures_stop (by decide)
  | _ => exact fun _ h => h.refused (by decide)

/-- Two containers that compare as equal are one. -/
theorem values_of_equal {rt : UnityCommon} {expected actual : CArray UInt8}
    (h : comparison_status (dxbc_compare_exact rt expected actual).status = .verified) :
    ∃ bytes, expected.values = some bytes ∧ actual.values = some bytes := by
  have hequal : (dxbc_compare_exact rt expected actual).status = .equal := by
    cases hstatus : (dxbc_compare_exact rt expected actual).status with
    | equal => rfl
    | _ =>
      rw [hstatus] at h
      cases h
  clear h
  unfold dxbc_compare_exact at hequal
  split at hequal
  next data data' hexp hact =>
    rcases he : dxbc_document_parse rt dxbc_document_init (some data) with ⟨_ | _, e, d⟩ <;>
      rw [he] at hequal
    · cases hequal
    rcases ha : dxbc_document_parse rt dxbc_document_init (some data') with ⟨_ | _, a, d'⟩ <;>
      rw [ha] at hequal
    · cases hequal
    by_cases hdata : data = data'
    · exact ⟨data, hexp, hdata ▸ hact⟩
    · have hreported := @reported_documents rt _ _ _ _ (accepted_of_parse he)
        (accepted_of_parse ha) hdata
      dsimp only at hequal
      rw [if_neg hdata] at hequal
      have hvalue := hreported.expected_eq
      rw [DXBCDocument.valueAt, show (compare_documents _ _ _ _ _).status = _ from hequal] at hvalue
      simp at hvalue
  next => cases hequal

variable {artifact : HLSLLiftArtifact SourceMap} {result : HLSLLiftResult}

/-- The fields of a result that describe an artifact do not depend on how it compared. -/
theorem describes_observe {source : CString} {bytes : Bytes}
    (hsrc : artifact.source = some source) (hbytes : artifact.dxbc.values = some bytes)
    (comparison : DXBCCompareResult) :
    Describes callees
      { observe_artifact callees artifact result with compared := true, comparison } artifact where
  source := by
    refine ⟨source, hsrc, ?_⟩
    simp only [observe_artifact, hsrc]
  output := by
    refine ⟨bytes, hbytes, fun hne => ?_⟩
    have hcnt : artifact.dxbc.count ≠ 0 := by
      rw [← artifact.dxbc.count_eq bytes hbytes]
      exact fun hlen => hne (eq_nil_of_length_eq_zero hlen)
    simp only [observe_artifact, hbytes, if_pos hcnt]
  request := by
    intro hident
    simp only [observe_artifact, hident, if_true, and_self]
  cache_hit := rfl

structure Verifies (bill : Bill World) (callees : Callees World Program SourceMap)
    (start : HLSLLiftTransaction Program SourceMap) (artifact : HLSLLiftArtifact SourceMap)
    (s : CallState World Program SourceMap) : Prop where
  kept : Kept bill 0 start (Describes callees · artifact) s
  target : artifact.dxbc.values = start.target.values

variable (hcount : bill.Counts services callees)

variable (due) in
include hcount in
/-- **A verified artifact is the target, and the record of it describes it.** Its compile is paid
by what was due before and by what the verification admits. -/
theorem ensures_verify_program
    {compile : Program → ℕ → World → (HLSLLiftStatus × HLSLLiftArtifact SourceMap) × World}
    (hcompile : ∀ program ms world, bill.calls (compile program ms world).2 ≤
      bill.calls world + (due + bill.compile)) (program : Program) (high_level : Bool) :
    Ensures (Kept bill due start R) (verify_program services callees compile program high_level)
      (Verifies bill callees start) (Refused bill start) := by
  apply (ensures_work_status hcount).bind
  intro _
  apply ensures_admit_compile.bind
  intro _
  apply Ensures.current
  intro s hs
  apply (ensures_outside 0 (hcompile program _)).bind
  rintro ⟨status, artifact⟩
  apply Ensures.update (M := Kept bill 0 start fun result => ∃ r, result =
    observe_artifact callees artifact r) fun _ h => ⟨h.target, h.ledger, ⟨_, rfl⟩, h.paid⟩
  apply (ensures_work_status hcount).bind
  intro _
  apply (ensures_compile_status _).bind
  intro _
  cases hsrc : artifact.source with
  | none => exact fun _ h => h.refused (by decide)
  | some source =>
    apply Ensures.failWhen fun _ _ h => h.refused (by decide)
    intro _
    apply Ensures.failWhen fun _ _ h => h.refused (by decide)
    intro _
    apply Ensures.failWhen fun _ _ h => h.refused (by decide)
    intro _
    apply Ensures.update (M := Kept bill 0 start fun result => ∃ r comparison, result =
      { observe_artifact callees artifact r with compared := true, comparison }) fun _ h =>
        h.with_result (h.result.imp fun _ hr => ⟨_, by rw [hr]⟩)
    apply (ensures_work_status hcount).bind
    intro _
    apply Ensures.failWhen fun hne _ h => h.refused hne
    intro hequal t h
    obtain ⟨bytes, htarget, hbytes⟩ := values_of_equal (Decidable.of_not_not hequal)
    rw [hs.target] at htarget
    refine ⟨h.with_result ?_, hbytes.trans htarget.symm⟩
    obtain ⟨r, comparison, hr⟩ := h.result
    rw [hr]
    exact describes_observe hsrc hbytes _

/-- What acceptance makes of a ledger, for any kind of step. -/
structure Accepts (callees : Callees World Program SourceMap) (result : HLSLLiftResult)
    (old new : Ledger Program SourceMap) : Prop where
  was_open : old.high_level = false
  count : new.count = old.count + 1
  accepted_result : new.accepted_result = result
  describes : Describes callees result new.accepted

structure AcceptsCopy (callees : Callees World Program SourceMap) (instruction : ℤ)
    (forward_result : Bool) (result : HLSLLiftResult) (old new : Ledger Program SourceMap) : Prop
    extends Accepts callees result old new where
  high_level : new.high_level = false
  high_level_step : new.high_level_step = old.high_level_step
  copies : ∃ copy step, new.copies = ⟨copy, step⟩ :: old.copies ∧
    step.identifier = (if forward_result then HLSL_RESULT_LIFT_ID else HLSL_COPY_LIFT_ID) ∧
    step.instruction_index = instruction ∧ step.before = old.accepted_result ∧ step.after = result

structure AcceptsHighLevel (callees : Callees World Program SourceMap) (result : HLSLLiftResult)
    (old new : Ledger Program SourceMap) : Prop extends Accepts callees result old new where
  high_level : new.high_level = true
  copies : new.copies = old.copies
  high_level_step : ∃ step, new.high_level_step = some step ∧
    (step.identifier = HLSL_HIGH_LEVEL_LIFT_ID ∨ step.identifier = HLSL_UNITY_UV_LIFT_ID) ∧
    step.instruction_index = -1 ∧ step.before = old.accepted_result ∧ step.after = result

variable {transaction : HLSLLiftTransaction Program SourceMap}

lemma acceptsCopy_accept_copy {copy : HLSLCopyLift Program}
    (hopen : transaction.high_level = false) (hdesc : Describes callees result artifact) :
    AcceptsCopy callees instruction forward_result result (ledger transaction)
      (ledger (accept_copy callees instruction forward_result copy artifact result transaction)) :=
  ⟨⟨hopen, rfl, rfl, hdesc⟩, hopen, rfl, copy, _, rfl, rfl, rfl, rfl, rfl⟩

lemma acceptsHighLevel_accept_high_level (hopen : transaction.high_level = false)
    (hdesc : Describes callees result artifact) :
    AcceptsHighLevel callees result (ledger transaction)
      (ledger (accept_high_level callees artifact result transaction)) := by
  refine ⟨⟨hopen, rfl, rfl, hdesc⟩, rfl, rfl, _, rfl, ?_, rfl, rfl, rfl⟩
  show (if _ then HLSL_UNITY_UV_LIFT_ID else HLSL_HIGH_LEVEL_LIFT_ID) = _ ∨ _
  split
  · exact Or.inr rfl
  · exact Or.inl rfl

lemma Describes.with_status (h : Describes callees result artifact) (status : HLSLLiftStatus) :
    Describes callees { result with status } artifact :=
  ⟨h.source, h.output, h.request, h.cache_hit⟩

/-- A call that accepts has accepted the target, and paid for it. -/
structure Ends (bill : Bill World) (start : HLSLLiftTransaction Program SourceMap) (world : World)
    (transaction : HLSLLiftTransaction Program SourceMap) : Prop where
  target : transaction.target = start.target
  accepted : transaction.accepted.dxbc.values = start.target.values
  paid : bill.Paid 0 world transaction

include hcount

/-- **A call of a rewrite** is refused, or it appends its step. -/
theorem ensures_try_lift (instruction : ℤ) (forward_result : Bool) :
    Ensures (Kept bill 0 start R) (try_lift services callees instruction forward_result)
      (fun _ t => AcceptsCopy callees instruction forward_result
          { t.result with status := .verified } (ledger start) t.ledger ∧
        Ends bill start t.world t.transaction)
      (Refused bill start) := by
  apply Ensures.current
  intro s hs
  apply Ensures.failWhen fun _ _ h => h.refused (by decide)
  intro hopen
  have hclosed : start.high_level = false :=
    (congrArg Ledger.high_level hs.ledger).symm.trans (Bool.eq_false_iff.mpr hopen)
  apply (ensures_work_status hcount).bind
  intro _
  apply ensures_admit_candidate.bind
  intro _
  apply (ensures_outside 0 fun world => (hcount.plan forward_result _ _ world).trans_eq
    (congrArg _ (Nat.zero_add _).symm)).bind
  rintro (precondition | copy)
  · apply Ensures.update (M := Kept bill 0 start fun _ => True) fun _ h => h.with_result trivial
    apply (ensures_work_status hcount).bind
    intro _
    exact fun _ h => h.refused (by split <;> decide)
  · apply Ensures.update (M := Kept bill 0 start fun _ => True) fun _ h => h.with_result trivial
    apply (ensures_work_status hcount).bind
    intro _
    apply (ensures_outside 0 hcount.calloc).bind
    intro node
    apply Ensures.failWhen fun _ _ h => h.refused (by decide)
    intro _
    apply (ensures_verify_program 0 hcount (fun program ms world => (hcount.compile program
      ms world).trans_eq (congrArg _ (Nat.zero_add _).symm)) _ _).bind
    intro artifact t h
    have hledger : ledger t.transaction = ledger start := h.kept.ledger
    refine ⟨?_, h.kept.target, h.target, h.kept.paid⟩
    rw [← hledger]
    exact acceptsCopy_accept_copy ((congrArg Ledger.high_level hledger).trans hclosed)
      (h.kept.result.with_status .verified)

lemma ensures_try_high_level : Ensures (Kept bill 0 start R) (try_high_level services callees)
      (fun _ t => AcceptsHighLevel callees { t.result with status := .verified } (ledger start)
          t.ledger ∧ Ends bill start t.world t.transaction)
      (Refused bill start) := by
  unfold try_high_level
  split
  · exact fun _ h => h.refused (by decide)
  next compile_high_level hservice =>
    apply Ensures.current
    intro s hs
    apply Ensures.failWhen fun _ _ h => h.refused (by decide)
    intro hopen
    have hclosed : start.high_level = false :=
      (congrArg Ledger.high_level hs.ledger).symm.trans (Bool.eq_false_iff.mpr hopen)
    apply (ensures_work_status hcount).bind
    intro _
    apply ensures_admit_candidate.bind
    intro _
    apply (ensures_verify_program (0 + bill.candidate) hcount (fun program ms world =>
      (hcount.compile_high_level _ hservice program ms world).trans_eq (by rw [Nat.zero_add]))
      _ _).bind
    intro artifact t h
    have hledger : ledger t.transaction = ledger start := h.kept.ledger
    refine ⟨?_, h.kept.target, h.target, h.kept.paid⟩
    rw [← hledger]
    exact acceptsHighLevel_accept_high_level ((congrArg Ledger.high_level hledger).trans hclosed)
      (h.kept.result.with_status .verified)

omit hcount

/-- A call is refused, or it returns what its action does. -/
theorem complete_cases {action : Action World Program SourceMap Unit}
    {P : HLSLLiftResult → Ledger Program SourceMap → Prop}
    (haction : Ensures (Kept bill 0 transaction fun _ => True) action
      (fun _ t => P { t.result with status := .verified } t.ledger ∧
        Ends bill transaction t.world t.transaction) (Refused bill transaction))
    {world world' : World} (hpaid : bill.Paid 0 world transaction)
    (h : complete action transaction world = (result, transaction', world')) :
    result.status ≠ .verified ∧ Kept bill 0 transaction (fun _ => True)
        ⟨world', transaction', result⟩ ∨
      result.status = .verified ∧ P result (ledger transaction') ∧
        Ends bill transaction world' transaction' := by
  have hend := haction ⟨world, transaction, result_init⟩ ⟨rfl, rfl, trivial, hpaid⟩
  unfold complete at h
  rcases hrun : action ⟨world, transaction, result_init⟩ with ⟨status | _, s⟩ <;>
    rw [hrun] at h hend <;> cases h
  · exact .inl ⟨hend.1, hend.2.with_result trivial⟩
  · exact .inr ⟨rfl, hend⟩

/-! ## Runs of operations -/

inductive LiftOperation where
  | try_copy (instruction : ℤ)
  | try_result (instruction : ℤ)
  | try_high_level
  deriving DecidableEq

end

section

variable (services : HLSLLiftServices World Program SourceMap)
  (callees : Callees World Program SourceMap)

def perform (transaction : HLSLLiftTransaction Program SourceMap) (world : World) :
    LiftOperation → HLSLLiftResult × HLSLLiftTransaction Program SourceMap × World
  | .try_copy instruction =>
    hlsl_lift_transaction_try_copy services callees transaction instruction world
  | .try_result instruction =>
    hlsl_lift_transaction_try_result services callees transaction instruction world
  | .try_high_level => hlsl_lift_transaction_try_high_level services callees transaction world

/-- A call, the record it gave its caller, and the artifact that was accepted after it. -/
structure Outcome (SourceMap : Type) where
  operation : LiftOperation
  result : HLSLLiftResult
  artifact : HLSLLiftArtifact SourceMap

def Outcome.isAccepted (outcome : Outcome SourceMap) : Bool := outcome.result.status = .verified

def performAll (transaction : HLSLLiftTransaction Program SourceMap) (world : World) :
    List LiftOperation → List (Outcome SourceMap) × HLSLLiftTransaction Program SourceMap × World
  | [] => ([], transaction, world)
  | operation :: operations =>
    match perform services callees transaction world operation with
    | (result, transaction, world) =>
      match performAll transaction world operations with
      | (outcomes, transaction', world') =>
        (⟨operation, result, transaction.accepted⟩ :: outcomes, transaction', world')

variable {services callees} in
lemma performAll_cons {transaction transaction' : HLSLLiftTransaction Program SourceMap}
    {world world' : World} {operation : LiftOperation} {operations : List LiftOperation}
    {outcomes : List (Outcome SourceMap)}
    (hrun : performAll services callees transaction world (operation :: operations) =
      (outcomes, transaction', world')) :
    ∃ result next world₁ rest,
      perform services callees transaction world operation = (result, next, world₁) ∧
        performAll services callees next world₁ operations = (rest, transaction', world') ∧
        ⟨operation, result, next.accepted⟩ :: rest = outcomes := by
  rcases hstep : perform services callees transaction world operation with ⟨result, next, world₁⟩
  rcases hrest : performAll services callees next world₁ operations with ⟨rest, last, world₂⟩
  simp only [performAll, hstep, hrest, Prod.mk.injEq] at hrun
  obtain ⟨houtcomes, rfl, rfl⟩ := hrun
  exact ⟨result, next, world₁, rest, rfl, hrest, houtcomes⟩

end

/-- A ledger after an operation that was accepted. -/
def LiftOperation.Accepts (callees : Callees World Program SourceMap) (result : HLSLLiftResult)
    (old new : Ledger Program SourceMap) : LiftOperation → Prop
  | .try_copy instruction => AcceptsCopy callees instruction false result old new
  | .try_result instruction => AcceptsCopy callees instruction true result old new
  | .try_high_level => AcceptsHighLevel callees result old new

/-- **One call**: it is refused and leaves what was accepted as it was, or it accepts the target. -/
theorem perform_cases {services : HLSLLiftServices World Program SourceMap}
    {callees : Callees World Program SourceMap} {bill : Bill World}
    {transaction : HLSLLiftTransaction Program SourceMap} {operation : LiftOperation}
    {result : HLSLLiftResult} {world world' : World} (hcount : bill.Counts services callees)
    (hpaid : bill.Paid 0 world transaction)
    (hrun : perform services callees transaction world operation = (result, transaction', world')) :
    result.status ≠ .verified ∧ Kept bill 0 transaction (fun _ => True)
        ⟨world', transaction', result⟩ ∨
      result.status = .verified ∧
        operation.Accepts callees result (ledger transaction) (ledger transaction') ∧
        Ends bill transaction world' transaction' := by
  cases operation with
  | try_copy instruction =>
    exact complete_cases (P := (AcceptsCopy callees instruction false · (ledger transaction) ·))
      (ensures_try_lift hcount instruction false) hpaid hrun
  | try_result instruction =>
    exact complete_cases (P := (AcceptsCopy callees instruction true · (ledger transaction) ·))
      (ensures_try_lift hcount instruction true) hpaid hrun
  | try_high_level =>
    exact complete_cases (P := (AcceptsHighLevel callees · (ledger transaction) ·))
      (ensures_try_high_level hcount) hpaid hrun

/-- A bill on which nothing is counted. -/
def Bill.free (max_candidates max_compiles : ℕ) : Bill World :=
  ⟨⟨fun _ => 0, 0, 0⟩, max_candidates, max_compiles, 0⟩

lemma Bill.free_counts {services : HLSLLiftServices World Program SourceMap}
    {callees : Callees World Program SourceMap} (max_candidates max_compiles : ℕ) :
    (Bill.free max_candidates max_compiles).Counts services callees :=
  ⟨fun _ _ _ _ => Nat.le_refl 0, fun _ _ _ => Nat.le_refl 0, fun _ _ _ _ _ => Nat.le_refl 0,
    fun _ => Nat.le_refl 0, fun _ _ _ => Nat.le_refl 0, fun _ => Nat.le_refl 0⟩

lemma Bill.free_paid (world : World) (transaction : HLSLLiftTransaction Program SourceMap) :
    (Bill.free (max transaction.limits.max_candidates transaction.stats.candidates)
      (max transaction.limits.max_compiles transaction.stats.compiles)).Paid 0 world transaction :=
  ⟨Nat.le_max_left _ _, Nat.le_max_left _ _, Nat.le_max_right _ _, Nat.le_max_right _ _,
    Nat.zero_le _⟩

def LiftOperation.Names (step : HLSLLiftStep) : LiftOperation → Prop
  | .try_copy instruction =>
    step.identifier = HLSL_COPY_LIFT_ID ∧ step.instruction_index = instruction
  | .try_result instruction =>
    step.identifier = HLSL_RESULT_LIFT_ID ∧ step.instruction_index = instruction
  | .try_high_level =>
    (step.identifier = HLSL_HIGH_LEVEL_LIFT_ID ∨ step.identifier = HLSL_UNITY_UV_LIFT_ID) ∧
      step.instruction_index = -1

/-- The step that an accepted call left in the journal. -/
structure Records (outcome : Outcome SourceMap) (step : HLSLLiftStep) : Prop where
  names : outcome.operation.Names step
  after : step.after = outcome.result

/-- The steps in the order of their acceptance. -/
def Ledger.journal (l : Ledger Program SourceMap) : List HLSLLiftStep :=
  l.copies.reverse.map AcceptedCopy.step ++ l.high_level_step.toList

def Outcome.isRewrite (outcome : Outcome SourceMap) : Bool :=
  outcome.operation ≠ .try_high_level

/-- **The invariant of a transaction**: its journal records the accepted calls one by one, each
from where the one before it ended. -/
structure Journaled (callees : Callees World Program SourceMap) (baseline : HLSLLiftResult)
    (accepted : List (Outcome SourceMap)) (l : Ledger Program SourceMap) : Prop where
  count : l.count = l.journal.length
  high_level : l.high_level = l.high_level_step.isSome
  rewrites : (accepted.filter Outcome.isRewrite).length = l.copies.length
  records : List.Forall₂ Records accepted l.journal
  before : l.journal.map HLSLLiftStep.before =
    (baseline :: accepted.map Outcome.result).dropLast
  last : (baseline :: accepted.map Outcome.result).getLast? = some l.accepted_result
  described : ∀ outcome ∈ accepted, Describes callees outcome.result outcome.artifact
  current : Describes callees l.accepted_result l.accepted

section

variable {services : HLSLLiftServices World Program SourceMap}
  {callees : Callees World Program SourceMap} {baseline : HLSLLiftResult}
  {accepted : List (Outcome SourceMap)} {l l' : Ledger Program SourceMap}
  {result : HLSLLiftResult} {step : HLSLLiftStep} (h : Journaled callees baseline accepted l)

include h

variable {operation : LiftOperation}

lemma Journaled.concat (hacc : Accepts callees result l l')
    (hjour : l'.journal = l.journal ++ [step]) (hnames : operation.Names step)
    (hbefore : step.before = l.accepted_result) (hafter : step.after = result)
    (hhigh : l'.high_level = l'.high_level_step.isSome)
    (hrewrites : l'.copies.length = l.copies.length + (if operation = .try_high_level then 0
      else 1)) :
    Journaled callees baseline (accepted ++ [⟨operation, result, l'.accepted⟩]) l' where
  count := by
    rw [hacc.count, hjour, length_append, h.count]
    rfl
  high_level := hhigh
  rewrites := by
    rw [filter_append, length_append, h.rewrites, hrewrites]
    by_cases hkind : operation = .try_high_level
    · rw [if_pos hkind, hkind]
      rfl
    · rw [if_neg hkind, filter_cons_of_pos (by simpa [Outcome.isRewrite] using hkind)]
      rfl
  records := by
    rw [hjour]
    exact rel_append h.records (.cons ⟨hnames, hafter⟩ .nil)
  before := by
    have hchain : (baseline :: accepted.map Outcome.result).dropLast ++ [l.accepted_result] =
        baseline :: accepted.map Outcome.result := by
      rw [dropLast_append_getLast? l.accepted_result h.last]
    have hend : (baseline :: accepted.map Outcome.result ++ [result]).dropLast =
        baseline :: accepted.map Outcome.result := dropLast_concat
    rw [hjour, map_append, h.before, map_append, ← cons_append]
    show _ ++ [step.before] = (_ ++ [result]).dropLast
    rw [hbefore, hchain, hend]
  last := by
    rw [map_append, ← cons_append, hacc.accepted_result]
    exact List.getLast?_concat
  described := by
    intro outcome hmem
    rcases mem_append.mp hmem with hmem | hmem
    · exact h.described outcome hmem
    · rw [mem_singleton.mp hmem]
      exact hacc.describes
  current := by
    rw [hacc.accepted_result]
    exact hacc.describes

lemma Journaled.journal_of_open
    (hopen : l.high_level = false) : l.high_level_step = none := by
  rw [h.high_level] at hopen
  exact isSome_eq_false_iff.mp hopen |> isNone_iff_eq_none.mp

lemma Journaled.acceptsCopy (hacc : AcceptsCopy callees instruction forward_result result l l') :
    Journaled callees baseline (accepted ++ [⟨if forward_result then .try_result instruction
      else .try_copy instruction, result, l'.accepted⟩]) l' := by
  obtain ⟨copy, step, hcopies, hident, hinstr, hbefore, hafter⟩ := hacc.copies
  have hnone := h.journal_of_open hacc.was_open
  have hnone' : l'.high_level_step = none := hacc.high_level_step.trans hnone
  have hjour : l'.journal = l.journal ++ [step] := by
    unfold Ledger.journal
    rw [hcopies, hnone, hnone', reverse_cons, map_append]
    simp
  apply h.concat hacc.toAccepts hjour _ hbefore hafter
  · rw [hacc.high_level, hnone']
    rfl
  · rw [hcopies, if_neg (by split <;> simp)]
    rfl
  · cases forward_result with
    | true => exact ⟨hident, hinstr⟩
    | false => exact ⟨hident, hinstr⟩

lemma Journaled.acceptsHighLevel (hacc : AcceptsHighLevel callees result l l') :
    Journaled callees baseline (accepted ++ [⟨.try_high_level, result, l'.accepted⟩]) l' := by
  obtain ⟨step, hstep, hident, hinstr, hbefore, hafter⟩ := hacc.high_level_step
  have hnone := h.journal_of_open hacc.was_open
  have hjour : l'.journal = l.journal ++ [step] := by
    unfold Ledger.journal
    rw [hacc.copies, hnone, hstep]
    simp
  have hnames : LiftOperation.Names step .try_high_level := ⟨hident, hinstr⟩
  apply h.concat hacc.toAccepts hjour hnames hbefore hafter
  · rw [hacc.high_level, hstep]
    rfl
  · rw [hacc.copies]
    rfl

omit h

variable {transaction : HLSLLiftTransaction Program SourceMap} {world world' : World}

/-- **One call keeps the invariant.** -/
theorem Journaled.perform (h : Journaled callees baseline accepted (ledger transaction))
    (hrun : perform services callees transaction world operation = (result, transaction', world')) :
    Journaled callees baseline
      (accepted ++ [⟨operation, result, transaction'.accepted⟩].filter Outcome.isAccepted)
      (ledger transaction') := by
  rcases perform_cases (Bill.free_counts _ _) (Bill.free_paid world transaction) hrun with
    ⟨hstat, hkept⟩ | ⟨hstat, hacc, -⟩
  · have hledger : ledger transaction' = ledger transaction := hkept.ledger
    rw [hledger, filter_cons_of_neg (by simpa [Outcome.isAccepted] using hstat),
      filter_nil, append_nil]
    exact h
  · rw [filter_cons_of_pos (by simpa [Outcome.isAccepted] using hstat), filter_nil]
    cases operation with
    | try_copy instruction => exact h.acceptsCopy hacc
    | try_result instruction => exact h.acceptsCopy hacc
    | try_high_level => exact h.acceptsHighLevel hacc

/-- **A run of calls keeps the invariant.** -/
theorem Journaled.performAll {operations : List LiftOperation} {outcomes : List (Outcome SourceMap)}
    (h : Journaled callees baseline accepted (ledger transaction))
    (hrun : performAll services callees transaction world operations = (outcomes, transaction',
      world')) :
    Journaled callees baseline (accepted ++ outcomes.filter Outcome.isAccepted)
      (ledger transaction') := by
  induction operations generalizing transaction world accepted outcomes with
  | nil =>
    obtain ⟨rfl, rfl, -⟩ : [] = outcomes ∧ transaction = transaction' ∧ world = world' := by
      simpa [Lift.performAll] using hrun
    rw [filter_nil, append_nil]
    exact h
  | cons operation operations ih =>
    obtain ⟨result, next, world₁, rest, hstep, hrest, rfl⟩ := performAll_cons hrun
    have hend := ih (h.perform hstep) hrest
    rw [append_assoc, ← filter_append] at hend
    exact hend

/-- A transaction that has begun holds the verified artifact of the baseline. -/
theorem begin_eq_some {bill : Bill World} {target : CArray UInt8} {limits : HLSLLiftLimits}
    (hcount : bill.Counts services callees) (hcandidates : limits.max_candidates ≤
      bill.max_candidates) (hcompiles : limits.max_compiles ≤ bill.max_compiles)
    (hbase : bill.calls world ≤ bill.base)
    (h : hlsl_lift_transaction_begin services callees program target limits world =
      (some transaction, result, world')) :
    ∃ (control : HLSLLiftControl) (artifact : HLSLLiftArtifact SourceMap)
      (s : CallState World Program SourceMap),
      Verifies bill callees (new_transaction program target limits control) artifact s ∧
      result = { s.result with status := .verified } ∧
      transaction = { s.transaction with accepted := artifact, accepted_result := result } ∧
      world' = s.world := by
  unfold hlsl_lift_transaction_begin at h
  dsimp only at h
  by_cases htgt : target.values = none ∨ target.count = 0
  · rw [if_pos htgt] at h
    nomatch h
  rw [if_neg htgt] at h
  by_cases hequal : (dxbc_compare_exact callees.rt target target).status ≠ .equal
  · rw [if_pos hequal] at h
    nomatch h
  rw [if_neg hequal] at h
  rcases hcalloc : callees.calloc world with ⟨_ | _, world₁⟩
  · rw [hcalloc] at h
    nomatch h
  rw [hcalloc] at h
  dsimp only at h
  rcases hctl : hlsl_lift_control_begin services limits.max_elapsed_ms world₁ with
    ⟨control, world₂⟩
  rw [hctl] at h
  dsimp only at h
  by_cases hclock : control.status ≠ .verified
  · rw [if_pos hclock] at h
    nomatch h
  rw [if_neg hclock] at h
  rcases hmalloc : callees.calloc world₂ with ⟨_ | _, world₃⟩
  · rw [hmalloc] at h
    nomatch h
  rw [hmalloc] at h
  dsimp only at h
  have hstart : bill.calls world₃ ≤ bill.base := by
    have hclock := hcount.monotonic_ms world₁
    have hfirst := hcount.calloc world
    have hsecond := hcount.calloc world₂
    rw [hcalloc] at hfirst
    rw [hmalloc] at hsecond
    have hworld : (services.monotonic_ms world₁).2 = world₂ := by
      unfold hlsl_lift_control_begin at hctl
      rcases hread : services.monotonic_ms world₁ with ⟨_ | _, w⟩ <;> rw [hread] at hctl <;>
        exact congrArg Prod.snd hctl
    rw [hworld] at hclock
    exact hsecond.trans (hclock.trans (hfirst.trans hbase))
  have hend := ensures_verify_program 0 hcount (R := fun _ => True)
    (fun program ms world => (hcount.compile program ms world).trans_eq
      (congrArg _ (Nat.zero_add _).symm)) program false
    ⟨world₃, new_transaction program target limits control,
      { result_init with comparison := dxbc_compare_exact callees.rt target target }⟩
    ⟨rfl, rfl, trivial, hcandidates, hcompiles, Nat.zero_le _, Nat.zero_le _,
      hstart.trans (by simp [new_transaction])⟩
  split at h
  · nomatch h
  next artifact s hverify =>
    rw [hverify] at hend
    cases h
    exact ⟨control, artifact, s, hend, rfl, rfl, rfl⟩

lemma journaled_of_begin {target : CArray UInt8} {limits : HLSLLiftLimits}
    (h : hlsl_lift_transaction_begin services callees program target limits world = (some
      transaction, result, world')) : Journaled callees result [] (ledger transaction) := by
  obtain ⟨control, artifact, s, hverify, rfl, rfl, -⟩ := begin_eq_some (Bill.free_counts _ _)
    (Nat.le_refl _) (Nat.le_refl _) (Nat.le_refl 0) h
  -- Verification leaves the journal of the new transaction as it was, which is empty.
  have hnew : ledger { s.transaction with
      accepted := artifact, accepted_result := { s.result with status := .verified } } =
      { CallState.ledger s with
        accepted := artifact, accepted_result := { s.result with status := .verified } } := rfl
  rw [hnew, hverify.kept.ledger]
  have hdesc := hverify.kept.result.with_status .verified
  exact ⟨rfl, rfl, rfl, .nil, rfl, rfl, fun _ h => (nomatch h), hdesc⟩

/-! ## Reading the journal -/

lemma previous_eq_drop (n : ℕ) (copies : List (AcceptedCopy Program)) :
    previous n copies = copies.drop n := by
  induction n generalizing copies with
  | zero => rfl
  | succ n ih =>
    rw [previous, ih, drop_tail]

/-- **The lookup of a step reads the journal.** -/
theorem hlsl_lift_transaction_step_eq (h : Journaled callees baseline accepted (ledger transaction))
    (index : ℕ) :
    hlsl_lift_transaction_step transaction index = (ledger transaction).journal[index]? := by
  have hcnt : transaction.stats.accepted = (ledger transaction).journal.length := h.count
  have hhigh : transaction.high_level = transaction.high_level_step.isSome := h.high_level
  have hjour : (ledger transaction).journal = transaction.copies.reverse.map AcceptedCopy.step ++
      transaction.high_level_step.toList := rfl
  have hlen : transaction.stats.accepted =
      transaction.copies.length + transaction.high_level.toNat := by
    rw [hcnt, hjour, hhigh, length_append, length_map, length_reverse]
    cases transaction.high_level_step <;> rfl
  have hcopies : transaction.stats.accepted - transaction.high_level.toNat =
      transaction.copies.length := by omega
  unfold hlsl_lift_transaction_step
  dsimp only
  by_cases hout : transaction.stats.accepted ≤ index
  · rw [if_pos hout, List.getElem?_eq_none (hcnt ▸ hout)]
  rw [if_neg hout, hcopies, hjour]
  by_cases hlast : index = transaction.copies.length
  · -- The step behind the copies is there only when the high-level step was accepted.
    rw [if_pos hlast, hlast, List.getElem?_append_right (by simp)]
    cases transaction.high_level_step <;> simp
  · have hlt : index < transaction.copies.length := by
      have hle : transaction.high_level.toNat ≤ 1 := Bool.toNat_le _
      omega
    rw [if_neg hlast, previous_eq_drop, List.getElem?_append_left (by simpa using hlt),
      List.getElem?_map, List.getElem?_reverse hlt, List.head?_drop]
    congr 2
    omega

variable {steps : List HLSLLiftStep}

lemma map_after_of_records (h : List.Forall₂ Records accepted steps) :
    steps.map HLSLLiftStep.after = accepted.map Outcome.result := by
  induction h with
  | nil => rfl
  | cons hrecs _ ih => rw [map_cons, map_cons, hrecs.after, ih]

variable {index : ℕ}

lemma exists_records {outcome : Outcome SourceMap} (h : List.Forall₂ Records accepted steps)
    (hidx : accepted[index]? = some outcome) :
    ∃ step, steps[index]? = some step ∧ Records outcome step := by
  induction h generalizing index with
  | nil => nomatch hidx
  | @cons first step _ _ hrecs _ ih =>
    cases index with
    | zero =>
      obtain rfl : first = outcome := some.inj hidx
      exact ⟨step, rfl, hrecs⟩
    | succ index => exact ih hidx

include h

lemma Journaled.before_eq (hstep : l.journal[index]? = some step) :
    (baseline :: accepted.map Outcome.result)[index]? = some step.before := by
  have hmap := congrArg (fun steps => steps[index]?) h.before
  rw [List.getElem?_map, hstep, List.getElem?_dropLast] at hmap
  split at hmap
  · exact hmap.symm
  · nomatch hmap

lemma Journaled.after_eq (hstep : l.journal[index]? = some step) :
    (baseline :: accepted.map Outcome.result)[index + 1]? = some step.after := by
  have hmap := congrArg (fun steps => steps[index]?) (map_after_of_records h.records)
  rw [List.getElem?_map, hstep] at hmap
  rw [List.getElem?_cons_succ]
  exact hmap.symm

lemma Journaled.count_eq : l.count = (accepted.filter Outcome.isRewrite).length +
      (if ∃ outcome ∈ accepted, outcome.operation = .try_high_level then 1 else 0) := by
  have hlen : l.journal.length = l.copies.length + l.high_level_step.toList.length := by
    unfold Ledger.journal
    rw [length_append, length_map, length_reverse]
  have hone : l.high_level_step.toList.length ≤ 1 := by cases l.high_level_step <;> simp
  have hspl := length_eq_length_filter_add Outcome.isRewrite (l := accepted)
  have hrecs := h.records.length_eq
  have hmem : (∃ outcome ∈ accepted, outcome.operation = .try_high_level) ↔
      0 < (accepted.filter (! Outcome.isRewrite ·)).length := by
    rw [length_pos_iff_exists_mem]
    constructor
    · rintro ⟨outcome, hmem, hoperation⟩
      exact ⟨outcome, mem_filter.mpr ⟨hmem, by simp [Outcome.isRewrite, hoperation]⟩⟩
    · rintro ⟨outcome, hmem⟩
      obtain ⟨hmem, hkind⟩ := mem_filter.mp hmem
      exact ⟨outcome, hmem, by simpa [Outcome.isRewrite] using hkind⟩
  have hcnt := h.count
  have hrewrites := h.rewrites
  by_cases hhigh : ∃ outcome ∈ accepted, outcome.operation = .try_high_level
  · rw [if_pos hhigh]
    have hpos := hmem.mp hhigh
    omega
  · rw [if_neg hhigh]
    have hzero := mt hmem.mpr hhigh
    omega

end

/-! ## The target of a run -/

section

variable {services : HLSLLiftServices World Program SourceMap}
  {callees : Callees World Program SourceMap} {bill : Bill World}
  {transaction : HLSLLiftTransaction Program SourceMap} {world world' : World}
  {operations : List LiftOperation} {outcomes : List (Outcome SourceMap)}

lemma performAll_ends (hcount : bill.Counts services callees)
    (h : Ends bill transaction world transaction)
    (hrun : performAll services callees transaction world operations =
      (outcomes, transaction', world')) :
    Ends bill transaction world' transaction' ∧
      ∀ outcome ∈ outcomes, outcome.artifact.dxbc.values = transaction.target.values := by
  induction operations generalizing transaction world outcomes with
  | nil =>
    obtain ⟨rfl, rfl, rfl⟩ : [] = outcomes ∧ transaction = transaction' ∧ world = world' := by
      simpa only [performAll, Prod.mk.injEq] using hrun
    exact ⟨h, forall_mem_nil _⟩
  | cons operation operations ih =>
    obtain ⟨result, next, world₁, rest, hstep, hrest, rfl⟩ := performAll_cons hrun
    have hnext : Ends bill transaction world₁ next := by
      rcases perform_cases hcount h.paid hstep with ⟨-, hkept⟩ | ⟨-, -, hends⟩
      · have hsame : next.accepted = transaction.accepted := congrArg Ledger.accepted hkept.ledger
        exact ⟨hkept.target, hsame ▸ h.accepted, hkept.paid⟩
      · exact hends
    have htarget := hnext.target
    obtain ⟨hend, hall⟩ := ih ⟨rfl, htarget ▸ hnext.accepted, hnext.paid⟩ hrest
    rw [htarget] at hall
    exact ⟨⟨hend.target.trans htarget, htarget ▸ hend.accepted, hend.paid⟩,
      forall_mem_cons.mpr ⟨hnext.accepted, hall⟩⟩

/-! ## A transaction that has stopped -/

/-- The control has stopped, and nothing outside has run since. -/
structure Stopped (transaction : HLSLLiftTransaction Program SourceMap) (world : World)
    (s : CallState World Program SourceMap) : Prop where
  world : s.world = world
  control : s.transaction.control = transaction.control
  ledger : s.ledger = ledger transaction

/-- How a call on a stopped transaction ends. -/
def StopsAt (transaction : HLSLLiftTransaction Program SourceMap) (world : World)
    (status : HLSLLiftStatus) (s : CallState World Program SourceMap) : Prop :=
  status ≠ .verified ∧ Stopped transaction world s

lemma stopped_work_status (hstop : transaction.control.status ≠ .verified) :
    Ensures (Stopped transaction world) (work_status services) (fun _ _ => False)
      (StopsAt transaction world) := by
  apply Ensures.current_eq
  intro s hs
  have hcheck : hlsl_lift_control_check services s.transaction.control s.world =
      (transaction.control, world) := by
    rw [hs.control, hs.world, hlsl_lift_control_check, if_pos hstop]
  apply Ensures.bind (Q := fun control t => control = transaction.control ∧
    Stopped transaction world t)
  · rintro _ rfl
    exact ⟨congrArg Prod.fst hcheck, congrArg Prod.snd hcheck, hs.control, hs.ledger⟩
  rintro control t ⟨rfl, h⟩
  rw [Fallible.failWhen, if_pos hstop]
  exact ⟨hstop, h.world, rfl, h.ledger⟩

lemma stopped_try_lift (hstop : transaction.control.status ≠ .verified) (instruction : ℤ)
    (forward_result : Bool) :
    Ensures (Stopped transaction world)
      (try_lift services callees instruction forward_result) (fun _ _ => False)
      (StopsAt transaction world) := by
  apply Ensures.current
  intro s _
  apply Ensures.failWhen fun _ _ h => ⟨by decide, h⟩
  intro _
  exact (stopped_work_status hstop).bind fun _ _ => False.elim

lemma stopped_try_high_level (hstop : transaction.control.status ≠ .verified) :
    Ensures (Stopped transaction world) (try_high_level services callees) (fun _ _ => False)
      (StopsAt transaction world) := by
  unfold try_high_level
  split
  · exact fun _ h => ⟨by decide, h⟩
  · apply Ensures.current
    intro s _
    apply Ensures.failWhen fun _ _ h => ⟨by decide, h⟩
    intro _
    exact (stopped_work_status hstop).bind fun _ _ => False.elim

lemma complete_stopped {action : Action World Program SourceMap Unit}
    (haction : Ensures (Stopped transaction world) action (fun _ _ => False)
      (StopsAt transaction world)) :
    ∃ result transaction', complete action transaction world = (result, transaction', world) ∧
      result.status ≠ .verified ∧ transaction'.control = transaction.control ∧
        ledger transaction' = ledger transaction := by
  have hend := haction ⟨world, transaction, result_init⟩ ⟨rfl, rfl, rfl⟩
  unfold complete
  rcases hrun : action ⟨world, transaction, result_init⟩ with ⟨status | _, s⟩ <;> rw [hrun] at hend
  · obtain ⟨hne, rfl, hcontrol, hledger⟩ := hend
    exact ⟨_, _, rfl, hne, hcontrol, hledger⟩
  · exact hend.elim

/-- **A transaction that has stopped stays stopped**: whatever is tried on it, nothing outside
runs, no call is accepted and nothing that was accepted before changes. -/
theorem hlsl_lift_transaction_stays_stopped (services : HLSLLiftServices World Program SourceMap)
    (callees : Callees World Program SourceMap)
    (transaction : HLSLLiftTransaction Program SourceMap) (world : World)
    (operations : List LiftOperation) (hstop : transaction.control.status ≠ .verified) :
    ∃ outcomes transaction', performAll services callees transaction world operations =
        (outcomes, transaction', world) ∧
      (∀ outcome ∈ outcomes, outcome.isAccepted = false) ∧
      transaction'.control = transaction.control ∧ ledger transaction' = ledger transaction := by
  induction operations generalizing transaction with
  | nil => exact ⟨[], transaction, rfl, forall_mem_nil _, rfl, rfl⟩
  | cons operation operations ih =>
    obtain ⟨result, transaction₁, hstep, hrefused, hcontrol, hledger⟩ : ∃ result transaction',
        perform services callees transaction world operation = (result, transaction', world) ∧
        result.status ≠ .verified ∧ transaction'.control = transaction.control ∧
          ledger transaction' = ledger transaction := by
      cases operation with
      | try_copy i => exact complete_stopped (stopped_try_lift hstop i false)
      | try_result i => exact complete_stopped (stopped_try_lift hstop i true)
      | try_high_level => exact complete_stopped (stopped_try_high_level hstop)
    obtain ⟨outcomes, transaction₂, hrun, hall, hcontrol₂, hledger₂⟩ :=
      ih transaction₁ (hcontrol ▸ hstop)
    refine ⟨⟨operation, result, transaction₁.accepted⟩ :: outcomes, transaction₂, ?_, ?_,
      hcontrol₂.trans hcontrol, hledger₂.trans hledger⟩
    · rw [performAll, hstep]
      dsimp only
      rw [hrun]
    · exact forall_mem_cons.mpr ⟨decide_eq_false hrefused, hall⟩

end

/-! ## Runs from the beginning -/

section

variable (services : HLSLLiftServices World Program SourceMap)
  (callees : Callees World Program SourceMap) (program : Program) (target : CArray UInt8)
  (limits : HLSLLiftLimits) (world world₁ world₂ : World)
  (start current : HLSLLiftTransaction Program SourceMap) (baseline : HLSLLiftResult)
  (operations : List LiftOperation) (outcomes : List (Outcome SourceMap))
  (hbegin : hlsl_lift_transaction_begin services callees program target limits world =
    (some start, baseline, world₁))
  (hrun : performAll services callees start world₁ operations = (outcomes, current, world₂))

include hbegin hrun

/-- **The journal of a transaction is a chain.** After any calls on a transaction, with services and
an allocator that answer as they like: the count is that of the accepted rewrites, plus one for an
accepted high-level step; the steps are those of the accepted calls in their order; the first starts
from the record of the baseline, each later one from where the one before it ended, and the last
ends with the record of the artifact that is accepted now. -/
theorem hlsl_lift_journal_is_chain :
    Describes callees baseline start.accepted ∧
    let accepted := outcomes.filter Outcome.isAccepted
    hlsl_lift_transaction_step_count current = (accepted.filter Outcome.isRewrite).length +
      (if ∃ outcome ∈ accepted, outcome.operation = .try_high_level then 1 else 0) ∧
    hlsl_lift_transaction_step_count current = accepted.length ∧
    (∀ index outcome, accepted[index]? = some outcome → ∃ step,
      hlsl_lift_transaction_step current index = some step ∧ Records outcome step ∧
      Describes callees step.after outcome.artifact) ∧
    (∀ index, hlsl_lift_transaction_step_count current ≤ index →
      hlsl_lift_transaction_step current index = none) ∧
    (∀ step, hlsl_lift_transaction_step current 0 = some step → step.before = baseline) ∧
    (∀ index step next, hlsl_lift_transaction_step current index = some step →
      hlsl_lift_transaction_step current (index + 1) = some next → next.before = step.after) ∧
    (∀ index step, index + 1 = hlsl_lift_transaction_step_count current →
      hlsl_lift_transaction_step current index = some step →
      step.after = current.accepted_result ∧ Describes callees step.after current.accepted) := by
  have hstart := journaled_of_begin hbegin
  have hbaseline : start.accepted_result = baseline := (some.inj hstart.last).symm
  refine ⟨hbaseline ▸ hstart.current, ?_⟩
  intro accepted
  have h : Journaled callees baseline accepted (ledger current) := hstart.performAll hrun
  have hread := hlsl_lift_transaction_step_eq h
  have hlength : hlsl_lift_transaction_step_count current = accepted.length :=
    h.count.trans h.records.length_eq.symm
  refine ⟨h.count_eq, hlength, ?_, ?_, ?_, ?_, ?_⟩
  · intro index outcome houtcome
    obtain ⟨step, hstep, hrecords⟩ := exists_records h.records houtcome
    refine ⟨step, (hread index).trans hstep, hrecords, ?_⟩
    rw [hrecords.after]
    exact h.described outcome (mem_of_getElem? houtcome)
  · intro index hindex
    rw [hread, List.getElem?_eq_none]
    exact h.count ▸ hindex
  · intro step hstep
    rw [hread] at hstep
    exact (some.inj (h.before_eq hstep)).symm
  · intro index step next hstep hnext
    rw [hread] at hstep hnext
    exact some.inj ((h.before_eq hnext).symm.trans (h.after_eq hstep))
  · intro index step hindex hstep
    rw [hread] at hstep
    have hlast : step.after = current.accepted_result := by
      have hend := h.last
      rw [List.getLast?_eq_getElem?, length_cons, length_map, Nat.add_sub_cancel,
        ← hlength, ← hindex, h.after_eq hstep] at hend
      exact some.inj hend
    rw [hlast]
    exact ⟨rfl, h.current⟩

/-- **Every artifact that a run accepts is the target**, byte for byte. The calls that the run and
its beginning make keep to the limits, and a call that is refused leaves what was accepted as it
was. -/
theorem hlsl_lift_transaction_keeps_target :
    current.accepted.dxbc.values = target.values ∧
      (∀ outcome ∈ outcomes, outcome.artifact.dxbc.values = target.values) ∧
      (∀ count : CallCount World, count.Counts services callees →
        count.calls world₂ ≤ count.calls world + limits.max_candidates * count.candidate +
          limits.max_compiles * count.compile) ∧
      ∀ operation result next world₃,
        perform services callees current world₂ operation = (result, next, world₃) →
        result.status ≠ .verified → ledger next = ledger current := by
  have hends : ∀ count : CallCount World, count.Counts services callees →
      start.target = target ∧ Ends ⟨count, limits.max_candidates, limits.max_compiles,
        count.calls world⟩ start world₂ current ∧
      ∀ outcome ∈ outcomes, outcome.artifact.dxbc.values = start.target.values := by
    intro count hcount
    let bill : Bill World := ⟨count, limits.max_candidates, limits.max_compiles, count.calls world⟩
    have hcount : bill.Counts services callees := hcount
    obtain ⟨control, artifact, s, hverify, -, rfl, rfl⟩ := begin_eq_some hcount (Nat.le_refl _)
      (Nat.le_refl _) (Nat.le_refl _) hbegin
    have htarget : s.transaction.target = target := hverify.kept.target
    exact ⟨htarget, performAll_ends hcount
      ⟨rfl, hverify.target.trans (congrArg CArray.values htarget).symm, hverify.kept.paid⟩ hrun⟩
  obtain ⟨rfl, hend, hall⟩ := hends _ (Bill.free_counts 0 0)
  refine ⟨hend.accepted, hall, fun count hcount => ?_, fun _ _ _ _ hnext hrefused => ?_⟩
  · obtain ⟨-, hpaid, -⟩ := hends count hcount
    have hcandidates := Nat.mul_le_mul_right count.candidate hpaid.paid.candidates_le
    have hcompiles := Nat.mul_le_mul_right count.compile hpaid.paid.compiles_le
    have hcalls := hpaid.paid.calls
    dsimp only at hcandidates hcompiles hcalls
    omega
  · rcases perform_cases (Bill.free_counts _ _) (Bill.free_paid _ _) hnext with
      ⟨-, hkept⟩ | ⟨haccepted, -⟩
    · exact hkept.ledger
    · exact absurd haccepted hrefused

end

def sampleTarget : CArray UInt8 := ⟨some nopRetContainer, 60, by simp [nopRetContainer]⟩

def sampleArtifact (letter : UInt8) : HLSLLiftArtifact Unit :=
  ⟨some (.ofBytes [letter]), sampleTarget, false, false, .replicate _ 0, .replicate _ 0, none⟩

/-- A compiler that always returns one container, for the two forms of a program. The world counts
its calls. -/
def sampleServices : HLSLLiftServices ℕ ℕ Unit where
  compile _ _ calls := ((.verified, sampleArtifact 104), calls + 1)
  monotonic_ms calls := (some 0, calls)
  cancelled := none
  compile_high_level := some fun _ _ calls => ((.verified, sampleArtifact 105), calls + 1)
  require_request_identity := false
  require_expression_source_map := false

def sampleCallees : Callees ℕ ℕ Unit where
  rt := .reference
  sha256 _ := .replicate _ 1
  digest_to_hex _ := .ofBytes [49]
  calloc calls := (true, calls)
  hlsl_copy_lift_create program _ calls := (.ok ⟨program + 1, -1, []⟩, calls)
  hlsl_result_lift_create _ _ calls := (.error .notPlainResult, calls)
  source_instruction_index _ _ := 0
  hlsl_expression_source_map_matches _ _ _ := true
  is_unity_uv _ := false

def sampleBegun : Option (HLSLLiftTransaction ℕ Unit) × HLSLLiftResult × ℕ :=
  hlsl_lift_transaction_begin sampleServices sampleCallees 0 sampleTarget ⟨9, 9, 9⟩ 0

def sampleStart : HLSLLiftTransaction ℕ Unit :=
  sampleBegun.1.getD (new_transaction 0 .null ⟨9, 9, 9⟩ ⟨0, 0, 9, .verified⟩)

lemma sampleBegun_eq : sampleBegun = (some sampleStart, sampleBegun.2.1, 1) := by
  have hbegun : sampleBegun.1.isSome = true ∧ sampleBegun.2.2 = 1 := by decide +kernel
  have hstart : some sampleStart = sampleBegun.1 :=
    getD_of_ne_none (isSome_iff_ne_none.mp hbegun.1) _
  rw [hstart, ← hbegun.2]

def samplePerformed (operations : List LiftOperation) :
    List (Outcome Unit) × HLSLLiftTransaction ℕ Unit × ℕ :=
  performAll sampleServices sampleCallees sampleStart 1 operations

lemma samplePerformed_eq (operations : List LiftOperation) :
    samplePerformed operations = ((samplePerformed operations).1,
      (samplePerformed operations).2.1, (samplePerformed operations).2.2) := rfl

/-- The journal of a copy, a refused result and a high-level step. -/
theorem hlsl_lift_journal_is_chain_sample : sampleBegun = (some sampleStart, sampleBegun.2.1, 1) ∧
      ∃ outcomes current calls first second,
        samplePerformed [.try_copy 0, .try_result 1, .try_high_level] = (outcomes, current, calls) ∧
        hlsl_lift_transaction_step_count current = 2 ∧
        hlsl_lift_transaction_step current 0 = some first ∧
        hlsl_lift_transaction_step current 1 = some second ∧ first.before = sampleBegun.2.1 ∧
        second.before = first.after ∧ second.after = current.accepted_result := by
  have hcount : hlsl_lift_transaction_step_count
      (samplePerformed [.try_copy 0, .try_result 1, .try_high_level]).2.1 = 2 := by
    decide +kernel
  obtain ⟨-, -, hlength, hsteps, -, hfirst, hnext, hlast⟩ :=
    hlsl_lift_journal_is_chain _ _ _ _ _ _ _ _ _ _ _ _ _ sampleBegun_eq
      (samplePerformed_eq [.try_copy 0, .try_result 1, .try_high_level])
  rw [hcount] at hlength
  obtain ⟨first, hstep₀, -⟩ := hsteps 0 _ (List.getElem?_eq_getElem (by omega))
  obtain ⟨second, hstep₁, -⟩ := hsteps 1 _ (List.getElem?_eq_getElem (by omega))
  exact ⟨sampleBegun_eq, _, _, _, first, second, samplePerformed_eq _, hcount, hstep₀, hstep₁,
    hfirst _ hstep₀, hnext 0 _ _ hstep₀ hstep₁, (hlast 1 _ hcount.symm hstep₁).1⟩

/-- The calls of the compiler. -/
def sampleCount : CallCount ℕ := ⟨id, 0, 1⟩

lemma sampleCount_counts : sampleCount.Counts sampleServices sampleCallees where
  plan forward_result _ _ calls := by cases forward_result <;> exact Nat.le_refl calls
  compile _ _ calls := Nat.le_refl (calls + 1)
  compile_high_level f hf _ _ calls := by
    cases hf
    exact Nat.le_refl (calls + 1)
  monotonic_ms := Nat.le_refl
  cancelled f hf := absurd hf (by simp [sampleServices])
  calloc := Nat.le_refl

/-- A baseline, a copy and a high-level step are three compiles of the nine that are allowed. -/
theorem hlsl_lift_transaction_keeps_target_sample :
    sampleBegun = (some sampleStart, sampleBegun.2.1, 1) ∧
      ∃ outcomes current, samplePerformed [.try_copy 0, .try_high_level] = (outcomes, current, 3) ∧
        current.accepted.dxbc.values = some nopRetContainer ∧
        sampleCount.calls 3 ≤ sampleCount.calls 0 + 9 * 0 + 9 * 1 := by
  have hcalls : (samplePerformed [.try_copy 0, .try_high_level]).2.2 = 3 := by decide +kernel
  have hrun := samplePerformed_eq [.try_copy 0, .try_high_level]
  rw [hcalls] at hrun
  obtain ⟨htarget, -, hcount, -⟩ :=
    hlsl_lift_transaction_keeps_target _ _ _ _ _ _ _ _ _ _ _ _ _ sampleBegun_eq hrun
  exact ⟨sampleBegun_eq, _, _, hrun, htarget, hcount sampleCount sampleCount_counts⟩

theorem hlsl_lift_transaction_stays_stopped_sample :
    ∃ outcomes transaction', performAll sampleServices sampleCallees
        (new_transaction 0 .null ⟨9, 9, 9⟩ ⟨0, 0, 9, .cancelled⟩) 0
        [.try_copy 0, .try_high_level] = (outcomes, transaction', 0) ∧
      ∀ outcome ∈ outcomes, outcome.isAccepted = false := by
  have hstop : HLSLLiftStatus.cancelled ≠ .verified := by decide
  obtain ⟨outcomes, transaction', hrun, hall, -⟩ := hlsl_lift_transaction_stays_stopped
    sampleServices sampleCallees (new_transaction 0 .null ⟨9, 9, 9⟩ ⟨0, 0, 9, .cancelled⟩)
    0 [.try_copy 0, .try_high_level] hstop
  exact ⟨outcomes, transaction', hrun, hall⟩

end Lift

end DXBCSandbox
