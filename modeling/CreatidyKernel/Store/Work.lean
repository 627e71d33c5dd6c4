import CreatidyKernel.Lib.Runs
import CreatidyKernel.Store.WorkGuards

set_option relaxedAutoImplicit false
set_option autoImplicit false

/-!
# Work transactions

The transactions that take, use, extend and give back work capacity and ownership, and the store
as a state machine: any caller makes any call at any time, every transaction either commits or
rolls back, and what it reads of the clocks and of the file system is arbitrary.

## Main definitions

* `Store.configureBudget`, `Store.acceptWorkBudget` — the envelope of a Program.
* `Store.reserve`, `Store.admitDecision` — reservations, explicit and coupled to a command.
* `Store.finalizeArtifact`, `Store.retainedWorkBytes` — retained bytes.
* `Store.claimWork`, `Store.releaseClaim` — ownership.
* `Store.claimOperation` — a new fence for an operation.
* `Store.Call`, `Store.next` — the store as a state machine.
-/

namespace CreatidyKernel

open Checked

/-- The bytes of an artifact. -/
abbrev Bytes := List UInt8

/-- The effect a command is coupled to. -/
structure Intent where
  operationId : String
  effectKey : String
  request : EffectRequest

namespace Store

variable [Sha256]

/-- `hashlib.sha256(data).hexdigest()`: the digest of the text with these code points. -/
def bytesDigest (data : Bytes) : Name :=
  Sha256.hexdigest (String.ofList (data.map fun b => Char.ofNat b.toNat))

/-! ## Retained bytes -/

/-- `SELECT SUM(size) FROM (SELECT DISTINCT digest, size FROM artifact_references …)`. -/
def artifactBytes (s : Store) (operationId : String) : ℕ :=
  (((s.artifacts.filter fun a => a.operationId = operationId).map fun a =>
    (a.digest, a.size)).dedup.map Prod.snd).sum

/-- The bytes an operation holds by its own account. -/
def held (s : Store) (r : Reservation) : ℕ :=
  (Rows.find RetainedRecord.operation s.retained r.operation).elim r.retainedBytes
    RetainedRecord.bytes

/-- `_retained_work_bytes`: under a claim the artifacts of the operation count too. -/
def retainedWorkBytes (s : Store) (r : Reservation) : Except Failure ℕ := do
  match ← s.attemptWorkClaim r.program r.attempt with
  | none => return s.held r
  | some _ => return max (s.held r) (s.artifactBytes r.operation)

/-- The retained bytes of a scope. -/
def retainedBytesIn (s : Store) (scope : Scope) (identity : Name) : Except Failure ℕ := do
  let bytes ← (inScope s.reservations scope identity).mapM s.retainedWorkBytes
  return bytes.sum

/-- `available_retained_bytes`. -/
def availableRetainedBytes (s : Store) (programId : Name) : Except Failure ℕ := do
  match ← s.workBinding programId with
  | none => .error ⟨.budgetRefused, "configured work envelope required"⟩
  | some binding =>
    let project ← lookup ⟨.budgetRefused, "configured project envelope required"⟩ s.project
      binding.project
    let ofProgram ← s.retainedBytesIn .program programId
    let ofProject ← s.retainedBytesIn .project binding.project
    return min (binding.policy.retainedBytes - ofProgram)
      (project.policy.retainedBytes - ofProject)

/-- `_check_owned_artifact_budget`. -/
def checkOwnedArtifactBudget (s : Store) (operationId : String) (digest : Name) (size : ℕ) :
    Except Failure Unit := do
  match s.reservation operationId with
  | none => return ()
  | some r =>
    match ← s.attemptWorkClaim r.program r.attempt with
    | none => return ()
    | some _ =>
      let actual := s.artifactBytes operationId
      let present := ∃ a ∈ s.artifacts, a.operationId = operationId ∧ a.digest = digest
      let current ← s.retainedWorkBytes r
      let extra := max current (actual + if present then 0 else size) - current
      match ← s.workBinding r.program with
      | none => .error ⟨.valueError, "assert binding is not None"⟩
      | some binding =>
        let project ← lookup ⟨.budgetRefused,
          "original snapshot capacity authority unavailable"⟩ s.project r.project
        (scopes r.program { binding with project := r.project } project).forM
          fun (scope, identity, policy) => do
            let used ← s.retainedBytesIn scope identity
            check (used + extra ≤ policy.retainedBytes) ⟨.budgetRefused, scope.value ++
              " retained workspace artifact byte capacity exhausted; preserve source bytes"⟩

/-- The failure of storing other bytes under a name. -/
def immutableArtifact : Failure := ⟨.operationConflict, "artifact reference is immutable"⟩

/-- `_finalize_artifact`: a blob is stored once under its digest. -/
def finalizeArtifact (s : Store) (operationId name : String) (data : Bytes) :
    Except Failure Store := do
  let _ ← s.journal.operation operationId
  Journal.validateCommandKey name
  let digest := bytesDigest data
  s.checkOwnedArtifactBudget operationId digest data.length
  check (∀ a ∈ s.artifacts, a.digest = digest → a.size = data.length) ⟨.corruptHistory,
    "artifact blob differs from its digest or size"⟩
  let rows ← Rows.insertOnce ArtifactReference.key immutableArtifact s.artifacts
    ⟨operationId, name, digest, data.length⟩
  return { s with artifacts := rows }

/-- `record_retained_bytes`. -/
def recordRetainedBytes (s : Store) (operationId : String) (retainedBytes : ℕ) :
    Except Failure (Unit × Store) := do
  check (∃ r ∈ s.reservation operationId, retainedBytes ≤ r.retainedBytes) ⟨.budgetRefused,
    "retained bytes exceed original reservation"⟩
  let rows ← Rows.insertOnce RetainedRecord.operation conflict s.retained
    ⟨operationId, retainedBytes⟩
  return ((), { s with retained := rows })

/-! ## Reservations -/

/-- The Attempts that hold unsettled work of a scope. -/
def active (s : Store) (items : List Reservation) : List (Name × String) :=
  ((items.filter fun r => ¬r.category.CountOnly ∧ ¬s.Settled r.operation).map fun r =>
    (r.program, r.attempt)).dedup

/-- The capacity checks of `_reserve_work` in one scope. -/
def checkCapacity (s : Store) (programId : Name) (attemptId : String) (category : WorkKind)
    (retainedBytes : ℕ) (scope : Scope) (identity : Name) (policy : WorkBudgetPolicy) :
    Except Failure Unit := do
  let items := inScope s.reservations scope identity
  check (items.countP (fun r => r.category = category) < policy.counts category)
    ⟨.budgetRefused, scope.value ++ " " ++ category.value ++ " capacity exhausted"⟩
  check ((programId, attemptId) ∈ s.active items ∨ (s.active items).length < policy.maxActive)
    ⟨.budgetRefused, scope.value ++ " active work capacity exhausted"⟩
  let used ← s.retainedBytesIn scope identity
  check (used + retainedBytes ≤ policy.retainedBytes) ⟨.budgetRefused,
    scope.value ++ " retained streaming byte capacity exhausted"⟩

/-- The checks of `_reserve_work` on a new reservation. -/
def checkReservation (s : Store) (cut : Cut) (binding : Binding) (r : Reservation) :
    Except Failure Unit := do
  s.checkWorkAuthority cut r.program
  let claim ← s.attemptWorkClaim r.program r.attempt
  forSome claim fun claim =>
    s.checkWorkClaim cut claim { publication := r.category = .auxiliary }
  check (r.category = .attempt → ∀ x ∈ s.reservations,
      ¬(x.program = r.program ∧ x.attempt = r.attempt ∧ x.category = r.category))
    ⟨.budgetRefused, "Attempt capacity already belongs to another Operation"⟩
  let project ← lookup ⟨.budgetRefused, "project capacity authority unavailable"⟩ s.project
    binding.project
  (scopes r.program binding project).forM fun (scope, identity, policy) =>
    s.checkCapacity r.program r.attempt r.category r.retainedBytes scope identity policy
  s.checkResourceHeadroom r.program none

/-- `_reserve_work`. -/
def reserve (s : Store) (cut : Cut) (programId : Name) (attemptId operationId : String)
    (category : WorkKind) (retainedBytes : ℕ) : Except Failure Store := do
  match ← s.workBinding programId with
  | none => .error noEnvelope
  | some binding =>
    let r : Reservation :=
      ⟨programId, binding.project, attemptId, operationId, category, retainedBytes⟩
    let known ← s.knownAttempt programId attemptId
    forSome known (s.checkWorkspaceClaims cut)
    match s.reservation operationId with
    | some prior =>
      check (prior = r) ⟨.budgetRefused, "reservation identity conflicts with original input"⟩
      return s
    | none =>
      s.checkReservation cut binding r
      s.writeReservation r

/-- `reserve_work`. -/
def reserveWork (s : Store) (cut : Cut) (programId : Name) (attemptId operationId : String)
    (category : WorkKind) (retainedBytes : ℕ) : Except Failure (Unit × Store) := do
  let s' ← s.reserve cut programId attemptId operationId category retainedBytes
  return ((), s')

/-- The operation of the next retry of an operation. -/
def workRetry (s : Store) (operationId : String) : String :=
  let start := "work-retry:" ++ operationId ++ ":"
  start ++ toString ((s.reservations.countP fun r => start.toList <+: r.operation.toList) + 1)

/-- `retry_work`. -/
def retryWork (s : Store) (cut : Cut) (operationId : String) : Except Failure (Unit × Store) := do
  let original ← lookup ⟨.budgetRefused, "retry lacks original reservation"⟩ s.reservation
    operationId
  let s' ← s.reserve cut original.program original.attempt (s.workRetry operationId) .retry 0
  return ((), s')

/-! ## Settlements -/

/-- `_settle_work_operation`. -/
def settleOperation (s : Store) (operationId evidence : String) : Store :=
  if s.Settled operationId then s
  else { s with settlements := s.settlements ++ [⟨operationId, evidence⟩] }

/-- `_record_settlement_basis`. -/
def recordSettlementBasis (s : Store) (r : Reservation) (evidence : String)
    (basis : SettlementBasis) : Except Failure Store := do
  check (¬r.category.CountOnly) ⟨.budgetRefused,
    "count-only reservation has no effect settlement receipt"⟩
  let subject ← s.settlementSubject r
  if Rows.find OwnershipSettlement.key s.ownershipSettlements (subject.identity basis) = none
  then
    return { s with
      ownershipSettlements := s.ownershipSettlements ++ [⟨subject, basis, evidence⟩] }
  else return s

/-- `_record_work_completion`. -/
def recordCompletion (s : Store) (r : Reservation) (evidence : String) : Except Failure Store :=
  (s.settleOperation r.operation evidence).recordSettlementBasis r evidence .logicalCompletion

/-- `record_work_completion`. -/
def recordWorkCompletion (s : Store) (operationId evidence : String) :
    Except Failure (Unit × Store) := do
  Journal.validateCommandKey evidence
  let r ← lookup ⟨.budgetRefused, "completion has no original reservation"⟩ s.reservation
    operationId
  let s' ← s.recordCompletion r evidence
  return ((), s')

/-- `record_work_settlement`. -/
def recordWorkSettlement (s : Store) (cut : Cut) (operationId evidence : String)
    (expectedFence : Option ℕ) : Except Failure (Unit × Store) := do
  Journal.validateCommandKey evidence
  let r ← lookup ⟨.budgetRefused, "settlement has no original reservation"⟩ s.reservation
    operationId
  let claim ← s.attemptWorkClaim r.program r.attempt
  forSome claim fun claim => given (operationId = claim.operationId)
    (s.checkWorkClaim cut claim { authority := false, settled := true })
  let subject ← s.settlementSubject r
  check (expectedFence = none ∨ subject.fence = expectedFence) ⟨.ownershipConflict,
    "profile settlement differs from original delivery fence"⟩
  let s' ← s.recordSettlementBasis r evidence .trustedProfile
  return ((), s'.settleOperation operationId evidence)

/-! ## Dispatch -/

/-- `_bind_work_dispatch`. -/
def bindWorkDispatch (s : Store) (programId : Name) (attemptId : Name) (operationId : String) :
    Except Failure Store := do
  let head ← s.loadHead programId
  let attempt ← head.attempt attemptId
  let operation ← s.journal.operation operationId
  let rows ← Rows.insertOnce DispatchBinding.operation conflict s.dispatchBindings
    ⟨programId, attemptId, attempt.spec.digest, attempt.spec.specDigest,
      attempt.spec.specRevision, operationId, operation.effectKey, operation.requestDigest⟩
  return { s with dispatchBindings := rows }

/-- The request names the Attempt, or a subject of the Attempt and its specification. -/
def typedRequest (operation : Operation) (category : WorkKind) (attempt : AttemptSpec)
    (specDigest : Name) : Prop :=
  (category = .attempt ∧ operation.requestField "attempt" = some (.str attempt.digest.val)) ∨
    ∃ fields, operation.requestField "subject" = some (.obj fields) ∧
      fields.lookup "attempt_digest" = some (.str attempt.digest.val) ∧
      fields.lookup "spec_digest" = some (.str specDigest.val)

instance (operation : Operation) (category : WorkKind) (attempt : AttemptSpec)
    (specDigest : Name) : Decidable (typedRequest operation category attempt specDigest) :=
  match h : operation.requestField "subject" with
  | some (.obj fields) => decidable_of_iff
      ((category = .attempt ∧ operation.requestField "attempt" = some (.str attempt.digest.val)) ∨
        (fields.lookup "attempt_digest" = some (.str attempt.digest.val) ∧
          fields.lookup "spec_digest" = some (.str specDigest.val))) (by simp [typedRequest, h])
  | none | some .null | some (.bool _) | some (.int _) | some (.float _) | some (.str _)
  | some (.arr _) => decidable_of_iff
      (category = .attempt ∧ operation.requestField "attempt" = some (.str attempt.digest.val))
      (by simp [typedRequest, h])

/-- The state of the Attempt and of its WorkUnit permits a dispatch of this kind of work. -/
def Permitted (head : Program) (attempt : Attempt) (state : WorkUnitState) :
    WorkKind → Prop
  | .attempt => head.status = .active ∧ attempt.Live ∧ state.status = .active ∧
      state.activeAttemptId = some attempt.attemptId
  | .auxiliary => (head.status = .active ∨ head.status = .completed) ∧
      attempt.status = .finished ∧ state.status = .satisfied ∧
      ∃ fact ∈ head.satisfactions, some fact.referenceId = state.satisfactionId ∧
        fact.sourceAttemptId = attempt.attemptId
  | _ => head.status = .active ∧ attempt.status = .finished ∧ state.status = .ready ∧
      ∃ latest ∈ (head.attempts.filter fun a =>
          a.spec.workUnitId = attempt.spec.workUnitId).getLast?,
        latest.attemptId = attempt.attemptId

instance (head : Program) (attempt : Attempt) (state : WorkUnitState) (category : WorkKind) :
    Decidable (Permitted head attempt state category) := by
  cases category <;> unfold Permitted <;> infer_instance

/-- The checks of `_check_work_dispatch` under a claim. -/
def checkClaimDispatch (s : Store) (cut : Cut) (claim : WorkClaim) (operationId : String)
    (category : WorkKind) : Except Failure Unit := do
  s.checkWorkClaim cut claim
    { settled := category = .auxiliary, excludeOperation := some operationId,
      publication := category = .auxiliary }
  given (category = .auxiliary) (cut.handoff claim)
  given (operationId = claim.operationId) do
    cut.handoff claim
    check (claim.mode ≠ .pull) ⟨.ownershipConflict,
      "pull handoff is not managed Runtime dispatch authority"⟩
    check (s.Witnessed claim .start) ⟨.ownershipConflict,
      "managed dispatch lacks exact profile start witness"⟩
    check (¬s.Witnessed claim .complete ∧ ¬s.Witnessed claim .stop) ⟨.ownershipConflict,
      "settled native capability cannot be restarted"⟩

/-- The check of `_check_work_dispatch` on a publication without a claim. -/
def checkGenericPublication (s : Store) (cut : Cut) (attempt : AttemptSpec)
    (operationId : String) : Except Failure Unit := do
  let workspace ← physicalWorkspaceScope cut attempt.workspaceReference
  forSome workspace fun _ => do
    let settled ← s.genericResourceSettled attempt (some operationId)
    check (settled = true) ⟨.ownershipConflict,
      "fresh publication requires exact task and other effect settlement proof"⟩

/-- The original binding of the operation to its Attempt. -/
def checkDispatchBinding (s : Store) (r : Reservation) (attempt : AttemptSpec)
    (specDigest : Name) (operation : Operation) : Except Failure Unit :=
  match Rows.find DispatchBinding.operation s.dispatchBindings r.operation with
  | none => check (typedRequest operation r.category attempt specDigest) ⟨.budgetRefused,
      "original exact dispatch binding unavailable"⟩
  | some binding => check (binding = ⟨r.program, attempt.attemptId, attempt.digest,
        attempt.specDigest, attempt.specRevision, r.operation, operation.effectKey,
        operation.requestDigest⟩) ⟨.budgetRefused,
      "Operation differs from original Attempt dispatch binding"⟩

/-- `_check_work_dispatch`. -/
def checkWorkDispatch (s : Store) (cut : Cut) (operationId : String) : Except Failure Unit := do
  let r ← lookup ⟨.budgetRefused, "dispatch lacks original work reservation"⟩ s.reservation
    operationId
  cut.reportRevision r.program
  s.checkWorkAuthority cut r.program
  let head ← s.loadHead r.program
  let attempt ← lookup ⟨.budgetRefused, "dispatch lacks its originating Attempt"⟩
    (fun id => head.attempts.find? fun a => a.attemptId.val = id) r.attempt
  s.checkWorkspaceClaims cut attempt.spec
  check (∀ x ∈ s.ownershipSettlements,
      ¬(x.subject.operation = operationId ∧ x.basis = .trustedProfile)) ⟨.ownershipConflict,
    "qualified resource settlement closes this operation; no new dispatch"⟩
  check (attempt.spec.pin = (head.spec.revision, head.spec.digest)) ⟨.budgetRefused,
    "reserved Attempt belongs to a superseded specification"⟩
  let operation ← s.journal.operation operationId
  s.checkDispatchBinding r attempt.spec head.spec.digest operation
  let state ← head.state attempt.spec.workUnitId
  let claim ← s.attemptWorkClaim r.program r.attempt
  given (claim = none ∧ r.category = .auxiliary)
    (s.checkGenericPublication cut attempt.spec operationId)
  forSome claim fun claim => s.checkClaimDispatch cut claim operationId r.category
  check (r.category = .attempt →
      operation.requestField "attempt" = some (.str attempt.spec.digest.val)) ⟨.budgetRefused,
    "runtime Operation request differs from originating Attempt"⟩
  check (Permitted head attempt state r.category) ⟨.budgetRefused,
    "Attempt/WorkUnit state no longer permits this dispatch"⟩
  s.checkResourceHeadroom r.program (some operationId)

end Store

end CreatidyKernel
