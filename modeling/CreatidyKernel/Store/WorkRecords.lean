import CreatidyKernel.Core.Deadlines
import CreatidyKernel.Core.Ownership
import CreatidyKernel.Core.WorkBudget
import CreatidyKernel.Store.History
import CreatidyKernel.Store.Journal

set_option relaxedAutoImplicit false
set_option autoImplicit false

/-!
# Work records

Beside the aggregates and the operation journal the store keeps records about work: budgets and
reservations, settlements, retained bytes, usage receipts, ownership claims and artifacts. A
record is written once: writing it again changes nothing, and writing another one of the same
identity is refused. The records of a type are read in the order of the digests of their
identities. SHA-256 is taken to be injective on identities.

## Main definitions

* `ProjectRecord`, `Binding`, `Reservation`, `SettlementRecord`, `OwnershipSettlement`,
  `RetainedRecord`, `UsageRecord`, `ClaimRecord`, `RenewalRecord`, `ProofRecord`,
  `DispatchBinding`, `ArtifactReference` — the records.
* `Store` — all the tables.
* `Store.writeReservation` and its siblings — writing a record.
* `Store.workBinding`, `Store.attemptWorkClaim` — reading.
-/

namespace CreatidyKernel

open Checked

/-! ## Records -/

/-- The policy of a project. -/
structure ProjectRecord where
  project : Name
  policy : WorkBudgetPolicy
deriving DecidableEq

/-- The work envelope of a Program. -/
structure Binding where
  program : Name
  project : Name
  policy : WorkBudgetPolicy
  projection : DeadlineProjection
  specDigest : Name
deriving DecidableEq

/-- The identity of a `binding-revision` record. -/
def Binding.revisionKey (b : Binding) : Name × Name := (b.program, b.specDigest)

/-- Capacity taken for an operation of an Attempt. -/
structure Reservation where
  program : Name
  project : Name
  attempt : String
  operation : String
  category : WorkKind
  retainedBytes : ℕ
deriving DecidableEq

/-- The evidence that an operation no longer occupies its Attempt. -/
structure SettlementRecord where
  operation : String
  evidence : String
deriving DecidableEq

/-- What a settlement is about, `_settlement_subject`. -/
structure SettlementSubject where
  operation : String
  program : Name
  attempt : String
  category : WorkKind
  attemptDigest : Option Name
  workspaceReference : Option Name
  effectKey : Option String
  requestDigest : Option Name
  fence : Option ℕ
deriving DecidableEq

/-- The qualification of a settlement. -/
inductive SettlementBasis
  | logicalCompletion | trustedProfile
deriving DecidableEq, Repr

/-- A qualified settlement of an exact subject. -/
structure OwnershipSettlement where
  subject : SettlementSubject
  basis : SettlementBasis
  evidence : String
deriving DecidableEq

/-- `_settlement_identity`. -/
def SettlementSubject.identity (s : SettlementSubject) (basis : SettlementBasis) :
    String × SettlementBasis × Option Name × Option ℕ :=
  (s.operation, basis, s.requestDigest, s.fence)

/-- The identity of an `ownership-settlement` record. -/
def OwnershipSettlement.key (x : OwnershipSettlement) :
    String × SettlementBasis × Option Name × Option ℕ := x.subject.identity x.basis

/-- The bytes an operation was found to retain. -/
structure RetainedRecord where
  operation : String
  bytes : ℕ
deriving DecidableEq

/-- A receipt with the operation it is about. -/
structure UsageRecord where
  operation : String
  observation : UsageObservation
deriving DecidableEq

/-- A grant of the resources of an Attempt; the revision and the lease are those asked for. -/
structure ClaimRecord where
  command : Name
  expectedRevision : ℕ
  leaseSeconds : ℕ
  program : Name
  attempt : Name
  attemptDigest : Name
  claimant : Name
  generation : ℕ
  mode : HandoffMode
  profile : Name
  resources : List ResourceScope
  workspaceSubject : Name
  expiresAt : ℕ
deriving DecidableEq

/-- An extension of the lease of a claim. -/
structure RenewalRecord where
  command : String
  claim : Name
  claimant : Name
  generation : ℕ
  leaseSeconds : ℕ
  expiresAt : ℕ
deriving DecidableEq

/-- The stages a trusted producer witnesses. -/
inductive ProofStage
  | start | complete | stop
deriving DecidableEq, Repr

/-- A witness for a stage of a claim. -/
structure ProofRecord where
  claim : Name
  stage : ProofStage
  source : Name
  reference : Name
deriving DecidableEq

/-- The identity of an `ownership-proof` record. -/
def ProofRecord.key (p : ProofRecord) : Name × ProofStage := (p.claim, p.stage)

/-- The operation an Attempt is dispatched by. -/
structure DispatchBinding where
  program : Name
  attempt : Name
  attemptDigest : Name
  specDigest : Name
  specRevision : ℕ
  operation : String
  effectKey : String
  requestDigest : Name
deriving DecidableEq

/-- A row of `artifact_references`. -/
structure ArtifactReference where
  operationId : String
  name : String
  digest : Name
  size : ℕ
deriving DecidableEq

/-- The primary key of `artifact_references`. -/
def ArtifactReference.key (a : ArtifactReference) : String × String := (a.operationId, a.name)

/-! ## The store -/

/-- The tables of the store. -/
structure Store where
  aggregates : Aggregates
  journal : Journal
  projects : List ProjectRecord
  bindings : List Binding
  /-- The `binding-revision` records, one for each later specification. -/
  revisions : List Binding
  /-- The Programs whose authority is revoked. -/
  revoked : List Name
  reservations : List Reservation
  settlements : List SettlementRecord
  ownershipSettlements : List OwnershipSettlement
  retained : List RetainedRecord
  usage : List UsageRecord
  claims : List ClaimRecord
  /-- The claims with an `ownership-release` record. -/
  releases : List Name
  /-- The claims with an `ownership-unknown` record. -/
  quarantined : List Name
  renewals : List RenewalRecord
  proofs : List ProofRecord
  dispatchBindings : List DispatchBinding
  /-- The operations with an `unbound-attempt` record. -/
  unbound : List String
  artifacts : List ArtifactReference

namespace Store

/-- The tables of a new database. -/
def empty : Store :=
  ⟨.empty, .empty, [], [], [], [], [], [], [], [], [], [], [], [], [], [], [], [], []⟩

/-! ## Reading -/

section

variable [Sha256]

/-- `_work_records("reservation")`. -/
def reservationRecords (s : Store) : List Reservation :=
  SortedBy.sortBy (fun r => Sha256.hexdigest r.operation) s.reservations

/-- The identity of a receipt: an observation of a source. -/
def usageKey (u : UsageRecord) : Name × Name := (u.observation.source, u.observation.observationId)

/-- `_work_records("usage")`. -/
def usageRecords (s : Store) : List UsageRecord :=
  SortedBy.sortBy (fun u => Sha256.hexdigest
    (dumps (.arr [.str (usageKey u).1.val, .str (usageKey u).2.val]))) s.usage

end

/-- `_work_record("reservation", operation_id)`. -/
def reservation (s : Store) (operationId : String) : Option Reservation :=
  Rows.find Reservation.operation s.reservations operationId

/-- `_work_record("project", project)`. -/
def project (s : Store) (project : Name) : Option ProjectRecord :=
  Rows.find ProjectRecord.project s.projects project

/-- The operation has a `settlement` record. -/
def Settled (s : Store) (operationId : String) : Prop :=
  Rows.find SettlementRecord.operation s.settlements operationId ≠ none

instance (s : Store) (operationId : String) : Decidable (s.Settled operationId) :=
  inferInstanceAs (Decidable (_ ≠ _))

/-- The failure of writing a record over another one. -/
def conflict : Failure :=
  ⟨.operationConflict, "logical effect identity is bound to a different request"⟩

section

variable [Sha256]

/-- `_load_head`. -/
def loadHead (s : Store) (programId : Name) : Except Failure Program :=
  s.aggregates.loadHead programId

/-- `_work_binding`: the envelope of a Program, as revised for its current specification. -/
def workBinding (s : Store) (programId : Name) : Except Failure (Option Binding) :=
  match Rows.find Binding.program s.bindings programId with
  | none => .ok none
  | some original => do
    let head ← s.loadHead programId
    let revised := Rows.find Binding.revisionKey s.revisions
      (programId, head.spec.digest)
    return some (revised.getD original)

/-- The specification of an Attempt of a Program, when the Program has it. -/
def knownAttempt (s : Store) (programId : Name) (attemptId : String) :
    Except Failure (Option AttemptSpec) := do
  let head ← s.loadHead programId
  return (head.attempts.find? fun a => a.attemptId.val = attemptId).map Attempt.spec

/-- `_decode_work_claim`. -/
def decodeWorkClaim (s : Store) (r : ClaimRecord) : Except Failure WorkClaim := do
  let head ← s.loadHead r.program
  let attempt ← head.attempt r.attempt
  check (r.attemptDigest = attempt.spec.digest) ⟨.ownershipConflict,
    "original claim Attempt changed"⟩
  return ⟨r.command, r.claimant, attempt.spec, r.generation, r.mode, r.profile, r.resources,
    r.workspaceSubject, r.expiresAt⟩

/-- `_attempt_work_claim`. -/
def attemptWorkClaim (s : Store) (programId : Name) (attemptId : String) :
    Except Failure (Option WorkClaim) :=
  match s.claims.filter fun r => r.program = programId ∧ r.attempt.val = attemptId with
  | [] => .ok none
  | [r] => some <$> s.decodeWorkClaim r
  | _ => .error ⟨.ownershipConflict, "Attempt has competing work claims"⟩

end

/-! ## Writing -/

/-- Write a `reservation` record. -/
def writeReservation (s : Store) (r : Reservation) : Except Failure Store := do
  let rows ← Rows.insertOnce Reservation.operation conflict s.reservations r
  return { s with reservations := rows }

/-- Write a `usage` record. -/
def writeUsage (s : Store) (u : UsageRecord) : Except Failure Store := do
  let rows ← Rows.insertOnce usageKey conflict s.usage u
  return { s with usage := rows }

end Store

end CreatidyKernel
