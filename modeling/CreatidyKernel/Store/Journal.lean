import Mathlib.Tactic
import CreatidyKernel.Lib.Checked
import CreatidyKernel.Lib.JsonText
import CreatidyKernel.Lib.Rows
import CreatidyKernel.Lib.Runs
import CreatidyKernel.Core.Values

set_option relaxedAutoImplicit false
set_option autoImplicit false

/-!
# The operation journal

External effects are journalled: an operation row is the intent, its lease and fence; the
delivery attempts, transport reports, domain observations and reconciliations are append-only
rows beside it. A caller claims an operation to get a fence and a lease, reports what the
transport and the remote domain said under that fence, and reconciles an uncertain delivery
before anyone may claim the operation again.

## Main definitions

* `Operation`, `Delivery`, `Transport`, `Observation`, `Reconciliation` — the rows.
* `Journal` — the tables.
* `Journal.insertIntent`, `Journal.claim`, `Journal.recordTransport`, `Journal.observe`,
  `Journal.reconcile` — the transactions.
* `Journal.Call`, `Journal.next` — the journal as a state machine.
-/

namespace CreatidyKernel

open Checked

/-! ## Rows -/

/-- The status column of an operation. -/
inductive OperationStatus
  | intent | dispatched | accepted | rejected | running | waiting | terminal | unknown
deriving DecidableEq, Repr

/-- The statuses of an operation the remote domain has accepted. -/
def OperationStatus.Accepted (s : OperationStatus) : Prop :=
  s = .accepted ∨ s = .running ∨ s = .waiting ∨ s = .terminal

/-- The statuses that are a domain outcome. -/
def OperationStatus.Outcome (s : OperationStatus) : Prop := s.Accepted ∨ s = .rejected

instance (s : OperationStatus) : Decidable s.Accepted :=
  inferInstanceAs (Decidable (_ ∨ _ ∨ _ ∨ _))

instance (s : OperationStatus) : Decidable s.Outcome := inferInstanceAs (Decidable (_ ∨ _))

/-- `_OBSERVATION_KINDS`. -/
inductive ObservationKind
  | accepted | rejected | running | waiting | terminal | unknown
deriving DecidableEq, Repr

/-- The status an observation of this kind writes. -/
def ObservationKind.status : ObservationKind → OperationStatus
  | .accepted => .accepted
  | .rejected => .rejected
  | .running => .running
  | .waiting => .waiting
  | .terminal => .terminal
  | .unknown => .unknown

/-- The outcomes of a lookup at the remote domain. -/
inductive Outcome
  | absent | idempotent | found | unknown
deriving DecidableEq, Repr

/-- The values of the `retry_proof` column. -/
inductive RetryProof
  | absent | idempotent
deriving DecidableEq, Repr

/-- The proof an outcome leaves on the operation. -/
def Outcome.proof : Outcome → Option RetryProof
  | .absent => some .absent
  | .idempotent => some .idempotent
  | .found => none
  | .unknown => none

/-- A row of `operations`. -/
structure Operation where
  operationId : String
  effectKey : String
  requestJson : String
  requestDigest : Name
  fence : ℕ
  leaseUntil : Option ℤ
  status : OperationStatus
  acceptedReference : Option String
  retryProof : Option RetryProof
deriving DecidableEq

/-- A row of `delivery_attempts`. -/
structure Delivery where
  operationId : String
  fence : ℕ
  claimedAt : ℤ
  leaseUntil : ℤ
deriving DecidableEq

/-- A row of `operation_transports`. -/
structure Transport where
  operationId : String
  fence : ℕ
  succeeded : Bool
deriving DecidableEq

/-- A row of `operation_observations`. -/
structure Observation where
  observationId : String
  operationId : String
  fence : ℕ
  kind : ObservationKind
  reference : Option String
deriving DecidableEq

/-- A row of `operation_reconciliations`; its sequence number is its place in the table. -/
structure Reconciliation where
  operationId : String
  fence : ℕ
  outcome : Outcome
  reference : Option String
  evidence : String
  matchedDigest : Option String
  authoritativeAbsence : Bool
deriving DecidableEq

/-- The journal tables. -/
structure Journal where
  operations : List Operation
  /-- The operation ids of `operation_outbox`. -/
  outbox : List String
  deliveries : List Delivery
  transports : List Transport
  observations : List Observation
  reconciliations : List Reconciliation
deriving DecidableEq

/-- The request of an effect: a dictionary JSON can represent, in canonical key order. -/
structure EffectRequest where
  fields : List (String × Json)
  wf : (Json.obj fields).WF

namespace Journal

/-- The journal of a new database. -/
def empty : Journal := ⟨[], [], [], [], [], []⟩

/-! ## Reading -/

/-- The row of an operation id. -/
def find (j : Journal) (operationId : String) : Option Operation :=
  Rows.find Operation.operationId j.operations operationId

/-- `_validate_command_key`. -/
def validateCommandKey (key : String) : Except Failure Unit :=
  check (Nonblank key) ⟨.valueError, "command_key must be a nonempty string"⟩

/-- `operation`. -/
def operation (j : Journal) (operationId : String) : Except Failure Operation := do
  validateCommandKey operationId
  lookup ⟨.operationConflict, "unknown operation"⟩ j.find operationId

/-- What the append-only tables say about one operation, oldest first. -/
structure Trail where
  deliveries : List Delivery
  observations : List Observation
  reconciliations : List Reconciliation

/-- The reconciliation recorded last at a fence. -/
def Trail.latest (t : Trail) (fence : ℕ) : Option Reconciliation :=
  (t.reconciliations.filter fun r => r.fence = fence).getLast?

/-- The rows about an operation id. -/
def trail (j : Journal) (operationId : String) : Trail :=
  ⟨j.deliveries.filter fun d => d.operationId = operationId,
    j.observations.filter fun x => x.operationId = operationId,
    j.reconciliations.filter fun r => r.operationId = operationId⟩

/-- `SELECT COUNT(*) FROM delivery_attempts`, the `attempts` column of a read operation. -/
def attempts (j : Journal) (operationId : String) : ℕ := (j.trail operationId).deliveries.length

end Journal

/-- `json.loads(request_json)["request"].get(key)`. -/
def Operation.requestField (o : Operation) (key : String) : Option Json :=
  match loads o.requestJson with
  | some (.obj envelope) =>
    match envelope.lookup "request" with
    | some (.obj fields) => fields.lookup key
    | _ => none
  | _ => none

/-- The stored text of a request. -/
def EffectRequest.json (request : EffectRequest) : String :=
  dumps (.obj [("request", .obj request.fields), ("version", .int 1)])

namespace Journal

variable [Sha256]

/-! ## Transactions -/

/-- `_insert_intent`. -/
def insertIntent (j : Journal) (operationId effectKey : String) (request : EffectRequest)
    (allowExisting : Bool) : Except Failure Journal :=
  let existing := j.operations.filter fun o =>
    o.operationId = operationId ∨ o.effectKey = effectKey
  let digest := Sha256.hexdigest request.json
  if existing = [] then
    .ok { j with
      operations := j.operations ++
        [⟨operationId, effectKey, request.json, digest, 0, none, .intent, none, none⟩]
      outbox := j.outbox ++ [operationId] }
  else do
    check (allowExisting = true) ⟨.operationConflict,
      "new command cannot claim a previously committed effect"⟩
    check (existing.length = 1 ∧ ∀ o ∈ existing, o.operationId = operationId ∧
        o.effectKey = effectKey ∧ o.requestDigest = digest)
      ⟨.operationConflict, "logical effect identity is bound to a different request"⟩
    return j

/-- `intent`. -/
def intent (j : Journal) (operationId effectKey : String) (request : EffectRequest) :
    Except Failure (Operation × Journal) := do
  validateCommandKey operationId
  validateCommandKey effectKey
  let j' ← j.insertIntent operationId effectKey request true
  let o ← j'.operation operationId
  return (o, j')

/-- The journal part of `_claim_operation`: issue the next fence and a lease. -/
def claim (j : Journal) (operationId : String) (now leaseSeconds : ℤ) :
    Except Failure (ℕ × Journal) := do
  check (0 < leaseSeconds) ⟨.valueError,
    "now must be an integer and lease_seconds positive"⟩
  let o ← j.operation operationId
  check (o.requestField "kind" ≠ some (.str "ordinary-intake-record")) ⟨.operationConflict,
    "inert intake metadata cannot be dispatched"⟩
  check (o.requestField "kind" ≠ some (.str "work-budget-record")) ⟨.operationConflict,
    "budget metadata cannot be dispatched"⟩
  check (∀ until_ ∈ o.leaseUntil, until_ ≤ now) ⟨.operationConflict, "delivery lease is held"⟩
  check (¬o.status.Outcome) ⟨.operationConflict, "operation already has a domain outcome"⟩
  check (j.attempts operationId = 0 ∨ o.retryProof ≠ none) ⟨.operationConflict,
    "uncertain delivery requires reconciliation before retry"⟩
  let fence := o.fence + 1
  return (fence, { j with
    operations := Rows.update Operation.operationId j.operations
      { o with
        fence := fence, leaseUntil := some (now + leaseSeconds), status := .dispatched
        retryProof := none }
    deliveries := j.deliveries ++ [⟨operationId, fence, now, now + leaseSeconds⟩] })

/-- `record_transport`. -/
def recordTransport (j : Journal) (operationId : String) (fence : ℕ) (succeeded : Bool) :
    Except Failure (Unit × Journal) := do
  let o ← j.operation operationId
  check (o.fence = fence ∧ j.attempts operationId ≠ 0 ∧ o.retryProof = none)
    ⟨.operationConflict, "stale transport fence"⟩
  match j.transports.find? fun t => t.operationId = operationId ∧ t.fence = fence with
  | some prior =>
    check (prior.succeeded = succeeded) ⟨.operationConflict,
      "transport report conflicts with prior outcome"⟩
    return ((), j)
  | none => return ((), { j with transports := j.transports ++ [⟨operationId, fence, succeeded⟩] })

/-- The checks `observe` makes before it writes a new observation. -/
def checkProgress (o : Operation) (kind : ObservationKind) (reference : Option String) :
    Except Failure Unit := do
  check (¬(o.status = .terminal ∨ o.status = .rejected) ∧
      ¬((o.status = .accepted ∨ o.status = .running ∨ o.status = .waiting) ∧ kind = .rejected))
    ⟨.operationConflict, "domain outcome cannot regress"⟩
  let execution := kind = .running ∨ kind = .waiting ∨ kind = .terminal
  check (execution → o.acceptedReference ≠ none) ⟨.operationConflict,
    "execution observation requires domain acceptance"⟩
  check (execution → reference = o.acceptedReference) ⟨.operationConflict,
    "execution reference differs from accepted domain receipt"⟩
  check (kind = .accepted → o.acceptedReference = none ∨ o.acceptedReference = reference)
    ⟨.operationConflict, "conflicting domain acceptance"⟩
  check (kind = .accepted → o.status ≠ .running ∧ o.status ≠ .waiting) ⟨.operationConflict,
    "domain progress cannot regress to acceptance"⟩
  check (kind = .running ∨ kind = .waiting → o.status ≠ .unknown) ⟨.operationConflict,
    "unknown delivery must be reconciled"⟩

/-- The status an observation leaves: an unknown answer does not hide domain progress. -/
def nextStatus (o : Operation) (kind : ObservationKind) : OperationStatus :=
  if kind ≠ .unknown ∨ ¬(o.status = .accepted ∨ o.status = .running ∨ o.status = .waiting) then
    kind.status
  else o.status

/-- `observe`. -/
def observe (j : Journal) (operationId : String) (fence : ℕ) (observationId : String)
    (kind : ObservationKind) (reference : Option String) :
    Except Failure (Operation × Journal) := do
  validateCommandKey observationId
  check (kind = .accepted ∨ kind = .waiting → ∃ r ∈ reference, Nonblank r)
    ⟨.operationConflict, "acceptance and waiting require a matching durable reference"⟩
  let o ← j.operation operationId
  check (o.fence = fence ∧ j.attempts operationId ≠ 0) ⟨.operationConflict,
    "stale or missing delivery fence"⟩
  check (o.retryProof = none) ⟨.operationConflict,
    "reconciled fence cannot publish a late callback"⟩
  match Rows.find Observation.observationId j.observations observationId with
  | some duplicate =>
    check (duplicate = ⟨observationId, operationId, fence, kind, reference⟩) ⟨.operationConflict,
      "observation identity is bound to different evidence"⟩
    return (o, j)
  | none =>
    checkProgress o kind reference
    let o' := { o with
      status := nextStatus o kind
      acceptedReference := o.acceptedReference.or (if kind = .accepted then reference else none) }
    return (o', { j with
      operations := Rows.update Operation.operationId j.operations o'
      observations := j.observations ++ [⟨observationId, operationId, fence, kind, reference⟩] })

/-- `reconcile`. -/
def reconcile (j : Journal) (operationId : String) (fence : ℕ) (outcome : Outcome) (now : ℤ)
    (evidence : String) (reference matchedDigest : Option String) (authoritativeAbsence : Bool) :
    Except Failure (Operation × Journal) := do
  check (Nonblank evidence) ⟨.operationConflict,
    "reconciliation requires durable lookup evidence"⟩
  let o ← j.operation operationId
  check (o.fence = fence ∧ j.attempts operationId ≠ 0 ∧
      (o.status = .dispatched ∨ o.status = .unknown))
    ⟨.operationConflict, "stale fence or finalized operation"⟩
  check (∀ until_ ∈ o.leaseUntil, until_ ≤ now) ⟨.operationConflict,
    "delivery lease is still held"⟩
  check (outcome = .found ∨ outcome = .idempotent → matchedDigest = some o.requestDigest.val)
    ⟨.operationConflict, "remote effect or idempotency guarantee does not match original request"⟩
  check (outcome = .absent → authoritativeAbsence = true) ⟨.operationConflict,
    "retry requires authoritative absence, not an incomplete lookup"⟩
  check (outcome = .found → (∃ r ∈ reference, r ≠ "") ∧
      (o.acceptedReference = none ∨ o.acceptedReference = reference))
    ⟨.operationConflict, "found effect requires matching domain reference"⟩
  check (outcome = .absent ∨ outcome = .idempotent → o.acceptedReference = none)
    ⟨.operationConflict, "accepted effect cannot be retried"⟩
  let o' := { o with
    status := if outcome = .found then .accepted else .unknown
    acceptedReference := o.acceptedReference.or (if outcome = .found then reference else none)
    retryProof := outcome.proof
    leaseUntil := none }
  return (o', { j with
    operations := Rows.update Operation.operationId j.operations o'
    reconciliations := j.reconciliations ++
      [⟨operationId, fence, outcome, reference, evidence, matchedDigest, authoritativeAbsence⟩] })

/-! ## The state machine -/

/-- A call of the journal, by any caller: the fence and the time are whatever it holds. -/
inductive Call
  | intent (operationId effectKey : String) (request : EffectRequest)
  | claim (operationId : String) (now leaseSeconds : ℤ)
  | recordTransport (operationId : String) (fence : ℕ) (succeeded : Bool)
  | observe (operationId : String) (fence : ℕ) (observationId : String) (kind : ObservationKind)
      (reference : Option String)
  | reconcile (operationId : String) (fence : ℕ) (outcome : Outcome) (now : ℤ)
      (evidence : String) (reference matchedDigest : Option String) (authoritativeAbsence : Bool)

/-- The journal after a call. -/
def next (j : Journal) : Call → Journal
  | .intent operationId effectKey request => Runs.settle j (j.intent operationId effectKey request)
  | .claim operationId now leaseSeconds => Runs.settle j (j.claim operationId now leaseSeconds)
  | .recordTransport operationId fence succeeded =>
    Runs.settle j (j.recordTransport operationId fence succeeded)
  | .observe operationId fence observationId kind reference =>
    Runs.settle j (j.observe operationId fence observationId kind reference)
  | .reconcile operationId fence outcome now evidence reference matchedDigest authoritative =>
    Runs.settle j
      (j.reconcile operationId fence outcome now evidence reference matchedDigest authoritative)

/-- The time a call carries. -/
def Call.now? : Call → Option ℤ
  | .claim _ now _ => some now
  | .reconcile _ _ _ now _ _ _ _ => some now
  | _ => none

end Journal

end CreatidyKernel
