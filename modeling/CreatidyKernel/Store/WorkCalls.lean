import CreatidyKernel.Store.Work

set_option relaxedAutoImplicit false
set_option autoImplicit false

/-!
# The calls of the store

The public transactions built from the ones of `Store.Work`, and the store as a state machine:
any caller makes any call at any time, and what a call reads of the clocks and of the file system
is arbitrary. A call that raises changes nothing.

## Main definitions

* `Store.admitDecision` — admit a command, alone or coupled to an effect.
* `Store.configureBudget`, `Store.acceptWorkBudget` — the envelope of a Program.
* `Store.revokeWorkBudget`, `Store.stopOrdinaryProgram` — the end of it.
* `Store.claimWork`, `Store.renewWorkClaim`, `Store.releaseClaimResources` — ownership.
* `Store.claimOperation` — a new fence for an operation.
* `Store.Call`, `Store.next` — the store as a state machine.
-/

namespace CreatidyKernel

open Checked Codec

namespace Store

variable [Sha256]

/-! ## Admission -/

/-- The row an earlier call with the same key and input must have left for the coupled effect. -/
def checkDuplicateIntent (s : Store) (intent : Intent) : Except Failure Unit :=
  check (∃ o ∈ s.journal.find intent.operationId, o.effectKey = intent.effectKey ∧
      o.requestJson = intent.request.json) ⟨.operationConflict,
    "duplicate command has no matching atomically admitted intent"⟩

/-- An accepted result completes the work of its Attempt. -/
def completeAccepted (s : Store) (cut : Cut) (programId : Name) (fact : TrustedSatisfaction) :
    Except Failure Store := do
  match ← s.workBinding programId with
  | none => return s
  | some _ =>
    s.checkWorkAuthority cut programId
    match s.reservations.filter fun r => r.program = programId ∧
        r.attempt = fact.sourceAttemptId.val ∧ r.category = .attempt with
    | [r] => s.recordCompletion r fact.referenceId.val
    | _ => .error ⟨.budgetRefused, "acceptance lacks original Attempt capacity reservation"⟩

/-- A remediation Attempt takes capacity of its own. -/
def reserveRemediation (s : Store) (cut : Cut) (programId : Name) (attempt : AttemptSpec) :
    Except Failure Store :=
  if attempt.remediationOf = none then .ok s
  else s.reserve cut programId attempt.attemptId.val
    ("remediation:" ++ attempt.attemptId.val) .remediation 0

/-- A new Attempt takes its capacity. -/
def reservePrepared (s : Store) (cut : Cut) (programId : Name) (attempt : AttemptSpec)
    (intent : Option Intent) (retainedBytes : ℕ) : Except Failure Store := do
  match ← s.workBinding programId with
  | none =>
    match intent with
    | none => return s
    | some intent =>
      return if intent.operationId ∈ s.unbound then s
        else { s with unbound := s.unbound ++ [intent.operationId] }
  | some _ =>
    let s ← s.reserveRemediation cut programId attempt
    s.reserve cut programId attempt.attemptId.val
      (intent.elim ("runtime:" ++ attempt.attemptId.val) Intent.operationId) .attempt retainedBytes

/-- The work a command is coupled to. -/
def coupleWork (s : Store) (cut : Cut) (programId : Name) (request : Request)
    (intent : Option Intent) (retainedBytes : ℕ) : Except Failure Store :=
  match request with
  | .satisfyWorkUnit fact => s.completeAccepted cut programId fact
  | .prepareAttempt attempt => s.reservePrepared cut programId attempt intent retainedBytes
  | _ => .ok s

/-- The effect a command is coupled to is recorded with it. -/
def admitIntent (s : Store) (programId : Name) (request : Request) (intent : Option Intent) :
    Except Failure Store := do
  match intent with
  | none => return s
  | some intent =>
    let journal ← s.journal.insertIntent intent.operationId intent.effectKey intent.request false
    let s := { s with journal }
    match preparedAttempt request with
    | none => return s
    | some attempt =>
      match ← s.workBinding programId with
      | none => return s
      | some _ => s.bindWorkDispatch programId attempt.attemptId intent.operationId

/-- `_admit_decision`. -/
def admitDecision (s : Store) (cut : Cut) (programId : Name) (commandKey : String)
    (c : DomainCommand) (intent : Option Intent) (retainedBytes : ℕ) :
    Except Failure (Program × Store) := do
  Journal.validateCommandKey commandKey
  match ← s.aggregates.duplicateResult commandKey (digest (commandInput programId c)) with
  | some duplicate =>
    forSome intent s.checkDuplicateIntent
    return (duplicate, s)
  | none =>
    let current ← s.loadHead programId
    s.checkOwnershipCommand cut programId c.request
    let next ← current.apply c
    let s ← s.coupleWork cut programId c.request intent retainedBytes
    let aggregates ← s.aggregates.record programId commandKey c next
    let s ← { s with aggregates }.admitIntent programId c.request intent
    return (next, s)

/-- `admit` and `admit_with_intent`. -/
def admitCommand (s : Store) (cut : Cut) (programId : Name) (commandKey : String) (c : DomainCommand)
    (intent : Option Intent) : Except Failure (Program × Store) := do
  forSome intent fun intent => do
    Journal.validateCommandKey intent.operationId
    Journal.validateCommandKey intent.effectKey
  s.admitDecision cut programId commandKey c intent 0

/-- `create`. -/
def create (s : Store) (spec : ProgramSpec) (commandKey : String) :
    Except Failure (Program × Store) := do
  let (p, aggregates) ← s.aggregates.create spec commandKey
  return (p, { s with aggregates })

/-! ## Envelopes -/

/-- `_configure_work_budget`. -/
def configureBudget (s : Store) (programId projectId : Name) (project task : WorkBudgetPolicy)
    (projection : DeadlineProjection) : Except Failure Store := do
  let existing ← s.workBinding programId
  let head ← s.loadHead programId
  check (existing = none → head.attempts = []) ⟨.budgetRefused,
    "legacy Attempt lacks original work-budget proof; reconciliation required"⟩
  let projects ← Rows.insertOnce ProjectRecord.project conflict s.projects ⟨projectId, project⟩
  let fields : Binding := ⟨programId, projectId, task, projection, head.spec.digest⟩
  let s := { s with projects }
  match existing, Rows.find Binding.program s.bindings programId with
  | some existing, some original =>
    if original.specDigest = fields.specDigest then
      let bindings ← Rows.insertOnce Binding.program conflict s.bindings fields
      return { s with bindings }
    else
      check (existing.program = fields.program ∧ existing.project = fields.project ∧
          existing.policy = fields.policy ∧ existing.projection = fields.projection)
        ⟨.budgetRefused, "specification revision cannot reset original work envelope"⟩
      let revisions ← Rows.insertOnce Binding.revisionKey conflict s.revisions fields
      return { s with revisions }
  | _, _ =>
    let bindings ← Rows.insertOnce Binding.program conflict s.bindings fields
    return { s with bindings }

/-- The failure of a policy no installed profile can enforce. -/
def strictUnavailable : Failure :=
  ⟨.budgetRefused, "strict inference bounds unavailable for the installed profiles"⟩

/-- `configure_work_budget`. -/
def configureWorkBudget (s : Store) (programId projectId : Name)
    (project task : WorkBudgetPolicy) (projection : DeadlineProjection) :
    Except Failure (Unit × Store) := do
  check (project.strictInference = false ∧ task.strictInference = false) strictUnavailable
  let s' ← s.configureBudget programId projectId project task projection
  return ((), s')

/-- An inert record that is published with an acceptance. -/
structure InertRecord where
  key : String
  request : EffectRequest
  raw : Option Bytes

/-- Publish one record of an acceptance. -/
def publishRecord (s : Store) (r : InertRecord) : Except Failure Store := do
  Journal.validateCommandKey r.key
  let journal ← s.journal.insertIntent r.key r.key r.request true
  let s := { s with journal }
  match r.raw with
  | none => return s
  | some raw => s.finalizeArtifact r.key "record" raw

/-- The amendment an acceptance admits. -/
structure ApprovedAmendment where
  expectedRevision : ℕ
  actorId : Name
  amendment : SpecAmendment

/-- The command of an amendment. -/
def ApprovedAmendment.command (a : ApprovedAmendment) : DomainCommand :=
  ⟨a.expectedRevision, a.actorId, .amendProgramSpec a.amendment⟩

/-- The Program an acceptance is about: a new one, the current one, or an amended one. -/
def acceptProgram (s : Store) (cut : Cut) (spec : ProgramSpec) (commandKey : String)
    (amendment : Option ApprovedAmendment) : Except Failure (Program × Store) :=
  if s.aggregates.head spec.programId = none then do
    check (amendment.isNone) ⟨.programReadChanged, "approval amendment has no original Program"⟩
    s.create spec commandKey
  else do
    let current ← s.loadHead spec.programId
    if current.spec = spec then return (current, s)
    else
      match amendment with
      | some amendment => s.admitDecision cut spec.programId commandKey amendment.command none 0
      | none => .error ⟨.programReadChanged, "current Program binding changed"⟩

/-- `accept_work_budget`: `approval` is what the clocks and the caller's validation say. -/
def acceptWorkBudget (s : Store) (cut : Cut) (approval : Except Failure Unit)
    (spec : ProgramSpec) (commandKey : String) (projectId : Name)
    (project task : WorkBudgetPolicy) (projection : DeadlineProjection)
    (amendment : Option ApprovedAmendment) (records : List InertRecord) :
    Except Failure (Program × Store) := do
  Journal.validateCommandKey commandKey
  let existing ← s.workBinding spec.programId
  check (∀ b ∈ existing, b.project = projectId ∧ b.policy = task) ⟨.budgetRefused,
    "specification revision cannot reset original work envelope"⟩
  check (project.strictInference = false ∧ task.strictInference = false) strictUnavailable
  check (∀ p ∈ s.project projectId, p.policy = project) ⟨.budgetRefused,
    "project policy cannot replace original capacity authority"⟩
  approval
  let (p, s) ← s.acceptProgram cut spec commandKey amendment
  check (p.spec = spec) ⟨.programReadChanged,
    "admitted Program differs from approved specification"⟩
  let s ← s.configureBudget spec.programId projectId project task projection
  let s ← records.foldlM publishRecord s
  return (p, s)

/-- Record the revocation of a Program once. -/
def revoke (s : Store) (programId : Name) : Store :=
  if programId ∈ s.revoked then s else { s with revoked := s.revoked ++ [programId] }

/-- `revoke_work_budget`. -/
def revokeWorkBudget (s : Store) (programId : Name) (evidence : String)
    (expectedRevision : Option ℕ) : Except Failure (Unit × Store) := do
  Journal.validateCommandKey evidence
  forSome expectedRevision fun revision => do
    let head ← s.loadHead programId
    check (head.revision = revision) ⟨.ownershipConflict,
      "caller expected revision changed before budget revocation"⟩
  return ((), s.revoke programId)

/-- A Program that is not concluded is cancelled. -/
def cancelOpen (s : Store) (cut : Cut) (programId : Name) (commandKey : String) (actor : Name)
    (head : Program) : Except Failure (Program × Store) :=
  if head.status = .cancelled ∨ head.status = .completed then .ok (head, s)
  else s.admitDecision cut programId commandKey ⟨head.revision, actor, .cancelProgram⟩ none 0

/-- `stop_ordinary_program`. -/
def stopOrdinaryProgram (s : Store) (cut : Cut) (programId : Name) (commandKey : String)
    (actor : Name) (evidence : String) (expectedRevision : Option ℕ) :
    Except Failure (Program × Store) := do
  Journal.validateCommandKey commandKey
  Journal.validateCommandKey evidence
  let head ← s.loadHead programId
  check (expectedRevision = none ∨ expectedRevision = some head.revision) ⟨.ownershipConflict,
    "caller expected revision changed before STOP"⟩
  let (p, s) ← s.cancelOpen cut programId commandKey actor head
  return (p, s.revoke programId)

/-! ## Operations -/

/-- `budgeted_intent`. -/
def budgetedIntent (s : Store) (cut : Cut) (programId : Name) (attemptId : String)
    (category : WorkKind) (intent : Intent) (retainedBytes : ℕ) :
    Except Failure (Operation × Store) := do
  cut.reportRevision programId
  let fresh := s.reservation intent.operationId = none ∨
    s.journal.find intent.operationId = none
  let s ← s.reserve cut programId attemptId intent.operationId category retainedBytes
  let journal ← s.journal.insertIntent intent.operationId intent.effectKey intent.request true
  let s := { s with journal }
  if fresh then
    let head ← s.loadHead programId
    let attempt ← lookup ⟨.missingReference, "unknown Attempt " ++ pyRepr attemptId⟩
      (fun id => head.attempts.find? fun a => a.attemptId.val = id) attemptId
    let s ← s.bindWorkDispatch programId attempt.attemptId intent.operationId
    given (category = .auxiliary) do
      let workspace ← physicalWorkspaceScope cut attempt.spec.workspaceReference
      forSome workspace fun _ => s.checkWorkDispatch cut intent.operationId
    let operation ← s.journal.operation intent.operationId
    return (operation, s)
  else
    let operation ← s.journal.operation intent.operationId
    return (operation, s)

/-- The checks of `_claim_operation` on the claim the caller presents. -/
def checkDelivery (s : Store) (cut : Cut) (r : Reservation)
    (ownership : Option WorkClaim) (now : ℤ) : Except Failure ℤ := do
  cut.reportRevision r.program
  check (∀ claim ∈ ownership, r.program = claim.attempt.programId ∧
      r.attempt = claim.attempt.attemptId.val) ⟨.ownershipConflict,
    "delivery target is outside original claim reservation"⟩
  match ← s.attemptWorkClaim r.program r.attempt with
  | none => return now
  | some owned =>
    check (ownership = some owned) ⟨.ownershipConflict,
      "owned operation requires the shared current-subject handler"⟩
    let now ← cut.decisionTime owned.attempt.programId
    cut.handoff owned
    return now

/-- The operation of the retry of a delivery. -/
def retryKey (o : Operation) : String :=
  "retry:" ++ o.operationId ++ ":" ++ toString (o.fence + 1)

/-- A delivery after the first takes a retry. -/
def reserveRetry (s : Store) (cut : Cut) (r : Reservation) (operation : Operation) :
    Except Failure Store :=
  if s.journal.attempts operation.operationId = 0 then .ok s
  else s.reserve cut r.program r.attempt (retryKey operation) .retry 0

/-- `_claim_operation`. -/
def claimOperation (s : Store) (cut : Cut) (operationId : String) (now leaseSeconds : ℤ)
    (ownership : Option WorkClaim) : Except Failure (ℕ × Store) := do
  check (0 < leaseSeconds) ⟨.valueError, "now must be an integer and lease_seconds positive"⟩
  let operation ← s.journal.operation operationId
  match s.reservation operationId with
  | none =>
    check (ownership = none) ⟨.ownershipConflict,
      "delivery target is outside original claim reservation"⟩
    check (¬("runtime:".toList <+: operationId.toList) ∧ operationId ∉ s.unbound)
      ⟨.budgetRefused, "runtime dispatch lacks original work-budget/clock proof"⟩
    let (fence, journal) ← s.journal.claim operationId now leaseSeconds
    return (fence, { s with journal })
  | some r =>
    let now ← s.checkDelivery cut r ownership now
    s.checkWorkDispatch cut operationId
    let s ← s.reserveRetry cut r operation
    let (fence, journal) ← s.journal.claim operationId now leaseSeconds
    return (fence, { s with journal })

/-! ## Ownership -/

/-- The workspaces among some resources. -/
def workspaces (resources : List ResourceScope) : List ResourceScope :=
  resources.filter fun r => r.kind = .workspace

/-- The resources are free: no unreleased claim holds one of them or is of the same work. -/
def checkFree (s : Store) (attempt : AttemptSpec) (resources : List ResourceScope) :
    Except Failure Unit :=
  s.claims.forM fun record =>
    if record.command ∈ s.releases then return ()
    else do
      let other ← s.decodeWorkClaim record
      check (¬(other.attempt.programId = attempt.programId ∧
          other.attempt.workUnitId = attempt.workUnitId)) ⟨.ownershipConflict,
        "work already claimed; expiry is not settlement"⟩
      check (∀ a ∈ resources, ∀ b ∈ other.resources, ¬a.Conflicts b) ⟨.ownershipConflict,
        "conflicting workspace/session/effect remains owned"⟩

/-- `COOPERATIVE_PROFILE`. -/
def cooperativeProfile : String := "kernel:cooperative-task-scope:v1"

/-- What a caller asks `claim_work` for. -/
structure ClaimRequest where
  commandKey : Name
  claimant : Name
  expectedRevision : ℕ
  attempt : AttemptSpec
  mode : HandoffMode
  profile : Name
  resources : List ResourceScope
  workspaceSubject : Name
  snapshot : Bytes
  leaseSeconds : ℕ

/-- The command a claim prepares its Attempt with. -/
def ClaimRequest.command (q : ClaimRequest) : DomainCommand :=
  ⟨q.expectedRevision, q.claimant, .prepareAttempt q.attempt⟩

/-- `find_work_claim`: the claim an earlier call with the key was granted. -/
def findWorkClaim (s : Store) (q : ClaimRequest) : Except Failure (Option WorkClaim) :=
  match Rows.find ClaimRecord.command s.claims q.commandKey with
  | none => .ok none
  | some r => do
    let claim ← s.decodeWorkClaim r
    check (r.expectedRevision = q.expectedRevision ∧ r.leaseSeconds = q.leaseSeconds ∧
        claim.claimant = q.claimant ∧ claim.attempt = q.attempt ∧ claim.mode = q.mode ∧
        claim.profile = q.profile ∧ claim.resources = q.resources) ⟨.idempotencyConflict,
      "work claim command already has different input or claimant"⟩
    return some claim

/-- `request` of the effect of a claim: `{"attempt": digest}`. -/
def attemptRequest (attempt : AttemptSpec) : EffectRequest where
  fields := [("attempt", .str attempt.digest.val)]
  wf := by simp [Json.wf_obj, Json.wf_str]

/-- The part of `claim_work` after its preliminary checks. -/
def grantClaim (s : Store) (cut : Cut) (q : ClaimRequest) :
    Except Failure (WorkClaim × Store) := do
  check (Rows.find AdmissionRow.commandKey s.aggregates.admissions q.commandKey.val = none)
    ⟨.ownershipConflict, "work claim cannot adopt a preexisting domain command"⟩
  s.checkWorkAuthority cut q.attempt.programId
  match workspaces q.resources with
  | [workspace] =>
    check (q.attempt.workspaceReference = some workspace.key) ⟨.ownershipConflict,
      "Attempt workspace differs from exact owned resource"⟩
    s.checkFree q.attempt q.resources
    s.checkRetainedWorkspaceWork cut workspace none
    let generation := (s.claims.map ClaimRecord.generation).foldr max 0 + 1
    let now ← cut.decisionTime q.attempt.programId
    match ← s.workBinding q.attempt.programId with
    | none => .error noEnvelope
    | some binding =>
      let expiresAt := min binding.projection.wallDeadline (now + q.leaseSeconds)
      let operationId := "runtime:" ++ q.attempt.attemptId.val
      let (_, s) ← s.admitDecision cut q.attempt.programId q.commandKey.val q.command
        (some ⟨operationId, operationId, attemptRequest q.attempt⟩) q.snapshot.length
      let record : ClaimRecord := ⟨q.commandKey, q.expectedRevision, q.leaseSeconds,
        q.attempt.programId, q.attempt.attemptId, q.attempt.digest, q.claimant, generation,
        q.mode, q.profile, q.resources, q.workspaceSubject, expiresAt⟩
      let claims ← Rows.insertOnce ClaimRecord.command conflict s.claims record
      let s ← { s with claims }.finalizeArtifact operationId "ownership-baseline" q.snapshot
      let claim ← s.decodeWorkClaim record
      return (claim, s)
  | _ => .error ⟨.ownershipConflict, "invalid exact handoff input"⟩

/-- `claim_work`. -/
def claimWork (s : Store) (cut : Cut) (q : ClaimRequest) : Except Failure (WorkClaim × Store) := do
  match ← s.findWorkClaim q with
  | some claim => return (claim, s)
  | none =>
    check ((q.mode = .pull → q.profile.val = cooperativeProfile) ∧ 0 < q.leaseSeconds ∧
        (workspaces q.resources).length = 1 ∧ q.resources.Nodup ∧
        bytesDigest q.snapshot = q.workspaceSubject) ⟨.ownershipConflict,
      "invalid exact handoff input"⟩
    s.checkWorkAuthority cut q.attempt.programId
    let head ← s.loadHead q.attempt.programId
    let _ ← head.apply q.command
    let available ← s.availableRetainedBytes q.attempt.programId
    check (q.snapshot.length ≤ available) ⟨.budgetRefused,
      "retained workspace artifact byte capacity exhausted; preserve source bytes"⟩
    s.grantClaim cut q

/-- `renew_work_claim`. -/
def renewWorkClaim (s : Store) (cut : Cut) (commandKey : String) (claim : WorkClaim)
    (leaseSeconds : ℕ) : Except Failure (ℕ × Store) := do
  check (0 < leaseSeconds) ⟨.ownershipConflict, "renewal needs a positive bounded duration"⟩
  match Rows.find RenewalRecord.command s.renewals commandKey with
  | some previous =>
    check (previous.claim = claim.commandKey ∧ previous.claimant = claim.claimant ∧
        previous.leaseSeconds = leaseSeconds) ⟨.idempotencyConflict,
      "renew command input or claimant changed"⟩
    s.checkWorkClaim cut claim {}
    return (previous.expiresAt, s)
  | none =>
    s.checkWorkClaim cut claim {}
    let now ← cut.decisionTime claim.attempt.programId
    match ← s.workBinding claim.attempt.programId with
    | none => .error noEnvelope
    | some binding =>
      let expiry := min binding.projection.wallDeadline (now + leaseSeconds)
      let renewals ← Rows.insertOnce RenewalRecord.command conflict s.renewals
        ⟨commandKey, claim.commandKey, claim.claimant, claim.generation, leaseSeconds, expiry⟩
      return (expiry, { s with renewals })

/-- `record_claim_proof`: the profile and the stage of the proof are those of the claim. -/
def recordClaimProof (s : Store) (cut : Cut) (claim : WorkClaim) (stage : ProofStage)
    (source reference : Name) (workerReport : Bool) : Except Failure (Unit × Store) := do
  check (¬(claim.mode = .pull ∧ stage = .start)) ⟨.ownershipConflict,
    "cooperative receipt cannot certify managed start"⟩
  s.checkWorkClaim cut claim { authority := workerReport || decide (stage = .start) }
  check (claim.mode = .managed ∧ stage ≠ .start → ∃ p ∈ s.proofs, p.claim = claim.commandKey ∧
      p.stage = .start ∧ p.source = source ∧ p.reference = reference) ⟨.ownershipConflict,
    "managed settlement differs from original owned target/source"⟩
  let proofs ← Rows.insertOnce ProofRecord.key conflict s.proofs
    ⟨claim.commandKey, stage, source, reference⟩
  let s := { s with proofs }
  return ((), if stage = .start then s else s.settleOperation claim.operationId reference.val)

/-- `_claim_owner`. -/
def claimOwner (s : Store) (claim : WorkClaim) : Except Failure Name := do
  let head ← s.loadHead claim.attempt.programId
  match head.specHistory.find? fun p => (p.revision, p.digest) = claim.attempt.pin with
  | some spec => return spec.authority.ownerId
  | none => .error ⟨.ownershipConflict,
      "original work claim owner/specification unavailable"⟩

/-- The snapshot of a release is stored with it. -/
def storeSnapshot (s : Store) (claim : WorkClaim) : Option Bytes → Except Failure Store
  | none => .ok s
  | some snapshot => s.finalizeArtifact claim.operationId "ownership-release" snapshot

/-- `release_claim_resources`, and with no snapshot the release of `cleanup_work_claim`. -/
def releaseClaimResources (s : Store) (cut : Cut) (claim : WorkClaim) (owner : Name)
    (evidence : String) (snapshot : Option Bytes) : Except Failure (Unit × Store) := do
  check (Nonblank evidence) ⟨.ownershipConflict,
    "exact owner reconciliation subject required"⟩
  s.checkWorkClaim cut claim { authority := false, settled := true }
  let original ← s.claimOwner claim
  check (original = owner) ⟨.ownershipConflict,
    "only original owner can release settled resources"⟩
  cut.handoff claim
  let s ← s.storeSnapshot claim snapshot
  return ((), { s with releases := s.releases ++ [claim.commandKey] })

/-- `quarantine_work_claim`. -/
def quarantineWorkClaim (s : Store) (cut : Cut) (claim : WorkClaim) (owner : Option Name)
    (evidence : String) : Except Failure (Unit × Store) := do
  check (Nonblank evidence) ⟨.ownershipConflict, "scope uncertainty requires evidence"⟩
  s.checkWorkClaim cut claim { authority := false }
  forSome owner fun owner => do
    let original ← s.claimOwner claim
    check (original = owner) ⟨.ownershipConflict,
      "only original owner can record scope quarantine"⟩
  return ((), { s with quarantined := s.quarantined ++ [claim.commandKey] })

/-- `authorize_claim_publication`; an authorization on record is only read. -/
def authorizeClaimPublication (s : Store) (cut : Cut) (claim : WorkClaim) (owner : Name)
    (intent : Intent) : Except Failure (Operation × Store) := do
  s.checkWorkClaim cut claim { settled := true, publication := true }
  let original ← s.claimOwner claim
  check (original = owner) ⟨.ownershipConflict,
    "only original owner authorizes protected effects"⟩
  cut.handoff claim
  let s ← s.reserve cut claim.attempt.programId claim.attempt.attemptId.val intent.operationId
    .auxiliary 0
  let journal ← s.journal.insertIntent intent.operationId intent.effectKey intent.request true
  let s := { s with journal }
  let s ← s.bindWorkDispatch claim.attempt.programId claim.attempt.attemptId intent.operationId
  s.checkWorkDispatch cut intent.operationId
  let operation ← s.journal.operation intent.operationId
  return (operation, s)

/-! ## The state machine -/

/-- A call, by any caller, with what it reads outside of the database. -/
inductive Call
  | create (spec : ProgramSpec) (commandKey : String)
  | admitCommand (cut : Cut) (programId : Name) (commandKey : String) (c : DomainCommand)
      (intent : Option Intent)
  | configureWorkBudget (programId projectId : Name) (project task : WorkBudgetPolicy)
      (projection : DeadlineProjection)
  | acceptWorkBudget (cut : Cut) (approval : Except Failure Unit) (spec : ProgramSpec)
      (commandKey : String) (projectId : Name) (project task : WorkBudgetPolicy)
      (projection : DeadlineProjection) (amendment : Option ApprovedAmendment)
      (records : List InertRecord)
  | revokeWorkBudget (programId : Name) (evidence : String) (expectedRevision : Option ℕ)
  | stopOrdinaryProgram (cut : Cut) (programId : Name) (commandKey : String) (actor : Name)
      (evidence : String) (expectedRevision : Option ℕ)
  | reserveWork (cut : Cut) (programId : Name) (attemptId operationId : String)
      (category : WorkKind) (retainedBytes : ℕ)
  | retryWork (cut : Cut) (operationId : String)
  | budgetedIntent (cut : Cut) (programId : Name) (attemptId : String) (category : WorkKind)
      (intent : Intent) (retainedBytes : ℕ)
  | recordWorkCompletion (operationId evidence : String)
  | recordWorkSettlement (cut : Cut) (operationId evidence : String) (expectedFence : Option ℕ)
  | recordRetainedBytes (operationId : String) (retainedBytes : ℕ)
  | recordUsage (operationId : String) (o : UsageObservation)
  | finalizeArtifact (operationId name : String) (data : Bytes)
  | claimWork (cut : Cut) (q : ClaimRequest)
  | renewWorkClaim (cut : Cut) (commandKey : String) (claim : WorkClaim) (leaseSeconds : ℕ)
  | recordClaimProof (cut : Cut) (claim : WorkClaim) (stage : ProofStage)
      (source reference : Name) (workerReport : Bool)
  | releaseClaimResources (cut : Cut) (claim : WorkClaim) (owner : Name) (evidence : String)
      (snapshot : Option Bytes)
  | quarantineWorkClaim (cut : Cut) (claim : WorkClaim) (owner : Option Name) (evidence : String)
  | authorizeClaimPublication (cut : Cut) (claim : WorkClaim) (owner : Name) (intent : Intent)
  | claimOperation (cut : Cut) (operationId : String) (now leaseSeconds : ℤ)
      (ownership : Option WorkClaim)
  /-- `intent`, `record_transport`, `observe` and `reconcile`; a fence comes only from
  `claimOperation`. -/
  | journal (c : Journal.Call)

/-- A call on the journal that takes no fence. -/
def journalCall (s : Store) : Journal.Call → Store
  | .claim _ _ _ => s
  | c => { s with journal := s.journal.next c }

/-- The store after a call. -/
def next (s : Store) : Call → Store
  | .create spec commandKey => Runs.settle s (s.create spec commandKey)
  | .admitCommand cut programId commandKey c intent =>
    Runs.settle s (s.admitCommand cut programId commandKey c intent)
  | .configureWorkBudget programId projectId project task projection =>
    Runs.settle s (s.configureWorkBudget programId projectId project task projection)
  | .acceptWorkBudget cut approval spec commandKey projectId project task projection amendment
      records =>
    Runs.settle s (s.acceptWorkBudget cut approval spec commandKey projectId project task
      projection amendment records)
  | .revokeWorkBudget programId evidence expectedRevision =>
    Runs.settle s (s.revokeWorkBudget programId evidence expectedRevision)
  | .stopOrdinaryProgram cut programId commandKey actor evidence expectedRevision =>
    Runs.settle s (s.stopOrdinaryProgram cut programId commandKey actor evidence
      expectedRevision)
  | .reserveWork cut programId attemptId operationId category retainedBytes =>
    Runs.settle s (s.reserveWork cut programId attemptId operationId category retainedBytes)
  | .retryWork cut operationId => Runs.settle s (s.retryWork cut operationId)
  | .budgetedIntent cut programId attemptId category intent retainedBytes =>
    Runs.settle s (s.budgetedIntent cut programId attemptId category intent retainedBytes)
  | .recordWorkCompletion operationId evidence =>
    Runs.settle s (s.recordWorkCompletion operationId evidence)
  | .recordWorkSettlement cut operationId evidence expectedFence =>
    Runs.settle s (s.recordWorkSettlement cut operationId evidence expectedFence)
  | .recordRetainedBytes operationId retainedBytes =>
    Runs.settle s (s.recordRetainedBytes operationId retainedBytes)
  | .recordUsage operationId o => Runs.settle s (s.recordUsage operationId o)
  | .finalizeArtifact operationId name data =>
    Runs.settle s ((s.finalizeArtifact operationId name data).map fun s' => ((), s'))
  | .claimWork cut q => Runs.settle s (s.claimWork cut q)
  | .renewWorkClaim cut commandKey claim leaseSeconds =>
    Runs.settle s (s.renewWorkClaim cut commandKey claim leaseSeconds)
  | .recordClaimProof cut claim stage source reference workerReport =>
    Runs.settle s (s.recordClaimProof cut claim stage source reference workerReport)
  | .releaseClaimResources cut claim owner evidence snapshot =>
    Runs.settle s (s.releaseClaimResources cut claim owner evidence snapshot)
  | .quarantineWorkClaim cut claim owner evidence =>
    Runs.settle s (s.quarantineWorkClaim cut claim owner evidence)
  | .authorizeClaimPublication cut claim owner intent =>
    Runs.settle s (s.authorizeClaimPublication cut claim owner intent)
  | .claimOperation cut operationId now leaseSeconds ownership =>
    Runs.settle s (s.claimOperation cut operationId now leaseSeconds ownership)
  | .journal c => s.journalCall c

end Store

end CreatidyKernel
