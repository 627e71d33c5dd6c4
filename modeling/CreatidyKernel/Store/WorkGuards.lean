import CreatidyKernel.Store.Usage

set_option relaxedAutoImplicit false
set_option autoImplicit false

/-!
# Guards of work

What a transaction checks before it takes, extends or uses authority: that the envelope of the
Program is in force, that a claim still holds, and that the workspace of an Attempt conflicts with
no workspace another Attempt still retains.

A workspace is retained by a claim until the claim is released, and without a claim until every
effect of the Attempt has a qualified settlement whose subject is the one the effect has now.

## Main definitions

* `Cut` — what the transaction reads outside of the database.
* `Store.checkWorkAuthority` — the envelope of a Program.
* `Store.resourceSettled`, `Store.genericResourceSettled` — qualified settlements.
* `Store.checkRetainedWorkspaceWork`, `Store.checkWorkspaceClaims` — retained workspaces.
* `Store.checkWorkClaim` — the authority of a claim.
* `Store.checkOwnershipCommand` — the guard of a domain command.
-/

namespace CreatidyKernel

open Checked

/-- What a transaction reads outside of the tables of work: the clocks, and the file system as
its preflight saw it. -/
structure Cut where
  /-- `work_decision_time`. -/
  decisionTime : Name → Except Failure ℕ
  /-- The workspace of a reference is canonical and was observed completely. -/
  footprint : Name → Except Failure Unit
  /-- The workspace of an Attempt is the one it was prepared with. -/
  custody : AttemptSpec → Except Failure Unit
  /-- A workspace is no alias of the one an Attempt retains. -/
  aliases : ResourceScope → AttemptSpec → Except Failure Unit
  /-- The candidate handed over under a claim is the current one. -/
  handoff : WorkClaim → Except Failure Unit
  /-- `_check_report_revision`. -/
  reportRevision : Name → Except Failure Unit

namespace Store

variable [Sha256]

/-! ## Envelopes -/

/-- The failure of a Program without an envelope. -/
def noEnvelope : Failure := ⟨.budgetRefused, "configured original work envelope required"⟩

/-- `check_work_authority`. -/
def checkWorkAuthority (s : Store) (cut : Cut) (programId : Name) : Except Failure Unit := do
  match ← s.workBinding programId with
  | none => .error noEnvelope
  | some binding =>
    let head ← s.loadHead programId
    check (binding.specDigest = head.spec.digest) ⟨.budgetRefused,
      "work envelope belongs to a different current specification"⟩
    let now ← cut.decisionTime programId
    check (now < binding.projection.wallDeadline) ⟨.budgetRefused,
      "original work deadline expired or boot clock unverifiable"⟩
    check (programId ∉ s.revoked ∧ head.status ≠ .cancelled) ⟨.budgetRefused,
      "work authority revoked"⟩

/-! ## Qualified settlements -/

/-- The row of an operation, when there is one. -/
def knownOperation (s : Store) (operationId : String) : Except Failure (Option Operation) :=
  match s.journal.operation operationId with
  | .ok o => .ok (some o)
  | .error e => if e.fault = .operationConflict then .ok none else .error e

/-- `_settlement_subject`. -/
def settlementSubject (s : Store) (r : Reservation) : Except Failure SettlementSubject := do
  let attempt ← s.knownAttempt r.program r.attempt
  let operation ← s.knownOperation r.operation
  return ⟨r.operation, r.program, r.attempt, r.category, attempt.map AttemptSpec.digest,
    attempt.bind AttemptSpec.workspaceReference, operation.map Operation.effectKey,
    operation.map Operation.requestDigest, operation.map Operation.fence⟩

/-- `_resource_settled`. -/
def resourceSettled (s : Store) (r : Reservation) : Except Failure Bool := do
  let subject ← s.settlementSubject r
  let record := Rows.find OwnershipSettlement.key s.ownershipSettlements
    (subject.identity .trustedProfile)
  return decide (record.map OwnershipSettlement.subject = some subject)

/-- The reservations of an Attempt that occupy it. -/
def effects (s : Store) (programId : Name) (attemptId : String) : List Reservation :=
  s.reservations.filter fun r =>
    r.program = programId ∧ r.attempt = attemptId ∧ ¬r.category.CountOnly

/-- `_generic_resource_settled`. -/
def genericResourceSettled (s : Store) (attempt : AttemptSpec)
    (excludeOperation : Option String) : Except Failure Bool := do
  let effects := s.effects attempt.programId attempt.attemptId.val
  if ∃ r ∈ effects, r.category = .attempt then
    let unsettled ← anyM (fun r =>
      if some r.operation = excludeOperation then .ok false else not <$> s.resourceSettled r)
      effects
    return !unsettled
  else return false

/-! ## Retained workspaces -/

/-- `_retained_workspaces`: whether an Attempt still retains its workspace, and under which
claim. -/
def retains (s : Store) (attempt : AttemptSpec) : Except Failure (Option (Option WorkClaim)) := do
  match ← s.attemptWorkClaim attempt.programId attempt.attemptId.val with
  | some claim => return if claim.commandKey ∈ s.releases then none else some (some claim)
  | none =>
    let settled ← s.genericResourceSettled attempt none
    return if settled then none else some none

/-- The reference is a path of the file system; other references are opaque. -/
def IsPath (reference : Name) : Prop := reference.val.toList.head? = some '/'

instance (reference : Name) : Decidable (IsPath reference) := inferInstanceAs (Decidable (_ = _))

/-- The body of the loop of `_check_retained_workspace_work` for one Attempt. -/
def checkRetained (s : Store) (cut : Cut) (workspace : ResourceScope)
    (exclude : Option (Name × Name)) (attempt : AttemptSpec) : Except Failure Unit := do
  let retained ← s.retains attempt
  forSome retained fun claim =>
    given (exclude ≠ some (attempt.programId, attempt.attemptId))
      (forSome (attempt.workspaceReference.filter IsPath) fun reference => do
        let other ← ResourceScope.workspace reference
        check (¬workspace.Conflicts other) ⟨.ownershipConflict,
          if claim.isSome then
            "unreleased workspace ownership blocks competing preparation/reservation/delivery"
          else "generic workspace lacks exact settlement proof; retains original pathname"⟩
        cut.aliases workspace attempt)

/-- `_check_retained_workspace_work`. -/
def checkRetainedWorkspaceWork (s : Store) (cut : Cut) (workspace : ResourceScope)
    (exclude : Option (Name × Name)) : Except Failure Unit :=
  s.aggregates.heads.forM fun row => do
    let head ← s.loadHead row.programId
    head.attempts.forM fun a => s.checkRetained cut workspace exclude a.spec

/-- `_physical_workspace_scope`. -/
def physicalWorkspaceScope (cut : Cut) (reference : Option Name) :
    Except Failure (Option ResourceScope) :=
  match reference.filter IsPath with
  | none => .ok none
  | some reference => do
    let workspace ← ResourceScope.workspace reference
    cut.footprint reference
    return some workspace

/-- `_check_workspace_claims`. -/
def checkWorkspaceClaims (s : Store) (cut : Cut) (attempt : AttemptSpec) :
    Except Failure Unit := do
  let workspace ← physicalWorkspaceScope cut attempt.workspaceReference
  forSome workspace fun workspace => do
    let _ ← s.attemptWorkClaim attempt.programId attempt.attemptId.val
    cut.custody attempt
    s.checkRetainedWorkspaceWork cut workspace (some (attempt.programId, attempt.attemptId))

/-! ## Claims -/

/-- The options of `_check_work_claim`. -/
structure ClaimCheck where
  authority : Bool := true
  settled : Bool := false
  excludeOperation : Option String := none
  publication : Bool := false

/-- The record of a claim is the claim, and the claim holds. -/
def checkClaimRecord (s : Store) (claim : WorkClaim) : Except Failure Unit := do
  let differs : Failure := ⟨.ownershipConflict,
    "claimant, Attempt or original generation differs"⟩
  let record ← lookup differs (Rows.find ClaimRecord.command s.claims) claim.commandKey
  let original ← s.decodeWorkClaim record
  check (original = claim) differs
  check (claim.commandKey ∉ s.releases) ⟨.ownershipConflict,
    "claim generation released; no further authority"⟩
  check (claim.commandKey ∉ s.quarantined) ⟨.ownershipConflict,
    "task resource scope unknown; quarantine requires explicit isolation/reconciliation"⟩

/-- No later claim took a resource of the claim. -/
def checkGeneration (s : Store) (claim : WorkClaim) : Except Failure Unit :=
  s.claims.forM fun r =>
    if claim.generation < r.generation then do
      let newer ← s.decodeWorkClaim r
      check (∀ a ∈ claim.resources, ∀ b ∈ newer.resources, ¬a.Conflicts b)
        ⟨.ownershipConflict, "stale resource generation"⟩
    else return ()

/-- The lease of a claim with its renewals. -/
def horizon (s : Store) (claim : WorkClaim) : ℕ :=
  ((s.renewals.filter fun r => r.claim = claim.commandKey).map RenewalRecord.expiresAt).foldr max
    claim.expiresAt

/-- The claim is of the current specification, its subjects are open and its lease runs. -/
def checkClaimAuthority (s : Store) (cut : Cut) (claim : WorkClaim) (publication : Bool) :
    Except Failure Unit := do
  s.checkWorkAuthority cut claim.attempt.programId
  let head ← s.loadHead claim.attempt.programId
  check ((head.status = .active ∨ (publication = true ∧ head.status = .completed)) ∧
      head.spec.digest = claim.attempt.specDigest) ⟨.ownershipConflict,
    "claim no longer belongs to current active specification"⟩
  let attempt ← head.attempt claim.attempt.attemptId
  let state ← head.state claim.attempt.workUnitId
  check (attempt.status ≠ .cancelled ∧ attempt.status ≠ .failed ∧ state.status ≠ .cancelled ∧
      (state.status = .satisfied → publication = true)) ⟨.ownershipConflict,
    "claim Attempt/WorkUnit no longer eligible"⟩
  let now ← cut.decisionTime claim.attempt.programId
  check (now < s.horizon claim) ⟨.ownershipConflict,
    "work claim expired; resources remain quarantined"⟩

/-- The task of a claim ended, and every effect of its Attempt is settled. -/
def checkClaimSettled (s : Store) (claim : WorkClaim) (excludeOperation : Option String) :
    Except Failure Unit := do
  check (∃ p ∈ s.proofs, p.claim = claim.commandKey ∧ (p.stage = .complete ∨ p.stage = .stop))
    ⟨.ownershipConflict, "task-scope settlement unknown; preserve conflicting resources"⟩
  (s.effects claim.attempt.programId claim.attempt.attemptId.val).forM fun r =>
    if some r.operation = excludeOperation then return ()
    else do
      let settled ← if r.operation = claim.operationId then
          pure (decide (s.Settled claim.operationId))
        else s.resourceSettled r
      check (settled = true) ⟨.ownershipConflict,
        "unreconciled effect retains conflicting resources"⟩

/-- `_check_work_claim`. -/
def checkWorkClaim (s : Store) (cut : Cut) (claim : WorkClaim) (options : ClaimCheck) :
    Except Failure Unit := do
  s.checkClaimRecord claim
  given (options.authority ∨ options.settled) (s.checkWorkspaceClaims cut claim.attempt)
  s.checkGeneration claim
  given options.authority (s.checkClaimAuthority cut claim options.publication)
  given options.settled (s.checkClaimSettled claim options.excludeOperation)

/-! ## Commands -/

/-- The Attempt whose resources a command depends on. -/
def subjectAttempt : Request → Option Name
  | .startAttempt attemptId => some attemptId
  | .finishAttempt attemptId => some attemptId
  | .satisfyWorkUnit fact => some fact.sourceAttemptId
  | _ => none

/-- The Attempt a command prepares. -/
def preparedAttempt : Request → Option AttemptSpec
  | .prepareAttempt attempt => some attempt
  | _ => none

/-- The command starts an Attempt. -/
def starts : Request → Bool
  | .startAttempt _ => true
  | _ => false

/-- The command accepts the result of an Attempt. -/
def accepts : Request → Bool
  | .satisfyWorkUnit _ => true
  | _ => false

/-- The witness of a stage of a claim. -/
def Witnessed (s : Store) (claim : WorkClaim) (stage : ProofStage) : Prop :=
  ∃ p ∈ s.proofs, p.claim = claim.commandKey ∧ p.stage = stage

instance (s : Store) (claim : WorkClaim) (stage : ProofStage) :
    Decidable (s.Witnessed claim stage) :=
  inferInstanceAs (Decidable (∃ p ∈ s.proofs, _))

/-- The checks of `_check_ownership_command` on a new Attempt. -/
def checkPrepare (s : Store) (cut : Cut) (programId : Name) (attempt : AttemptSpec) :
    Except Failure Unit := do
  s.checkWorkspaceClaims cut attempt
  s.claims.forM fun r =>
    if r.program ≠ programId ∨ r.command ∈ s.releases then return ()
    else do
      let claim ← s.decodeWorkClaim r
      check (claim.attempt.workUnitId ≠ attempt.workUnitId) ⟨.ownershipConflict,
        "unreleased task resources block successor Attempt"⟩

/-- The checks of `_check_ownership_command` under a claim. -/
def checkClaimCommand (s : Store) (cut : Cut) (claim : WorkClaim) (request : Request) :
    Except Failure Unit := do
  s.checkWorkClaim cut claim { settled := !starts request }
  check (starts request = true → ¬s.Witnessed claim .complete ∧ ¬s.Witnessed claim .stop) ⟨.ownershipConflict,
    "settled task capability cannot be restarted"⟩
  check (starts request = true ∧ claim.mode = .managed → s.Witnessed claim .start) ⟨.ownershipConflict,
    "managed start lacks exact profile witness"⟩
  given (accepts request) (cut.handoff claim)

/-- The check of `_check_ownership_command` on an acceptance without a claim. -/
def checkAcceptance (s : Store) (cut : Cut) (attempt : AttemptSpec) : Except Failure Unit := do
  let workspace ← physicalWorkspaceScope cut attempt.workspaceReference
  forSome workspace fun _ => do
    let settled ← s.genericResourceSettled attempt none
    check (settled = true) ⟨.ownershipConflict,
      "fresh acceptance requires exact task and effect settlement proof"⟩

/-- `_check_ownership_command`. -/
def checkOwnershipCommand (s : Store) (cut : Cut) (programId : Name) (request : Request) :
    Except Failure Unit := do
  forSome (preparedAttempt request) (s.checkPrepare cut programId)
  forSome (subjectAttempt request) fun attemptId => do
    let known ← s.knownAttempt programId attemptId.val
    forSome known (s.checkWorkspaceClaims cut)
    match ← s.attemptWorkClaim programId attemptId.val with
    | some claim => s.checkClaimCommand cut claim request
    | none =>
      given (accepts request) (forSome known (s.checkAcceptance cut))

end Store

end CreatidyKernel
