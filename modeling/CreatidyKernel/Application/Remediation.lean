import CreatidyKernel.Codec.ReviewReceipt
import CreatidyKernel.Routing.AllocationCodec
import CreatidyKernel.Store.HistorySafety

set_option relaxedAutoImplicit false
set_option autoImplicit false

/-!
# Remediation of rejected work

A call on a WorkUnit may ask to remediate a rejected Attempt. The guard reads the Program, the
record of the rejection and those of all earlier rejections of the unit, and only then is an
Attempt prepared, whose context holds the findings. The rest of a call dispatches and observes an
Attempt that is on record already; all it does to the store is one of the calls of the store.
Other connections may write between the guard and the admission, which are two transactions.

## Main definitions

* `Application.Blobs`, `Application.findArtifact` — what the files of the store say.
* `Application.remediationContext` — the findings of a rejection.
* `Application.remediationData` — the guard of a remediation.
* `Application.advance` — the part of `advance_work_unit` up to the admission of an Attempt.
-/

namespace CreatidyKernel

namespace Application

open Checked
open Codec (getField)
open Review (equalsNumber)

/-! ## Artifacts -/

/-- The JSON value of the file with a digest, if it holds one; a digest has one file for ever. -/
abbrev Blobs := Name → Option Json

/-- What `_verify_blob` finds wrong with the file of a digest at the time of a call. -/
abbrev Damage := Name → Option Failure

section

variable (damage : Damage) (s : Store)

/-- `find_artifact`: the digest of the file that is read. -/
def findArtifact (operationId name : String) : Except Failure (Option Name) :=
  match Rows.find ArtifactReference.key s.artifacts (operationId, name) with
  | none => .ok none
  | some row =>
    match damage row.digest with
    | none => .ok (some row.digest)
    | some failure => .error failure

/-- `json.loads(store.artifact(operation_id, name))`. -/
def artifact (blobs : Blobs) (operationId name : String) : Except Failure Json := do
  match ← findArtifact damage s operationId name with
  | none => .error ⟨.operationConflict, "unknown artifact reference"⟩
  | some digest => lookup ⟨.valueError, "JSONDecodeError"⟩ blobs digest

end

/-! ## The findings of a rejection -/

/-- A refusal of a persisted record. -/
def persisted (message : String) : Failure := ⟨.valueError, message⟩

/-- A dictionary, or the refusal of what is none. -/
def dictionary (message : String) : Json → Except Failure (List (String × Json))
  | .obj fields => .ok fields
  | _ => .error (persisted message)

/-- A list, or the refusal of what is none. -/
def listing (message : String) : Json → Except Failure (List Json)
  | .arr items => .ok items
  | _ => .error (persisted message)

/-- A text that may be null. -/
def textOrNull (message : String) : Json → Except Failure (Option String)
  | .null => .ok none
  | .str s => .ok (some s)
  | _ => .error (persisted message)

/-- A finding as the context of a remediation holds it. -/
structure NormalizedFinding where
  findingId : String
  fingerprint : String
  reason : String
deriving DecidableEq

/-- The normal form of a persisted finding. -/
def normalize (value : Json) : Except Failure NormalizedFinding := do
  let malformed := "persisted finding is malformed"
  let fields ← dictionary malformed value
  let findingId ← Review.textOr (persisted malformed) (getField fields "finding_id")
  let fingerprint ← Review.textOr (persisted malformed) (getField fields "fingerprint")
  let reason ← Review.textOr (persisted malformed) (getField fields "reason")
  return ⟨findingId, fingerprint, reason⟩

/-- The values of `ProductReviewStatus`. -/
def reviewStatuses : List String :=
  ["approved", "changes_requested", "comment", "owner_decision_needed", "invalid", "unknown"]

/-- The statuses of a review that found nothing a worker could address. -/
def inert : List String := ["comment", "invalid", "owner_decision_needed"]

/-- What the record of a rejection says: the subject and the findings of the verification, and the
product review with its status. -/
structure Rejection where
  subject : Json
  findings : Json
  reviewOperationId : Option String
  reviewStatus : Option String
deriving DecidableEq

section

variable (blobs : Blobs) (damage : Damage) (s : Store)

/-- The first part of `remediation_context`: the record is read and checked. -/
def rejection (source : String) : Except Failure Rejection := do
  let operationId := "rejection:" ++ source
  let operation ← s.journal.operation operationId
  let envelope ← lookup (persisted "JSONDecodeError") loads operation.requestJson
  let envelope ← dictionary "invalid persisted candidate rejection intent" envelope
  check (envelope.map Prod.fst = ["request", "version"] ∧
    equalsNumber 1 (getField envelope "version") = true)
    (persisted "invalid persisted candidate rejection intent")
  let request ← dictionary "invalid persisted candidate rejection request"
    (getField envelope "request")
  check (request.map Prod.fst = ["manifest", "product_review_status", "reason",
    "review_operation_id"]) (persisted "invalid persisted candidate rejection request")
  let result ← artifact damage s blobs operationId "rejected-result"
  let result ← dictionary "invalid persisted rejected candidate result" result
  let _ ← listing "invalid persisted rejected candidate result" (getField result "findings")
  let _ ← dictionary "invalid persisted rejected candidate result" (getField result "subject")
  let reviewOperationId ← textOrNull "invalid persisted product review reference"
    (getField request "review_operation_id")
  let reviewStatus ← textOrNull "invalid persisted product review status"
    (getField request "product_review_status")
  check (∀ status ∈ reviewStatus, status ∈ reviewStatuses)
    (persisted "unknown persisted product review status")
  return ⟨getField result "subject", getField result "findings", reviewOperationId, reviewStatus⟩

/-- The findings of a rejection with a review: those of its receipt when it requested changes. -/
def reviewedFindings (r : Rejection) (reviewOperationId : String) : Except Failure Json := do
  let differs := "product review receipt differs from rejected candidate subject"
  let receipt ← artifact damage s blobs reviewOperationId "review-receipt"
  let receipt ← dictionary differs receipt
  check (getField receipt "subject" = r.subject) (persisted differs)
  let verdict := getField receipt "verdict"
  let contradicts := persisted "product review verdict differs from rejected candidate status"
  if r.reviewStatus = some "changes_requested" then do
    check (verdict = .str "request_changes") contradicts
    return getField receipt "findings"
  else if r.reviewStatus = some "approved" then do
    check (verdict = .str "approve") contradicts
    return r.findings
  else .error (persisted "product review receipt lacks a matching terminal status")

/-- The findings a rejection is for. -/
def rejectionFindings (r : Rejection) : Except Failure Json :=
  match r.reviewOperationId with
  | some reviewOperationId => reviewedFindings blobs damage s r reviewOperationId
  | none => do
    check (r.reviewStatus ≠ some "changes_requested" ∧ r.reviewStatus ≠ some "approved")
      (persisted "product review status lacks its original receipt")
    return r.findings

/-- `remediation_context`: the operation of the review, and the findings. -/
def remediationContext (source : String) :
    Except Failure (Option String × List NormalizedFinding) := do
  let r ← rejection blobs damage s source
  if ∃ status ∈ r.reviewStatus, status ∈ inert then return (r.reviewOperationId, [])
  else do
    let findings ← rejectionFindings blobs damage s r
    let items ← listing "persisted rejection findings are invalid" findings
    let findings ← items.mapM normalize
    return (r.reviewOperationId, findings)

/-- The fingerprints of some findings. -/
def fingerprints (findings : List NormalizedFinding) : SortedSet String :=
  SortedSet.ofList (findings.map NormalizedFinding.fingerprint)

/-- The fingerprints of a rejected Attempt, if it has any. -/
def rejectedFingerprints (previous : Attempt) : Except Failure (List (SortedSet String)) := do
  match ← findArtifact damage s ("rejection:" ++ previous.attemptId.val) "rejected-result" with
  | none => return []
  | some _ =>
    let (_, findings) ← remediationContext blobs damage s previous.attemptId.val
    return if findings = [] then [] else [fingerprints findings]

/-- The fingerprints of the rejected ones among some Attempts, without those that have none. -/
def rejectionHistory : List Attempt → Except Failure (List (SortedSet String))
  | [] => .ok []
  | previous :: later => do
    let own ← rejectedFingerprints blobs damage s previous
    let history ← rejectionHistory later
    return own ++ history

end

/-! ## The guard -/

/-- How a call ends before an Attempt is admitted. -/
inductive Stop
  | returned (status : String)
  | raised (failure : Failure)
deriving DecidableEq

/-- What raises ends the call. -/
def raising {α : Type} (x : Except Failure α) : Except Stop α := x.mapError .raised

/-- `remediation_data`. -/
structure RemediationData where
  findings : List NormalizedFinding
  reviewOperationId : Option String
  sourceAttemptId : Name
deriving DecidableEq

/-- The Attempts of a WorkUnit, oldest first. -/
def unitAttempts (p : Program) (unitId : Name) : List Attempt :=
  p.attempts.filter fun a => a.spec.workUnitId = unitId

/-- The actor of the reference composition. -/
def worker : Name := ⟨"worker", by decide⟩

/-- The guard of a remediation that has no Attempt yet. -/
def remediationData (blobs : Blobs) (damage : Damage) (s : Store) (p : Program)
    (unitId source : Name) : Except Stop RemediationData := do
  let paused := Stop.returned "remediation_paused"
  let authority := p.spec.authority
  check ((unitAttempts p unitId).getLast?.map Attempt.attemptId = some source)
    (.returned "remediation_source_not_latest")
  let attempt ← raising (p.attempt source)
  let state ← raising (p.state unitId)
  check (attempt.status = .finished ∧ state.status = .ready)
    (.returned "remediation_source_not_rejected")
  check (.prepareAttempt ∈ authority.allowedActions.toList ∧
    worker ∈ authority.ownerId :: authority.delegatedActorIds.toList) paused
  check (p.attempts.length < min p.spec.budget.maxAttempts authority.maxAttempts) paused
  let rejected ← raising (findArtifact damage s ("rejection:" ++ source.val) "rejected-result")
  check (rejected ≠ none) paused
  let (reviewOperationId, findings) ← raising (remediationContext blobs damage s source.val)
  check (findings ≠ []) paused
  let history ← raising (rejectionHistory blobs damage s (unitAttempts p unitId))
  let current := fingerprints findings
  check (¬(1 < history.length ∧ (history.dropLast.getLast? = some current ∨
    (2 < history.length ∧ current ∈ history.dropLast)))) paused
  return ⟨findings, reviewOperationId, source⟩

/-! ## The preparation of an Attempt -/

/-- What a call is given, and what it is answered before it admits an Attempt. -/
structure AdvanceCall where
  programId : Name
  unitId : Name
  remediationOf : Option String
  policy : VerificationPolicy
  /-- A product reviewer was given. -/
  reviewer : Bool
  /-- `workspace.key`. -/
  workspaceKey : Name
  damage : Damage
  cut : Cut
  /-- `cancel_requested()`, before and after the allocation. -/
  cancelled : Bool
  cancelledLater : Bool
  /-- The deadline has passed. -/
  expired : Bool
  /-- `allocator.select(…)`. -/
  selected : Except Failure Routing.Allocation
  /-- `fault("selected")`. -/
  fault : Except Failure Unit
  /-- What other connections call between the guard and the admission. -/
  others : List (Option Store.Call)

/-- The JSON form of a finding in a context. -/
def findingPayload (f : NormalizedFinding) : Json :=
  .obj [("finding_id", .str f.findingId), ("fingerprint", .str f.fingerprint),
    ("reason", .str f.reason)]

/-- The JSON form of a remediation in a context. -/
def remediationPayload (r : RemediationData) : Json :=
  .obj [("findings", .arr (r.findings.map findingPayload)),
    ("review_operation_id", r.reviewOperationId.elim .null .str),
    ("source_attempt_id", .str r.sourceAttemptId.val)]

/-- The context of a new Attempt. -/
def contextText (inputs : List InputBinding) : Option RemediationData → String
  | none => dumps (.arr (inputs.map InputBinding.payload))
  | some r => dumps (.obj [("inputs", .arr (inputs.map InputBinding.payload)),
      ("remediation", remediationPayload r), ("version", .int 1)])

section

variable [Sha256]

/-- The Attempt of a unit, or of the remediation of an Attempt of it. -/
def attemptIdOf (programId unitId : Name) : Option Name → String
  | none => programId.val ++ ":" ++ unitId.val
  | some source => programId.val ++ ":" ++ unitId.val ++ ":remediation:" ++
      String.ofList ((Sha256.hexdigest source.val).val.toList.take 16)

/-- `"sha256:"` and the digest of a text. -/
def referenceOf (text : String) : String := "sha256:" ++ (Sha256.hexdigest text).val

/-- The request an Attempt is admitted with. -/
def prepareRequest (attempt : AttemptSpec) (workspaceKey : Name) (allocation context : String) :
    EffectRequest where
  fields := [("allocation", .str allocation), ("attempt", .str attempt.digest.val),
    ("context", .str context), ("version", .int 1), ("workspace", .str workspaceKey.val)]
  wf := by
    simp only [Json.wf_obj, List.map_cons, List.map_nil]
    exact ⟨by decide, by simp⟩

/-- What a call does about the Attempt it is about. -/
inductive Advanced
  /-- The Attempt is on record; the rest of the call dispatches or observes it. -/
  | found (attempt : Attempt)
  /-- The Attempt was admitted. -/
  | prepared (attempt : AttemptSpec) (remediation : Option RemediationData) (context : String)
      (p : Program) (s : Store)

/-- The source of a remediation. -/
def sourceOf : Option String → Except Stop (Option Name)
  | none => .ok none
  | some source => if h : Nonblank source then .ok (some ⟨source, h⟩)
    else .error (.raised ⟨.valueError, "remediation requires an exact source Attempt"⟩)

/-- What is remediated: an Attempt on record must be the one of the same source. -/
def remediated (blobs : Blobs) (damage : Damage) (s : Store) (p : Program) (unitId : Name)
    (existing : Option Attempt) : Option Name → Except Stop (Option RemediationData)
  | none => .ok none
  | some source =>
    match existing with
    | none => some <$> remediationData blobs damage s p unitId source
    | some attempt => do
      check (attempt.spec.remediationOf = some source) (.raised ⟨.valueError,
        "persisted remediation Attempt differs from its source reference"⟩)
      return none

/-- The admission of a new Attempt. -/
def admitAttempt (s : Store) (p : Program) (c : AdvanceCall) (attemptId : String)
    (source : Option Name) (remediation : Option RemediationData) : Except Stop Advanced := do
  check (∀ b ∈ p.spec.initialInputs.toList, b.name.val ≠ "ordinary-declaration") (.raised
    ⟨.valueError, "ordinary dispatch is not supported by the reference composition"⟩)
  raising (s.checkWorkAuthority c.cut p.programId)
  check (c.cancelled = false) (.returned "cancel_requested")
  check (c.expired = false) (.returned "expired")
  let allocation ← raising c.selected
  check (c.cancelledLater = false) (.returned "cancel_requested")
  let allocationBytes := Routing.encodeAllocation allocation
  let inputs ← raising (p.resolvedInputs c.unitId)
  let context := contextText inputs remediation
  let attempt ← raising (AttemptSpec.init attemptId p.programId.val c.unitId.val p.spec.revision
    p.spec.digest.val inputs (some (referenceOf allocationBytes)) (some "reference:v1")
    (some c.workspaceKey.val) (some (referenceOf context)) (source.map Subtype.val))
  raising c.fault
  let operationId := "runtime:" ++ attemptId
  let t := Runs.run Store.nextOrReopen s c.others
  let (q, s') ← raising (t.admitCommand c.cut p.programId ("prepare:" ++ attemptId)
    ⟨p.revision, worker, .prepareAttempt attempt⟩
    (some ⟨operationId, operationId, prepareRequest attempt c.workspaceKey allocationBytes context⟩))
  return .prepared attempt remediation context q s'

/-- `advance_work_unit` up to the admission of the Attempt. -/
def advance (blobs : Blobs) (s : Store) (c : AdvanceCall) : Except Stop Advanced := do
  let p ← raising (s.loadHead c.programId)
  check (¬((∃ name ∈ c.policy.checks, name.val = "independent_review") ∧
    c.policy.reviewerRequired = false)) (.raised ⟨.budgetRefused,
      "explicit independent_review requires the durable product review policy"⟩)
  let state ← raising (p.state c.unitId)
  check (state.status ≠ .satisfied) (.returned "accepted")
  check (c.policy.reviewerRequired = true → c.reviewer = true)
    (.returned "product_review_dispatcher_required")
  let source ← sourceOf c.remediationOf
  let attemptId := attemptIdOf p.programId c.unitId source
  let existing := p.attempts.find? fun a => a.attemptId.val = attemptId
  let remediation ← remediated blobs c.damage s p c.unitId existing source
  let rejected ← raising (findArtifact c.damage s ("rejection:" ++ attemptId) "rejected-result")
  check (rejected = none) (.returned "rejected")
  match existing with
  | some attempt => return .found attempt
  | none => admitAttempt s p c attemptId source remediation

end

end Application

end CreatidyKernel
