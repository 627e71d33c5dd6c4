import CreatidyKernel.Publication.Forge

set_option relaxedAutoImplicit false
set_option autoImplicit false

/-!
# Publication of accepted work

A call publishes one accepted handoff: a pull request, then a receipt on the issue. Each action
is an operation of the journal with its own authorization, and an artifact of its own says that
the physical write has begun, before it begins.

## Main definitions

* `Publication.accepted`, `Publication.beforeSend`, `Publication.nativeCurrent` — the guards.
* `Publication.comments`, `Publication.prReadback` — the reads of the listings.
* `Publication.publish` — a call.
* `Publication.Event`, `Publication.next` — the system.
-/

namespace CreatidyKernel

namespace Publication

open Checked Action

/-! ## The desk -/

/-- A transaction. -/
def transact {α : Type} (g : Desk → Except Failure (α × Desk)) : Act α := fun s =>
  match g s with
  | .error f => (.error (.failed f), s)
  | .ok (a, s') =>
    if s.allowance = 0 then (.error .crashed, s)
    else (.ok a, { s' with allowance := s.allowance - 1 })

/-- A transaction of the journal. -/
def onJournal {α : Type} (g : Journal → Except Failure (α × Journal)) : Act α :=
  transact fun s => do
    let (a, j) ← g s.journal
    return (a, { s with journal := j })

/-- Read the row of an operation. -/
def operation (key : String) : Act Operation := do
  let s ← read
  of ((s.journal.operation key).mapError .failed)

/-- `find_artifact`, on the rows. -/
def findArtifact (artifacts : List Artifact) (operation name : String) : Option String :=
  (artifacts.find? fun a => a.operation = operation ∧ a.name = name).map Artifact.data

/-- `_finalize_artifact`, on the rows. -/
def finalizeRow (s : Desk) (operation name data : String) : Except Failure (Unit × Desk) := do
  let _ ← s.journal.operation operation
  Journal.validateCommandKey name
  match findArtifact s.artifacts operation name with
  | some existing => do
    check (existing = data) ⟨.operationConflict, "artifact reference is immutable"⟩
    return ((), s)
  | none => return ((), { s with artifacts := s.artifacts ++ [⟨operation, name, data⟩] })

/-- `finalize_artifact`; the artifact budget and the blobs are a question. -/
def finalizeArtifact (w : World) (operation name data : String) : Act Unit := do
  ask w.guard
  transact fun s => finalizeRow s operation name data

/-- The exchanges of a part of a call, beside its value. -/
def watched {α : Type} (m : Act α) : Act (α × List Exchange) := do
  let s ← read
  let a ← m
  let s' ← read
  return (a, s'.wire.drop s.wire.length)

/-! ## Guards -/

/-- `WorkClaim`, as far as a publication reads it. -/
structure WorkClaim where
  commandKey : String
  generation : ℕ
deriving DecidableEq

/-- `OrdinaryHandoff`. -/
structure Handoff where
  attempt : AttemptSpec
  claim : WorkClaim

/-- What `accepted` returns. -/
structure Received where
  program : Name
  spec : Name
  unit : Name
  satisfaction : Name
  attempt : Name
  candidate : Name
  head : String
  base : String
  issue : ℕ
  approval : String
deriving DecidableEq

/-- The JSON form of what `accepted` returns. -/
def Received.payload (r : Received) : Json :=
  .obj [("approval", .str r.approval), ("attempt", .str r.attempt.val), ("base", .str r.base),
    ("candidate", .str r.candidate.val), ("head", .str r.head), ("issue", .int r.issue),
    ("program", .str r.program.val), ("satisfaction", .str r.satisfaction.val),
    ("spec", .str r.spec.val), ("unit", .str r.unit.val)]

/-- A failure of the Program store. -/
def stored {α : Type} (x : Except Failure α) : Except Stop α := x.mapError .failed

/-- The approved draft of the handed-off unit. -/
def draftOf (c : Setup) (h : Handoff) : Except Stop Intake.Draft :=
  match c.approved.drafts.find? fun d => d.taskId = h.attempt.workUnitId.val with
  | some draft => .ok draft
  | none => .error .exhausted

section

variable [Sha256]

/-- The digest of the candidate with the patch as the artifact of each declared output. -/
def candidateDigest (program : Program) (unit attemptId : Name) (candidate : Candidate) :
    Except Stop Name := do
  let unit ← stored (program.spec.workUnit unit)
  let outputs := (SortedBy.sortBy id (unit.outputs.toList.map Subtype.val)).map fun name =>
    (name, "candidate.patch")
  let result ← stored (CandidateResult.init ("candidate:" ++ attemptId.val) candidate outputs)
  return result.digest

/-- `accepted`, as a function of what it reads. -/
def acceptedOf (c : Setup) (h : Handoff) (collected : Option (Candidate × Collection))
    (s : Standing) : Except Stop Received := do
  let state ← stored (s.program.state h.attempt.workUnitId)
  let fact := s.program.satisfactions.find? fun f => some f.referenceId = state.satisfactionId
  match fact, collected with
  | some fact, some (candidate, collection) => do
    check (s.program.spec.digest = c.approved.specDigest ∧
        fact.sourceAttemptId = h.attempt.attemptId)
      (.refused
        "native publication requires the selected current Kernel satisfaction, not CI or ticket state")
    check (candidate.specDigest = h.attempt.digest.val ∧ s.captured = s.handed)
      (.refused "accepted candidate ownership or exact bytes changed")
    let draft ← draftOf c h
    check (draft.evidence.subject.origin.val = c.origin ∧
        draft.evidence.subject.repository.val = c.repository)
      (.refused "publication escaped the approved native issue repository")
    check ("forgejo:pr" ∈ draft.declaration.effects ∧
        "forgejo:receipt" ∈ draft.declaration.effects)
      (.refused "ordinary declaration did not receive both bounded publication effects")
    let candidate ← candidateDigest s.program fact.workUnitId h.attempt.attemptId candidate
    return {
      program := s.program.spec.programId, spec := s.program.spec.digest
      unit := fact.workUnitId, satisfaction := fact.referenceId, attempt := h.attempt.digest
      candidate, head := collection.head, base := collection.base
      issue := draft.evidence.subject.issue, approval := c.approved.decisionId }
  | _, _ => .error (.refused
      "native publication requires the selected current Kernel satisfaction, not CI or ticket state")

/-- `accepted`. -/
def accepted (w : World) (c : Setup) (h : Handoff) : Act Received := do
  let standing ← ask w.standing
  of (acceptedOf c h w.collected standing)

/-- `before_send`; the final cut of `check_operation_delivery` is a question. -/
def beforeSend (w : World) (c : Setup) (h : Handoff) : Act Unit := do
  let _ ← accepted w c h
  let policy ← ask fun n => .ok (w.policy n)
  of (check (policy = c.approved.policyDigest) (.refused "publication policy changed"))
  ask w.guard

/-- The body of the loop of `native_current`. -/
def draftCurrent (w : World) (c : Setup)
    (subject : Intake.Draft × List (String × String × ℕ)) : Act Unit := do
  let evidence := subject.1.evidence
  let repository := evidence.subject.repository.val
  let issue ← issueSnapshot w c.repository repository evidence.subject.issue
  let base ← branch w c.repository repository evidence.subject.branch.val
  of (check (issue.presence = .found ∧ issue.contentDigest = evidence.issueDigest.val ∧
      issue.state = evidence.issueState.val ∧ base.1 = .found ∧
      base.2 = some evidence.subject.base.val)
    (.refused "native issue meaning or observed base changed before publication"))
  let edges ← ask w.edges
  of (check (edges.complete = true ∧ edges.required = subject.2)
    (.refused "native required predecessors changed or became unverified"))

/-- `native_current`. -/
def nativeCurrent (w : World) (c : Setup) : Act Unit := do
  let _ ← each (draftCurrent w c) (c.approved.drafts.zip c.approved.required)
  return ()

/-- `authorized`. -/
def authorized (w : World) (c : Setup) (h : Handoff) (active : String × ℕ) (effect : Effect) :
    Act Bool := do
  if active = (effect.operation.operationId, effect.fence) then
    nativeCurrent w c
    beforeSend w c h
    return true
  else return false

/-- `authorized_readback`. -/
def authorizedReadback (w : World) (c : Setup) (h : Handoff) (active : String × ℕ)
    (effect : Effect) : Act Bool := do
  if active = (effect.operation.operationId, effect.fence) then
    let original ← operation effect.operation.operationId
    if original.effectKey = effect.operation.effectKey ∧
        original.requestDigest = effect.operation.requestDigest ∧
        original.fence = effect.fence then
      -- read permission for the recorded effect is not a new delivery lease
      let _ ← accepted w c h
      return true
    else return false
  else return false

/-- The adapter of a call, for its effect. -/
def forge (w : World) (c : Setup) (h : Handoff) (active : String × ℕ) (effect : Effect) : Forge :=
  ⟨w, c.repository, c.maxBytes, active.1, authorized w c h active effect,
    authorizedReadback w c h active effect, beforeSend w c h⟩

end

/-! ## Reading the listings -/

/-- The address of an issue. -/
def issueUrl (c : Setup) (issue : ℕ) : String :=
  c.origin ++ "/api/v1/repos/" ++ c.repository ++ "/issues/" ++ toString issue

/-- The reference of a comment. -/
def commentReference (c : Setup) (id : ℤ) : String :=
  "forgejo:" ++ c.repository ++ ":comment:" ++ toString id

/-- The reference of a pull request. -/
def changeReference (c : Setup) (number : ℕ) : String :=
  "forgejo:" ++ c.repository ++ "#" ++ toString number

/-- The entries of an item of a listing, if it is a dictionary. -/
def entries (item : Json) : List (String × Json) := (object item).getD []

/-- The identity of a comment. -/
def commentId (item : Json) : Option ℤ :=
  match get (entries item) "id" with
  | .int key => if 0 < key then some key else none
  | _ => none

/-- The text of a comment. -/
def commentText (item : Json) : Option String :=
  match get (entries item) "body" with
  | .str content => some content
  | _ => none

/-- A comment with exactly the text of the effect, by the expected account, on the issue. -/
def ExactComment (c : Setup) (issue : ℕ) (body : String) (item : Json) : Prop :=
  commentText item = some body ∧
    (object (get (entries item) "user")).map (get · "login") = some (.str c.login) ∧
    get (entries item) "issue_url" = .str (issueUrl c issue)

instance (c : Setup) (issue : ℕ) (body : String) (item : Json) :
    Decidable (ExactComment c issue body item) := inferInstanceAs (Decidable (_ ∧ _ ∧ _))

/-- The loop of `_comments`. -/
def scanComments (c : Setup) (issue : ℕ) (body marker : String) :
    List ℤ → List String → List Json → Option (List String)
  | _, matches_, [] => some matches_
  | seen, matches_, item :: rest =>
    match commentId item, commentText item with
    | some key, some content =>
      if key ∈ seen then none
      else if ¬Mentions content marker then
        scanComments c issue body marker (seen ++ [key]) matches_ rest
      else if ExactComment c issue body item then
        scanComments c issue body marker (seen ++ [key]) (matches_ ++ [commentReference c key]) rest
      else none
    | _, _ => none

/-- What `_comments` makes of an answer. -/
def commentsOf (c : Setup) (issue : ℕ) (body marker : String) (answer : ℤ × Json) :
    Option (List String) :=
  match answer with
  | (200, .arr items) =>
    if c.maxPages * 30 < items.length then none else scanComments c issue body marker [] [] items
  | _ => none

/-- `_comments`. -/
def comments (w : World) (c : Setup) (issue : ℕ) (body : String) (identity : OperationKey) :
    Act (Option (List String)) := do
  let answer ← request w (.comments issue)
  return commentsOf c issue body (effectMarker identity) answer

/-- What the body of a listed pull request says. -/
inductive Listed
  /-- It is read, and does not carry the marker. -/
  | unmarked
  | marked
  | unreadable
deriving DecidableEq

/-- What an answer about a listed pull request says. -/
def listedOf (marker : String) (answer : ℤ × Json) : Listed :=
  match answer with
  | (200, .obj data) =>
    match get data "body" with
    | .null => .unmarked
    | .str body => if Mentions body marker then .marked else .unmarked
    | _ => .unreadable
  | _ => .unreadable

section

variable [Sha256]

/-- The confirming read of a listed pull request that carries the marker: the reference it
adds, unless the effect conflicts. -/
def confirmListed (f : Forge) (effect : Effect) (base : String) (number : ℕ) :
    Act (Option (List ℕ)) := do
  match ← attempt (f.reconcile effect (some number)) with
  | .ok receipt =>
    -- a receipt of another status is passed over
    if receipt.status = .accepted ∧ receipt.observedBase = some base then return some [number]
    else return some []
  | .error (.conflict _) => return none
  | .error e => raise e

/-- One item of a page of `_pr_readback`. -/
def scanItem (f : Forge) (effect : Effect) (base : String) (number : ℕ) :
    Act (Option (List ℕ)) := do
  let answer ← request f.world (.pull number)
  match listedOf (effectMarker effect.operation) answer with
  | .unreadable => return none
  | .unmarked => return some []
  | .marked => confirmListed f effect base number

/-- The loop of `_pr_readback` over the items of a page. -/
def scanItems (f : Forge) (effect : Effect) (base : String) :
    List ℕ → List ℕ → List Change → Act (Option (List ℕ × List ℕ))
  | seen, references, [] => return some (seen, references)
  | seen, references, item :: rest =>
    if item.number ∈ seen then return none
    else do
      match ← scanItem f effect base item.number with
      | none => return none
      | some found =>
        scanItems f effect base (seen ++ [item.number]) (references ++ found) rest

/-- The receipt of a complete listing. -/
def scanned (base : String) : List ℕ → Receipt
  | [number] => ⟨.accepted, some number, some base⟩
  | _ => Receipt.unknown

/-- The loop of `_pr_readback` over the pages. -/
def scanPages (f : Forge) (effect : Effect) (base : String) :
    ℕ → Option ℕ → List ℕ → List ℕ → Act Receipt
  | 0, _, _, _ => return Receipt.unknown
  | pages + 1, cursor, seen, references => do
    let page ← changes f.world f.repository cursor
    if ¬page.complete ∧ page.nextCursor = none then return Receipt.unknown
    else
      match ← scanItems f effect base seen references page.items with
      | none => return Receipt.unknown
      | some (seen', references') =>
        if page.nextCursor = none then return scanned base references'
        else if page.nextCursor = cursor then return Receipt.unknown
        else scanPages f effect base pages page.nextCursor seen' references'

/-- `_pr_readback`. -/
def prReadback (w : World) (c : Setup) (h : Handoff) (active : String × ℕ) (effect : Effect) :
    Act Receipt := do
  let received ← accepted w c h
  scanPages (forge w c h active effect) effect received.base c.maxPages none [] []

/-! ## The topic -/

/-- The key of the topic of an Attempt. -/
def topicKey (attemptId : Name) : String := "ordinary-publication-topic:" ++ attemptId.val

/-- The request a topic is recorded with. -/
def topicRequest (topic : String) : EffectRequest where
  fields := [("bytes", .str (dumps (.obj [("topic", .str topic)]))),
    ("kind", .str "ordinary-intake-record"), ("version", .int 1)]
  wf := by
    have hkeys : (["bytes", "kind", "version"] : List String).Pairwise (· < ·) := by decide
    exact (Json.wf_obj _).2 ⟨hkeys, by simp⟩

omit [Sha256] in
/-- A JSON value Python takes for `1`. -/
def isOne : Json → Bool
  | .int n => n = 1
  | .bool b => b
  | .float text => text.val = ['1', '.', '0']
  | _ => false

omit [Sha256] in
/-- The topic of a recorded intent. -/
def topicOf (prior : Operation) : Except Stop String :=
  let malformed : Except Stop String := .error (.refused "publication topic intent is malformed")
  match loads prior.requestJson with
  | some (.obj wrapper) =>
    match get wrapper "request" with
    | .obj original =>
      match get original "bytes" with
      | .str raw =>
        if get original "kind" = .str "ordinary-intake-record" ∧
            isOne (get original "version") = true then
          match loads raw with
          | some (.obj [("topic", .str topic)]) =>
            if IsTopic topic then .ok topic
            else .error (.refused "publication topic intent is invalid")
          | some (.obj _) => .error (.refused "publication topic intent is invalid")
          | _ => .error (.refused "invalid intake encoding")
        else malformed
      | _ => malformed
    | _ => malformed
  | _ => .error (.refused "invalid intake encoding")

/-- The topic of a call: a fresh one is recorded before it is used, later calls read it. -/
def chooseTopic (w : World) (key : String) (saved : Option String) : Act String := do
  let s ← read
  match s.journal.operations.filter fun o => o.operationId = key with
  | [] => do
    of (check (saved = none) (.refused "publication topic has no original intent"))
    let token ← ask fun n => .ok (w.token n)
    let _ ← onJournal fun j => j.intent key key (topicRequest (freshAgitTopic token))
    return freshAgitTopic token
  | [prior] => do
    of (check (prior.effectKey = key) (.refused "publication topic intent is ambiguous"))
    of (topicOf prior)
  | _ => raise (.refused "publication topic intent is ambiguous")

/-- The part of `publish` about the topic. -/
def durableTopic (w : World) (h : Handoff) : Act String := do
  let key := topicKey h.attempt.attemptId
  let s ← read
  let saved := findArtifact s.artifacts key "topic"
  let topic ← chooseTopic w key saved
  match saved with
  | none => finalizeArtifact w key "topic" topic
  | some saved => of (check (saved = topic)
      (.refused "publication topic artifact differs from original intent"))
  write fun s => { s with topics := s.topics ++ [(h.attempt.attemptId.val, topic)] }
  return topic

/-! ## Authorization -/

/-- The key of an action of a publication. -/
def publishKey (attemptId : Name) (step : Step) : String :=
  "ordinary-publish:" ++ attemptId.val ++ ":" ++ step.value

/-- `asdict(subject)`. -/
def subjectPayload (s : EvidenceSubject) : Json :=
  .obj [("attempt_digest", .str s.attemptDigest.val), ("base_revision", .str s.baseRevision.val),
    ("candidate_digest", .str s.candidateDigest.val),
    ("head_revision", .str s.headRevision.val), ("policy_digest", .str s.policyDigest.val),
    ("repository", .str s.repository.val), ("spec_digest", .str s.specDigest.val)]

/-- The constructor of the evidence subject of a publication. -/
def subjectOf (c : Setup) (h : Handoff) (r : Received) : Except Stop EvidenceSubject :=
  if hb : Nonblank r.base then
    if hh : Nonblank r.head then
      .ok ⟨r.candidate, h.attempt.digest, c.approved.specDigest, c.verification, c.repositoryUrl,
        ⟨r.base, hb⟩, ⟨r.head, hh⟩⟩
    else .error (.refused "verification identifiers must be nonempty strings")
  else .error (.refused "verification identifiers must be nonempty strings")

/-- The request an action is authorized with. -/
def publicationRequest (c : Setup) (r : Received) (subject : EvidenceSubject) (topic : String)
    (step : Step) : EffectRequest where
  fields := [("accepted", r.payload), ("action", .str step.value),
    ("kind", .str "ordinary-publication"), ("login", .str c.login), ("origin", .str c.origin),
    ("subject", subjectPayload subject), ("topic", .str topic)]
  wf := by
    have hkeys : (["approval", "attempt", "base", "candidate", "head", "issue", "program",
        "satisfaction", "spec", "unit"] : List String).Pairwise (· < ·) := by decide
    have hsubject : (["attempt_digest", "base_revision", "candidate_digest", "head_revision",
        "policy_digest", "repository", "spec_digest"] : List String).Pairwise (· < ·) := by decide
    have hfields : (["accepted", "action", "kind", "login", "origin", "subject", "topic"] :
        List String).Pairwise (· < ·) := by decide
    refine (Json.wf_obj _).2 ⟨hfields, ?_⟩
    simp only [List.forall_mem_cons, Json.wf_str, Received.payload, subjectPayload,
      Json.wf_obj, Json.wf_int, List.map_cons, List.map_nil, hkeys, hsubject]
    simp

/-- `find_claim_publication`, after the claim is known to be the original one. -/
def findPublication (s : Desk) (c : Setup) (claim : WorkClaim) (key : String)
    (request : EffectRequest) : Except Failure (Option Operation) :=
  match s.authorizations.find? fun a => a.operation = key with
  | none => do
    check (∀ o ∈ s.journal.operations, o.operationId ≠ key ∧ o.effectKey ≠ key)
      ⟨.idempotencyConflict, "existing effect lacks an original matching owner authorization"⟩
    return none
  | some record => do
    check (record.claim = claim.commandKey ∧ record.owner = c.owner ∧
        record.generation = claim.generation ∧ record.effectKey = key ∧
        record.requestDigest = Sha256.hexdigest request.json)
      ⟨.idempotencyConflict, "publication authorization input differs from its recorded decision"⟩
    let operation ← s.journal.operation key
    check (operation.effectKey = record.effectKey ∧
        operation.requestDigest = record.requestDigest)
      ⟨.ownershipConflict, "publication authorization differs from immutable Operation input"⟩
    return some operation

/-- The transaction of `authorize_claim_publication`. -/
def insertPublication (s : Desk) (c : Setup) (claim : WorkClaim) (key : String)
    (request : EffectRequest) : Except Failure (Operation × Desk) := do
  let j ← s.journal.insertIntent key key request true
  let operation ← j.operation key
  return (operation, { s with
    journal := j
    authorizations := s.authorizations ++ [⟨key, claim.commandKey, c.owner, claim.generation,
      key, operation.requestDigest⟩] })

/-- `authorize_publication`; the checks of the claim, the candidate, the budget and the recorded
satisfaction are questions. -/
def authorizePublication (w : World) (c : Setup) (claim : WorkClaim) (key : String)
    (request : EffectRequest) : Act Operation := do
  ask w.guard
  let s ← read
  match ← of (stored (findPublication s c claim key request)) with
  | some original => do
    ask w.guard
    return original
  | none => do
    ask w.guard
    transact fun s => insertPublication s c claim key request

/-- `dispatch` for an operation that was never delivered; the checks of the claim and of the
dispatch are a question. -/
def dispatch (w : World) (key : String) : Act ℕ := do
  ask w.guard
  let now ← ask fun n => .ok (w.now n)
  onJournal fun j => j.claim key now 120

/-- The row, the delivery attempts and the fence of an authorized action. -/
def delivery (w : World) (key : String) (op : Operation) : Act (Operation × ℕ × ℕ) := do
  let s ← read
  if s.journal.attempts key = 0 then
    let fence ← dispatch w key
    let op ← operation key
    let s ← read
    return (op, s.journal.attempts key, fence)
  else return (op, s.journal.attempts key, op.fence)

omit [Sha256] in
/-- The text of a publication. -/
def bodyOf (r : Received) (identity : OperationKey) : String :=
  "Kernel accepted immutable work; this does not close, merge or release native work.\n" ++
    dumps r.payload ++ "\n" ++ effectMarker identity

omit [Sha256] in
/-- The constructor of the effect of a publication. -/
def effectOf (draft : Intake.Draft) (r : Received) (topic : String) (op : Operation)
    (attempts fence : ℕ) : Except Stop Effect := do
  check (0 < fence ∧ 0 < attempts) (.conflict "durably claimed delivery required")
  let identity : OperationKey := ⟨op.operationId, op.effectKey, op.requestDigest⟩
  return ⟨identity, topic, r.head, draft.evidence.subject.branch.val,
    "Kernel accepted candidate for issue #" ++ toString draft.evidence.subject.issue,
    bodyOf r identity, fence, attempts⟩

/-! ## Delivery -/

/-- The guard artifact of a physical write. -/
def sendMark (key : String) (fence : ℕ) : String :=
  dumps (.obj [("fence", .int fence), ("operation", .str key)])

/-- Whether the physical write of an operation has begun. -/
def started (s : Desk) (key : String) : Bool := (findArtifact s.artifacts key "physical-send").isSome

/-- The receipt of a call that may write. -/
def applyOnce (w : World) (c : Setup) (h : Handoff) (active : String × ℕ) (effect : Effect) :
    Act (Option (Receipt × List Exchange)) := do
  let s ← read
  if started s active.1 then return none
  else do
    finalizeArtifact w active.1 "physical-send" (sendMark active.1 active.2)
    let receipt ← watched ((forge w c h active effect).apply effect)
    return some receipt

/-- The receipt a call begins with. -/
def firstReceipt (w : World) (c : Setup) (h : Handoff) (active : String × ℕ) (effect : Effect)
    (op : Operation) (saved : Option String) : Act (Option (Receipt × List Exchange)) :=
  if 1 < effect.deliveryAttempts ∨ saved ≠ none ∨ op.status ≠ .dispatched then do
    let receipt ← watched (prReadback w c h active effect)
    -- `started` is only asked for when there is no receipt
    return some receipt
  else applyOnce w c h active effect

/-- A receipt that needs no further read. -/
def Receipt.AcceptedAt (base : String) (receipt : Receipt) : Prop :=
  receipt.status = .accepted ∧ receipt.observedBase = some base

instance (base : String) (receipt : Receipt) : Decidable (receipt.AcceptedAt base) :=
  inferInstanceAs (Decidable (_ ∧ _))

/-- The receipt a call ends with. -/
def lastReceipt (w : World) (c : Setup) (h : Handoff) (active : String × ℕ) (effect : Effect)
    (base : String) (first : Option (Receipt × List Exchange)) : Act (Receipt × List Exchange) :=
  match first.filter fun r => decide (r.1.AcceptedAt base) with
  | some receipt => return receipt
  | none => watched (prReadback w c h active effect)

/-- The reference of an accepted receipt. -/
def found (c : Setup) (last : Receipt × List Exchange) : Option (String × List Exchange) :=
  if last.1.status = .accepted then
    last.1.reference.map fun number => (changeReference c number, last.2)
  else none

/-- The action `pr` of a call. -/
def deliverPr (w : World) (c : Setup) (h : Handoff) (active : String × ℕ) (effect : Effect)
    (op : Operation) (saved : Option String) (base : String) :
    Act (Option (String × List Exchange)) := do
  let first ← firstReceipt w c h active effect op saved
  let last ← lastReceipt w c h active effect base first
  return found c last

/-- The single match of a listing of comments. -/
def onlyMatch : Option (List String) → Option String
  | some [reference] => some reference
  | _ => none

/-- The `POST` of a receipt, whose reply does not matter. -/
def postComment (w : World) (c : Setup) (h : Handoff) (key : String) (issue : ℕ)
    (body : String) : Act Unit := do
  beforeSend w c h
  spend
  write fun s => { s with wire := s.wire ++ [.sent key (.comment issue body)] }
  ask w.post

/-- The reference a listing of comments gives. -/
def commented (listed : Option (List String) × List Exchange) : Option (String × List Exchange) :=
  (onlyMatch listed.1).map fun reference => (reference, listed.2)

/-- The write of a receipt and the read after it. -/
def commentOnce (w : World) (c : Setup) (h : Handoff) (active : String × ℕ) (effect : Effect)
    (issue : ℕ) : Act (Option (String × List Exchange)) := do
  nativeCurrent w c
  finalizeArtifact w active.1 "physical-send" (sendMark active.1 active.2)
  match ← attempt (postComment w c h active.1 issue effect.body) with
  | .ok () | .error .lost => do
    let again ← watched (comments w c issue effect.body effect.operation)
    return commented again
  | .error e => raise e

/-- The action `receipt` of a call. -/
def deliverReceipt (w : World) (c : Setup) (h : Handoff) (active : String × ℕ) (effect : Effect)
    (op : Operation) (issue : ℕ) : Act (Option (String × List Exchange)) := do
  let first ← watched (comments w c issue effect.body effect.operation)
  let s ← read
  if first.1 = some [] ∧ started s active.1 = false ∧ op.status = .dispatched then
    commentOnce w c h active effect issue
  else return commented first

/-- The check after the read of a reference, which observes and does not fence. -/
def postflight (w : World) (c : Setup) (found : Option (String × List Exchange)) :
    Act (Option (String × List Exchange)) := do
  match found with
  | none => return none
  | some found => do
    match ← attempt (nativeCurrent w c) with
    | .ok () => return some found
    | .error (.conflict _) | .error (.refused _) | .error .lost => return none
    | .error e => raise e

/-- The text of a native receipt. -/
def nativeReceipt (identity : OperationKey) (reference : String) (r : Received) (step : Step) :
    String :=
  dumps (.obj [("accepted", r.payload), ("action", .str step.value),
    ("operation", .obj [("effect_key", .str identity.effectKey),
      ("operation_id", .str identity.operationId),
      ("request_digest", .str identity.requestDigest.val)]),
    ("profile", .str "forgejo-native-readback:v1"), ("reference", .str reference)])

/-- The record of what a call found. -/
def recordFound (w : World) (c : Setup) (effect : Effect) (r : Received) (step : Step)
    (active : String × ℕ) (issue : ℕ) : Option (String × List Exchange) → Act (Option String)
  | none => do
    let _ ← onJournal fun j => j.observe active.1 active.2 (active.1 ++ ":unknown") .unknown none
    return none
  | some (reference, trail) => do
    write fun s => { s with
      recorded := s.recorded ++ [⟨step, c, effect, r.base, issue, reference, trail⟩] }
    finalizeArtifact w active.1 "native-receipt"
      (nativeReceipt effect.operation reference r step)
    let _ ← onJournal fun j =>
      j.observe active.1 active.2 (active.1 ++ ":accepted") .accepted (some reference)
    -- `record_work_settlement`
    ask w.guard
    return some reference

/-- The read and the write of one action. -/
def deliverStep (w : World) (c : Setup) (h : Handoff) (active : String × ℕ) (effect : Effect)
    (op : Operation) (saved : Option String) (base : String) (issue : ℕ) :
    Step → Act (Option (String × List Exchange))
  | .pr => deliverPr w c h active effect op saved base
  | .receipt => deliverReceipt w c h active effect op issue

/-- One action of a call. -/
def deliver (w : World) (c : Setup) (h : Handoff) (r : Received) (topic : String) (step : Step) :
    Act (Option String) := do
  let draft ← of (draftOf c h)
  let key := publishKey h.attempt.attemptId step
  let subject ← of (subjectOf c h r)
  let original ← authorizePublication w c h.claim key (publicationRequest c r subject topic step)
  let s ← read
  let saved := findArtifact s.artifacts key "native-receipt"
  let (op, attempts, fence) ← delivery w key original
  let effect ← of (effectOf draft r topic op attempts fence)
  let issue := draft.evidence.subject.issue
  let found ← deliverStep w c h (key, fence) effect op saved r.base issue step
  let current ← postflight w c found
  recordFound w c effect r step (key, fence) issue current

/-- `publish`. -/
def publish (w : World) (c : Setup) (h : Handoff) : Act (String × String) := do
  let received ← accepted w c h
  let topic ← durableTopic w h
  match ← deliver w c h received topic .pr with
  | none => return ("unknown", "held")
  | some pr => do
    match ← deliver w c h received topic .receipt with
    | none => return ("unknown", "held")
    | some receipt => return (pr, receipt)

/-! ## The system -/

/-- A step of the system: a call in a process that lives for some events, or a call of the
journal by another actor. -/
inductive Event
  | publish (allowance : ℕ) (world : World) (setup : Setup) (handoff : Handoff)
  | journal (call : Journal.Call)

/-- The desk after a step. -/
def next (s : Desk) : Event → Desk
  | .publish allowance w c h => (publish w c h { s with allowance := allowance, asked := 0 }).2
  | .journal call => { s with journal := s.journal.next call }

/-- The desk of a new database. -/
def Desk.empty : Desk := ⟨Journal.empty, [], [], 0, 0, [], [], []⟩

end

end Publication

end CreatidyKernel
