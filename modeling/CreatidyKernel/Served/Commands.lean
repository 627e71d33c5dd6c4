import CreatidyKernel.Codec.Records
import CreatidyKernel.Core.Ownership
import CreatidyKernel.Store.History
import CreatidyKernel.Store.Journal

set_option relaxedAutoImplicit false
set_option autoImplicit false

/-!
# Served commands

A local client sends requests over a capability the host bound to a Program, an actor and the
subject the request may act on. A request that has an effect is recorded first: its intent is an
operation under an identity made of the scope, the actor and the command id. Then the effect is
performed, and last its receipt is stored beside the operation. The process may stop anywhere
in between.

## Main definitions

* `ServedStore` — what the commands read and write.
* `Attempted` — a request in its exact form, with what may come of its effect.
* `Attempted.serve` — the record, effect, receipt protocol.
* `OwnerChannel.stop`, `OwnerChannel.startManaged`, `OwnerChannel.reconcile`,
  `OwnerChannel.approve`, `WorkerChannel.start`, `WorkerChannel.quiesce`, `WorkerChannel.submit`,
  `WorkerChannel.report`, `WorkerChannel.renew` — the commands.
* `WorkerChannel.claim` — the command that reads its handoff again when it is replayed.
* `Served.next` — the store after a request, or after what anyone else does to it.
-/

namespace CreatidyKernel

open Checked Codec

/-! ## Dictionaries -/

/-- A dictionary JSON can represent. -/
abbrev Dictionary := EffectRequest

namespace Json

/-- Fields with distinct keys are all in the dictionary they build. -/
theorem mem_dictOf {fs : List (String × Json)} (h : (fs.map Prod.fst).Nodup)
    {f : String × Json} : f ∈ dictOf fs ↔ f ∈ fs := by
  rw [dictOf, SortedBy.mem_sortBy, keepLast_of_nodup h]

theorem keepLast_sublist (fs : List (String × Json)) : (keepLast fs).Sublist fs := by
  induction fs with
  | nil => exact .slnil
  | cons f fs ih =>
    rw [keepLast]
    split
    · exact ih.cons f
    · exact ih.cons_cons f

theorem nodup_keepLast (fs : List (String × Json)) : ((keepLast fs).map Prod.fst).Nodup := by
  induction fs with
  | nil => exact List.nodup_nil
  | cons f fs ih =>
    rw [keepLast]
    split
    · exact ih
    · rename_i hf
      rw [List.map_cons, List.nodup_cons]
      exact ⟨fun h => hf (((keepLast_sublist fs).map Prod.fst).subset h), ih⟩

/-- A dictionary of well-formed values is well formed. -/
theorem dictOf_wf {fs : List (String × Json)} (h : ∀ f ∈ fs, f.2.WF) : (Json.obj (dictOf fs)).WF := by
  rw [wf_obj]
  constructor
  · exact List.pairwise_map.2 (SortedBy.pairwise_sortBy (nodup_keepLast fs))
  · intro f hf
    exact h f ((keepLast_sublist fs).subset (SortedBy.mem_sortBy.1 hf))

end Json

namespace EffectRequest

/-- `{**request, **extra}`. -/
def extend (d : Dictionary) (extra : List (String × Json)) (h : ∀ f ∈ extra, f.2.WF) : Dictionary :=
  ⟨Json.dictOf (d.fields ++ extra), Json.dictOf_wf fun f hf =>
    (List.mem_append.1 hf).elim (((Json.wf_obj _).1 d.wf).2 f) (h f)⟩

/-- `request.get(name)`. -/
def get (d : Dictionary) (name : String) : Json := getField d.fields name

/-- The keys, in order. -/
def keys (d : Dictionary) : List String := d.fields.map Prod.fst

theorem ext_fields {d d' : Dictionary} (h : d.fields = d'.fields) : d = d' := by
  cases d
  cases d'
  cases h
  rfl

instance : DecidableEq EffectRequest := fun d d' =>
  decidable_of_iff (d.fields = d'.fields) ⟨ext_fields, congrArg EffectRequest.fields⟩

end EffectRequest

namespace Served

/-! ## The store -/

/-- What a request can raise. -/
inductive Error
  /-- `LocalChannelRefused`. -/
  | refused (message : String)
  /-- `IntakeRefused`, from `object_from`. -/
  | unreadable (message : String)
  /-- Raised by the store or by the effect. -/
  | raised (failure : Failure)
deriving DecidableEq, Repr

/-- What the store raises. -/
def store {α : Type} (x : Except Failure α) : Except Error α := x.mapError .raised

/-- The identity of a command. -/
structure CommandKey where
  scope : Name
  actor : Name
  commandId : String
deriving DecidableEq

/-- A stored artifact of an operation. -/
structure Artifact where
  operationId : String
  name : String
  text : String
deriving DecidableEq

/-- The primary key of `artifact_references`. -/
def Artifact.key (a : Artifact) : String × String := (a.operationId, a.name)

end Served

open Served

/-- What served commands read and write. -/
structure ServedStore where
  journal : Journal
  artifacts : List Served.Artifact
  programs : Name → Option Program
  /-- The effects started so far, which no function reads. -/
  started : List CommandKey

namespace ServedStore

/-- `find_artifact`. -/
def findArtifact (s : ServedStore) (operationId name : String) : Option String :=
  (Rows.find Served.Artifact.key s.artifacts (operationId, name)).map Served.Artifact.text

/-- `finalize_artifact`. -/
def finalizeArtifact (s : ServedStore) (operationId name text : String) :
    Except Failure ServedStore := do
  let _ ← s.journal.operation operationId
  Journal.validateCommandKey name
  match s.findArtifact operationId name with
  | some existing =>
    check (existing = text) ⟨.operationConflict, "artifact reference is immutable"⟩
    return s
  | none => return { s with artifacts := s.artifacts ++ [⟨operationId, name, text⟩] }

/-- `load`. -/
def load (s : ServedStore) (scope : Name) : Except Failure Program :=
  lookup (Aggregates.notFound scope) s.programs scope

end ServedStore

namespace Served

variable [Sha256]

/-- `command_prefix`. -/
def commandPrefix (scope : Name) : String :=
  "served-command:" ++ (Sha256.hexdigest scope.val).val ++ ":"

/-- `command_prefix(scope) + digest(encode([actor, command_id]))`. -/
def CommandKey.operationId (k : CommandKey) : String :=
  commandPrefix k.scope ++ (digest (.arr [.str k.actor.val, .str k.commandId])).val

/-- The operation ids of served commands begin like this. -/
def InNamespace (operationId : String) : Prop :=
  "served-command:".toList <+: operationId.toList

/-! ## What happens around a command -/

/-- What anyone but the command protocol does to the store: receipts of served commands are
written by the protocol only. -/
inductive Other
  | journal (call : Journal.Call)
  | program (scope : Name) (p : Option Program)
  | artifact (operationId name text : String)
      (foreign : name = "receipt" → ¬InNamespace operationId)

/-- The store after it. -/
def Other.next (s : ServedStore) : Other → ServedStore
  | .journal call => { s with journal := s.journal.next call }
  | .program scope p => { s with programs := Function.update s.programs scope p }
  | .artifact operationId name text _ =>
    match s.finalizeArtifact operationId name text with
    | .ok s' => s'
    | .error _ => s

/-- How far a command gets once its intent is recorded. What the effect does to the store on the
way is any list of changes. -/
inductive Ending (α : Type)
  /-- The process stops before the effect. -/
  | stopped
  /-- The effect raises, or the process stops in it. -/
  | failed (during : List Other) (failure : Option Failure)
  /-- The effect returns; the process may still stop before the receipt is recorded. -/
  | returned (during : List Other) (result : α) (recorded : Bool)

/-- The effect's result as the receipt. -/
def Ending.map {α β : Type} (f : α → β) : Ending α → Ending β
  | .stopped => .stopped
  | .failed during failure => .failed during failure
  | .returned during result recorded => .returned during (f result) recorded

/-- What the client gets: nothing when the process stops. -/
inductive Reply
  | returned (result : List (String × Json))
  | refused (e : Error)
  | lost

/-! ## The protocol -/

/-- A request that passed the checks of its form. -/
structure Attempted where
  key : CommandKey
  /-- The request with what the host bound to it. -/
  exact : Dictionary
  /-- The checks a new command must pass. -/
  fresh : ServedStore → Except Error Unit
  /-- The receipts a replay may return. -/
  accepts : List (String × Json) → Bool
  invalid : String
  ending : Ending (Except Error Dictionary)

/-- `{"status": "unknown", "settlement": "unknown"}`. -/
def unknown : List (String × Json) := [("settlement", .str "unknown"), ("status", .str "unknown")]

/-- `object_from`. -/
def objectFrom (text : String) : Except Error (List (String × Json)) :=
  match loads text with
  | none => .error (.unreadable "invalid intake encoding")
  | some (.obj fields) => .ok fields
  | some _ => .error (.unreadable "intake object required")

end Served

/-- `object_from(request_json.encode()).get("request")`. -/
def Operation.request (o : Operation) : Except Error Json := do
  return getField (← objectFrom o.requestJson) "request"

namespace Served

variable [Sha256]

/-- The operation row on record is about the same content. -/
def checkContent (o : Operation) (k : CommandKey) (exact : Dictionary) : Except Error Unit := do
  let changed := Error.refused "command identity already has different input"
  check (o.effectKey = k.operationId) changed
  let request ← o.request
  check (request = .obj exact.fields) changed

namespace Attempted

/-- What a replay returns, or `none` for a new command. -/
def prior (a : Attempted) (s : ServedStore) : Except Error (Option (List (String × Json))) :=
  match s.journal.find a.key.operationId with
  | none => .ok none
  | some o => do
    checkContent o a.key a.exact
    match s.findArtifact a.key.operationId "receipt" with
    | none => return some unknown
    | some text =>
      let result ← objectFrom text
      check (a.accepts result = true) (.refused a.invalid)
      return some result

/-- A new command is checked and its intent recorded. -/
def begin (a : Attempted) (s : ServedStore) : Except Error ServedStore := do
  a.fresh s
  let r ← store (s.journal.intent a.key.operationId a.key.operationId a.exact)
  return { s with journal := r.2 }

/-- The effect and its receipt. -/
def perform (a : Attempted) (s : ServedStore) : Reply × ServedStore :=
  match a.ending with
  | .stopped => (.lost, s)
  | .failed during failure =>
    ((failure.map fun f => Reply.refused (.raised f)).getD .lost,
      during.foldl Other.next { s with started := s.started ++ [a.key] })
  | .returned during result recorded =>
    let s := during.foldl Other.next { s with started := s.started ++ [a.key] }
    match result with
    | .error e => (.refused e, s)
    | .ok receipt =>
      if recorded then
        match s.finalizeArtifact a.key.operationId "receipt" (dumps (.obj receipt.fields)) with
        | .ok s => (.returned receipt.fields, s)
        | .error e => (.refused (.raised e), s)
      else (.lost, s)

/-- The request is served. -/
def serve (a : Attempted) (s : ServedStore) : Reply × ServedStore :=
  match a.prior s with
  | .error e => (.refused e, s)
  | .ok (some result) => (.returned result, s)
  | .ok none =>
    match a.begin s with
    | .error e => (.refused e, s)
    | .ok s => a.perform s

end Attempted

/-! ## Reading a request -/

/-- The value, or a refusal. -/
def need {α : Type} (message : String) (value : Option α) : Except Error α :=
  value.elim (.error (.refused message)) .ok

/-- A nonblank text of at most so many characters. -/
def boundedText (limit : ℕ) : Json → Option String
  | .str s => if Nonblank s ∧ s.length ≤ limit then some s else none
  | _ => none

/-- An integer that is not below a bound. -/
def integerFrom (least : ℤ) : Json → Option ℤ
  | .int n => if least ≤ n then some n else none
  | _ => none

/-- `re.fullmatch(r"[0-9a-f]{64}", text)`. -/
def IsDigest (text : String) : Prop :=
  text.toList.length = 64 ∧ ∀ c ∈ text.toList, ('0' ≤ c ∧ c ≤ '9') ∨ ('a' ≤ c ∧ c ≤ 'f')

instance (text : String) : Decidable (IsDigest text) := inferInstanceAs (Decidable (_ ∧ _))

/-- A digest. -/
def digestText : Json → Option String
  | .str s => if IsDigest s then some s else none
  | _ => none

/-- The value of a key in a result is this one. -/
def Holds (result : List (String × Json)) (name : String) (value : Json) : Prop :=
  getField result name = value

instance (result : List (String × Json)) (name : String) (value : Json) :
    Decidable (Holds result name value) := inferInstanceAs (Decidable (_ = _))

/-- The expected revision is the current one. -/
def checkRevision (s : ServedStore) (scope : Name) (revision : ℤ) : Except Error Unit := do
  let program ← store (s.load scope)
  check (program.revision = revision) (.refused "caller expected revision is stale")

/-! ## The receipts -/

/-- The receipt of an accepted command. -/
def accepted (settlement : String) : Dictionary where
  fields := [("authority", .str "historical-only"), ("settlement", .str settlement),
    ("status", .str "accepted"), ("version", .int 1)]
  wf := (Json.wf_obj _).2 ⟨by simp only [List.map_cons, List.map_nil]; decide, by simp⟩

/-- The receipt of a STOP. -/
def stopReceipt (settled : Bool) : Dictionary :=
  accepted (if settled then "bound-managed-target-settled" else "unknown")

/-- The receipt of a reconciliation. -/
def reconcileReceipt : Dictionary where
  fields := [("authority", .str "historical-only"), ("status", .str "recorded"),
    ("version", .int 1)]
  wf := (Json.wf_obj _).2 ⟨by decide, by simp⟩

/-- The receipt of an approval. -/
def approveReceipt (decisionId : String) (specDigest : Name) (expiresAt : ℤ) : Dictionary where
  fields := [("authority", .str "historical-only"), ("decision_id", .str decisionId),
    ("expires_at", .int expiresAt), ("spec_digest", .str specDigest.val),
    ("status", .str "approved"), ("version", .int 1)]
  wf := (Json.wf_obj _).2 ⟨by simp only [List.map_cons, List.map_nil]; decide, by simp⟩

/-- The receipts of STOP a replay returns. -/
def acceptsStop (result : List (String × Json)) : Prop :=
  result.map Prod.fst = ["authority", "settlement", "status", "version"] ∧
    Holds result "version" (.int 1) ∧ Holds result "status" (.str "accepted") ∧
    (Holds result "settlement" (.str "unknown") ∨
      Holds result "settlement" (.str "bound-managed-target-settled")) ∧
    Holds result "authority" (.str "historical-only")

instance (result : List (String × Json)) : Decidable (acceptsStop result) :=
  inferInstanceAs (Decidable (_ ∧ _))

/-- The receipts of an approval a replay returns. -/
def acceptsApprove (decisionId : String) (result : List (String × Json)) : Prop :=
  result.map Prod.fst =
      ["authority", "decision_id", "expires_at", "spec_digest", "status", "version"] ∧
    Holds result "version" (.int 1) ∧ Holds result "status" (.str "approved") ∧
    Holds result "decision_id" (.str decisionId) ∧
    Holds result "authority" (.str "historical-only")

instance (decisionId : String) (result : List (String × Json)) :
    Decidable (acceptsApprove decisionId result) := inferInstanceAs (Decidable (_ ∧ _))

/-! ## The owner's commands -/

/-- An approval, as far as the channel reads it. -/
structure Approval where
  decisionId : Name
  specDigest : Name
deriving DecidableEq

/-- A handoff, as far as the channel reads it. -/
structure Handoff where
  attemptId : Name
  attemptDigest : Name
  generation : ℕ
  mode : HandoffMode
deriving DecidableEq

/-- What the host bound an owner's channel to: `control` and `managed` say whether the channel
has them, a proposal and a policy are known by their digests. -/
structure OwnerChannel where
  scope : Name
  actor : Name
  approved : Option Approval
  proposal : Option Name
  policy : Name
  control : Bool
  handoff : Option Handoff
  managed : Bool
  bound : approved ≠ none ∨ proposal ≠ none
  control_iff : control = handoff.isSome
  handoff_approved : handoff ≠ none → approved ≠ none
  managed_handoff : managed = true → handoff ≠ none

namespace OwnerChannel

/-- The branch of `_dispatch` for `stop`; the effect tells whether the bound target settled. -/
def stop (ch : OwnerChannel) (request : Dictionary) (ending : Ending Bool) :
    Except Error Attempted := do
  let approved ← need "STOP requires a host-bound original approval" ch.approved
  check (request.keys = ["action", "command_id", "expected_revision", "reason", "version"])
    (.refused "invalid owner STOP request")
  let invalid := "invalid owner STOP values"
  let commandId ← need invalid (boundedText 256 (request.get "command_id"))
  let revision ← need invalid (integerFrom 0 (request.get "expected_revision"))
  let _ ← need invalid (boundedText 512 (request.get "reason"))
  return {
    key := ⟨ch.scope, ch.actor, commandId⟩
    exact := request.extend [("scope", .str ch.scope.val), ("actor", .str ch.actor.val),
      ("decision_id", .str approved.decisionId.val), ("spec_digest", .str approved.specDigest.val),
      ("bound_attempt", optionalName (ch.handoff.map Handoff.attemptDigest))] (by simp)
    fresh := fun s => checkRevision s ch.scope revision
    accepts := fun result => acceptsStop result
    invalid := "recorded STOP receipt is invalid"
    ending := ending.map fun settled => .ok (stopReceipt settled) }

/-- `_start_managed`. -/
def startManaged (ch : OwnerChannel) (request : Dictionary) (ending : Ending Unit) :
    Except Error Attempted := do
  let unbound := "a host-bound managed target and exact start request are required"
  let handoff ← need unbound ch.handoff
  check (ch.managed = true ∧ ch.approved ≠ none ∧
    request.keys = ["action", "command_id", "expected_revision", "version"]) (.refused unbound)
  let invalid := "invalid managed start values"
  let commandId ← need invalid (boundedText 256 (request.get "command_id"))
  let revision ← need invalid (integerFrom 0 (request.get "expected_revision"))
  return {
    key := ⟨ch.scope, ch.actor, commandId⟩
    exact := request.extend [("scope", .str ch.scope.val), ("actor", .str ch.actor.val),
      ("attempt_digest", .str handoff.attemptDigest.val), ("generation", .int handoff.generation)]
      (by simp)
    fresh := fun s => do
      let program ← store (s.load ch.scope)
      let stale := Error.refused "managed start needs the caller's current unstarted Attempt"
      check (program.revision = revision) stale
      let attempt ← store (program.attempt handoff.attemptId)
      check (attempt.status = .prepared) stale
    accepts := fun result => decide (result = (accepted "unknown").fields)
    invalid := "recorded managed start receipt is invalid"
    ending := ending.map fun _ => .ok (accepted "unknown") }

/-- `_reconcile`. -/
def reconcile (ch : OwnerChannel) (request : Dictionary) (ending : Ending Unit) :
    Except Error Attempted := do
  let unbound := "a host-bound exact resource and reconciliation request are required"
  let handoff ← need unbound ch.handoff
  check (ch.control = true ∧ request.keys =
    ["action", "command_id", "evidence", "expected_revision", "subject", "version"])
    (.refused unbound)
  let invalid := "invalid owner reconciliation values"
  let commandId ← need invalid (boundedText 256 (request.get "command_id"))
  let revision ← need invalid (integerFrom 0 (request.get "expected_revision"))
  let _ ← need invalid (digestText (request.get "subject"))
  let _ ← need invalid (boundedText 512 (request.get "evidence"))
  return {
    key := ⟨ch.scope, ch.actor, commandId⟩
    exact := request.extend [("scope", .str ch.scope.val), ("actor", .str ch.actor.val),
      ("attempt_digest", .str handoff.attemptDigest.val), ("generation", .int handoff.generation)]
      (by simp)
    fresh := fun s => checkRevision s ch.scope revision
    accepts := fun result => decide (result = reconcileReceipt.fields)
    invalid := "recorded reconciliation receipt is invalid"
    ending := ending.map fun _ => .ok reconcileReceipt }

/-- `_approve`; the effect returns the digest of the approved spec and the approval's expiry. -/
def approve (ch : OwnerChannel) (request : Dictionary) (ending : Ending (Name × ℤ)) :
    Except Error Attempted := do
  let unbound := "a host-bound proposal and exact approval request are required"
  let proposal ← need unbound ch.proposal
  check (request.keys =
    ["action", "command_id", "decision_id", "expected_revision", "expires_at", "version"])
    (.refused unbound)
  let invalid := "invalid approval request"
  let commandId ← need invalid (boundedText 256 (request.get "command_id"))
  let revision ← need invalid (integerFrom (-1) (request.get "expected_revision"))
  let decisionId ← need invalid (boundedText 256 (request.get "decision_id"))
  let _ ← need invalid (integerFrom 1 (request.get "expires_at"))
  return {
    key := ⟨ch.scope, ch.actor, commandId⟩
    exact := request.extend [("scope", .str ch.scope.val), ("actor", .str ch.actor.val),
      ("proposal", .str proposal.val), ("policy", .str ch.policy.val)] (by simp)
    fresh := fun s =>
      -- no Program yet counts as revision -1
      check ((s.programs ch.scope).elim (-1) (fun p => (p.revision : ℤ)) = revision)
        (.refused "caller expected revision is stale")
    accepts := fun result => acceptsApprove decisionId result
    invalid := "recorded approval receipt is invalid"
    ending := ending.map fun r => .ok (approveReceipt decisionId r.1 r.2) }

end OwnerChannel

/-! ## The worker's commands -/

/-- The actions of a worker that are recorded with their receipts. -/
inductive WorkerAction
  | start | quiesce | submit | report | renew
deriving DecidableEq, Repr

/-- The action in a request. -/
def WorkerAction.text : WorkerAction → String
  | .start => "start"
  | .quiesce => "quiesce"
  | .submit => "submit"
  | .report => "report"
  | .renew => "renew"

/-- The statuses a report can have. -/
def reportStatuses : List String :=
  ["accepted", "rejected", "review_unknown", "owner_decision_needed", "comment", "invalid",
    "expired", "cancel_requested"]

/-- `re.fullmatch(r"product-review:[0-9a-f]{64}", text)`. -/
def IsReviewOperation (text : String) : Prop :=
  "product-review:".toList <+: text.toList ∧
    IsDigest (String.ofList (text.toList.drop "product-review:".toList.length))

instance (text : String) : Decidable (IsReviewOperation text) := inferInstanceAs (Decidable (_ ∧ _))

/-- The value of a key is a text with a property. -/
def HoldsText (result : List (String × Json)) (name : String) (p : String → Prop) : Prop :=
  match getField result name with
  | .str s => p s
  | _ => False

instance (result : List (String × Json)) (name : String) (p : String → Prop) [DecidablePred p] :
    Decidable (HoldsText result name p) :=
  match h : getField result name with
  | .str s => decidable_of_iff (p s) (by simp [HoldsText, h])
  | .null | .bool _ | .int _ | .float _ | .arr _ | .obj _ => .isFalse (by simp [HoldsText, h])

/-- The receipt of a quiescence. -/
def quiesceReceipt : Dictionary := accepted "cooperative-task-scope"

/-- `_valid_receipt`. -/
def validReceipt (action : WorkerAction) (result : List (String × Json)) : Prop :=
  match action with
  | .start => result = (accepted "unknown").fields
  | .quiesce => result = quiesceReceipt.fields
  | .submit =>
    result.map Prod.fst = ["authority", "status", "subject", "version"] ∧
      Holds result "version" (.int 1) ∧ Holds result "status" (.str "submitted") ∧
      Holds result "authority" (.str "historical-only") ∧ HoldsText result "subject" IsDigest
  | .report =>
    (result.map Prod.fst = ["authority", "settlement", "status", "version"] ∨
      result.map Prod.fst =
        ["authority", "review_operation_id", "settlement", "status", "version"]) ∧
      Holds result "version" (.int 1) ∧ HoldsText result "status" (· ∈ reportStatuses) ∧
      Holds result "settlement" (.str "unknown") ∧
      Holds result "authority" (.str "historical-only") ∧
      ("review_operation_id" ∈ result.map Prod.fst → Holds result "status" (.str "review_unknown") ∧
        HoldsText result "review_operation_id" IsReviewOperation)
  | .renew =>
    result.map Prod.fst = ["authority", "expires_at", "status", "version"] ∧
      Holds result "version" (.int 1) ∧ Holds result "status" (.str "recorded") ∧
      (integerFrom 1 (getField result "expires_at")).isSome ∧
      Holds result "authority" (.str "historical-only")

instance (action : WorkerAction) (result : List (String × Json)) :
    Decidable (validReceipt action result) :=
  match action with
  | .start => inferInstanceAs (Decidable (_ = _))
  | .quiesce => inferInstanceAs (Decidable (_ = _))
  | .submit => inferInstanceAs (Decidable (_ ∧ _))
  | .report => inferInstanceAs (Decidable (_ ∧ _))
  | .renew => inferInstanceAs (Decidable (_ ∧ _))

/-- What `execute` returns for a submission. -/
def submitReceipt (subject : String) : Dictionary where
  fields := [("authority", .str "historical-only"), ("status", .str "submitted"),
    ("subject", .str subject), ("version", .int 1)]
  wf := (Json.wf_obj _).2 ⟨by simp only [List.map_cons, List.map_nil]; decide, by simp⟩

/-- What `execute` returns for a report. -/
def reportReceipt (outcome : String) : Option String → Dictionary
  | none => ⟨[("authority", .str "historical-only"), ("settlement", .str "unknown"),
      ("status", .str outcome), ("version", .int 1)],
      (Json.wf_obj _).2 ⟨by simp only [List.map_cons, List.map_nil]; decide, by simp⟩⟩
  | some operationId => ⟨[("authority", .str "historical-only"),
      ("review_operation_id", .str operationId), ("settlement", .str "unknown"),
      ("status", .str outcome), ("version", .int 1)],
      (Json.wf_obj _).2 ⟨by simp only [List.map_cons, List.map_nil]; decide, by simp⟩⟩

/-- What `execute` returns for a renewal. -/
def renewReceipt (expiresAt : ℤ) : Dictionary where
  fields := [("authority", .str "historical-only"), ("expires_at", .int expiresAt),
    ("status", .str "recorded"), ("version", .int 1)]
  wf := (Json.wf_obj _).2 ⟨by simp only [List.map_cons, List.map_nil]; decide, by simp⟩

/-- What the host bound a worker's channel to, with the handoffs its claims returned. -/
structure WorkerChannel where
  scope : Name
  actor : Name
  handoffs : List (String × Handoff)

namespace WorkerChannel

/-- The values every command on a handoff reads. -/
def values (ch : WorkerChannel) (request : Dictionary) (invalid : String) :
    Except Error (String × ℤ × Handoff) := do
  let commandId ← need invalid (boundedText 256 (request.get "command_id"))
  let revision ← need invalid (integerFrom 0 (request.get "expected_revision"))
  match request.get "claim_id" with
  | .str claimId =>
    let handoff ← need invalid (ch.handoffs.lookup claimId)
    return (commandId, revision, handoff)
  | _ => .error (.refused invalid)

/-- `_recorded`: `authority` is what the check of the approval says at that time. -/
def recorded (ch : WorkerChannel) (action : WorkerAction) (request : Dictionary)
    (commandId : String) (revision : ℤ) (handoff : Handoff) (requirePrepared : Bool)
    (authority : Except Failure Unit) (ending : Ending Dictionary) : Attempted where
  key := ⟨ch.scope, ch.actor, commandId⟩
  exact := request.extend [("scope", .str ch.scope.val), ("actor", .str ch.actor.val),
    ("attempt_digest", .str handoff.attemptDigest.val), ("generation", .int handoff.generation)]
    (by simp)
  fresh := fun s => do
    store authority
    let program ← store (s.load ch.scope)
    check (program.revision = revision) (.refused "caller expected revision is stale")
    given (requirePrepared = true) do
      let attempt ← store (program.attempt handoff.attemptId)
      check (attempt.status = .prepared)
        (.refused "a new start command requires an unstarted Attempt")
  accepts := fun result => validReceipt action result
  invalid := "recorded command receipt is invalid"
  ending := ending.map fun result =>
    if validReceipt action result.fields then .ok result
    else .error (.refused "command returned an invalid result")

/-- `_start`. -/
def start (ch : WorkerChannel) (request : Dictionary) (authority : Except Failure Unit)
    (ending : Ending Unit) : Except Error Attempted := do
  check (request.keys = ["action", "claim_id", "command_id", "expected_revision", "version"])
    (.refused "invalid start request")
  let (commandId, revision, handoff) ←
    ch.values request "invalid start values or unbound handoff"
  check (handoff.mode = .pull)
    (.refused "managed starts require the original owner capability")
  return ch.recorded .start request commandId revision handoff true authority
    (ending.map fun _ => accepted "unknown")

/-- `_quiesce`. -/
def quiesce (ch : WorkerChannel) (request : Dictionary) (authority : Except Failure Unit)
    (ending : Ending Unit) : Except Error Attempted := do
  check (request.keys =
      ["action", "claim_id", "command_id", "expected_revision", "receipt", "version"])
    (.refused "invalid quiescence request")
  let invalid := "invalid quiescence values or unbound handoff"
  let (commandId, revision, handoff) ← ch.values request invalid
  let _ ← need invalid (boundedText 256 (request.get "receipt"))
  check (handoff.mode = .pull) (.refused "a worker string cannot settle a managed runtime")
  return ch.recorded .quiesce request commandId revision handoff false authority
    (ending.map fun _ => quiesceReceipt)

/-- `_candidate_action` for `submit`; the effect returns the subject of the candidate. -/
def submit (ch : WorkerChannel) (request : Dictionary) (authority : Except Failure Unit)
    (ending : Ending String) : Except Error Attempted := do
  check (request.keys = ["action", "claim_id", "command_id", "expected_revision", "version"])
    (.refused "invalid candidate request")
  let (commandId, revision, handoff) ←
    ch.values request "invalid candidate values or unbound handoff"
  return ch.recorded .submit request commandId revision handoff false authority
    (ending.map submitReceipt)

/-- `_candidate_action` for `report`; the effect returns the outcome, and the operation of the
review when the outcome is unknown and exactly one matches. -/
def report (ch : WorkerChannel) (request : Dictionary) (authority : Except Failure Unit)
    (ending : Ending (String × Option String)) : Except Error Attempted := do
  check (request.keys = ["action", "claim_id", "command_id", "expected_revision", "version"])
    (.refused "invalid candidate request")
  let (commandId, revision, handoff) ←
    ch.values request "invalid candidate values or unbound handoff"
  return ch.recorded .report request commandId revision handoff false authority
    (ending.map fun r => reportReceipt r.1 r.2)

/-- `_renew`; the effect returns the new end of the lease. -/
def renew (ch : WorkerChannel) (request : Dictionary) (authority : Except Failure Unit)
    (ending : Ending ℤ) : Except Error Attempted := do
  check (request.keys =
      ["action", "claim_id", "command_id", "expected_revision", "lease_seconds", "version"])
    (.refused "invalid renewal request")
  let invalid := "invalid renewal values or unbound handoff"
  let (commandId, revision, handoff) ← ch.values request invalid
  let _ ← need invalid (integerFrom 1 (request.get "lease_seconds"))
  return ch.recorded .renew request commandId revision handoff false authority
    (ending.map renewReceipt)

/-! ## The claim of a handoff -/

/-- The receipt of a claim: what the handoff on record says. -/
structure ClaimReceipt where
  programId : Name
  attemptId : Name
  generation : ℕ

/-- The receipt as a dictionary. -/
def ClaimReceipt.fields (r : ClaimReceipt) : Dictionary where
  fields := [("attempt_id", .str r.attemptId.val), ("claim_generation", .int r.generation),
    ("program_id", .str r.programId.val),
    ("receipt", .str "recorded; current authority is checked at each later action"),
    ("status", .str "claimed"), ("version", .int 1)]
  wf := (Json.wf_obj _).2 ⟨by simp only [List.map_cons, List.map_nil]; decide, by simp⟩

/-- A claim that passed the checks of its form. -/
structure Claiming where
  key : CommandKey
  exact : Dictionary
  revision : ℤ
  authority : Except Failure Unit
  ending : Ending ClaimReceipt

/-- The branch of `_dispatch` for `claim`; `full` says that the handoff limit is reached. -/
def claim (ch : WorkerChannel) (request : Dictionary) (full : Bool)
    (authority : Except Failure Unit) (ending : Ending ClaimReceipt) : Except Error Claiming := do
  check (request.keys = ["action", "command_id", "expected_revision", "lease_seconds",
      "remediation_of", "version"]) (.refused "invalid work request")
  let invalid := "invalid work request values"
  let commandId ← need invalid (boundedText 256 (request.get "command_id"))
  let revision ← need invalid (integerFrom 0 (request.get "expected_revision"))
  let _ ← need invalid (integerFrom 1 (request.get "lease_seconds"))
  check (request.get "remediation_of" = .null ∨
    HoldsText request.fields "remediation_of" Nonblank) (.refused invalid)
  check (¬(ch.handoffs.lookup commandId = none ∧ full = true))
    (.refused "worker capability handoff limit reached")
  return ⟨⟨ch.scope, ch.actor, commandId⟩,
    request.extend [("scope", .str ch.scope.val), ("actor", .str ch.actor.val)] (by simp),
    revision, authority, ending⟩

namespace Claiming

/-- A new claim is checked and its intent recorded. -/
def begin (c : Claiming) (s : ServedStore) : Except Error ServedStore := do
  store c.authority
  checkRevision s c.key.scope c.revision
  let r ← store (s.journal.intent c.key.operationId c.key.operationId c.exact)
  return { s with journal := r.2 }

/-- `worker.request` and the receipt; `receipt` is the one on record. -/
def perform (c : Claiming) (receipt : Option String) (s : ServedStore) : Reply × ServedStore :=
  match c.ending with
  | .stopped => (.lost, s)
  | .failed during failure =>
    ((failure.map fun f => Reply.refused (.raised f)).getD .lost, during.foldl Other.next s)
  | .returned during result recorded =>
    let s := during.foldl Other.next s
    let result := result.fields
    match receipt with
    | none =>
      if recorded then
        match s.finalizeArtifact c.key.operationId "receipt" (dumps (.obj result.fields)) with
        | .ok s => (.returned result.fields, s)
        | .error e => (.refused (.raised e), s)
      else (.lost, s)
    | some text =>
      match objectFrom text with
      | .error e => (.refused e, s)
      | .ok original =>
        if original = result.fields then (.returned result.fields, s)
        else (.refused (.refused "recorded claim receipt differs from original handoff"), s)

/-- The claim is served: a replay with a receipt on record asks for the handoff again. -/
def serve (c : Claiming) (s : ServedStore) : Reply × ServedStore :=
  match s.journal.find c.key.operationId with
  | some o =>
    match checkContent o c.key c.exact with
    | .error e => (.refused e, s)
    | .ok () =>
      match s.findArtifact c.key.operationId "receipt" with
      | none => (.returned unknown, s)
      | some text => c.perform (some text) s
  | none =>
    match c.begin s with
    | .error e => (.refused e, s)
    | .ok s => c.perform none s

end Claiming

end WorkerChannel

/-! ## Runs -/

/-- A request with an effect, on a channel, and what comes of its effect. -/
inductive Command
  | stop (ch : OwnerChannel) (request : Dictionary) (ending : Ending Bool)
  | startManaged (ch : OwnerChannel) (request : Dictionary) (ending : Ending Unit)
  | reconcile (ch : OwnerChannel) (request : Dictionary) (ending : Ending Unit)
  | approve (ch : OwnerChannel) (request : Dictionary) (ending : Ending (Name × ℤ))
  | start (ch : WorkerChannel) (request : Dictionary) (authority : Except Failure Unit)
      (ending : Ending Unit)
  | quiesce (ch : WorkerChannel) (request : Dictionary) (authority : Except Failure Unit)
      (ending : Ending Unit)
  | submit (ch : WorkerChannel) (request : Dictionary) (authority : Except Failure Unit)
      (ending : Ending String)
  | report (ch : WorkerChannel) (request : Dictionary) (authority : Except Failure Unit)
      (ending : Ending (String × Option String))
  | renew (ch : WorkerChannel) (request : Dictionary) (authority : Except Failure Unit)
      (ending : Ending ℤ)

/-- The channel hands a request over by its action. -/
def onAction {α : Type} (request : Dictionary) (action : String) (x : Except Error α) :
    Except Error α := do
  check (request.get "action" = .str action) (.refused "unsupported local read request")
  x

/-- The command in its exact form. -/
def Command.attempted : Command → Except Error Attempted
  | .stop ch request ending => onAction request "stop" (ch.stop request ending)
  | .startManaged ch request ending =>
    onAction request "start-managed" (ch.startManaged request ending)
  | .reconcile ch request ending => onAction request "reconcile" (ch.reconcile request ending)
  | .approve ch request ending => onAction request "approve" (ch.approve request ending)
  | .start ch request authority ending =>
    onAction request "start" (ch.start request authority ending)
  | .quiesce ch request authority ending =>
    onAction request "quiesce" (ch.quiesce request authority ending)
  | .submit ch request authority ending =>
    onAction request "submit" (ch.submit request authority ending)
  | .report ch request authority ending =>
    onAction request "report" (ch.report request authority ending)
  | .renew ch request authority ending =>
    onAction request "renew" (ch.renew request authority ending)

/-- The reply to a command and the store after it. -/
def Command.serve (c : Command) (s : ServedStore) : Reply × ServedStore :=
  match c.attempted with
  | .error e => (.refused e, s)
  | .ok a => a.serve s

/-- What happens to the store: a command, a claim, or anything anyone else does. -/
inductive Call
  | command (c : Command)
  | claim (ch : WorkerChannel) (request : Dictionary) (full : Bool)
      (authority : Except Failure Unit) (ending : Ending WorkerChannel.ClaimReceipt)
  | other (o : Other)

/-- The store after a call. -/
def next (s : ServedStore) : Call → ServedStore
  | .command c => (c.serve s).2
  | .claim ch request full authority ending =>
    match onAction request "claim" (ch.claim request full authority ending) with
    | .error _ => s
    | .ok c => (c.serve s).2
  | .other o => o.next s

/-- A store before any effect. -/
def initial (programs : Name → Option Program) : ServedStore := ⟨.empty, [], programs, []⟩

end Served

end CreatidyKernel
