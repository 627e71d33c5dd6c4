import CreatidyKernel.Codec.Records
import CreatidyKernel.Core.Facts
import CreatidyKernel.Lib.Runs

set_option relaxedAutoImplicit false
set_option autoImplicit false

/-!
# The Codex runtime adapter

The adapter starts a native thread and a turn for an operation, at most one of each, and then
reads the turn's status to observe it, to collect its candidate or to look it up. What the native
server and the callbacks answer is an argument of every call.

## Main definitions

* `ExecutionRequest`, `CodexInputs`, `Candidate`, `RuntimeObservation` — the values.
* `Run` — what the adapter knows of one effect key.
* `Runtime` — the adapter.
* `Runtime.start`, `Runtime.restore`, `Runtime.observe`, `Runtime.candidate`, `Runtime.cancel`,
  `Runtime.reconcile` — its operations.
* `Runtime.next` — the adapter as a state machine.
-/

namespace CreatidyKernel

open Checked Codec

namespace Codex

/-! ## Values -/

/-- What an operation of the adapter can raise. -/
inductive Error
  /-- `ExecutionConflict`. -/
  | conflict (message : String)
  /-- `UnsupportedExecution`. -/
  | unsupported (message : String)
  /-- `CodexRejected`. -/
  | rejected (message : String)
  /-- `CodexRPCError`. -/
  | rpc
  /-- `OSError` or `TimeoutError`. -/
  | transport
  /-- Anything else. -/
  | other
deriving DecidableEq, Repr

/-- What the native server or a callback answers. -/
abbrev Answer (α : Type) := Except Error α

/-- `OperationKey`. -/
structure OperationKey where
  operationId : Name
  effectKey : Name
  requestDigest : Name
deriving DecidableEq

/-- `TrustMode`. -/
inductive TrustMode
  | trustedDevelopment | isolated
deriving DecidableEq, Repr

/-- `WorkspaceSpec`. -/
structure WorkspaceSpec where
  repository : Name
  baseRevision : Name
  overlays : List (Name × Name)
  toolchainDigest : Name
  enforcementProfile : Name
  trustMode : TrustMode
  networkDestinations : SortedSet Name
  mounts : SortedSet Name
deriving DecidableEq

/-- `WorkspaceHandle`. -/
structure WorkspaceHandle where
  key : Name
  spec : WorkspaceSpec
deriving DecidableEq

/-- `RuntimeIdentity`. -/
structure RuntimeIdentity where
  requested : String
  resolved : Option String
  observed : Option String
  agentDefinitionVersion : String
  requestedProvider : Option String
  resolvedProvider : Option String
  observedProvider : Option String
  requestedEffort : Option String
  resolvedEffort : Option String
  observedEffort : Option String
deriving DecidableEq

/-- `Allocation`: the fields the adapter reads, and the others, which are only compared. -/
structure Allocation where
  runtimeId : Name
  providerId : Name
  modelId : Name
  reasoningEffort : Option Name
  others : Json
deriving DecidableEq

/-- `ExecutionRequest`. -/
structure ExecutionRequest where
  operation : OperationKey
  attempt : AttemptSpec
  workspace : WorkspaceHandle
  contextReference : Name
  allocationReference : Name
  capabilityReference : Name
  identity : RuntimeIdentity
  fence : ℕ
  allocation : Option Allocation
deriving DecidableEq

/-- `CodexInputs`. -/
structure CodexInputs where
  workspaceKey : String
  contextReference : String
  allocationReference : String
  capabilityReference : String
  cwd : String
  prompt : String
  model : String
  provider : String
  sandbox : String
  approvalPolicy : String
  reasoningEffort : Option String
deriving DecidableEq

/-- `Candidate`, with its manifest. -/
structure Candidate where
  attemptId : String
  specDigest : String
  workspaceKey : String
  artifacts : List (Name × Name)
deriving DecidableEq

/-- `Activity`, as far as the adapter reports it. -/
inductive Activity
  | running | terminal | unknown
deriving DecidableEq, Repr

/-- `RuntimeObservation`. -/
structure RuntimeObservation where
  handle : String
  activity : Activity
  observedAt : ℤ
  freshUntil : ℤ
  identity : RuntimeIdentity
  cancellationRequested : Bool
  ownedGroupSettled : Option Bool
  ownedGroupReference : Option String
deriving DecidableEq

/-- `RuntimeObservation.__post_init__`. -/
def RuntimeObservation.init (o : RuntimeObservation) : Except Error RuntimeObservation := do
  check (o.ownedGroupSettled ≠ none → o.cancellationRequested = true)
    (.conflict "owned-group settlement cannot certify a normal runtime observation")
  check (∀ reference ∈ o.ownedGroupReference, Nonblank reference)
    (.conflict "owned-group reference must be non-empty when supplied")
  return o

/-- `Lookup`, found with its handle or unknown. -/
inductive Lookup
  | found (handle : String)
  | unknown
deriving DecidableEq, Repr

/-! ## The native server -/

/-- `_object`. -/
def object : Json → Except Error (List (String × Json))
  | .obj fields => .ok fields
  | _ => .error (.rejected "invalid app-server response")

/-- `_field`. -/
def field (value : List (String × Json)) (key : String) : Except Error String :=
  let missing := Error.rejected ("missing app-server " ++ key)
  match getField value key with
  | .str s => if s = "" then .error missing else .ok s
  | _ => .error missing

/-- The statuses of a turn that has ended. -/
def terminalStatuses : List String := ["completed", "failed", "interrupted"]

/-- The requests `start` sends. -/
inductive Method
  | threadStart | turnStart
deriving DecidableEq, Repr

/-! ## Runs -/

/-- `_Run`. -/
structure Run where
  request : ExecutionRequest
  thread : Option String
  turn : Option String
  uncertain : Bool
  cancelled : Bool
  ownedGroupSettled : Option Bool
  ownedGroupReference : Option String
  terminal : Bool
  terminalStatus : Option String
  identityModel : Option String
  identityProvider : Option String
  identityEffort : Option String
  receiptIdentity : Option RuntimeIdentity
  candidate : Option Candidate

namespace Run

/-- A run of a request that nothing is known of. -/
def new (request : ExecutionRequest) (ownedGroupReference : Option String) : Run where
  request := request
  thread := none
  turn := none
  uncertain := false
  cancelled := false
  ownedGroupSettled := none
  ownedGroupReference := ownedGroupReference
  terminal := false
  terminalStatus := none
  identityModel := none
  identityProvider := none
  identityEffort := none
  receiptIdentity := none
  candidate := none

/-- `handle`. -/
def handle (r : Run) : Option String :=
  match r.thread, r.turn with
  | some thread, some turn => some ("codex:" ++ thread ++ ":" ++ turn)
  | _, _ => none

/-- `identity`. -/
def identity (r : Run) : RuntimeIdentity :=
  r.receiptIdentity.getD { r.request.identity with
    resolved := r.identityModel
    resolvedProvider := r.identityProvider
    resolvedEffort := r.identityEffort
    observed := none
    observedProvider := none
    observedEffort := none }

/-- The status of the turn among those of its thread. -/
def findTurn (turn : String) : List Json → Except Error (Option String)
  | [] => .ok none
  | entry :: entries => do
    let value ← object entry
    if getField value "id" = .str turn then
      let status ← field value "status"
      return some status
    else findTurn turn entries

/-- The body of `_read` once the thread and the turn are known. -/
def readStatus (thread turn : String) (answer : Answer (List (String × Json))) :
    Except Error (Option String) := do
  let response ← answer
  let value ← object (getField response "thread")
  let id ← field value "id"
  if id ≠ thread then return none
  else
    match getField value "turns" with
    | .arr entries => findTurn turn entries
    | _ => return none

/-- `_read`: a transport or domain failure reads nothing. -/
def read (r : Run) (answer : Answer (List (String × Json))) : Except Error (Option String) :=
  match r.thread, r.turn with
  | some thread, some turn =>
    match readStatus thread turn answer with
    | .error (.rejected _) => .ok none
    | .error .rpc => .ok none
    | .error .transport => .ok none
    | x => x
  | _, _ => .ok none

end Run

/-! ## The adapter -/

/-- How the adapter was built; `retires` says that it has the callbacks of process retirement. -/
structure Config where
  freshness : ℕ
  supportedEfforts : List (String × String × String)
  hasClock : Bool
  retires : Bool
  freshness_pos : 0 < freshness

/-- The adapter. Both dictionaries hold the runs of effect keys; `sent` and `reads` record what
`start` sent and which statuses were read, and no operation looks at them. -/
structure Runtime where
  byKey : Name → Option Run
  byHandle : String → Option Name
  sent : List (Name × Method)
  reads : List (Name × String)

/-- `_inputs`. -/
def Config.inputs (cfg : Config) (request : ExecutionRequest) (resolved : Answer CodexInputs) :
    Except Error CodexInputs := do
  let inputs ← resolved
  check (inputs.workspaceKey = request.workspace.key.val ∧
      inputs.contextReference = request.contextReference.val ∧
      inputs.allocationReference = request.allocationReference.val ∧
      inputs.capabilityReference = request.capabilityReference.val ∧
      inputs.model = request.identity.requested ∧
      (∀ text ∈ [inputs.cwd, inputs.prompt, inputs.model, inputs.provider], text ≠ "") ∧
      inputs.cwd.toList.head? = some '/')
    (.conflict "resolved Codex inputs differ from immutable Attempt")
  check (request.workspace.spec.trustMode = .trustedDevelopment)
    (.unsupported "Codex settings do not attest hostile-worker isolation")
  check (request.workspace.spec.networkDestinations.toList = [] ∧
      request.workspace.spec.mounts.toList = [])
    (.unsupported "Codex cannot enforce workspace network or mount grants")
  check (inputs.sandbox = "workspace-write" ∧ inputs.approvalPolicy = "never")
    (.unsupported "unsupported Codex permission configuration")
  check (∀ a ∈ request.allocation, a.runtimeId.val = "codex" ∧ a.providerId.val = inputs.provider ∧
      a.modelId.val = inputs.model ∧ a.reasoningEffort.map Subtype.val = inputs.reasoningEffort)
    (.conflict "configured Codex runtime/provider/model/effort differs from Allocation")
  check ((∀ provider ∈ request.identity.requestedProvider, provider = inputs.provider) ∧
      request.identity.requestedEffort = inputs.reasoningEffort)
    (.conflict "configured Codex inputs differ from requested identity")
  check (∀ effort ∈ inputs.reasoningEffort,
      (inputs.provider, inputs.model, effort) ∈ cfg.supportedEfforts)
    (.unsupported "Codex provider/model reasoning effort has no trusted support binding")
  check (request.identity.observed = none ∧ request.identity.observedProvider = none ∧
      request.identity.observedEffort = none)
    (.unsupported "app-server does not attest generated-turn identity")
  return inputs

/-- The current group reference, when the adapter has one. -/
def Config.groupReference (cfg : Config) (answer : Answer (Option String)) :
    Except Error (Option String) :=
  if cfg.retires then answer else .ok none

/-- `self.clock() if self.clock is not None else now`. -/
def Config.time (cfg : Config) (now : ℤ) (clock : Answer ℤ) : Except Error ℤ :=
  if cfg.hasClock then clock else .ok now

/-- What `start` is answered. -/
structure StartAnswers where
  resolve : Answer CodexInputs
  authorize : Answer Bool
  groupReference : Answer (Option String)
  threadStart : Answer (List (String × Json))
  authorizeTurn : Answer Bool
  turnStart : Answer (List (String × Json))

/-- The id of the thread or of the turn in an answer. -/
def idIn (answer : Answer (List (String × Json))) (name : String) : Except Error String := do
  let response ← answer
  let value ← object (getField response name)
  field value "id"

/-- The model, provider and effort the answer to `thread/start` resolves. -/
def resolvedIdentity (inputs : CodexInputs) (answer : Answer (List (String × Json))) :
    Except Error (String × String × Option String) := do
  let response ← answer
  let resolved ← field response "model"
  let provider ← field response "modelProvider"
  check (resolved = inputs.model ∧ provider = inputs.provider)
    (.rejected "resolved model/provider does not match requested allocation")
  let effort ← match getField response "reasoningEffort" with
    | .null => .ok none
    | .str s =>
      if Nonblank s then .ok (some s) else .error (.rejected "invalid app-server reasoningEffort")
    | _ => .error (.rejected "invalid app-server reasoningEffort")
  check (inputs.reasoningEffort = none ∨ effort = inputs.reasoningEffort)
    (.rejected "resolved reasoning effort does not match requested allocation")
  return (resolved, provider, effort)

/-- What `start` sends for a run, how far the run gets, and what it raises if anything. -/
def launch (inputs : CodexInputs) (answers : StartAnswers) (run : Run) :
    Run × List Method × Except Error Unit :=
  match idIn answers.threadStart "thread" with
  | .error e => (run, [.threadStart], .error e)
  | .ok thread =>
    let run := { run with thread := some thread }
    match resolvedIdentity inputs answers.threadStart with
    | .error e => (run, [.threadStart], .error e)
    | .ok (model, provider, effort) =>
      let run := { run with
        identityModel := some model, identityProvider := some provider, identityEffort := effort }
      match answers.authorizeTurn with
      | .error e => (run, [.threadStart], .error e)
      | .ok false => (run, [.threadStart],
          .error (.conflict "operation authority expired before turn dispatch"))
      | .ok true =>
        match idIn answers.turnStart "turn" with
        | .error e => (run, [.threadStart, .turnStart], .error e)
        | .ok turn => ({ run with turn := some turn }, [.threadStart, .turnStart], .ok ())

namespace Runtime

/-- An adapter no call was made to. -/
def new : Runtime := ⟨fun _ => none, fun _ => none, [], []⟩

/-- The run of a key is changed. -/
def set (s : Runtime) (key : Name) (run : Run) : Runtime :=
  { s with byKey := Function.update s.byKey key (some run) }

/-- The handle is bound to the run of a key. -/
def bind (s : Runtime) (handle : String) (key : Name) : Runtime :=
  { s with byHandle := Function.update s.byHandle handle (some key) }

/-- The run a handle is bound to, with its key. -/
def runOf (s : Runtime) (handle : String) : Option (Name × Run) :=
  match s.byHandle handle with
  | none => none
  | some key => (s.byKey key).map fun run => (key, run)

/-- A status was read. -/
def noteRead (s : Runtime) (key : Name) (status : Option String) : Runtime :=
  { s with reads := s.reads ++ (status.map fun status => (key, status)).toList }

/-- The checks `start` makes of a new key before it records the run. -/
def prepare (cfg : Config) (request : ExecutionRequest) (answers : StartAnswers) :
    Except Error (CodexInputs × Option String) := do
  let inputs ← cfg.inputs request answers.resolve
  let authorized ← answers.authorize
  check (authorized = true) (.conflict "operation lacks a durable delivery claim")
  let reference ← cfg.groupReference answers.groupReference
  return (inputs, reference)

/-- `start`. -/
def start (cfg : Config) (s : Runtime) (request : ExecutionRequest) (answers : StartAnswers) :
    Except Error String × Runtime :=
  let key := request.operation.effectKey
  match s.byKey key with
  | some previous =>
    if previous.request ≠ request then
      (.error (.conflict "duplicate effect key has different immutable inputs"), s)
    else
      match previous.handle, previous.uncertain with
      | some handle, false => (.ok handle, s)
      | _, _ => (.error (.conflict "uncertain Codex start cannot be redelivered"), s)
  | none =>
    match prepare cfg request answers with
    | .error e => (.error e, s)
    | .ok (inputs, reference) =>
      let r := launch inputs answers { Run.new request reference with uncertain := true }
      let s := { s with sent := s.sent ++ r.2.1.map fun method => (key, method) }
      match r.2.2 with
      | .error e => (.error e, s.set key r.1)
      | .ok () =>
        let s := s.set key { r.1 with uncertain := false }
        match r.1.handle with
        | none => (.error (.conflict "Codex receipt lacks a thread or turn"), s)
        | some handle => (.ok handle, s.bind handle key)

/-- What a lookup reads of a run. -/
def lookUp (s : Runtime) (key : Name) (run : Run) (handle : String)
    (answer : Answer (List (String × Json))) : Except Error Lookup × Runtime :=
  match run.read answer with
  | .error e => (.error e, s)
  | .ok status =>
    (.ok (if status.isSome then .found handle else .unknown), s.noteRead key status)

/-- `reconcile`. -/
def reconcile (s : Runtime) (operation : OperationKey) (handle : Option String)
    (answer : Answer (List (String × Json))) : Except Error Lookup × Runtime :=
  match s.byKey operation.effectKey with
  | none => (.ok .unknown, s)
  | some run =>
    if run.request.operation ≠ operation then
      (.error (.conflict "reconciliation key differs from original Operation"), s)
    else
      match run.handle, run.uncertain with
      | some own, false =>
        if ∃ h ∈ handle, h ≠ own then (.ok .unknown, s)
        else s.lookUp operation.effectKey run own answer
      | _, _ => (.ok .unknown, s)

/-- The thread and the turn of a handle. -/
def handleParts (handle : String) : Option (String × String) :=
  if "codex:".toList <+: handle.toList then
    match (handle.toList.drop "codex:".toList.length).splitOn ':' with
    | [thread, turn] =>
      if thread ≠ [] ∧ turn ≠ [] then some (String.ofList thread, String.ofList turn) else none
    | _ => none
  else none

/-- What `restore` is answered. -/
structure RestoreAnswers where
  resolve : Answer CodexInputs
  groupReference : Answer (Option String)
  read : Answer (List (String × Json))

/-- A receipt's identity without what was resolved and observed. -/
def strip (identity : RuntimeIdentity) : RuntimeIdentity :=
  { identity with
    resolved := none, observed := none, resolvedProvider := none, observedProvider := none
    resolvedEffort := none, observedEffort := none }

/-- The run of a receipt. -/
def receiptRun (request : ExecutionRequest) (parts : String × String)
    (receiptIdentity : Option RuntimeIdentity) (reference : Option String) : Run :=
  { Run.new request reference with
    thread := some parts.1
    turn := some parts.2
    identityModel := receiptIdentity.bind RuntimeIdentity.resolved
    identityProvider := receiptIdentity.bind RuntimeIdentity.resolvedProvider
    identityEffort := receiptIdentity.bind RuntimeIdentity.resolvedEffort }

/-- The checks of `restore`: the current group reference, or nothing for another group. -/
def checkReceipt (cfg : Config) (request : ExecutionRequest)
    (receiptIdentity : Option RuntimeIdentity) (ownedGroupReference : Option String)
    (answers : RestoreAnswers) : Except Error (Option (Option String)) := do
  let _ ← cfg.inputs request answers.resolve
  check (∀ identity ∈ receiptIdentity, strip identity = request.identity)
    (.conflict "Codex receipt identity differs from immutable Attempt request")
  let current ← cfg.groupReference answers.groupReference
  return if ownedGroupReference ≠ none ∧ current ≠ ownedGroupReference then none else some current

/-- `restore` once the handle is bound. -/
def restoreBound (s : Runtime) (request : ExecutionRequest) (handle : String)
    (receiptIdentity : Option RuntimeIdentity) (ownedGroupReference : Option String)
    (answer : Answer (List (String × Json))) : Except Error Lookup × Runtime :=
  match s.runOf handle with
  | none => (.error .other, s)
  | some (key, restored) =>
    if ownedGroupReference ≠ none ∧ restored.ownedGroupReference ≠ ownedGroupReference then
      (.ok .unknown, s)
    else
      let s := if receiptIdentity = none then s else s.set key { restored with receiptIdentity }
      s.reconcile request.operation (some handle) answer

/-- `restore`. -/
def restore (cfg : Config) (s : Runtime) (request : ExecutionRequest) (handle : String)
    (receiptIdentity : Option RuntimeIdentity) (ownedGroupReference : Option String)
    (answers : RestoreAnswers) : Except Error Lookup × Runtime :=
  match checkReceipt cfg request receiptIdentity ownedGroupReference answers with
  | .error e => (.error e, s)
  | .ok none => (.ok .unknown, s)
  | .ok (some current) =>
    match handleParts handle with
    | none => (.error (.conflict "invalid durable Codex receipt handle"), s)
    | some parts =>
      let key := request.operation.effectKey
      match s.byKey key with
      | some existing =>
        if existing.request ≠ request ∨ existing.handle ≠ some handle then
          (.error (.conflict "Codex receipt conflicts with immutable Operation"), s)
        else s.restoreBound request handle receiptIdentity ownedGroupReference answers.read
      | none =>
        let run := receiptRun request parts receiptIdentity (ownedGroupReference.or current)
        ((s.set key run).bind handle key).restoreBound request handle receiptIdentity
          ownedGroupReference answers.read

/-- The observation of a cancelled run. -/
def observeCancelled (cfg : Config) (run : Run) (handle : String) (now : ℤ) (clock : Answer ℤ) :
    Except Error RuntimeObservation := do
  let observedAt ← cfg.time now clock
  RuntimeObservation.init {
    handle
    activity := if run.ownedGroupSettled = some true then .terminal else .unknown
    observedAt
    freshUntil := if run.ownedGroupSettled = some true then observedAt + cfg.freshness
      else observedAt
    identity := run.identity
    cancellationRequested := true
    ownedGroupSettled := run.ownedGroupSettled
    ownedGroupReference := run.ownedGroupReference }

/-- The observation of a run that was not cancelled. -/
def observeRun (cfg : Config) (run : Run) (handle : String) (activity : Activity)
    (fresh : Bool) (observedAt : ℤ) : Except Error RuntimeObservation :=
  RuntimeObservation.init {
    handle, activity, observedAt
    freshUntil := if fresh then observedAt + cfg.freshness else observedAt
    identity := run.identity
    cancellationRequested := false
    ownedGroupSettled := none
    ownedGroupReference := run.ownedGroupReference }

/-- `observe`. -/
def observe (cfg : Config) (s : Runtime) (handle : String) (now : ℤ)
    (answer : Answer (List (String × Json))) (clock : Answer ℤ) :
    Except Error RuntimeObservation × Runtime :=
  match s.runOf handle with
  | none => (.error (.conflict "unknown Codex receipt handle"), s)
  | some (key, run) =>
    if run.cancelled then (observeCancelled cfg run handle now clock, s)
    else
      match run.read answer with
      | .error e => (.error e, s)
      | .ok state =>
        let s := s.noteRead key state
        match cfg.time now clock with
        | .error e => (.error e, s)
        | .ok observedAt =>
          match state with
          | none =>
            let activity := if run.terminal then Activity.terminal else .unknown
            (observeRun cfg run handle activity false observedAt, s)
          | some status =>
            if status ∈ terminalStatuses then
              if ∃ known ∈ run.terminalStatus, known ≠ status then
                (.error (.conflict "Codex terminal replay changed status"), s)
              else
                (observeRun cfg run handle .terminal true observedAt,
                  s.set key { run with terminal := true, terminalStatus := some status })
            else if status = "inProgress" then
              let activity := if run.terminal then Activity.terminal else .running
              (observeRun cfg run handle activity true observedAt, s)
            else (observeRun cfg run handle .unknown true observedAt, s)

variable [Sha256]

/-- What a candidate that was collected must agree with. -/
def checkCandidate (run : Run) (candidate : Option Candidate) : Except Error Unit := do
  check (∀ c ∈ candidate, c.attemptId = run.request.attempt.attemptId.val ∧
      c.specDigest = run.request.attempt.digest.val ∧
      c.workspaceKey = run.request.workspace.key.val)
    (.conflict "Codex candidate does not bind the immutable Attempt")
  check (run.candidate = none ∨ candidate = run.candidate)
    (.conflict "Codex terminal replay changes candidate")

/-- `candidate` once the run is known to be completed. -/
def collect (s : Runtime) (key : Name) (run : Run) (answer : Answer (Option Candidate)) :
    Except Error (Option Candidate) × Runtime :=
  let s := s.set key run
  match answer with
  | .error e => (.error e, s)
  | .ok candidate =>
    match checkCandidate run candidate with
    | .error e => (.error e, s)
    | .ok () =>
      (.ok candidate, if candidate = none then s else s.set key { run with candidate })

/-- `candidate`. -/
def candidate (s : Runtime) (handle : String) (answer : Answer (List (String × Json)))
    (collected : Answer (Option Candidate)) : Except Error (Option Candidate) × Runtime :=
  match s.runOf handle with
  | none => (.error (.conflict "unknown Codex receipt handle"), s)
  | some (key, run) =>
    if run.cancelled then (.ok none, s)
    else if run.terminalStatus = some "failed" ∨ run.terminalStatus = some "interrupted" then
      (.ok none, s)
    else
      match run.read answer with
      | .error e => (.error e, s)
      | .ok state =>
        let s := s.noteRead key state
        if state = some "failed" ∨ state = some "interrupted" then (.ok none, s)
        else if state ≠ some "completed" then
          if run.terminal then
            (.error (.conflict "terminal candidate retrieval is uncertain"), s)
          else (.ok none, s)
        else
          s.collect key { run with terminal := true, terminalStatus := some "completed" } collected

/-- What `cancel` is answered. -/
structure CancelAnswers where
  interrupt : Answer (List (String × Json))
  retire : Answer Unit
  settled : Answer (Option Bool)
  clock : Answer ℤ

/-- The settlement `cancel` learns, when nothing is raised on the way; an interrupt that fails is
no proof of anything. -/
def settle (cfg : Config) (run : Run) (answers : CancelAnswers) : Except Error (Option Bool) := do
  given (run.terminal = false) <|
    match answers.interrupt with
    | .error (.rejected _) | .error .rpc | .error .transport => .ok ()
    | .error e => .error e
    | .ok _ => .ok ()
  if cfg.retires then
    answers.retire
    answers.settled
  else return run.ownedGroupSettled

/-- `cancel`. -/
def cancel (cfg : Config) (s : Runtime) (handle : String) (answers : CancelAnswers) :
    Except Error RuntimeObservation × Runtime :=
  match s.runOf handle with
  | none => (.error (.conflict "unknown Codex receipt handle"), s)
  | some (key, run) =>
    if run.thread = none ∨ run.turn = none then
      (.error (.conflict "unknown Codex receipt handle"), s)
    else if run.cancelled then (observeCancelled cfg run handle 0 answers.clock, s)
    else
      let run := { run with cancelled := true }
      match settle cfg run answers with
      | .error e => (.error e, s.set key run)
      | .ok settlement =>
        let run := { run with ownedGroupSettled := settlement }
        (observeCancelled cfg run handle 0 answers.clock, s.set key run)

/-! ## The state machine -/

/-- A call, with what it is answered. -/
inductive Call
  | start (request : ExecutionRequest) (answers : StartAnswers)
  | restore (request : ExecutionRequest) (handle : String)
      (receiptIdentity : Option RuntimeIdentity) (ownedGroupReference : Option String)
      (answers : RestoreAnswers)
  | observe (handle : String) (now : ℤ) (answer : Answer (List (String × Json)))
      (clock : Answer ℤ)
  | candidate (handle : String) (answer : Answer (List (String × Json)))
      (collected : Answer (Option Candidate))
  | cancel (handle : String) (answers : CancelAnswers)
  | reconcile (operation : OperationKey) (handle : Option String)
      (answer : Answer (List (String × Json)))

/-- What a call returns. -/
inductive Reply
  | handle (handle : String)
  | lookup (found : Lookup)
  | observation (o : RuntimeObservation)
  | candidate (candidate : Option Candidate)
  | raised (e : Error)
deriving DecidableEq

/-- A result as a reply. -/
def reply {α : Type} (f : α → Reply) (r : Except Error α × Runtime) : Reply × Runtime :=
  (match r.1 with
    | .ok a => f a
    | .error e => .raised e, r.2)

/-- The reply to a call and the adapter after it. -/
def serve (cfg : Config) (s : Runtime) : Call → Reply × Runtime
  | .start request answers => reply .handle (start cfg s request answers)
  | .restore request handle receiptIdentity ownedGroupReference answers =>
    reply .lookup (restore cfg s request handle receiptIdentity ownedGroupReference answers)
  | .observe handle now answer clock => reply .observation (observe cfg s handle now answer clock)
  | .candidate handle answer collected => reply .candidate (s.candidate handle answer collected)
  | .cancel handle answers => reply .observation (cancel cfg s handle answers)
  | .reconcile operation handle answer => reply .lookup (s.reconcile operation handle answer)

/-- The adapter after a call. -/
def next (cfg : Config) (s : Runtime) (c : Call) : Runtime := (serve cfg s c).2

end Runtime

end Codex

end CreatidyKernel
