import CreatidyKernel.Core.Verification
import CreatidyKernel.Intake.Records
import CreatidyKernel.Store.Journal

set_option relaxedAutoImplicit false
set_option autoImplicit false

/-!
# The native forge

The adapter that creates a pull request for an authorized effect and reads it back. What the
servers answer to the `n`-th question of a process is an argument; every exchange with a server
is kept, so that what was read can be compared with what was concluded from it.

## Main definitions

* `Publication.Desk`, `Publication.World` — the state of the publications, and the answers.
* `Publication.Effect`, `Publication.effectMarker`, `Publication.prPayload` — what is authorized.
* `Publication.changeObservation`, `Publication.changes` — the listing of pull requests.
* `Publication.reconcile`, `Publication.apply` — the read of one pull request, and its creation.
-/

namespace CreatidyKernel

namespace Publication

open Checked Action

/-! ## Servers and state -/

/-- Why a call ended without a value. -/
inductive Stop
  /-- `ForgeConflict`. -/
  | conflict (message : String)
  /-- Another `ValueError`. -/
  | refused (message : String)
  /-- `OSError`. -/
  | lost
  /-- `StopIteration`. -/
  | exhausted
  /-- An exception that is none of these. -/
  | failed (failure : Failure)
  /-- The process ended. -/
  | crashed
deriving DecidableEq, Repr

/-- What a `GET` request asks for, within the repository of the transport. -/
inductive Query
  | issue (number : ℕ)
  | branch (name : String)
  | pulls (page : ℕ)
  | pull (number : ℕ)
  | comments (issue : ℕ)
deriving DecidableEq, Repr

/-- A request that changes the forge. -/
inductive NativeWrite
  | push (base topic revision title description : String)
  | comment (issue : ℕ) (body : String)
deriving DecidableEq, Repr

/-- `EffectStatus`. -/
inductive EffectStatus
  | accepted | rejected | stale | unknown
deriving DecidableEq, Repr

/-- `AGitPush`: what the output of a push says, with the number of the pull request. -/
structure AGitPush where
  status : EffectStatus
  reference : Option ℕ
deriving DecidableEq

/-- The status and the payload of an answer. -/
abbrev Reply := Except Stop (ℤ × Json)

/-- An exchange with the forge: a read with its reply, or a write of an operation. -/
inductive Exchange
  | read (query : Query) (reply : Reply)
  | sent (operation : String) (write : NativeWrite)

/-- `DependencyEvidence`, as far as a publication reads it. -/
structure Edges where
  complete : Bool
  required : List (String × String × ℕ)
deriving DecidableEq

/-- The revisions a collected candidate was made at. -/
structure Collection where
  head : String
  base : String
deriving DecidableEq

/-- What `accepted` reads of the Program store and the workspace: the digests are of the
workspace as it is and of the candidate that was handed over. -/
structure Standing where
  program : Program
  captured : String
  handed : String

/-- The answers to the questions of a process, by their number. What the workspace of the
process collected is collected once. -/
structure World where
  collected : Option (Candidate × Collection)
  http : ℕ → Query → Reply
  post : ℕ → Except Stop Unit
  push : ℕ → Except Stop AGitPush
  /-- The outcomes of the local Git commands before a push. -/
  prepared : ℕ → Except Stop Bool
  supported : ℕ → Bool
  standing : ℕ → Except Stop Standing
  edges : ℕ → Except Stop Edges
  policy : ℕ → Name
  /-- The outcomes of the checks of claims, budgets and leases. -/
  guard : ℕ → Except Stop Unit
  now : ℕ → ℤ
  token : ℕ → Fin 32 → Fin 16

/-- A row of `artifact_references` with its bytes. -/
structure Artifact where
  operation : String
  name : String
  data : String
deriving DecidableEq

/-- An `ownership-publication` record. -/
structure Authorization where
  operation : String
  claim : String
  owner : String
  generation : ℕ
  effectKey : String
  requestDigest : Name
deriving DecidableEq

/-- `OperationKey`. -/
structure OperationKey where
  operationId : String
  effectKey : String
  requestDigest : Name
deriving DecidableEq

/-- `Effect` of the action `pr`; the repository is the one of the transport. -/
structure Effect where
  operation : OperationKey
  branch : String
  revision : String
  baseBranch : String
  title : String
  body : String
  fence : ℕ
  deliveryAttempts : ℕ
deriving DecidableEq

/-- The two actions of a publication. -/
inductive Step
  | pr | receipt
deriving DecidableEq, Repr

/-- The text of an action. -/
def Step.value : Step → String
  | .pr => "pr"
  | .receipt => "receipt"

/-- The approval a publication rests on. -/
structure Approved where
  decisionId : String
  policyDigest : Name
  specDigest : Name
  drafts : List Intake.Draft
  /-- The required predecessors of each draft. -/
  required : List (List (String × String × ℕ))

/-- What an `OrdinaryForgejoSync` is made with. -/
structure Setup where
  repository : String
  origin : String
  login : String
  owner : String
  maxPages : ℕ
  maxBytes : ℕ
  approved : Approved
  verification : Name
  repositoryUrl : Name

/-- A reference a publication took for the one native object of its effect, with the exchanges
of the call that produced it. -/
structure Recorded where
  step : Step
  setup : Setup
  effect : Effect
  base : String
  issue : ℕ
  reference : String
  trail : List Exchange

/-- The state of the publications: the journal, the authorizations and the artifacts, how many
more durable writes and questions the process lives for, how many it asked, every exchange, the
topic each call used for an Attempt, and every reference taken as accepted. -/
structure Desk where
  journal : Journal
  authorizations : List Authorization
  artifacts : List Artifact
  allowance : ℕ
  asked : ℕ
  wire : List Exchange
  topics : List (String × String)
  recorded : List Recorded

/-- A program over the desk. -/
abbrev Act (α : Type) := Action Desk Stop α

/-- The process lives for one more event. -/
def spend : Act Unit := fun s =>
  if s.allowance = 0 then (.error .crashed, s) else (.ok (), { s with allowance := s.allowance - 1 })

/-- Ask a question: the answer is the next one. -/
def ask {α : Type} (answers : ℕ → Except Stop α) : Act α := do
  spend
  let s ← read
  write fun s => { s with asked := s.asked + 1 }
  of (answers s.asked)

/-! ## Texts -/

/-- A digit of base 64. -/
def base64Char (url : Bool) (n : ℕ) : Char :=
  if n < 26 then Char.ofNat (65 + n)
  else if n < 52 then Char.ofNat (71 + n)
  else if n < 62 then Char.ofNat (n - 4)
  else if n = 62 then (if url then '-' else '+')
  else if url then '_' else '/'

/-- The digits of base 64 of some bytes, without padding. -/
def base64Digits (url : Bool) : List ℕ → List Char
  | a :: b :: c :: rest =>
    base64Char url (a / 4) :: base64Char url (a % 4 * 16 + b / 16) ::
      base64Char url (b % 16 * 4 + c / 64) :: base64Char url (c % 64) :: base64Digits url rest
  | [a, b] =>
    [base64Char url (a / 4), base64Char url (a % 4 * 16 + b / 16), base64Char url (b % 16 * 4)]
  | [a] => [base64Char url (a / 4), base64Char url (a % 4 * 16)]
  | [] => []

/-- The bytes of a text. -/
def utf8 (s : String) : List ℕ := s.toUTF8.data.toList.map UInt8.toNat

/-- `base64.b64encode`. -/
def b64encode (s : String) : String :=
  let bytes := utf8 s
  String.ofList (base64Digits false bytes ++ List.replicate ((3 - bytes.length % 3) % 3) '=')

/-- `effect_marker`. -/
def effectMarker (operation : OperationKey) : String :=
  let encoded := base64Digits true (utf8 (dumps (.arr [.str operation.operationId,
    .str operation.effectKey, .str operation.requestDigest.val])))
  "<!-- forge-effect:" ++ String.ofList encoded ++ " -->"

/-- `needle in text`. -/
def Mentions (text needle : String) : Prop := needle.toList <:+: text.toList

instance (text needle : String) : Decidable (Mentions text needle) :=
  inferInstanceAs (Decidable (_ <:+: _))

/-- A lowercase hexadecimal digit. -/
def isHexDigit (c : Char) : Bool := c.isDigit || ('a' ≤ c && c ≤ 'f')

/-- `oid`: the full match of forty or sixty-four lowercase hexadecimal digits. -/
def IsOid (value : String) : Prop :=
  (value.toList.length = 40 ∨ value.toList.length = 64) ∧ value.toList.all isHexDigit = true

instance (value : String) : Decidable (IsOid value) := inferInstanceAs (Decidable (_ ∧ _))

/-- The full match of `kernel-pr-[0-9a-f]{32}`. -/
def IsTopic (value : String) : Prop :=
  value.toList.take 10 = "kernel-pr-".toList ∧ (value.toList.drop 10).length = 32 ∧
    (value.toList.drop 10).all isHexDigit = true

instance (value : String) : Decidable (IsTopic value) := inferInstanceAs (Decidable (_ ∧ _ ∧ _))

/-- `fresh_agit_topic`. -/
def freshAgitTopic (token : Fin 32 → Fin 16) : String :=
  "kernel-pr-" ++ String.ofList ((List.ofFn token).map fun d => Nat.digitChar d.val)

/-- What `valid_branch` accepts. -/
def ValidBranch (branch : String) : Prop :=
  let cs := branch.toList
  cs.length ≤ 255 ∧ cs ≠ [] ∧ branch ≠ "@" ∧ cs.head? ≠ some '-' ∧ cs.getLast? ≠ some '/' ∧
    cs.getLast? ≠ some '.' ∧ ¬['.', '.'] <:+: cs ∧ ¬['@', '\x7b'] <:+: cs ∧
    (∀ ch ∈ cs, ch ∉ " ~^:?*[\\".toList ∧ 32 ≤ ch.toNat ∧ ch.toNat ≠ 127) ∧
    ∀ part ∈ cs.splitOn '/', part ∉ [[], ['.'], ['.', '.']] ∧ part.head? ≠ some '.' ∧
      ¬".lock".toList <:+ part

instance (branch : String) : Decidable (ValidBranch branch) :=
  inferInstanceAs (Decidable (_ ∧ _ ∧ _ ∧ _ ∧ _ ∧ _ ∧ _ ∧ _ ∧ _ ∧ _))

/-- `valid_branch`. -/
def validBranch (branch : String) : Except Stop Unit :=
  check (ValidBranch branch) (.conflict "invalid Git branch")

/-- `AGIT_OPTION_LIMIT`. -/
def agitOptionLimit : ℕ := 32768

/-- The description of a pull request: the body of its effect and the marker. -/
def prBody (effect : Effect) : String := effect.body ++ "\n\n" ++ effectMarker effect.operation

/-- `pr_payload`: the topic, the body and the description of a pull request. -/
def prPayload (effect : Effect) (maxBytes : ℕ) : Except Stop (String × String × String) := do
  let maxBytes := min maxBytes agitOptionLimit
  let fields := [effect.operation.operationId, effect.operation.effectKey,
    effect.operation.requestDigest.val, effect.title, effect.body]
  check (∀ value ∈ fields, value.length ≤ maxBytes / 8 ∧ value.length * 4 ≤ maxBytes)
    (.refused "PR input exceeds local request limit")
  let body := prBody effect
  check ((utf8 body).length + (utf8 effect.title).length ≤ maxBytes / 2)
    (.refused "PR body exceeds local request limit")
  check (IsTopic effect.branch)
    (.conflict "PR topic must be a durable fresh 128-bit Operation topic")
  check (∀ ch ∈ effect.title.toList, 32 ≤ ch.toNat ∧ ch.toNat ≠ 127)
    (.conflict "AGit title must be one line without control characters")
  let description := "\x7bbase64\x7d" ++ b64encode body
  check ((utf8 description).length + (utf8 effect.title).length ≤ maxBytes)
    (.refused "AGit push options exceed local request limit")
  return (effect.branch, body, description)

/-! ## Payloads -/

/-- `_object`. -/
def object : Json → Option (List (String × Json))
  | .obj fields => some fields
  | _ => none

/-- `data.get(name)`; a missing value reads as null. -/
def get (data : List (String × Json)) (name : String) : Json := (data.lookup name).getD .null

/-- `_field`. -/
def field (data : List (String × Json)) (name : String) : Option String :=
  match get data name with
  | .str s => if s = "" then none else some s
  | _ => none

/-- `positive_id`. -/
def positiveId : Json → Option ℕ
  | .int n => if 0 < n ∧ n < 10 ^ 18 then some n.toNat else none
  | _ => none

/-- `number`, of the digits of a number. -/
def ValidNumber (n : ℕ) : Prop := 0 < n ∧ n < 10 ^ 18

instance (n : ℕ) : Decidable (ValidNumber n) := inferInstanceAs (Decidable (_ ∧ _))

/-- An observed pull request: its number and the revisions of its sides. -/
structure Change where
  number : ℕ
  base : String
  head : String
deriving DecidableEq

/-- A field that holds an object identifier. -/
def oidField (data : List (String × Json)) (name : String) : Option String :=
  (field data name).filter fun s => decide (IsOid s)

/-- `_change_observation`. -/
def changeObservation (repository : String) (data : List (String × Json)) : Option Change := do
  let head ← object (get data "head")
  let base ← object (get data "base")
  let headRepository ← field (← object (get head "repo")) "full_name"
  let baseRepository ← field (← object (get base "repo")) "full_name"
  guard (headRepository = repository ∧ baseRepository = repository)
  let number ← positiveId (get data "number")
  let baseRevision ← oidField base "sha"
  let headRevision ← oidField head "sha"
  return ⟨number, baseRevision, headRevision⟩

/-- `Receipt`: the reference is the number of the pull request. -/
structure Receipt where
  status : EffectStatus
  reference : Option ℕ
  observedBase : Option String
deriving DecidableEq

/-- The receipt of an outcome that is not known. -/
def Receipt.unknown : Receipt := ⟨.unknown, none, none⟩

/-- `Presence`. -/
inductive Presence
  | found | absent | inaccessible | unknown
deriving DecidableEq, Repr

/-- `Page`. -/
structure Page where
  items : List Change
  nextCursor : Option ℕ
  complete : Bool
deriving DecidableEq

/-! ## The adapter -/

/-- What a publication is set up with: the repository of the transports, the bounds, and who
authorizes an effect. -/
structure Forge where
  world : World
  repository : String
  maxBytes : ℕ
  operation : String
  authorize : Act Bool
  authorizeReconcile : Act Bool
  beforeSend : Act Unit

/-- A `GET` request. -/
def request (w : World) (query : Query) : Act (ℤ × Json) := do
  spend
  let s ← read
  let reply := w.http s.asked query
  write fun s => { s with asked := s.asked + 1, wire := s.wire ++ [.read query reply] }
  of reply

/-- `_read`. -/
def tryRead (w : World) (query : Query) : Act (ℤ × Json) := do
  match ← attempt (request w query) with
  | .ok answer => return answer
  | .error .lost => return (0, .null)
  | .error e => raise e

/-- `_require_reads`. -/
def requireReads (w : World) : Act Unit := do
  let supported ← ask fun n => .ok (w.supported n)
  of (check (supported = true) (.refused "forge reads unsupported"))

/-- `_repo`. -/
def checkRepository (configured repository : String) : Except Stop Unit :=
  check (repository = configured) (.conflict "repository outside configured forge binding")

/-- What `branch` makes of an answer. -/
def branchOf (branch : String) (answer : ℤ × Json) : Presence × Option String :=
  if answer.1 = 401 ∨ answer.1 = 403 then (.inaccessible, none)
  else if answer.1 ≠ 200 then (.unknown, none)
  else
    let seen : Option (String × String) := do
      let data ← object answer.2
      let commit ← object (get data "commit")
      let name ← field data "name"
      let revision ← oidField commit "id"
      return (name, revision)
    match seen with
    | some (name, revision) => if name = branch then (.found, some revision) else (.unknown, none)
    | none => (.unknown, none)

/-- `branch`. -/
def branch (w : World) (configured repository branch : String) :
    Act (Presence × Option String) := do
  requireReads w
  of (validBranch branch)
  of (checkRepository configured repository)
  let answer ← tryRead w (.branch branch)
  return branchOf branch answer

/-- `IssueSnapshot`, without the time of the update. -/
structure IssueSnapshot where
  presence : Presence
  contentDigest : String
  state : String
deriving DecidableEq

variable [Sha256]

/-- What `issue_snapshot` makes of an answer. -/
def issueOf (number : ℕ) (answer : ℤ × Json) : IssueSnapshot :=
  let unknown : IssueSnapshot := ⟨.unknown, "unknown", "unknown"⟩
  if answer.1 = 401 ∨ answer.1 = 403 then ⟨.inaccessible, "unknown", "unknown"⟩
  else if answer.1 ≠ 200 then unknown
  else
    let seen : Option IssueSnapshot := do
      let data ← object answer.2
      let seen ← positiveId (get data "number")
      guard (seen = number ∧ get data "pull_request" = .null)
      let state ← field data "state"
      guard (state = "open" ∨ state = "closed")
      match get data "body" with
      | .str body => do
        let title ← field data "title"
        let _ ← field data "updated_at"
        return ⟨.found, (digest (.obj [("body", .str body), ("title", .str title)])).val, state⟩
      | _ => none
    seen.getD unknown

/-- `issue_snapshot`. -/
def issueSnapshot (w : World) (configured repository : String) (number : ℕ) :
    Act IssueSnapshot := do
  requireReads w
  of (check (ValidNumber number) (.conflict "invalid issue number"))
  of (checkRepository configured repository)
  let answer ← tryRead w (.issue number)
  return issueOf number answer

omit [Sha256]

/-- What `_page` makes of an answer about pull requests. -/
def pageOf (repository : String) (page : ℕ) (answer : ℤ × Json) : Page :=
  let unread : Page := ⟨[], none, false⟩
  if answer.1 ≠ 200 then unread
  else
    match answer.2 with
    | .arr entries =>
      match entries.mapM fun entry => (object entry).bind (changeObservation repository) with
      | some items =>
        if items = [] then ⟨[], none, true⟩ else ⟨items, some (page + 1), false⟩
      | none => unread
    | _ => unread

/-- `changes`. -/
def changes (w : World) (repository : String) (cursor : Option ℕ) : Act Page := do
  requireReads w
  if ∀ page ∈ cursor, ValidNumber page then
    let answer ← tryRead w (.pulls (cursor.getD 1))
    return pageOf repository (cursor.getD 1) answer
  else return ⟨[], none, false⟩

namespace Forge

/-- `_authorized`, for an effect on the repository of the transport. -/
def authorized (f : Forge) (effect : Effect) (reconciliation : Bool) : Act Unit := do
  of (validBranch effect.branch)
  of (validBranch effect.baseBranch)
  let permitted ← if reconciliation then f.authorizeReconcile else f.authorize
  of (check (permitted = true) (.conflict "exact forge effect was not authorized"))
  of (check (IsOid effect.revision) (.conflict "revision must be a full Git object ID"))
  let supported ← ask fun n => .ok (f.world.supported n)
  of (check (supported = true) (.refused "pr unsupported"))

/-- The sides of a pull request have the references of the effect. -/
def SameSides (effect : Effect) (number : ℕ) (data : List (String × Json)) : Prop :=
  (object (get data "head")).map (get · "ref") =
      some (.str ("refs/pull/" ++ toString number ++ "/head")) ∧
    (object (get data "base")).map (get · "ref") = some (.str effect.baseBranch)

instance (effect : Effect) (number : ℕ) (data : List (String × Json)) :
    Decidable (SameSides effect number data) := inferInstanceAs (Decidable (_ ∧ _))

/-- The receipt of an observed pull request. -/
def receiptOf (effect : Effect) (body : String) (number : ℕ) (data : List (String × Json))
    (observed : Change) : Except Stop Receipt := do
  check (SameSides effect number data)
    (.conflict "PR head or base identity differs from authorized effect")
  if observed.number ≠ number ∨ get data "title" ≠ .str effect.title ∨
      get data "body" ≠ .str body then
    return ⟨.unknown, some number, none⟩
  else if observed.head ≠ effect.revision then
    return ⟨.stale, some number, some observed.base⟩
  else return ⟨.accepted, some number, some observed.base⟩

/-- What `reconcile` makes of an answer about a pull request. -/
def judge (repository : String) (effect : Effect) (body : String) (number : ℕ)
    (answer : ℤ × Json) : Except Stop Receipt :=
  if answer.1 ≠ 200 then .ok ⟨.unknown, some number, none⟩
  else
    match object answer.2 with
    | none => .ok ⟨.unknown, some number, none⟩
    | some data =>
      match changeObservation repository data with
      | none => .ok ⟨.unknown, some number, none⟩
      | some observed => receiptOf effect body number data observed

/-- The part of `reconcile` after the payload of the effect is known. -/
def readBack (f : Forge) (effect : Effect) (body : String) (number : ℕ) : Act Receipt := do
  of (check (ValidNumber number) (.conflict "change does not belong to repository"))
  let answer ← tryRead f.world (.pull number)
  of (judge f.repository effect body number answer)

/-- `reconcile`. -/
def reconcile (f : Forge) (effect : Effect) (known : Option ℕ) : Act Receipt := do
  f.authorized effect true
  match known with
  | none => return Receipt.unknown
  | some number =>
    match prPayload effect f.maxBytes with
    | .ok (_, body, _) => f.readBack effect body number
    | .error (.conflict message) => raise (.conflict message)
    | .error _ => return ⟨.rejected, none, none⟩

/-- The local Git commands of a push: each one passes the guard first. -/
def prepare (f : Forge) : ℕ → Act Bool
  | 0 => return true
  | n + 1 => do
    f.beforeSend
    let prepared ← ask f.world.prepared
    if prepared then f.prepare n else return false

/-- The push itself. -/
def send (f : Forge) (effect : Effect) (description : String) : Act AGitPush := do
  f.beforeSend
  spend
  write fun s => { s with
    wire := s.wire ++ [.sent f.operation
      (.push effect.baseBranch effect.branch effect.revision effect.title description)] }
  ask f.world.push

/-- The Git commands of `create_agit_pr`: `init`, `check-ref-format`, `cat-file` and the push. -/
def runGit (f : Forge) (effect : Effect) (description : String) : Act AGitPush := do
  if ← f.prepare 3 then f.send effect description else return ⟨.unknown, none⟩

/-- `create_agit_pr`. -/
def createAgitPr (f : Forge) (effect : Effect) (description : String) : Act AGitPush := do
  of (validBranch effect.baseBranch)
  of (check (IsTopic effect.branch) (.conflict "invalid durable AGit topic"))
  of (check (IsOid effect.revision) (.conflict "revision must be a full Git object ID"))
  of (check (effect.title ≠ "" ∧ ∀ ch ∈ effect.title.toList, 32 ≤ ch.toNat ∧ ch.toNat ≠ 127)
    (.conflict "AGit title must be one line without control characters"))
  if agitOptionLimit < description.length + effect.title.length then return ⟨.rejected, none⟩
  else
    match ← attempt (f.runGit effect description) with
    | .ok created => return created
    | .error .lost => return ⟨.unknown, none⟩
    | .error e => raise e

/-- The part of `apply` after the push. -/
def confirm (f : Forge) (effect : Effect) (created : AGitPush) : Act Receipt := do
  match created.status, created.reference with
  | .accepted, some number => do
    let receipt ← f.reconcile effect (some number)
    if receipt.status = .unknown then return ⟨.unknown, some number, none⟩ else return receipt
  | .accepted, none => return Receipt.unknown
  | status, _ => return ⟨status, none, none⟩

/-- The part of `apply` that creates the pull request. -/
def create (f : Forge) (effect : Effect) (description : String) : Act Receipt := do
  let base ← branch f.world f.repository f.repository effect.baseBranch
  if base.1 = .found then
    match ← attempt (f.createAgitPr effect description) with
    | .ok created => f.confirm effect created
    | .error .lost => return Receipt.unknown
    | .error e => raise e
  else return Receipt.unknown

/-- `apply`. -/
def apply (f : Forge) (effect : Effect) : Act Receipt := do
  f.authorized effect false
  if 1 < effect.deliveryAttempts then f.reconcile effect none
  else
    match prPayload effect f.maxBytes with
    | .ok (_, _, description) => f.create effect description
    | .error (.conflict message) => raise (.conflict message)
    | .error _ => return ⟨.rejected, none, none⟩

end Forge

end Publication

end CreatidyKernel
