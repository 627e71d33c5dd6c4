import CreatidyKernel.Intake.Meaning

set_option relaxedAutoImplicit false
set_option autoImplicit false

/-!
# The evidence about a selected issue

A reader asks the forge about an issue, its branch and the changes of the repository, asks whether
the source and the heads of open changes meet the criteria of the owner, and asks for a baseline
receipt; it asks for all but the contents twice. What it was told becomes a disposition, with a
proof that lists the answers.

## Main definitions

* `Meaning.Answers` — what a reader is told.
* `Meaning.scan` — one walk over the pages of changes.
* `Meaning.survey` — the comparison of the source and the changes with the criteria.
* `Meaning.read` — the evidence.
* `Meaning.issueOf` — the snapshot that an answer of the forge becomes.
-/

namespace CreatidyKernel

namespace Intake

namespace Meaning

open Checked Codec

export Publication (Presence)

/-! ## Answers -/

/-- What the constructor of a reference checks. -/
def IsReference (value : String) : Prop :=
  let (provider, payload) := divide ':' value.toList
  ':' ∈ value.toList ∧ provider ≠ [] ∧ payload ≠ [] ∧ value.toList.all (!isSpace ·) = true

instance (value : String) : Decidable (IsReference value) :=
  inferInstanceAs (Decidable (_ ∧ _ ∧ _ ∧ _))

/-- `Reference`. -/
abbrev Reference := {value : String // IsReference value}

/-- `CheckResult`. -/
inductive CheckResult
  | pending | passed | failed | error | unknown
deriving DecidableEq, Repr

/-- `Observation`. -/
structure Observation where
  presence : Presence
  reference : Option Reference
  revision : Option Reference
  base : Option Reference
  head : Option Reference
  checkContext : Option String
  checkResult : Option CheckResult
deriving DecidableEq

/-- `IssueSnapshot`. -/
structure IssueSnapshot where
  presence : Presence
  contentDigest : String
  updatedAt : String
  state : String
deriving DecidableEq

/-- `ChangeSnapshot`. -/
structure ChangeSnapshot where
  observation : Observation
  state : String
  merged : Option Bool
  updatedAt : String
  targetBranch : Option String
deriving DecidableEq

/-- `Page`. -/
structure Page where
  items : List Observation
  nextCursor : Option String
  complete : Bool

/-- `BaselineSnapshot`, whose reader may put any value in most of its fields. -/
structure BaselineSnapshot where
  subject : IssueSubject
  recipeDigest : String
  producer : Json
  reference : Json
  result : Json
  observedAt : Json

/-- `ContentCriterion`, with the text of the criterion and the digest of the expected bytes. -/
structure ContentCriterion where
  path : String
  criterion : String
  expectedDigest : String

/-- The two times a reader asks. -/
inductive Round
  | opening | closing
deriving DecidableEq, Repr

/-- What a reader is told: the pages of a round by their number, the changes of a round by theirs,
and whether the contents of the base and of the head of a change meet the criteria. -/
structure Answers where
  issue : Round → Except Failure IssueSnapshot
  branch : Round → Except Failure Observation
  page : Round → ℕ → Except Failure Page
  change : Round → ℕ → Except Failure ChangeSnapshot
  base : Except Failure (Option Bool)
  head : ℕ → Except Failure (Option Bool)
  /-- Whether the tree can be read, of a source that tells. -/
  treeReadable : Option (Except Failure Bool)
  baseline : Round → Except Failure (Option BaselineSnapshot)
  now : Except Failure ℤ

/-- `ForgeIntakeEvidence`. -/
structure Reader where
  origin : String
  repository : String
  criteria : List ContentCriterion
  inventoryOnly : Bool
  producer : String
  maxPages : ℕ
  bounded : 0 < maxPages ∧ producer ≠ ""

/-! ## Scans -/

/-- `Presence.value`. -/
def presenceValue : Presence → String
  | .found => "found"
  | .absent => "absent"
  | .inaccessible => "inaccessible"
  | .unknown => "unknown"

/-- The references of a page after those before, or why there are none. -/
def collect : List Observation → List Reference → Except Disposition (List Reference)
  | [], references => .ok references
  | observation :: items, references =>
    if observation.presence = .inaccessible then .error .permission
    else
      match observation.presence, observation.reference with
      | .found, some reference =>
        if reference ∈ references then .error .incomplete
        else collect items (references ++ [reference])
      | _, _ => .error .incomplete

/-- The loop of `_scan` over the pages from a number on. -/
def scanFrom (page : ℕ → Except Failure Page) : ℕ → ℕ → List Reference → List String →
    Except Failure (List Reference × Option Disposition)
  | 0, _, _, _ => .ok ([], some .incomplete)
  | left + 1, number, references, seen => do
    let answer ← page number
    match collect answer.items references with
    | .error failure => return ([], some failure)
    | .ok references =>
      if answer.complete = true ∧ answer.nextCursor = none then return (references, none)
      else
        match answer.nextCursor with
        | none => return ([], some .incomplete)
        | some cursor =>
          if cursor ∈ seen then return ([], some .incomplete)
          else scanFrom page left (number + 1) references (cursor :: seen)

/-- `_scan`. -/
def scan (r : Reader) (page : ℕ → Except Failure Page) :
    Except Failure (List Reference × Option Disposition) :=
  scanFrom page r.maxPages 0 [] []

/-! ## Proofs -/

/-- An optional text. -/
def nullable (o : Option String) : Json := o.elim .null .str

/-- An optional truth value. -/
def verdict (o : Option Bool) : Json := o.elim .null .bool

/-- The text of an optional reference. -/
def referenceValue (o : Option Reference) : Json := nullable (o.map Subtype.val)

/-- The entry of the proof about the source. -/
def sourceEntry (r : Reader) (subject : IssueSubject) (implemented : Option Bool)
    (readable : Bool) : Json :=
  let criteria := Json.arr (r.criteria.map fun item =>
    .obj [("criterion", .str item.criterion), ("expected_digest", .str item.expectedDigest),
      ("path", .str item.path)])
  .obj ([("content_result", verdict implemented), ("criteria", criteria)] ++
    (if r.inventoryOnly = true then [("owner_review_tree_available", .bool readable)] else []) ++
    [("source", .str subject.base)])

/-- The entry about a change at the first read. -/
def openingEntry (ref : Reference) (s : ChangeSnapshot) (matched : Option Bool) : Json :=
  .obj [("base", referenceValue s.observation.base), ("change_read", .str "initial"),
    ("content_result", verdict matched), ("head", referenceValue s.observation.head),
    ("merged", verdict s.merged), ("presence", .str (presenceValue s.observation.presence)),
    ("reference", referenceValue s.observation.reference), ("requested_reference", .str ref.val),
    ("state", .str s.state), ("target_branch", nullable s.targetBranch),
    ("updated_at", .str s.updatedAt)]

/-- The entry about a change at the second read. -/
def closingEntry (ref : Reference) (s : ChangeSnapshot) : Json :=
  .obj [("base", referenceValue s.observation.base), ("change_read", .str "closing"),
    ("head", referenceValue s.observation.head), ("merged", verdict s.merged),
    ("presence", .str (presenceValue s.observation.presence)),
    ("requested_reference", .str ref.val), ("state", .str s.state),
    ("target_branch", nullable s.targetBranch), ("updated_at", .str s.updatedAt)]

/-- The entry about a scan. -/
def scanEntry (phase : String) (failure : Option Disposition) : Json :=
  .obj [("complete", .bool (failure = none)), ("failure", nullable (failure.map Disposition.value)),
    ("presence", if failure = some .permission then .str (presenceValue .inaccessible) else .null),
    ("scan", .str phase)]

/-! ## The comparison with the criteria -/

/-- What the changes say so far. -/
structure Tally where
  incomplete : Option Disposition
  active : Bool
  unresolved : Bool
  proof : List Json

/-- The branch of the loop over the changes that asks about a head. -/
def asksHead (subject : IssueSubject) (s : ChangeSnapshot) : Prop :=
  s.observation.presence = .found ∧ s.state = "open" ∧ s.targetBranch = some subject.branch ∧
    s.observation.head ≠ none ∧
    s.observation.base.map Subtype.val = some ("forgejo:" ++ subject.base)

instance (subject : IssueSubject) (s : ChangeSnapshot) : Decidable (asksHead subject s) :=
  inferInstanceAs (Decidable (_ ∧ _ ∧ _ ∧ _ ∧ _))

/-- One step of the loop over the changes, with the answer about the head where one is asked. -/
def weigh (subject : IssueSubject) (ref : Reference) (s : ChangeSnapshot) (matched : Option Bool)
    (t : Tally) : Tally :=
  let entry := openingEntry ref s (if asksHead subject s then matched else none)
  let t := { t with proof := t.proof ++ [entry] }
  if s.observation.presence = .inaccessible then { t with incomplete := some .permission }
  else if s.observation.presence ≠ .found ∨ s.targetBranch = none then
    { t with incomplete := some .incomplete }
  else if s.state = "open" ∧ s.targetBranch = some subject.branch then
    if asksHead subject s then
      { t with
        active := t.active || matched == some true
        unresolved := t.unresolved || matched == none }
    else { t with unresolved := true }
  else t

/-- Whether a change meets the criteria, if that is asked. -/
def matched (r : Reader) (w : Answers) (subject : IssueSubject) (number : ℕ) (s : ChangeSnapshot) :
    Except Failure (Option Bool) :=
  if asksHead subject s ∧ r.inventoryOnly = false then w.head number else .ok none

/-- The loop over the changes from a number on. -/
def weighFrom (r : Reader) (w : Answers) (subject : IssueSubject) :
    ℕ → List (Reference × ChangeSnapshot) → Tally → Except Failure Tally
  | _, [], t => .ok t
  | number, (ref, s) :: rest, t => do
    let result ← matched r w subject number s
    weighFrom r w subject (number + 1) rest (weigh subject ref s result t)

/-- The snapshots of some changes, by the number of the read. -/
def snapshots (change : ℕ → Except Failure ChangeSnapshot) (references : List Reference) :
    Except Failure (List ChangeSnapshot) :=
  (List.range references.length).mapM change

/-- Whether the tree can be read for the review of an owner. -/
def treeReadable (r : Reader) (w : Answers) : Except Failure Bool :=
  if r.inventoryOnly = true then w.treeReadable.getD (.ok false) else .ok true

/-- Whether the base meets the criteria, if that is asked. -/
def implemented (r : Reader) (w : Answers) : Except Failure (Option Bool) :=
  if r.inventoryOnly = true then .ok none else w.base

/-- What the two scans and the two reads of the changes leave open. -/
def gap (initial changed incomplete : Option Disposition) (refs again : List Reference)
    (states closing : List ChangeSnapshot) : Option Disposition :=
  if initial = some .permission ∨ changed = some .permission ∨
      ∃ s ∈ states ++ closing, s.observation.presence = .inaccessible then some .permission
  else if refs ≠ again ∨ states ≠ closing then some .incomplete
  else incomplete.or changed

/-- The receipt is about the subject and the recipes. -/
def Relevant (subject : IssueSubject) (recipe : String) (b : BaselineSnapshot) : Prop :=
  b.subject = subject ∧ b.recipeDigest = recipe

instance (subject : IssueSubject) (recipe : String) (b : BaselineSnapshot) :
    Decidable (Relevant subject recipe b) :=
  inferInstanceAs (Decidable (_ ∧ _))

/-- The result is definite. -/
def Definite (result : Json) : Prop := result = .str "passed" ∨ result = .str "failed"

instance (result : Json) : Decidable (Definite result) := inferInstanceAs (Decidable (_ ∨ _))

/-- The disposition after the changes were compared. -/
def compared (r : Reader) (subject : IssueSubject) (recipe : String)
    (baseline : Option BaselineSnapshot) (readable : Bool) (implemented : Option Bool)
    (active unresolved : Bool) (incomplete : Option Disposition) : Disposition :=
  match incomplete with
  | some d => d
  | none =>
    if r.inventoryOnly = true ∧ readable = false then .incomplete
    else if implemented = some true then .implemented
    else if active = true then .activePr
    else if unresolved = true then .equivalence
    else if ∀ b ∈ baseline, ¬(Relevant subject recipe b ∧ Definite b.result) then .baseline
    else .remains

/-- The comparison of the source and the changes with the criteria: its disposition and proof. -/
def survey (r : Reader) (w : Answers) (subject : IssueSubject) (recipe : String)
    (baseline : Option BaselineSnapshot) : Except Failure (Disposition × List Json) := do
  let readable ← treeReadable r w
  let content ← implemented r w
  let (refs, initial) ← scan r (w.page .opening)
  let states ← snapshots (w.change .opening) refs
  let tally ← weighFrom r w subject 0 (refs.zip states)
    ⟨initial, false, content == none, [sourceEntry r subject content readable]⟩
  let (again, changed) ← scan r (w.page .closing)
  let closing ← snapshots (w.change .closing) again
  let incomplete := gap initial changed tally.incomplete refs again states closing
  return (compared r subject recipe baseline readable content tally.active tally.unresolved
      incomplete,
    tally.proof ++ (again.zip closing).map (fun c => closingEntry c.1 c.2) ++
      [scanEntry "initial" initial, scanEntry "closing" changed])

/-! ## The evidence -/

section

variable [Sha256]

/-- The revision of a branch. -/
def sourceRevision (branch : Observation) : String :=
  match branch.revision with
  | none => "unknown"
  | some revision =>
    if "forgejo:".toList <+: revision.val.toList then String.ofList (revision.val.toList.drop 8)
    else revision.val

/-- The part of `read` between the first reads and the last. -/
def judged (r : Reader) (w : Answers) (subject : IssueSubject) (declaration : Declaration)
    (recipe : String) (issue : IssueSnapshot) (branch : Observation)
    (baseline : Option BaselineSnapshot) : Except Failure (Disposition × List Json) := do
  let criteria ← strings false (Codec.getField declaration.value "criteria")
  if issue.presence = .inaccessible ∨ branch.presence = .inaccessible then
    return (.permission, [])
  else if issue.presence ≠ .found ∨ branch.presence ≠ .found then return (.incomplete, [])
  else if sourceRevision branch ≠ subject.base then return (.stale, [])
  else if r.criteria.map ContentCriterion.criterion = criteria ∨ r.inventoryOnly = true then
    survey r w subject recipe baseline
  else return (.equivalence, [])

/-- Both reads found it, and it differs. -/
def moved {α : Type} [DecidableEq α] (presence : α → Presence) (first last : α) : Bool :=
  presence first = .found ∧ presence last = .found ∧ first ≠ last

/-- The entry of the proof about the reads of the issue and the branch. -/
def readsEntry (subject : IssueSubject) (issue closingIssue : IssueSnapshot)
    (branch closingBranch : Observation) : Json :=
  let reads (first last : Presence) : Json :=
    .obj [("closing", .str (presenceValue last)), ("initial", .str (presenceValue first))]
  .obj [("base_mismatch",
      .bool (branch.presence = .found ∧ sourceRevision branch ≠ subject.base)),
    ("branch_changed", .bool (moved Observation.presence branch closingBranch)),
    ("branch_closing_revision", referenceValue closingBranch.revision),
    ("branch_initial_revision", referenceValue branch.revision),
    ("issue_changed", .bool (moved IssueSnapshot.presence issue closingIssue)),
    ("issue_closing_digest", .str closingIssue.contentDigest),
    ("issue_initial_digest", .str issue.contentDigest),
    ("reads", .obj [("branch", reads branch.presence closingBranch.presence),
      ("issue", reads issue.presence closingIssue.presence)])]

/-- The disposition after the last reads of the issue and the branch. -/
def closed (disposition : Disposition) (issue closingIssue : IssueSnapshot)
    (branch closingBranch : Observation) : Disposition :=
  if disposition = .permission ∨ .inaccessible ∈ [issue.presence, branch.presence,
      closingIssue.presence, closingBranch.presence] then .permission
  else if moved IssueSnapshot.presence issue closingIssue = true ∨
      moved Observation.presence branch closingBranch = true then .stale
  else if disposition ≠ .stale ∧
      (closingIssue.presence ≠ .found ∨ closingBranch.presence ≠ .found) then .incomplete
  else disposition

/-- The two receipts are of one identity and result. -/
def SameReceipt (b c : BaselineSnapshot) : Prop :=
  b.subject = c.subject ∧ b.recipeDigest = c.recipeDigest ∧ b.producer = c.producer ∧
    b.reference = c.reference ∧ b.result = c.result

instance (b c : BaselineSnapshot) : Decidable (SameReceipt b c) :=
  inferInstanceAs (Decidable (_ ∧ _ ∧ _ ∧ _ ∧ _))

/-- A receipt that stands. -/
structure Standing where
  producer : String
  reference : String
  result : String
  observedAt : ℤ
deriving DecidableEq

/-- The receipt stands: it is about the subject, is not from the future, and says who produced it,
where it is, and a definite result. -/
def standing (subject : IssueSubject) (recipe : String) (now : ℤ) (b : BaselineSnapshot) :
    Option Standing :=
  match b.producer, b.reference, b.result, b.observedAt with
  | .str producer, .str reference, .str result, .int observedAt =>
    if Relevant subject recipe b ∧ 0 < observedAt ∧ observedAt ≤ now ∧ Nonblank producer ∧
        Nonblank reference ∧ Definite (.str result) then
      some ⟨producer, reference, result, observedAt⟩
    else none
  | _, _, _, _ => none

/-- What the two receipts establish, with the time of the older one. -/
def receipt (subject : IssueSubject) (recipe : String) (now : ℤ)
    (opening closing : Option BaselineSnapshot) : Option Standing := do
  let b ← opening
  let c ← closing
  guard (SameReceipt b c)
  let first ← standing subject recipe now b
  let last ← standing subject recipe now c
  return { first with observedAt := min first.observedAt last.observedAt }

/-- `read`. -/
def read (r : Reader) (w : Answers) (subject : IssueSubject) (declaration : Declaration) :
    Except Failure IntakeEvidence := do
  check (r.origin = subject.origin ∧ r.repository = subject.repository)
    (refusal "forge binding differs from selected origin")
  let issue ← w.issue .opening
  let branch ← w.branch .opening
  let recipe := (digest (Codec.getField declaration.value "recipes")).val
  let baseline ← w.baseline .opening
  let (disposition, proof) ← judged r w subject declaration recipe issue branch baseline
  let closingIssue ← w.issue .closing
  let closingBranch ← w.branch .closing
  let closingBaseline ← w.baseline .closing
  let now ← w.now
  let disposition := closed disposition issue closingIssue branch closingBranch
  let proof := Json.arr (proof ++ [readsEntry subject issue closingIssue branch closingBranch])
  let valid := receipt subject recipe now baseline closingBaseline
  return {
    subject := subject
    issueDigest := issue.contentDigest
    issueUpdated := issue.updatedAt
    issueState := issue.state
    source := sourceRevision branch
    recipeDigest := recipe
    baselineProducer := valid.elim "unknown" Standing.producer
    baselineReference := valid.elim "unknown" Standing.reference
    baselineResult := valid.elim "unknown" Standing.result
    relevanceProducer := r.producer
    relevanceReference := "sha256:" ++ (digest proof).val
    relevanceProof := Json.encode proof
    disposition := if valid = none ∧ disposition = .remains then .baseline else disposition
    observedAt := valid.elim now Standing.observedAt }

/-- What `issue_snapshot` makes of an answer. -/
def issueOf (number : ℕ) (answer : ℤ × Json) : IssueSnapshot :=
  let seen := Publication.issueOf number answer
  let updated := (Publication.object answer.2).bind fun data => Publication.field data "updated_at"
  ⟨seen.presence, seen.contentDigest,
    if seen.presence = .found then updated.getD "unknown" else "unknown", seen.state⟩

end

namespace Sample

/-- A declaration of a proposer. -/
def fields : Fields :=
  [("context", .arr []), ("criteria", .arr [.str "c"]), ("effects", .arr []),
    ("interface", .arr []), ("network", .arr []), ("outcome", .str "o"), ("paths", .arr []),
    ("provenance", .arr [.str "p"]), ("quality", .arr []), ("recipes", .arr [.str "r"]),
    ("unknowns", .arr []), ("version", .int 1)]

theorem fields_wf : (Json.obj fields).WF := by
  simp only [fields, Json.wf_obj, List.map_cons, List.map_nil]
  exact ⟨by decide, by simp⟩

theorem admitted : checkDeclaration (Json.encode (.obj fields)) = .ok fields := by
  have hsize : (Json.encode (.obj fields)).size ≤ 262144 := by decide +kernel
  refine bind_of_ok (check_of hsize) <| bind_of_ok ((objectFrom_encode fields_wf).mpr rfl) ?_
  decide +kernel

def declaration : Declaration := ⟨_, _, admitted⟩

def base : String := "0123456789abcdef0123456789abcdef01234567"

def selected : IssueSubject :=
  ⟨"https://forge.invalid", "team/project", 8, "main", base, by decide +kernel⟩

end Sample

end Meaning

end Intake

end CreatidyKernel
