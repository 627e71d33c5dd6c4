import CreatidyKernel.Intake.Proposals

set_option relaxedAutoImplicit false
set_option autoImplicit false

/-!
# Native dependencies of an issue

The dependencies of a native issue are read page by page from a server that may answer anything,
twice over, between two readings of a clock. The observation counts as complete when both scans
saw the same complete listing within the freshness window.

## Main definitions

* `Intake.urlsplit` — the parts of the URL of an issue.
* `Intake.Discovery`, `Intake.Answer`, `Intake.Observer` — the reader, and what it meets.
* `Intake.Discovery.scan`, `Intake.Discovery.observe`, `Intake.Discovery.readDependencies` — the
  reads.
* `Intake.Discovery.Identifies`, `Intake.Discovery.Listing`, `Intake.Discovery.Stable` — what a
  complete observation is.

## Main results

* `Intake.Discovery.scan_eq_observed` — a scan is complete exactly when its pages list the issues.
* `Intake.Discovery.read_dependencies_exact` — evidence is complete exactly for stable listings.
-/

namespace CreatidyKernel

namespace Intake

open Checked

/-! ## URLs -/

/-- `SplitResult`. -/
structure SplitResult where
  scheme : List Char
  netloc : List Char
  path : List Char
  query : List Char
  fragment : List Char
deriving DecidableEq

/-- The text before the first occurrence of a character, and the text after it. -/
def divide (c : Char) (cs : List Char) : List Char × List Char :=
  (cs.takeWhile (· ≠ c), (cs.dropWhile (· ≠ c)).tail)

/-- The characters of a scheme. -/
def schemeChar (c : Char) : Bool :=
  ('A' ≤ c && c ≤ 'Z') || ('a' ≤ c && c ≤ 'z') || c.isDigit || c == '+' || c == '-' || c == '.'

/-- The scheme of a URL in lower case, and the rest. -/
def splitScheme (cs : List Char) : List Char × List Char :=
  let (scheme, rest) := divide ':' cs
  if ':' ∈ cs ∧ (scheme.head?.any Char.isAlpha) = true ∧ scheme.all schemeChar = true then
    (scheme.map Char.toLower, rest)
  else ([], cs)

/-- The authority of a URL without its scheme, and the rest. -/
def splitNetloc : List Char → List Char × List Char
  | '/' :: '/' :: cs =>
    let inside (c : Char) : Bool := c ≠ '/' && c ≠ '?' && c ≠ '#'
    (cs.takeWhile inside, cs.dropWhile inside)
  | cs => ([], cs)

/-- `urlsplit`. An authority it refuses is not the one of a configured origin, which passed. -/
def urlsplit (url : String) : SplitResult :=
  let cs := (url.toList.dropWhile fun c => c.toNat ≤ 32).filter fun c => c ∉ ['\t', '\r', '\n']
  let (scheme, cs) := splitScheme cs
  let (netloc, cs) := splitNetloc cs
  let (cs, fragment) := divide '#' cs
  let (path, query) := divide '?' cs
  ⟨scheme, netloc, path, query, fragment⟩

example : urlsplit "HTTPS://forge.invalid/team/project/issues/8?#" =
    ⟨"https".toList, "forge.invalid".toList, "/team/project/issues/8".toList, [], []⟩ := by decide

/-! ## The reader -/

/-- `NativeIssue`. -/
structure NativeIssue where
  origin : String
  repository : String
  number : ℕ
  title : String
  body : String
  state : String
  updatedAt : String
  contentDigest : Name
deriving DecidableEq

/-- The identity of an issue within its origin. -/
def NativeIssue.identity (i : NativeIssue) : String × ℕ := (i.repository, i.number)

/-- An issue as an obligation of the issues that depend on it. -/
def NativeIssue.obligation (i : NativeIssue) : Obligation := (i.origin, i.repository, i.number)

/-- `ScanStatus`. -/
inductive ScanStatus
  | observed | incomplete | permission | changed | unsupported
deriving DecidableEq, Repr

/-- The text of a status. -/
def ScanStatus.value : ScanStatus → String
  | .observed => "stable_repeated_observation"
  | .incomplete => "incomplete"
  | .permission => "permission_limited"
  | .changed => "changed_during_scan"
  | .unsupported => "unsupported"

/-- `IssueScan`. -/
structure IssueScan where
  scope : String
  status : ScanStatus
  issues : List NativeIssue
  observedAt : ℤ
  freshUntil : ℤ
  pages : ℕ

namespace IssueScan

/-- One entry of `issues_payload`. -/
def issuePayload (i : NativeIssue) : Json :=
  .obj [("content", .str i.contentDigest.val), ("number", .int i.number),
    ("origin", .str i.origin), ("repository", .str i.repository), ("state", .str i.state),
    ("updated_at", .str i.updatedAt)]

/-- `evidence_digest`: the time is left out. -/
def evidenceDigest [Sha256] (s : IssueScan) : Name :=
  digest (.obj [("issues", .arr (s.issues.map issuePayload)), ("scope", .str s.scope),
    ("status", .str s.status.value)])

end IssueScan

/-- What the request of a page meets. -/
inductive Answer
  /-- The transport is bound to another repository by now. -/
  | rebound
  /-- `OSError`. -/
  | lost
  /-- Another exception of the transport. -/
  | failed (failure : Failure)
  | answered (status : ℤ) (payload : Json)
deriving DecidableEq

/-- A server that answers by the number of the scan and the path, and a clock whose readings are
numbers, something else, or exceptions. -/
structure Observer where
  server : ℕ → String → Answer
  clock : ℕ → Except Failure (Option ℤ)

/-- `ForgejoDiscovery`. -/
structure Discovery where
  origin : String
  repository : String
  maxPages : ℕ
  freshnessSeconds : ℕ
  pageSize : ℕ
  /-- The bounds the constructor asks for. -/
  finite : ∀ v ∈ [maxPages, freshnessSeconds, pageSize], 0 < v ∧ v ≤ 10000

/-- `data.get(name)` of a value; a missing value reads as null. -/
def getField (value : Json) (name : String) : Json :=
  match value with
  | .obj fields => (fields.lookup name).getD .null
  | _ => .null

/-- A text, which may be empty. -/
def textField (value : Json) (name : String) : Except Failure String :=
  match getField value name with
  | .str s => .ok s
  | _ => .error ⟨.valueError, "incomplete or permission-limited native issue"⟩

/-- A positive number. -/
def numberField (value : Json) (name : String) : Except Failure ℕ :=
  match getField value name with
  | .int n =>
    if 0 < n then .ok n.toNat
    else .error ⟨.valueError, "incomplete or permission-limited native issue"⟩
  | _ => .error ⟨.valueError, "incomplete or permission-limited native issue"⟩

/-- `_read`. -/
def Answer.read : Answer → Except Failure (ℤ × Json)
  | .rebound => .ok (0, .null)
  | .lost => .ok (0, .null)
  | .failed f => .error f
  | .answered status payload => .ok (status, payload)

namespace Discovery

variable [Sha256]

/-- The repository in the path of an issue. -/
def repositoryIn (path : List Char) (number : ℕ) : Except Failure String :=
  match path.splitOn '/' with
  | [[], owner, name, kind, index] => do
    check (kind = "issues".toList ∧ index = (toString number).toList)
      ⟨.valueError, "native issue resource identity unavailable"⟩
    return String.ofList (owner ++ '/' :: name)
  | _ => .error ⟨.valueError, "native issue resource identity unavailable"⟩

/-- `_issue`. -/
def issue (d : Discovery) (dependencies : Bool) (value : Json) : Except Failure NativeIssue := do
  let limited : Failure := ⟨.valueError, "incomplete or permission-limited native issue"⟩
  let number ← numberField value "number"
  check (getField value "pull_request" = .null) limited
  let state ← textField value "state"
  check (state = "open" ∨ state = "closed") limited
  let title ← textField value "title"
  let body ← textField value "body"
  let updatedAt ← textField value "updated_at"
  let htmlUrl ← textField value "html_url"
  check (title ≠ "" ∧ updatedAt ≠ "") limited
  let url := urlsplit htmlUrl
  check (url.scheme = "https".toList ∧ '@' ∉ url.netloc ∧ url.query = [] ∧ url.fragment = [] ∧
    url.scheme ++ "://".toList ++ url.netloc = d.origin.toList)
    ⟨.valueError, "native issue origin unavailable"⟩
  let repository ← repositoryIn url.path number
  check (dependencies = true ∨ repository = d.repository)
    ⟨.valueError, "issue enumeration escaped configured repository"⟩
  return ⟨d.origin, repository, number, title, body, state, updatedAt,
    digest (.obj [("body", .str body), ("title", .str title)])⟩

/-- The path of a page. -/
def pagePath (d : Discovery) (path : String) (page : ℕ) : String :=
  let separator := if '?' ∈ path.toList then "&" else "?"
  path ++ separator ++ "page=" ++ toString page ++ "&limit=" ++ toString d.pageSize

/-- The loop over the entries of a page: the issues found so far, and why the scan ends. -/
def enter (d : Discovery) (dependencies : Bool) :
    List NativeIssue → List Json → List NativeIssue × Option ScanStatus
  | found, [] => (found, none)
  | found, entry :: rest =>
    match d.issue dependencies entry with
    | .error _ => (found, some (if dependencies then .permission else .incomplete))
    | .ok issue =>
      if issue.identity ∈ found.map NativeIssue.identity then (found, some .changed)
      else enter d dependencies (found ++ [issue]) rest

/-- The loop over the pages from one page on, while `fuel` of them are left. -/
def scanFrom (d : Discovery) (server : String → Answer) (path : String) (dependencies : Bool) :
    ℕ → ℕ → List NativeIssue → Except Failure (ScanStatus × List NativeIssue × ℕ)
  | 0, _, found => .ok (.incomplete, found, d.maxPages)
  | fuel + 1, page, found => do
    let (status, raw) ← (server (d.pagePath path page)).read
    if status = 401 ∨ status = 403 then return (.permission, found, page)
    else if status = 404 then
      -- a disabled unit and a concealed permission failure look the same
      return (if dependencies then .unsupported else .permission, found, page)
    else
      match raw with
      | .arr entries =>
        if status ≠ 200 then return (.incomplete, found, page)
        else if entries = [] then return (.observed, found, page)
        else if d.pageSize < entries.length then return (.incomplete, found, page)
        else
          match d.enter dependencies found entries with
          | (found, some reason) => return (reason, found, page)
          | (found, none) => scanFrom d server path dependencies fuel (page + 1) found
      | _ => return (.incomplete, found, page)

/-- `_scan`. -/
def scan (d : Discovery) (server : String → Answer) (path : String) (dependencies : Bool) :
    Except Failure (ScanStatus × List NativeIssue × ℕ) :=
  d.scanFrom server path dependencies d.maxPages 1 []

/-- The scans of an observation: the second one is made when the first one ended well. -/
def scanTwice (d : Discovery) (w : Observer) (path : String) (dependencies : Bool) :
    Except Failure (ScanStatus × List NativeIssue × ℕ) := do
  let (status, issues, pages) ← d.scan (w.server 0) path dependencies
  if status = .observed then do
    let (again, closing, closingPages) ← d.scan (w.server 1) path dependencies
    let status := if again ≠ .observed then again
      else if issues ≠ closing then .changed else status
    return (status, issues, pages + closingPages)
  else return (status, issues, pages)

/-- `_observe`. -/
def observe (d : Discovery) (w : Observer) (path : String) (dependencies : Bool) :
    Except Failure IssueScan := do
  let reading ← w.clock 0
  let openedAt ← lookup ⟨.valueError, "qualified discovery clock required"⟩
    (fun _ : Unit => reading.filter fun t => 0 ≤ t) ()
  let (status, issues, pages) ← d.scanTwice w path dependencies
  let closedAt ← w.clock 1
  let inTime := closedAt.any fun t =>
    decide (openedAt ≤ t ∧ t ≤ openedAt + d.freshnessSeconds)
  return ⟨d.origin ++ path, if inTime then status else .changed, issues, openedAt,
    openedAt + d.freshnessSeconds, pages⟩

/-- `discover`. -/
def discover (d : Discovery) (w : Observer) : Except Failure IssueScan :=
  d.observe w ("/repos/" ++ d.repository ++ "/issues?state=open&type=issues&sort=oldest") false

/-- The path of the dependencies of an issue. -/
def dependenciesPath (d : Discovery) (number : ℕ) : String :=
  "/repos/" ++ d.repository ++ "/issues/" ++ toString number ++ "/dependencies"

/-- `dependencies`. -/
def dependencies (d : Discovery) (w : Observer) (number : ℕ) : Except Failure IssueScan := do
  check (0 < number) ⟨.valueError, "exact positive native issue number required"⟩
  d.observe w (d.dependenciesPath number) true

/-- The order of tuples. -/
def tupleOrder (o : Obligation) : String ×ₗ String ×ₗ ℕ := toLex (o.1, toLex o.2)

/-- `read_dependencies`. -/
def readDependencies (d : Discovery) (w : Observer) (subject : IssueSubject) :
    Except Failure DependencyEvidence := do
  check (subject.origin.val = d.origin ∧ subject.repository.val = d.repository)
    ⟨.valueError, "dependency subject outside configured native repository"⟩
  let observed ← d.dependencies w subject.issue
  DependencyEvidence.init subject
    (SortedBy.sortBy tupleOrder (observed.issues.map NativeIssue.obligation))
    observed.evidenceDigest.val observed.observedAt observed.freshUntil
    (observed.status = .observed)

end Discovery

end Intake

end CreatidyKernel
