import Mathlib
import CreatidyKernel.Codec.Bytes
import CreatidyKernel.Codec.Records
import CreatidyKernel.Publication.Forge
import CreatidyKernel.Source.CacheIdentity

set_option relaxedAutoImplicit false
set_option autoImplicit false

/-!
# The meaning of an ordinary task, as its constructors check it

The records of the intake hold texts that decoders accepted. Here are the values those records are
made of: a selected issue and a declaration carry the checks of their constructors, a piece of
evidence carries none, and the bytes of a proposer are kept as bytes.

## Main definitions

* `Meaning.IssueSubject`, `Meaning.Declaration` — what a controller selects and a proposer writes.
* `Meaning.IntakeEvidence`, `Meaning.Draft` — what a producer finds, and what an owner decides on.
* `Meaning.IntakeEvidence.payload`, `Meaning.Draft.payload` — their JSON forms, if the bytes in
  them are UTF-8.
-/

namespace CreatidyKernel

namespace Intake

namespace Meaning

open Checked Codec

/-- A decoded dictionary. -/
abbrev Fields := List (String × Json)

/-! ## Selected issues -/

/-- The user information and the rest of an authority. -/
def rpartition (netloc : List Char) : List Char × List Char :=
  ((netloc.reverse.dropWhile (· ≠ '@')).tail.reverse, (netloc.reverse.takeWhile (· ≠ '@')).reverse)

/-- `urlsplit` takes the URL and finds a host and nothing else, under HTTPS. -/
def isOrigin (url : String) : Bool :=
  let parsed := urlsplit url
  let (user, rest) := rpartition parsed.netloc
  Source.acceptsNetloc rest && parsed.scheme == "https".toList &&
    !(Source.hostinfo rest).1.isEmpty && (divide ':' user).1.isEmpty &&
    (divide ':' user).2.isEmpty && parsed.path.isEmpty && parsed.query.isEmpty &&
    parsed.fragment.isEmpty

/-- The match of `[A-Za-z0-9._~-]`. -/
def repositoryChar (c : Char) : Bool :=
  c.isAlpha || c.isDigit || c == '.' || c == '_' || c == '~' || c == '-'

/-- The full match of `[A-Za-z0-9._~-]+/[A-Za-z0-9._~-]+`. -/
def isRepository (cs : List Char) : Bool :=
  let (owner, name) := divide '/' cs
  '/' ∈ cs && !owner.isEmpty && owner.all repositoryChar && !name.isEmpty &&
    name.all repositoryChar

/-- The check of the constructor of a selected issue. -/
def Selected (origin repository : String) (issue : ℤ) (branch base : String) : Prop :=
  isOrigin origin = true ∧ origin.toList.getLast? ≠ some '/' ∧
    isRepository repository.toList = true ∧ 0 < issue ∧ branch ≠ "" ∧ Publication.IsOid base

instance (origin repository : String) (issue : ℤ) (branch base : String) :
    Decidable (Selected origin repository issue branch base) :=
  inferInstanceAs (Decidable (_ ∧ _ ∧ _ ∧ _ ∧ _ ∧ _))

/-- `IssueSubject`. -/
structure IssueSubject where
  origin : String
  repository : String
  issue : ℤ
  branch : String
  base : String
  selected : Selected origin repository issue branch base
deriving DecidableEq

/-- The constructor of a selected issue. -/
def IssueSubject.init (origin repository : String) (issue : ℤ) (branch base : String) :
    Except Failure IssueSubject :=
  if h : Selected origin repository issue branch base then
    .ok ⟨origin, repository, issue, branch, base, h⟩
  else .error (refusal "invalid selected issue subject")

/-- `IssueSubject.payload`. -/
def IssueSubject.payload (s : IssueSubject) : Json :=
  .obj [("base", .str s.base), ("branch", .str s.branch), ("issue", .int s.issue),
    ("origin", .str s.origin), ("repository", .str s.repository)]

/-! ## Declarations -/

/-- `DECLARATION_FIELDS`, in key order. -/
def declarationFields : List String :=
  ["context", "criteria", "effects", "interface", "network", "outcome", "paths", "provenance",
    "quality", "recipes", "unknowns", "version"]

/-- A nonblank text. -/
def nonblank (failure : Failure) : Json → Except Failure String
  | .str s => do
    check (Nonblank s) failure
    return s
  | _ => .error failure

/-- `strings`. -/
def strings (nonempty : Bool) : Json → Except Failure (List String)
  | .arr items => do
    check (nonempty = true → items ≠ []) (refusal "nonblank text required")
    let items ← items.mapM (nonblank (refusal "nonblank text required"))
    check items.Nodup (refusal "duplicate item")
    return items
  | _ => .error (refusal "text array required")

/-- A bounded relative path, by `PurePosixPath`. -/
def isRelative (path : String) : Bool :=
  path.toList.head? != some '/' && !(path.toList.splitOn '/').contains ['.', '.'] &&
    path != "." && path != "" && !path.toList.contains '\\'

/-- The checks of the constructor of a declaration, with the value of its bytes. -/
def checkDeclaration (raw : ByteArray) : Except Failure Fields := do
  check (raw.size ≤ 262144) (refusal "declaration bytes exceed bound")
  let value ← objectFrom raw
  check (value.map Prod.fst = declarationFields ∧ Codec.getField value "version" = .int 1)
    (refusal "unsupported declaration fields or version")
  let _ ← nonblank (refusal "outcome required") (Codec.getField value "outcome")
  let _ ← (declarationFields.filter (· ∉ ["version", "outcome"])).mapM fun name =>
    strings (name ∈ ["criteria", "recipes", "provenance"]) (Codec.getField value name)
  let paths ← strings false (Codec.getField value "paths")
  check (∀ path ∈ paths, isRelative path = true) (refusal "bounded relative paths required")
  let network ← strings false (Codec.getField value "network")
  check (∀ destination ∈ network, isOrigin destination = true)
    (refusal "explicit network origins required")
  return value

/-- `Declaration`, with the property `value`. -/
structure Declaration where
  raw : ByteArray
  value : Fields
  admitted : checkDeclaration raw = .ok value
deriving DecidableEq

/-- The constructor of a declaration. -/
def Declaration.init (raw : ByteArray) : Except Failure Declaration :=
  match h : checkDeclaration raw with
  | .ok value => .ok ⟨raw, value, h⟩
  | .error failure => .error failure

/-! ## Evidence and drafts -/

/-- `bytes.decode("utf-8")`. -/
def decodeUtf8 (raw : ByteArray) : Except Failure String :=
  lookup ⟨.valueError, "invalid UTF-8"⟩ String.fromUTF8? raw

/-- `IntakeEvidence`. -/
structure IntakeEvidence where
  subject : IssueSubject
  issueDigest : String
  issueUpdated : String
  issueState : String
  source : String
  recipeDigest : String
  baselineProducer : String
  baselineReference : String
  baselineResult : String
  relevanceProducer : String
  relevanceReference : String
  relevanceProof : ByteArray
  disposition : Disposition
  observedAt : ℤ
deriving DecidableEq

namespace IntakeEvidence

/-- The entries of the payload, with the text of the proof. -/
def entries (e : IntakeEvidence) (proof : String) : Fields :=
  [("baseline_producer", .str e.baselineProducer),
    ("baseline_reference", .str e.baselineReference),
    ("baseline_result", .str e.baselineResult), ("disposition", .str e.disposition.value),
    ("issue_digest", .str e.issueDigest), ("issue_state", .str e.issueState),
    ("issue_updated", .str e.issueUpdated), ("recipe_digest", .str e.recipeDigest),
    ("relevance_producer", .str e.relevanceProducer), ("relevance_proof", .str proof),
    ("relevance_reference", .str e.relevanceReference), ("source", .str e.source),
    ("subject", e.subject.payload)]

/-- `IntakeEvidence.payload`: the time is left out. -/
def payload (e : IntakeEvidence) : Except Failure Fields := do
  let proof ← decodeUtf8 e.relevanceProof
  return e.entries proof

/-- `IntakeEvidence.digest`. -/
def digest [Sha256] (e : IntakeEvidence) : Except Failure Name := do
  let payload ← e.payload
  return CreatidyKernel.digest (.obj payload)

end IntakeEvidence

/-- `Draft`. -/
structure Draft where
  taskId : String
  revision : ℤ
  parentDigest : Option String
  declaration : Declaration
  evidence : IntakeEvidence
deriving DecidableEq

namespace Draft

/-- The entries of the payload, with the text of the declaration and the payload of the
evidence. -/
def entries (d : Draft) (declaration : String) (evidence : Fields) : Fields :=
  [("declaration", .str declaration), ("evidence", .obj evidence),
    ("kind", .str "ordinary-draft"), ("observed_at", .int d.evidence.observedAt),
    ("parent_digest", d.parentDigest.elim .null .str), ("revision", .int d.revision),
    ("task_id", .str d.taskId), ("version", .int 1)]

/-- `Draft.payload`. -/
def payload (d : Draft) : Except Failure Fields := do
  let declaration ← decodeUtf8 d.declaration.raw
  let evidence ← d.evidence.payload
  return d.entries declaration evidence

/-- `Draft.digest`. -/
def digest [Sha256] (d : Draft) : Except Failure Name := do
  let payload ← d.payload
  return CreatidyKernel.digest (.obj payload)

end Draft

end Meaning

end Intake

end CreatidyKernel
