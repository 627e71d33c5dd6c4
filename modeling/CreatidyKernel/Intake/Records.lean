import CreatidyKernel.Core.Program
import CreatidyKernel.Lib.Action

set_option relaxedAutoImplicit false
set_option autoImplicit false

/-!
# Records of the ordinary intake

The intake keeps its drafts, owner decisions, consumptions of decisions and learned ages in one
space of operation identities, under keys built by joining texts with colons.

## Main definitions

* `Intake.Evidence`, `Intake.Draft`, `Intake.OwnerPolicy` — the meaning of an ordinary task.
* `Intake.Record` — what one row of the journal holds.
* `Intake.draftKey`, `Intake.fallbackKey`, `Intake.decisionKey`, `Intake.consumptionKey`,
  `Intake.ageKey` — the keys of the rows.
* `Intake.Row.check` — the checks of a row by itself.
-/

namespace CreatidyKernel

namespace Intake

open Checked

/-- Why a call ended without a value: an exception, or the end of its process. -/
inductive Stop
  | raised (failure : Failure)
  | crashed
deriving DecidableEq, Repr

/-- `IntakeRefused`. -/
def refusal (message : String) : Failure := ⟨.valueError, message⟩

/-! ## Meaning -/

/-- A text the decoders accept. -/
abbrev Text := {s : String // s ≠ ""}

/-- Sixty-four lowercase hexadecimal digits. -/
def isHex64 (s : List Char) : Bool :=
  s.length = 64 && s.all fun c => c.isDigit || ('a' ≤ c && c ≤ 'f')

/-- `IssueSubject`. -/
structure IssueSubject where
  origin : Text
  repository : Text
  issue : ℕ
  branch : Text
  base : Text
deriving DecidableEq

/-- `IssueSubject.payload`. -/
def IssueSubject.payload (s : IssueSubject) : Json :=
  .obj [("base", .str s.base.val), ("branch", .str s.branch.val), ("issue", .int s.issue),
    ("origin", .str s.origin.val), ("repository", .str s.repository.val)]

/-- `Disposition`. -/
inductive Disposition
  | implemented | activePr | remains | incomplete | permission | stale | equivalence | baseline
deriving DecidableEq, Repr

/-- The text of a disposition. -/
def Disposition.value : Disposition → String
  | .implemented => "implemented_in_current_source"
  | .activePr => "active_equivalent_pr"
  | .remains => "work_remains"
  | .incomplete => "incomplete_search"
  | .permission => "permission_limited"
  | .stale => "stale_source"
  | .equivalence => "unresolved_equivalence"
  | .baseline => "unknown_baseline"

/-- `Declaration`: the bytes of a proposer with the values read from them. -/
structure Declaration where
  raw : Text
  outcome : Name
  criteria : List Name
  recipes : List String
  unknowns : List String
  paths : List String
  network : List String
  effects : List String
deriving DecidableEq

/-- What identifies a baseline receipt. -/
structure Identity where
  subject : IssueSubject
  source : Text
  recipeDigest : Text
  baselineProducer : Text
  baselineReference : Text
  baselineResult : Text
deriving DecidableEq

namespace Identity

/-- The JSON form of an identity. -/
def payload (i : Identity) : Json :=
  .obj [("baseline_producer", .str i.baselineProducer.val),
    ("baseline_reference", .str i.baselineReference.val),
    ("baseline_result", .str i.baselineResult.val),
    ("recipe_digest", .str i.recipeDigest.val), ("source", .str i.source.val),
    ("subject", i.subject.payload)]

/-- The receipt is about the selected source, has a result, and is known by its producer and
its reference. -/
def Resolved (i : Identity) : Prop :=
  i.source = i.subject.base ∧ (i.baselineResult.val = "passed" ∨ i.baselineResult.val = "failed") ∧
    i.baselineProducer.val ≠ "unknown" ∧ i.baselineReference.val ≠ "unknown"

instance (i : Identity) : Decidable i.Resolved := inferInstanceAs (Decidable (_ ∧ _ ∧ _ ∧ _))

end Identity

/-- `IntakeEvidence`. -/
structure Evidence where
  subject : IssueSubject
  issueDigest : Text
  issueUpdated : Text
  issueState : Text
  source : Text
  recipeDigest : Text
  baselineProducer : Text
  baselineReference : Text
  baselineResult : Text
  relevanceProducer : Text
  relevanceReference : Text
  relevanceProof : Text
  disposition : Disposition
  observedAt : ℤ
  /-- The producers give the digest of the declared recipes. -/
  recipe_hex : isHex64 recipeDigest.val.toList = true
deriving DecidableEq

namespace Evidence

/-- The baseline receipt of a piece of evidence. -/
def identity (e : Evidence) : Identity :=
  ⟨e.subject, e.source, e.recipeDigest, e.baselineProducer, e.baselineReference,
    e.baselineResult⟩

/-- `IntakeEvidence.payload`: the time is left out. -/
def payload (e : Evidence) : Json :=
  .obj [("baseline_producer", .str e.baselineProducer.val),
    ("baseline_reference", .str e.baselineReference.val),
    ("baseline_result", .str e.baselineResult.val), ("disposition", .str e.disposition.value),
    ("issue_digest", .str e.issueDigest.val), ("issue_state", .str e.issueState.val),
    ("issue_updated", .str e.issueUpdated.val), ("recipe_digest", .str e.recipeDigest.val),
    ("relevance_producer", .str e.relevanceProducer.val),
    ("relevance_proof", .str e.relevanceProof.val),
    ("relevance_reference", .str e.relevanceReference.val), ("source", .str e.source.val),
    ("subject", e.subject.payload)]

/-- `IntakeEvidence.digest`. -/
def digest [Sha256] (e : Evidence) : Name := CreatidyKernel.digest e.payload

end Evidence

/-- `Draft`. -/
structure Draft where
  taskId : String
  revision : ℕ
  parentDigest : Option Name
  declaration : Declaration
  evidence : Evidence
  /-- `_integer` of the revision. -/
  pos : 1 ≤ revision
deriving DecidableEq

namespace Draft

/-- `Draft.payload`. -/
def payload (d : Draft) : Json :=
  .obj [("declaration", .str d.declaration.raw.val), ("evidence", d.evidence.payload),
    ("kind", .str "ordinary-draft"), ("observed_at", .int d.evidence.observedAt),
    ("parent_digest", optionalName d.parentDigest), ("revision", .int d.revision),
    ("task_id", .str d.taskId), ("version", .int 1)]

/-- `Draft.digest`. -/
def digest [Sha256] (d : Draft) : Name := CreatidyKernel.digest d.payload

end Draft

/-- `OwnerPolicy`; the work envelope is kept by its JSON form and the project it draws on. -/
structure OwnerPolicy where
  reference : PolicyReference
  budget : BudgetPolicy
  authority : AuthorityEnvelope
  paths : List String
  network : List String
  effects : List String
  recipes : List String
  evidenceProducers : List String
  freshnessSeconds : ℕ
  repairBaselineReference : Option Text
  workBudget : Option (Json × Json × Name)
  /-- `freshness_seconds` is positive. -/
  fresh : 1 ≤ freshnessSeconds
deriving DecidableEq

namespace OwnerPolicy

/-- The entries of the work envelope in the form of a policy. -/
def envelope (p : OwnerPolicy) : List (String × Json) :=
  p.workBudget.elim [] fun b =>
    [("project_budget", b.2.1), ("project_id", .str b.2.2.val), ("work_budget", b.1)]

/-- `OwnerPolicy.payload`. -/
def payload (p : OwnerPolicy) : Json :=
  let set (values : List String) : Json := .arr ((SortedBy.sortBy id values).map .str)
  let repair := p.repairBaselineReference.elim Json.null fun r => .str r.val
  .obj (SortedBy.sortBy Prod.fst ([("authority", p.authority.payload),
    ("budget", p.budget.payload), ("effects", set p.effects),
    ("evidence_producers", set p.evidenceProducers),
    ("freshness_seconds", .int p.freshnessSeconds), ("network", set p.network),
    ("paths", set p.paths), ("recipes", set p.recipes), ("reference", p.reference.payload),
    ("repair_baseline_reference", repair)] ++ p.envelope))

/-- `OwnerPolicy.digest`. -/
def digest [Sha256] (p : OwnerPolicy) : Name := CreatidyKernel.digest p.payload

end OwnerPolicy

/-- `Principal`. -/
structure Principal where
  actorId : Name
  role : String
deriving DecidableEq

/-! ## Keys -/

/-- The characters of a controller identity. -/
def idChar (c : Char) : Bool :=
  ('A' ≤ c && c ≤ 'Z') || ('a' ≤ c && c ≤ 'z') || c.isDigit || c == '_' || c == '-'

/-- The full match of `[A-Za-z0-9_-]+`. -/
def isId (s : List Char) : Bool := !s.isEmpty && s.all idChar

/-- A task identifier the intake accepts. -/
def Accepted (taskId : String) : Prop := isId taskId.toList = true

instance (taskId : String) : Decidable (Accepted taskId) := inferInstanceAs (Decidable (_ = _))

/-- The key a draft is recorded under. -/
def draftKey (taskId : String) (revision : ℕ) : String :=
  "ordinary:" ++ taskId ++ ":draft:" ++ toString revision

/-- The key a draft is recorded under when a legacy consumption has the first one. -/
def fallbackKey (taskId : String) (revision : ℕ) : String :=
  "ordinary:record:ordinary-draft:" ++ taskId ++ ":" ++ toString revision

/-- The key of an owner decision. -/
def decisionKey (decisionId : String) : String := "ordinary:decision:" ++ decisionId

/-- The key of a consumption. -/
def consumptionKey (taskId : String) (ordinal : ℕ) : String :=
  "ordinary:consumed:" ++ taskId ++ ":record:" ++ toString ordinal

/-- The key of a learned age. -/
def ageKey [Sha256] (i : Identity) (observedAt : ℤ) : String :=
  "ordinary:baseline-age:" ++ (digest i.payload).val ++ ":" ++ toString observedAt

/-- `_prefix`. -/
def taskPrefix (taskId : String) : Except Failure String := do
  check (Accepted taskId) (refusal "invalid controller task identity")
  return "ordinary:" ++ taskId ++ ":draft:"

/-- The parts of a key between its colons. -/
def segments (key : String) : List (List Char) := key.toList.splitOn ':'

/-- The full match of `[1-9][0-9]*`. -/
def isOrdinal : List Char → Bool
  | [] => false
  | c :: r => '1' ≤ c && c ≤ '9' && r.all Char.isDigit

/-- The full match of `ordinary:consumed:[A-Za-z0-9_-]+:(?:record:)?[1-9][0-9]*`. -/
def isConsumptionKey (key : String) : Bool :=
  match segments key with
  | [o, c, t, n] =>
    o = "ordinary".toList && c = "consumed".toList && isId t && isOrdinal n
  | [o, c, t, r, n] =>
    o = "ordinary".toList && c = "consumed".toList && isId t && r = "record".toList && isOrdinal n
  | _ => false

/-! ## Records -/

/-- An owner decision. -/
structure Decision where
  decisionId : String
  issuer : Name
  draftDigest : Name
  revision : ℕ
  evidenceDigest : Name
  policyDigest : Name
  policy : Json
  expiresAt : ℤ
deriving DecidableEq

/-- A consumption of a decision by a Program. -/
structure Consumption where
  decision : String
  draft : Name
  program : Name
  expectedRevision : Option ℕ
deriving DecidableEq

/-- What a row of the intake holds. -/
inductive Record
  | draft (d : Draft)
  | decision (d : Decision)
  | consumption (c : Consumption)
  | baselineAge (i : Identity) (observedAt : ℤ)
deriving DecidableEq

/-- An operation of the intake with its artifact. -/
structure Row where
  operationId : String
  effectKey : String
  record : Record
  artifact : Option Record
  attempts : ℕ
deriving DecidableEq

section

variable [Sha256]

/-- The part of `_recover` about the kind of the record. -/
def Row.checkRecord (row : Row) : Except Failure Unit :=
  match row.record with
  | .draft d => do
    check (0 < d.evidence.observedAt) (refusal "positive intake integer required")
    let key ← taskPrefix d.taskId
    check (row.operationId = key ++ toString d.revision ∨
      row.operationId = fallbackKey d.taskId d.revision)
      (refusal "draft namespace differs from subject")
  | .decision d => do
    let _ ← taskPrefix d.decisionId
    check (row.operationId = decisionKey d.decisionId)
      (refusal "decision namespace differs from subject")
    check (0 < d.revision ∧ 0 < d.expiresAt) (refusal "positive intake integer required")
  | .consumption c => do
    check (c.decision ≠ "") (refusal "invalid intake text")
    check (isConsumptionKey row.operationId = true) (refusal "invalid consumption namespace")
  | .baselineAge i observedAt => do
    check (i.Resolved ∧ isHex64 i.recipeDigest.val.toList = true)
      (refusal "unresolved baseline age subject")
    check (0 < observedAt) (refusal "positive intake integer required")
    check (row.operationId = ageKey i observedAt)
      (refusal "baseline age namespace differs from subject")

/-- The part of `_recover` that reads the row alone. -/
def Row.check (row : Row) : Except Failure Unit := do
  Checked.check (row.attempts = 0) (refusal "unsupported inert record")
  Checked.check (row.effectKey = row.operationId) (refusal "inert record effect identity differs")
  row.checkRecord

end

end Intake

end CreatidyKernel
