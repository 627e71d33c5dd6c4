import CreatidyKernel.Core.Program

set_option relaxedAutoImplicit false
set_option autoImplicit false

/-!
# Verification of candidates

A worker proposes a candidate: the artifacts of a finished Attempt, bound to the declared
outputs of its WorkUnit. The verifier checks the subjects, asks a producer for the required
checks one after the other, and accepts or rejects. An accepted result is checked once more
when it is admitted, and is then recorded as a satisfaction.

## Main definitions

* `Artifact`, `ArtifactManifest`, `Candidate`, `CandidateResult` — what a worker proposes.
* `VerificationPolicy`, `EvidenceSubject`, `Evidence`, `Finding` — what the checks say.
* `verifyCandidate` — the decision on a candidate.
* `admitAccepted` — the decision repeated and recorded.
-/

namespace CreatidyKernel

open Checked

/-! ## Candidates -/

/-- `validate_relative_path`: the path stays within the workspace and is canonical. -/
def RelativePath (path : Name) : Prop :=
  path.val.toList.head? ≠ some '/' ∧ '\\' ∉ path.val.toList ∧
    ∀ part ∈ path.val.toList.splitOn '/', part ∉ [[], ['.'], ['.', '.']]

instance (path : Name) : Decidable (RelativePath path) :=
  inferInstanceAs (Decidable (_ ∧ _ ∧ ∀ part ∈ path.val.toList.splitOn '/', _))

/-- A collected file with its digest. -/
structure Artifact where
  path : Name
  digest : Name
  canonical : RelativePath path
deriving DecidableEq

/-- The constructor of an artifact. -/
def Artifact.init (path digest : String) : Except Failure Artifact := do
  let path ← if h : Nonblank path then .ok (⟨path, h⟩ : Name)
    else .error ⟨.valueError, "execution identifiers must be nonempty strings"⟩
  if h : RelativePath path then
    if hd : Nonblank digest then return ⟨path, ⟨digest, hd⟩, h⟩
    else .error ⟨.valueError, "execution identifiers must be nonempty strings"⟩
  else .error ⟨.executionConflict, "path escapes or is not canonical within workspace"⟩

/-- The files collected from a workspace. -/
structure ArtifactManifest where
  workspaceKey : String
  artifacts : List Artifact
deriving DecidableEq

/-- What a worker publishes for an Attempt. -/
structure Candidate where
  attemptId : String
  specDigest : String
  artifacts : ArtifactManifest
deriving DecidableEq

/-- A candidate with the artifact paths of the declared outputs. -/
structure CandidateResult where
  candidateId : Name
  publication : Candidate
  outputs : List (Name × Name)
  names : (outputs.map Prod.fst).Nodup
  paths : (outputs.map Prod.snd).Nodup
deriving DecidableEq

namespace CandidateResult

/-- The constructor of a candidate result. -/
def init (candidateId : String) (publication : Candidate) (outputs : List (String × String)) :
    Except Failure CandidateResult := do
  let required (s : String) : Except Failure Name :=
    if h : Nonblank s then .ok ⟨s, h⟩
    else .error ⟨.invalidDomainValue, "verification identifiers must be nonempty strings"⟩
  let candidateId ← required candidateId
  let outputs ← outputs.mapM fun o => do return (← required o.1, ← required o.2)
  if hn : (outputs.map Prod.fst).Nodup then
    if hp : (outputs.map Prod.snd).Nodup then return ⟨candidateId, publication, outputs, hn, hp⟩
    else .error ⟨.invalidDomainValue, "candidate output artifacts must be unique"⟩
  else .error ⟨.invalidDomainValue, "candidate output names must be unique"⟩

/-- `CandidateResult.digest`: it covers the artifacts and the outputs in sorted order. -/
def digest [Sha256] (c : CandidateResult) : Name :=
  let manifest := c.publication.artifacts
  let pair (p : Name × Name) : Json := .arr [.str p.1.val, .str p.2.val]
  CreatidyKernel.digest (.arr [.str c.candidateId.val, .str c.publication.attemptId,
    .str c.publication.specDigest, .str manifest.workspaceKey,
    .arr ((SortedBy.sortBy (fun p : Name × Name => toLex p)
      (manifest.artifacts.map fun a => (a.path, a.digest))).map pair),
    .arr ((SortedBy.sortBy (fun p : Name × Name => toLex p) c.outputs).map pair)])

end CandidateResult

/-! ## Evidence -/

/-- The pinned policy of a verification and the checks it asks for. -/
structure VerificationPolicy where
  reference : PolicyReference
  checks : List Name
  reviewerRequired : Bool
  nonempty : checks ≠ []
  nodup : checks.Nodup
deriving DecidableEq

/-- What a check was made about. -/
structure EvidenceSubject where
  candidateDigest : Name
  attemptDigest : Name
  specDigest : Name
  policyDigest : Name
  repository : Name
  baseRevision : Name
  headRevision : Name
deriving DecidableEq

/-- The receipt of one check. -/
structure Evidence where
  evidenceId : Name
  checkName : Name
  subject : EvidenceSubject
  producer : Name
  toolVersion : Name
  artifactReference : Name
  observedAt : ℤ
  freshUntil : ℤ
  passed : Bool
  reviewerSession : Option Name
  ordered : observedAt ≤ freshUntil
deriving DecidableEq

/-- The evidence is fresh at a time. -/
def Evidence.FreshAt (e : Evidence) (now : ℤ) : Prop := e.observedAt ≤ now ∧ now ≤ e.freshUntil

instance (e : Evidence) (now : ℤ) : Decidable (e.FreshAt now) :=
  inferInstanceAs (Decidable (_ ∧ _))

/-- Why a required check does not stand. -/
structure Finding where
  findingId : String
  fingerprint : Name
  subject : EvidenceSubject
  reason : String
deriving DecidableEq

/-- A candidate whose required checks all stand, with the satisfaction to record. -/
structure AcceptedResult where
  candidate : CandidateResult
  subject : EvidenceSubject
  evidence : List Evidence
  policy : PolicyReference
  satisfaction : TrustedSatisfaction
deriving DecidableEq

/-- A candidate with findings. -/
structure RejectedResult where
  candidate : CandidateResult
  subject : EvidenceSubject
  evidence : List Evidence
  findings : List Finding
deriving DecidableEq

/-- The decision on a candidate. -/
inductive Verdict
  | accepted (result : AcceptedResult)
  | rejected (result : RejectedResult)
deriving DecidableEq

/-- `CheckProducer.check`: a producer runs a check, answers nothing, or raises. -/
abbrev CheckProducer := Name → EvidenceSubject → Except Failure (Option Evidence)

/-- The repository state and the parties a caller of the verifier names. -/
structure Inspection where
  repository : Name
  baseRevision : Name
  headRevision : Name
  verifierId : Name
  referenceId : Name
deriving DecidableEq

/-- The time a decision is made at: the `i`-th reading of the clock, if there is one. -/
def decisionTime (now : ℤ) (clock : Option (ℕ → ℤ)) (i : ℕ) : ℤ :=
  match clock with
  | none => now
  | some readings => readings i

/-! ## The verifier -/

/-- `independent_review`. -/
def independentReview : Name := ⟨"independent_review", by decide⟩

/-- The checks a policy requires. -/
def VerificationPolicy.required (policy : VerificationPolicy) : List Name :=
  policy.checks ++ if policy.reviewerRequired then [independentReview] else []

/-- The evidence is the fresh receipt of a check on the subject by an independent producer. -/
def Evidence.Valid (e : Evidence) (attempt : Attempt) (verifierId name : Name)
    (subject : EvidenceSubject) (now : ℤ) : Prop :=
  e.checkName = name ∧ e.subject = subject ∧ e.producer ≠ attempt.actorId ∧ e.FreshAt now ∧
    (name = independentReview → e.reviewerSession ≠ none ∧
      e.reviewerSession ≠ some attempt.attemptId ∧ e.producer ≠ verifierId)

instance (e : Evidence) (attempt : Attempt) (verifierId name : Name) (subject : EvidenceSubject)
    (now : ℤ) : Decidable (e.Valid attempt verifierId name subject now) :=
  inferInstanceAs (Decidable (_ ∧ _ ∧ _ ∧ _ ∧ (_ → _ ∧ _ ∧ _)))

/-- The observation is passing evidence that is valid at the time. -/
def Passing (attempt : Attempt) (verifierId name : Name) (subject : EvidenceSubject) (now : ℤ)
    (item : Option Evidence) : Prop :=
  ∃ e ∈ item, e.Valid attempt verifierId name subject now ∧ e.passed

instance (attempt : Attempt) (verifierId name : Name) (subject : EvidenceSubject) (now : ℤ)
    (item : Option Evidence) : Decidable (Passing attempt verifierId name subject now item) :=
  inferInstanceAs (Decidable (∃ e ∈ item, _))

/-- The loop over the required checks: each prerequisite is validated before the producer is
asked for the next check. It returns the observations and the readings taken of the clock. -/
def observe (producer : CheckProducer) (attempt : Attempt) (verifierId : Name)
    (subject : EvidenceSubject) (time : ℕ → ℤ) :
    List Name → ℕ → List (Option Evidence) → Except Failure (List (Option Evidence) × ℕ)
  | [], i, observed => .ok (observed, i)
  | name :: rest, i, observed =>
    if ∀ previous ∈ observed, ∃ e ∈ previous, e.FreshAt (time i) then do
      let item ← producer name subject
      check (∀ e ∈ item, ∀ previous ∈ observed.reduceOption, previous.evidenceId ≠ e.evidenceId)
        ⟨.invalidDomainValue, "duplicate evidence IDs"⟩
      if Passing attempt verifierId name subject (time (i + 1)) item then
        observe producer attempt verifierId subject time rest (i + 2) (observed ++ [item])
      else return (observed ++ [item], i + 2)
    else .ok (observed, i + 1)

/-- The finding on one required check, unless it passes at the time of the decision. -/
def findingOn (attempt : Attempt) (verifierId candidateId : Name) (subject : EvidenceSubject)
    (now : ℤ) (name : Name) (observed : Option (Option Evidence)) : Option Finding :=
  if Passing attempt verifierId name subject now observed.join then none
  else some {
    findingId := candidateId.val ++ ":" ++ name.val
    fingerprint := name
    subject
    reason := if observed = none then "not run: prerequisite rejected"
      else "missing, stale, mismatched or failing trusted evidence" }

theorem nonblank_append {s : String} (prefixed : String) (h : Nonblank s) :
    Nonblank (prefixed ++ s) := by
  unfold Nonblank at h ⊢
  rw [String.toList_append, List.any_append, h, Bool.or_true]

/-- `f"artifact:{digest}"`. -/
def artifactReference (a : Artifact) : Name :=
  ⟨"artifact:" ++ a.digest.val, nonblank_append _ a.digest.2⟩

/-- The binding of a declared output to the artifact at its path. -/
def outputBinding (artifacts : List Artifact) (output : Name × Name) :
    Except Failure InputBinding := do
  let artifact ← subscript (index Artifact.path artifacts) output.2
  return ⟨output.1, artifactReference artifact, .initial⟩

/-- `Program.attempt` with an identifier that need not be one. -/
def Program.attemptNamed (p : Program) (attemptId : String) : Except Failure Attempt :=
  lookup ⟨.missingReference, "unknown Attempt " ++ pyRepr attemptId⟩
    (fun n => p.attempts.find? fun a => a.attemptId.val = n) attemptId

section

variable [Sha256]

/-- The checks on the subjects of a candidate, before any evidence is asked for. -/
def checkSubjects (p : Program) (candidate : CandidateResult) (collected : ArtifactManifest)
    (policy : VerificationPolicy) (verifierId : Name) (attempt : Attempt) (unit : WorkUnit) :
    Except Failure Unit := do
  let state ← p.state unit.workUnitId
  check (state.status = .ready ∧
      (∀ s ∈ p.satisfactions, s.sourceAttemptId ≠ attempt.attemptId) ∧
      attempt.status = .finished ∧ attempt.spec.specDigest = p.spec.digest ∧
      attempt.spec.specRevision = p.spec.revision) ⟨.staleRevision,
    "verification requires a finished Attempt against current approved intent"⟩
  check (candidate.publication.specDigest = attempt.spec.digest.val ∧
      collected = candidate.publication.artifacts) ⟨.staleRevision,
    "candidate Attempt or collected artifact subject differs"⟩
  check ((unit.acceptancePolicyReference = none ∨
        unit.acceptancePolicyReference = some policy.reference) ∧
      (policy.reference ∈ p.spec.policyReferences ∨
        unit.acceptancePolicyReference = some policy.reference)) ⟨.staleRevision,
    "verification policy is not pinned in current approved intent"⟩
  check (∀ c ∈ p.spec.acceptanceCriteria.toList ++ unit.acceptanceCriteria.toList,
      c ∈ policy.checks) ⟨.invalidDomainValue,
    "trusted checks must cover approved acceptance criteria"⟩
  check (verifierId ∈ p.spec.authority.trustedSatisfactionIssuers ∧
      verifierId ≠ attempt.actorId) ⟨.invalidDomainValue,
    "worker cannot issue trusted acceptance"⟩
  check (attempt.spec.workspaceReference.map Subtype.val = some collected.workspaceKey ∧
      (collected.artifacts.map Artifact.path).Nodup) ⟨.invalidDomainValue,
    "collected artifacts do not identify a unique Attempt workspace"⟩
  check (SortedSet.ofList (candidate.outputs.map Prod.fst) = unit.outputs) ⟨.invalidDomainValue,
    "candidate must bind exactly declared output names"⟩
  check (∀ o ∈ candidate.outputs, (index Artifact.path collected.artifacts o.2).isSome)
    ⟨.invalidDomainValue, "candidate output is absent from collected artifacts"⟩
  check policy.required.Nodup ⟨.invalidDomainValue,
    "independent review check cannot duplicate deterministic checks"⟩

/-- The exact subject of the evidence for a candidate. -/
def evidenceSubject (p : Program) (candidate : CandidateResult) (policy : VerificationPolicy)
    (inspection : Inspection) (attempt : Attempt) : EvidenceSubject where
  candidateDigest := candidate.digest
  attemptDigest := attempt.spec.digest
  specDigest := p.spec.digest
  policyDigest := policy.reference.digest
  repository := inspection.repository
  baseRevision := inspection.baseRevision
  headRevision := inspection.headRevision

/-- `verify_candidate`: only matching fresh evidence permits satisfaction. -/
def verifyCandidate (p : Program) (candidate : CandidateResult) (collected : ArtifactManifest)
    (policy : VerificationPolicy) (producer : CheckProducer) (inspection : Inspection) (now : ℤ)
    (clock : Option (ℕ → ℤ)) : Except Failure Verdict := do
  let attempt ← p.attemptNamed candidate.publication.attemptId
  let unit ← p.spec.workUnit attempt.spec.workUnitId
  checkSubjects p candidate collected policy inspection.verifierId attempt unit
  let subject := evidenceSubject p candidate policy inspection attempt
  let (observed, readings) ← observe producer attempt inspection.verifierId subject
    (decisionTime now clock) policy.required 0 []
  let evidence := observed.reduceOption
  let findings := (policy.required.zipIdx.filterMap fun (name, i) =>
    findingOn attempt inspection.verifierId candidate.candidateId subject
      (decisionTime now clock readings) name observed[i]?)
  if findings ≠ [] then return .rejected ⟨candidate, subject, evidence, findings⟩
  else
    let outputs ← candidate.outputs.mapM (outputBinding collected.artifacts)
    let fingerprint ← p.spec.fingerprint unit.workUnitId
    let fact ← TrustedSatisfaction.init inspection.referenceId.val p.programId.val
      unit.workUnitId.val p.spec.revision p.spec.digest.val fingerprint.val
      inspection.verifierId.val attempt.attemptId.val outputs 0
    return .accepted ⟨candidate, subject, evidence, policy.reference, fact⟩

/-- `RecordedChecks`: the receipts of an accepted result, in place of a producer. -/
def recordedChecks (evidence : List Evidence) : CheckProducer :=
  fun name _ => .ok (evidence.find? fun e => e.checkName = name)

/-- `admit_accepted`: the decision is repeated on the recorded receipts before the satisfaction
is applied. -/
def admitAccepted (p : Program) (result : AcceptedResult) (collected : ArtifactManifest)
    (policy : VerificationPolicy) (repository baseRevision headRevision : Name) (now : ℤ) :
    Except Failure Program := do
  check (result.satisfaction.sourceAttemptId.val = result.candidate.publication.attemptId)
    ⟨.invalidDomainValue, "verified accepted result required"⟩
  check (result.policy = policy.reference) ⟨.staleRevision, "pinned acceptance policy changed"⟩
  let checked ← verifyCandidate p result.candidate collected policy
    (recordedChecks result.evidence)
    ⟨repository, baseRevision, headRevision, result.satisfaction.issuerId,
      result.satisfaction.referenceId⟩ now none
  check (checked = .accepted result)
    ⟨.staleRevision, "accepted result lacks current exact-subject evidence"⟩
  p.apply ⟨p.revision, result.satisfaction.issuerId, .satisfyWorkUnit result.satisfaction⟩

end

end CreatidyKernel
