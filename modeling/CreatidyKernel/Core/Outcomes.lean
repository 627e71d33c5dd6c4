import CreatidyKernel.Core.Facts
import CreatidyKernel.Core.WorkBudget
import CreatidyKernel.Lib.Rows

set_option relaxedAutoImplicit false
set_option autoImplicit false

/-!
# The export of outcomes

The export lists for each Attempt what was requested, used, reviewed and accepted. Two kinds of
links run through its input: an Attempt may remediate an earlier one, and a usage observation may
correct an earlier one of the same receipt. The export refuses input in which either kind is
malformed. An accepted Attempt is charged with all the Attempts it remediates, and each Attempt
is shown the latest observation of each of its receipts.

## Main definitions

* `AttemptOutcome` — what is known about an Attempt.
* `checkOutcomes`, `ledger`, `chain` — the checks of the outcomes and of the observations, and the
  Attempts an accepted one is charged with.
* `exportOutcomes` — `export_outcomes`.
-/

namespace CreatidyKernel

open Checked

namespace Outcomes

/-! ## Outcomes -/

/-- The names of what ran an Attempt, as far as they are known. -/
structure Identity where
  runtimeId : Option Name
  providerId : Option Name
  modelId : Option Name
  reasoningEffort : Option Name
deriving DecidableEq

/-- An identity as a source observed it. -/
structure AttributedIdentity where
  identity : Identity
  source : Name
  observedAt : ℤ
  freshUntil : ℤ
  fresh : freshUntil ≥ observedAt
deriving DecidableEq

/-- A reference to a snapshot of quotas. -/
structure QuotaSnapshot where
  reference : Name
  source : Name
  observedAt : ℤ
  freshUntil : ℤ
  fresh : freshUntil ≥ observedAt
deriving DecidableEq

/-- `ProductReviewVerdict`. -/
inductive ProductReviewVerdict
  | approve | requestChanges | comment | ownerDecisionNeeded
deriving DecidableEq, Repr

/-- The delivery statuses of a product review. -/
inductive DeliveryStatus
  | accepted | dispatched | intent | rejected | unknown
deriving DecidableEq, Repr

/-- A product review: its delivery and its verdict are exported together. -/
structure ProductReview where
  operationId : Name
  deliveryStatus : DeliveryStatus
  reviewId : Name
  verdict : ProductReviewVerdict
deriving DecidableEq

/-- What is known about an Attempt. -/
structure AttemptOutcome where
  attempt : AttemptSpec
  workUnitClass : Name
  requested : Identity
  resolved : Option AttributedIdentity
  observed : Option AttributedIdentity
  quota : Option QuotaSnapshot
  validation : Option Name
  findingIds : List Name
  remediationOf : Option Name
  review : Option ProductReview
  acceptanceId : Option Name
  interventionIds : List Name
  /-- The lineage does not conflict with the one of the immutable Attempt. -/
  lineage : ∀ r ∈ remediationOf, attempt.remediationOf = none ∨ attempt.remediationOf = some r
  findings_nodup : findingIds.Pairwise (· ≠ ·)
  interventions_nodup : interventionIds.Pairwise (· ≠ ·)
deriving DecidableEq

namespace AttemptOutcome

/-- The Attempt an outcome is about. -/
def attemptId (o : AttemptOutcome) : Name := o.attempt.attemptId

/-- `parent_of`: the Attempt an outcome remediates, its own claim first. -/
def parentOf (o : AttemptOutcome) : Option Name := o.remediationOf.or o.attempt.remediationOf

end AttemptOutcome

/-- `by_attempt.get`: of several outcomes of an Attempt the last one. -/
def byAttempt (outcomes : List AttemptOutcome) (attemptId : Name) : Option AttemptOutcome :=
  Rows.find AttemptOutcome.attemptId outcomes.reverse attemptId

/-- The outcome of the Attempt that an outcome remediates. -/
def parent (outcomes : List AttemptOutcome) (o : AttemptOutcome) : Option AttemptOutcome :=
  o.parentOf.bind (byAttempt outcomes)

/-! ## The checks of the outcomes -/

/-- How a computation with a bounded number of rounds ends without a result. -/
inductive Stop
  | raised (failure : Failure)
  /-- The rounds were used up. -/
  | unfinished
deriving DecidableEq, Repr

/-- A `ValueError`. -/
def invalid (message : String) : Failure := ⟨.valueError, message⟩

/-- The loop that follows the links up from a parent, with the Attempts seen so far. -/
def walk (outcomes : List AttemptOutcome) :
    ℕ → List Name → Option AttemptOutcome → Except Stop Unit
  | _, _, none => .ok ()
  | 0, _, some _ => .error .unfinished
  | fuel + 1, seen, some o => do
    check (o.attemptId ∉ seen) (.raised (invalid "remediation cycle"))
    walk outcomes fuel (o.attemptId :: seen) (parent outcomes o)

/-- The parent of an outcome is known and about the same unit of the same Program. -/
def SameWorkUnit (outcomes : List AttemptOutcome) (o : AttemptOutcome) : Prop :=
  ∃ p ∈ parent outcomes o, p.attempt.programId = o.attempt.programId ∧
    p.attempt.workUnitId = o.attempt.workUnitId

instance (outcomes : List AttemptOutcome) (o : AttemptOutcome) :
    Decidable (SameWorkUnit outcomes o) :=
  inferInstanceAs (Decidable (∃ _ ∈ _, _ ∧ _))

/-- The checks of an outcome that remediates another one. -/
def checkRemediation (outcomes : List AttemptOutcome) (fuel : ℕ) (o : AttemptOutcome) :
    Except Stop Unit :=
  given (o.parentOf ≠ none) do
    check (SameWorkUnit outcomes o)
      (.raised (invalid "remediation must cite an Attempt in the same WorkUnit"))
    walk outcomes fuel [o.attemptId] (parent outcomes o)

/-- No two outcomes are of one Attempt, or of one acceptance. -/
def DistinctIdentities (outcomes : List AttemptOutcome) : Prop :=
  (outcomes.map AttemptOutcome.attemptId).dedup.length = outcomes.length ∧
    (outcomes.filterMap AttemptOutcome.acceptanceId).dedup.length =
      (outcomes.filter fun o => o.acceptanceId ≠ none).length

instance (outcomes : List AttemptOutcome) : Decidable (DistinctIdentities outcomes) :=
  inferInstanceAs (Decidable (_ ∧ _))

/-- The checks of the outcomes. -/
def checkOutcomes (outcomes : List AttemptOutcome) (fuel : ℕ) : Except Stop Unit := do
  check (DistinctIdentities outcomes)
    (.raised (invalid "attempt and acceptance identities must be unique"))
  outcomes.forM (checkRemediation outcomes fuel)

/-! ## The ledger of the observations -/

/-- `latest` and the keys of `ids`. -/
structure Ledger where
  latest : List UsageObservation
  ids : List Name

/-- An observation may follow the latest one of its receipt. -/
def checkLineage (o : UsageObservation) : Option UsageObservation → Except Failure Unit
  | none => check (o.supersedesId = none) (invalid "correction lacks an earlier receipt")
  | some prior =>
    check (o.supersedesId = some prior.observationId ∧ o.attemptId = prior.attemptId ∧
        o.metric = prior.metric ∧ o.unit = prior.unit)
      (invalid "duplicate receipt or invalid correction lineage")

/-- The body of the loop over the observations. -/
def record (outcomes : List AttemptOutcome) (l : Ledger) (o : UsageObservation) :
    Except Failure Ledger := do
  check (byAttempt outcomes o.attemptId ≠ none ∧ o.observationId ∉ l.ids)
    (invalid "unknown Attempt or duplicate observation ID")
  checkLineage o (Rows.find UsageObservation.receiptId l.latest o.receiptId)
  return ⟨Rows.put UsageObservation.receiptId l.latest o, l.ids ++ [o.observationId]⟩

/-- The loop over the observations. -/
def ledger (outcomes : List AttemptOutcome) (observations : List UsageObservation) :
    Except Failure Ledger :=
  observations.foldlM (record outcomes) ⟨[], []⟩

/-! ## The exported facts -/

/-- The loop of `chain`, with the Attempts listed so far. -/
def chainFrom (outcomes : List AttemptOutcome) :
    ℕ → List Name → Option Name → Except Stop (List Name)
  | _, result, none => .ok result.reverse
  | 0, _, some _ => .error .unfinished
  | fuel + 1, result, some parentId => do
    let o ← (subscript (byAttempt outcomes) parentId).mapError .raised
    chainFrom outcomes fuel (result ++ [parentId]) o.parentOf

/-- `chain`: the Attempts an accepted one is charged with. -/
def chain (outcomes : List AttemptOutcome) (fuel : ℕ) (o : AttemptOutcome) :
    Except Stop (List Name) :=
  chainFrom outcomes fuel [o.attemptId] o.parentOf

/-- An entry of `attempts`. -/
structure AttemptExport where
  programId : Name
  workUnitId : Name
  workUnitClass : Name
  attemptId : Name
  attemptSpecRevision : ℕ
  attemptSpecDigest : Name
  programSpecDigest : Name
  allocationReference : Option Name
  contextReference : Option Name
  requested : Identity
  resolved : Option AttributedIdentity
  observed : Option AttributedIdentity
  quota : Option QuotaSnapshot
  validation : Option Name
  findingIds : List Name
  remediationOf : Option Name
  productReview : Option ProductReview
  acceptanceId : Option Name
  interventionIds : List Name
  effectiveUsage : List UsageObservation
  costAttemptIds : Option (List Name)
deriving DecidableEq

/-- What `export_outcomes` returns. -/
structure Export where
  schema : String
  attempts : List AttemptExport
  observations : List UsageObservation
deriving DecidableEq

variable [Sha256]

/-- The entry of an outcome, given the Attempts it is charged with. -/
def exportAttempt (latest : List UsageObservation) (o : AttemptOutcome)
    (cost : Option (List Name)) : AttemptExport where
  programId := o.attempt.programId
  workUnitId := o.attempt.workUnitId
  workUnitClass := o.workUnitClass
  attemptId := o.attemptId
  attemptSpecRevision := o.attempt.specRevision
  attemptSpecDigest := o.attempt.digest
  programSpecDigest := o.attempt.specDigest
  allocationReference := o.attempt.allocationReference
  contextReference := o.attempt.contextReference
  requested := o.requested
  resolved := o.resolved
  observed := o.observed
  quota := o.quota
  validation := o.validation
  findingIds := o.findingIds
  remediationOf := o.parentOf
  productReview := o.review
  acceptanceId := o.acceptanceId
  interventionIds := o.interventionIds
  effectiveUsage := latest.filter fun u => u.attemptId = o.attemptId
  costAttemptIds := cost

/-- The body of the loop over the outcomes. -/
def exportOne (outcomes : List AttemptOutcome) (fuel : ℕ) (latest : List UsageObservation)
    (o : AttemptOutcome) : Except Stop AttemptExport :=
  match o.acceptanceId with
  | none => .ok (exportAttempt latest o none)
  | some _ => (fun cost => exportAttempt latest o (some cost)) <$> chain outcomes fuel o

/-- `export_outcomes`, with a bound on the rounds of each of its `while` loops. -/
def exportOutcomes (fuel : ℕ) (outcomes : List AttemptOutcome)
    (observations : List UsageObservation) : Except Stop Export := do
  checkOutcomes outcomes fuel
  let l ← (ledger outcomes observations).mapError .raised
  let attempts ← outcomes.mapM (exportOne outcomes fuel l.latest)
  return ⟨"creatidy-local-outcomes-v1", attempts, observations⟩

end Outcomes

end CreatidyKernel
