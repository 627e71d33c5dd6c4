import CreatidyKernel.Store.WorkRecords

set_option relaxedAutoImplicit false
set_option autoImplicit false

/-!
# Usage receipts

A receipt is recorded for a reserved operation of an Attempt. A later receipt of the same source
about the same thing is a correction and must name the observation it supersedes. The receipts
nothing supersedes are in force; their quantities are added up for the status of a budget and are
held against its resource ceilings.

## Main definitions

* `Store.effectiveUsage` — the receipts in force among some reservations.
* `Store.recordUsage` — record a receipt.
* `Store.workBudgetStatus` — the totals of a Program.
* `Store.checkResourceHeadroom` — the ceilings of a Program and of its project.
-/

namespace CreatidyKernel

open Checked

namespace Store

variable [Sha256]

/-! ## Receipts in force -/

/-- `_effective_usage`. -/
def effectiveUsage (s : Store) (reservations : List Reservation) : List UsageRecord :=
  let operations := reservations.map Reservation.operation
  let facts := s.usageRecords.filter fun u => u.operation ∈ operations
  let superseded := facts.filterMap fun u =>
    u.observation.supersedesId.map fun id => (u.observation.source, id)
  facts.filter fun u => usageKey u ∉ superseded

/-! ## Recording -/

/-- The receipt may follow the ones in force for the same thing: the first corrects nothing, a
later one corrects the only one in force. -/
def Corrects (supersedesId : Option Name) : List UsageRecord → Prop
  | [] => supersedesId = none
  | prior :: rest => rest = [] ∧ supersedesId = some prior.observation.observationId

instance (supersedesId : Option Name) (prior : List UsageRecord) :
    Decidable (Corrects supersedesId prior) :=
  match prior with
  | [] => inferInstanceAs (Decidable (_ = _))
  | _ :: _ => inferInstanceAs (Decidable (_ ∧ _))

/-- `record_usage`. -/
def recordUsage (s : Store) (operationId : String) (o : UsageObservation) :
    Except Failure (Unit × Store) := do
  check (∃ r ∈ s.reservation operationId, r.attempt = o.attemptId.val) ⟨.budgetRefused,
    "usage must bind its original reserved Attempt/Operation"⟩
  let record : UsageRecord := ⟨operationId, o⟩
  match Rows.find usageKey s.usage (usageKey record) with
  | some _ =>
    let s' ← s.writeUsage record
    return ((), s')
  | none =>
    let facts := s.effectiveUsage s.reservationRecords
    let prior := facts.filter fun u => u.observation.identity = o.identity
    check (∀ u ∈ prior, u.operation = operationId ∧ u.observation.attemptId = o.attemptId)
      ⟨.budgetRefused, "source receipt retains its original Attempt/Operation attribution"⟩
    check (Corrects o.supersedesId prior) ⟨.budgetRefused,
      "usage correction requires the latest same-source receipt and unit"⟩
    let s' ← s.writeUsage record
    return ((), s')

/-! ## Totals -/

/-- The exception of a sum beyond the exponents of its context. -/
def decimalOverflow : Failure := ⟨.overflow, "[<class 'decimal.Overflow'>]"⟩

/-- `sum(quantities, Decimal(0))` in the default context. -/
def total (quantities : List Decimal) : Except Failure Decimal :=
  match Decimal.sum .default quantities with
  | some t => .ok t
  | none => .error decimalOverflow

/-- A group of receipts whose quantities are added up for the status. -/
structure UsageGroup where
  metric : Name
  unit : Name
  provenance : Provenance
deriving DecidableEq

/-- The group of a receipt. -/
def UsageRecord.group (u : UsageRecord) : UsageGroup :=
  ⟨u.observation.metric, u.observation.unit, u.observation.provenance⟩

/-- The scopes capacity is counted in. -/
inductive Scope
  | program | project
deriving DecidableEq, Repr

/-- The text of a scope. -/
def Scope.value : Scope → String
  | .program => "program"
  | .project => "project"

/-- `item[scope]`. -/
def Reservation.scope (r : Reservation) : Scope → Name
  | .program => r.program
  | .project => r.project

/-- The two scopes of a Program with their identities and policies. -/
def scopes (programId : Name) (binding : Binding) (project : ProjectRecord) :
    List (Scope × Name × WorkBudgetPolicy) :=
  [(.program, programId, binding.policy), (.project, binding.project, project.policy)]

/-- The reservations of a scope. -/
def inScope (reservations : List Reservation) (scope : Scope) (identity : Name) :
    List Reservation :=
  reservations.filter fun r => Reservation.scope r scope = identity

/-- The receipts in force that a ceiling is about. -/
def matching (effective : List UsageRecord) (ceiling : ResourceCeiling) : List UsageRecord :=
  effective.filter fun u =>
    u.observation.metric.val = ceiling.metric ∧ u.observation.unit.val = ceiling.unit

/-- The authoritative quantities of some receipts. -/
def authoritative (facts : List UsageRecord) : List Decimal :=
  (facts.filter fun u => u.observation.provenance.Authoritative).filterMap fun u =>
    u.observation.quantity

/-- The ceiling test: the sum of the quantities reaches the ceiling. -/
def reaches (quantities : List Decimal) (ceiling : Decimal) : Except Failure Bool := do
  let t ← total quantities
  return decide (ceiling ≤ t)

/-- The checks of one ceiling, given the test of a sum against it. -/
def checkCeiling (test : List Decimal → Decimal → Except Failure Bool) (scope : Scope)
    (reservations : List Reservation) (effective : List UsageRecord)
    (excludeOperation : Option String) (ceiling : ResourceCeiling) : Except Failure Unit := do
  let facts := matching effective ceiling
  let exhausted ← test (authoritative facts) ceiling.quantity
  check (exhausted = false) ⟨.budgetRefused,
    scope.value ++ " observed resource ceiling exhausted"⟩
  check ((∀ r ∈ reservations, some r.operation = excludeOperation) ∧
      ∀ u ∈ facts, u.observation.quantity ≠ none ∧ u.observation.provenance.Authoritative)
    ⟨.budgetRefused, scope.value ++ " resource headroom unknown"⟩

/-- `_check_resource_headroom`, given the test of a sum against a ceiling. -/
def checkHeadroom (test : List Decimal → Decimal → Except Failure Bool) (s : Store)
    (programId : Name) (excludeOperation : Option String) : Except Failure Unit := do
  match ← s.workBinding programId with
  | none => .error ⟨.budgetRefused, "configured original work envelope required"⟩
  | some binding =>
    let project ← lookup ⟨.budgetRefused, "project capacity authority unavailable"⟩ s.project
      binding.project
    (scopes programId binding project).forM fun (scope, identity, policy) =>
      let reservations := inScope s.reservationRecords scope identity
      policy.resources.forM
        (checkCeiling test scope reservations (s.effectiveUsage reservations) excludeOperation)

/-- `_check_resource_headroom`: the sum is that of the default context. -/
def checkResourceHeadroom (s : Store) (programId : Name) (excludeOperation : Option String) :
    Except Failure Unit :=
  checkHeadroom reaches s programId excludeOperation

end Store

end CreatidyKernel
