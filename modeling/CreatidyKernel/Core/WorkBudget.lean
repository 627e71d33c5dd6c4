import CreatidyKernel.Core.Values
import CreatidyKernel.Lib.Decimal

set_option relaxedAutoImplicit false
set_option autoImplicit false

/-!
# Work budgets and usage observations

A policy bounds the work of a scope: how many reservations of each kind, how many Attempts at
once, how many retained bytes, and for some resources the quantity at which work stops. A usage
observation is a receipt about a resource, with a quantity or none when it is unknown, and may
correct an earlier one.

The types carry what their constructors check.

## Main definitions

* `WorkKind`, `ResourceCeiling`, `WorkBudgetPolicy` — the configured capacity.
* `Provenance`, `UsageObservation` — the measured consumption.
-/

namespace CreatidyKernel

/-! ## Configured capacity -/

/-- The kinds of work. -/
inductive WorkKind
  | attempt | review | remediation | tool | retry | helper | verification | auxiliary
deriving DecidableEq, Repr

/-- `set(WorkKind)`. -/
instance : Fintype WorkKind :=
  .ofList [.attempt, .review, .remediation, .tool, .retry, .helper, .verification, .auxiliary]
    fun k => by cases k <;> simp

/-- The text of a kind. -/
def WorkKind.value : WorkKind → String
  | .attempt => "attempt"
  | .review => "review"
  | .remediation => "remediation"
  | .tool => "tool"
  | .retry => "retry"
  | .helper => "helper"
  | .verification => "verification"
  | .auxiliary => "auxiliary"

/-- `COUNT_ONLY_WORK`: kinds that are counted but do not occupy the Attempt. -/
def WorkKind.CountOnly (k : WorkKind) : Prop := k = .retry ∨ k = .remediation

instance (k : WorkKind) : Decidable k.CountOnly := inferInstanceAs (Decidable (_ ∨ _))

/-- The check of a resource ceiling: a known metric with a unit, money in an ISO currency. -/
def ResourceCeiling.Valid (metric unit : String) (quantity : Decimal) : Prop :=
  metric ∈ ["money", "tokens", "quota", "compute", "elapsed", "attention"] ∧ Nonblank unit ∧
    0 < quantity.signed ∧
    (metric = "money" → unit.length = 3 ∧ ∀ c ∈ unit.toList, 'A' ≤ c ∧ c ≤ 'Z')

/-- The quantity of a resource at which work stops. -/
structure ResourceCeiling where
  metric : String
  unit : String
  quantity : Decimal
  valid : ResourceCeiling.Valid metric unit quantity
deriving DecidableEq

/-- The capacity of a scope. -/
structure WorkBudgetPolicy where
  counts : WorkKind → ℕ
  maxActive : ℕ
  retainedBytes : ℕ
  resources : List ResourceCeiling
  strictInference : Bool
  maxActive_pos : maxActive > 0
  retainedBytes_pos : retainedBytes > 0
  unique : (resources.map fun r => (r.metric, r.unit)).Nodup
deriving DecidableEq

/-! ## Measured consumption -/

/-- Where a quantity comes from. -/
inductive Provenance
  | estimate | providerReport | measurement | ownerRecord
deriving DecidableEq, Repr

/-- The text of a provenance. -/
def Provenance.value : Provenance → String
  | .estimate => "estimate"
  | .providerReport => "provider_report"
  | .measurement => "measurement"
  | .ownerRecord => "owner_record"

/-- The provenances that count against a ceiling. -/
def Provenance.Authoritative (p : Provenance) : Prop :=
  p = .measurement ∨ p = .providerReport ∨ p = .ownerRecord

instance (p : Provenance) : Decidable p.Authoritative := inferInstanceAs (Decidable (_ ∨ _ ∨ _))

/-- A receipt about the consumption of an Attempt. -/
structure UsageObservation where
  observationId : Name
  attemptId : Name
  receiptId : Name
  metric : Name
  unit : Name
  /-- None when the quantity is unknown. -/
  quantity : Option Decimal
  provenance : Provenance
  source : Name
  observedAt : ℤ
  supersedesId : Option Name
  nonneg : ∀ q ∈ quantity, 0 ≤ q.signed
deriving DecidableEq

/-- What a receipt is about: corrections keep it. -/
def UsageObservation.identity (o : UsageObservation) : Name × Name × Name × Name :=
  (o.source, o.receiptId, o.metric, o.unit)

end CreatidyKernel
