import Mathlib.Tactic
import CreatidyKernel.Lib.Checked
import CreatidyKernel.Lib.Rows
import CreatidyKernel.Lib.Runs
import CreatidyKernel.Core.Deadlines

set_option relaxedAutoImplicit false
set_option autoImplicit false

/-!
# Clock observations

The store keeps for each Program a floor: the latest wall and boot clock it has committed. Before
an admission it marks the floor pending in a transaction of its own, reads the clocks, and raises
the floor in a second transaction; only then may the reading decide anything. The process can die
between any two of these steps, and a fresh process finds only what was committed.

The protocol is a machine with a program counter: one action for each transaction, one for the
answer of the clocks, one for the death of the process. An action that the program counter does
not expect does nothing. The rest of the database is a type of its own, changed by transactions
that may roll back.

## Main definitions

* `ClockRow` — a row of `work_clock_state`.
* `Envelope` — what a binding or a prepared clock origin says about a Program's deadline.
* `flushRows`, `mark` — the two transactions of `_prepare_work_clocks`.
* `Clocked` — the database and the process.
* `Clocked.workDecisionTime`, `Clocked.checkWorkAuthority` — the decisions.
* `Clocked.next` — the machine.
-/

namespace CreatidyKernel

open Checked

/-! ## Floors -/

/-- A row of `work_clock_state`. -/
structure ClockRow where
  programId : Name
  wall : ℕ
  bootNs : ℕ
  bootId : Name
  pending : Bool
deriving DecidableEq

/-- The floor as a reading. -/
def ClockRow.reading (row : ClockRow) : BootClockReading := ⟨row.wall, row.bootNs, row.bootId⟩

/-- The row after an observation: a reading of the same boot raises the floor, any other outcome
only ends the pending read. -/
def ClockRow.observe (row : ClockRow) : Option BootClockReading → ClockRow
  | some r =>
    if r.bootId = row.bootId then
      { row with wall := max row.wall r.wall, bootNs := max row.bootNs r.bootNs, pending := false }
    else { row with pending := false }
  | none => { row with pending := false }

/-- A Program's deadline on record: its binding, or while it has none its prepared clock origin.
`legacy` are the floors older versions recorded. -/
structure Envelope where
  programId : Name
  projection : DeadlineProjection
  bound : Bool
  legacy : List (ℕ × ℕ)
deriving DecidableEq

/-- The first floor of an envelope, already pending. -/
def Envelope.floor (e : Envelope) : ClockRow :=
  ⟨e.programId, (e.projection.wallAnchor :: e.legacy.map Prod.fst).foldr max 0,
    (e.projection.bootAnchorNs :: e.legacy.map Prod.snd).foldr max 0, e.projection.bootId, true⟩

/-- The readings captured and not yet committed, `_clock_uncommitted`. -/
abbrev Captures := List (Name × Option BootClockReading)

/-- The row after a flush. -/
def ClockRow.flushed (captures : Captures) (row : ClockRow) : ClockRow :=
  match captures.lookup row.programId with
  | some reading => row.observe reading
  | none => row

/-- The transaction of `_flush_clock_observations`, which refuses when a floor is missing. -/
def flushRows (rows : List ClockRow) (captures : Captures) : Option (List ClockRow) :=
  if ∀ c ∈ captures, Rows.find ClockRow.programId rows c.1 ≠ none then
    some (rows.map (ClockRow.flushed captures))
  else none

/-- Mark one Program pending: a first floor is inserted, a pending one is left alone. The flag
says whether the Program takes part in the reading. -/
def markOne (rows : List ClockRow) (e : Envelope) : List ClockRow × Bool :=
  match Rows.find ClockRow.programId rows e.programId with
  | none => (rows ++ [e.floor], true)
  | some row =>
    if row.pending then (rows, false)
    else (Rows.update ClockRow.programId rows { row with pending := true }, true)

/-- The marking transaction of `_prepare_work_clocks`, with the eligible Programs. -/
def mark (rows : List ClockRow) : List Envelope → List ClockRow × List Name
  | [] => (rows, [])
  | e :: rest =>
    let (rows, takes) := markOne rows e
    let (rows, eligible) := mark rows rest
    (rows, if takes then e.programId :: eligible else eligible)

/-! ## The machine -/

/-- How a flush ends: committed; rolled back; or committed, but the read back of the floors
fails. -/
inductive FlushOutcome
  | committed | rolledBack | interrupted
deriving DecidableEq, Repr

/-- The program counter of `_prepare_work_clocks`. -/
inductive ClockPhase
  | idle
  | flushed
  | marked (eligible : List Name)
  | captured (eligible : List Name) (reading : Option BootClockReading) (changed : Bool)
deriving DecidableEq

/-- The memory of the process that owns the store. -/
structure Process where
  /-- `_clock_watermarks`. -/
  watermarks : Name → Option BootClockReading
  captures : Captures
  phase : ClockPhase
  /-- The result of the last `_prepare_work_clocks`, by Program. -/
  readings : Name → Option (Option BootClockReading)

/-- A process that just opened the store. -/
def Process.fresh : Process := ⟨fun _ => none, [], .idle, fun _ => none⟩

/-- The database, with `β` for all of it but the clocks, and the process that owns it. -/
structure Clocked (β : Type) where
  envelopes : List Envelope
  rows : List ClockRow
  business : β
  process : Process

/-- What a transaction asks of the rest of the database before it has authority. -/
structure Standing (β : Type) where
  /-- The binding is of the current specification. -/
  current : β → Name → Bool
  /-- The budget is revoked or the Program is cancelled. -/
  withdrawn : β → Name → Bool

namespace Clocked

variable {β : Type}

/-- A database without bindings, just opened. -/
def opened (business : β) : Clocked β := ⟨[], [], business, .fresh⟩

/-- The floor of a Program. -/
def row (m : Clocked β) (programId : Name) : Option ClockRow :=
  Rows.find ClockRow.programId m.rows programId

/-- The binding or clock origin of a Program. -/
def envelope (m : Clocked β) (programId : Name) : Option Envelope :=
  Rows.find Envelope.programId m.envelopes programId

/-- `_work_binding`: an envelope that is more than a clock origin. -/
def binding (m : Clocked β) (programId : Name) : Option Envelope :=
  (m.envelope programId).filter Envelope.bound

/-- `work_decision_time`. -/
def workDecisionTime (m : Clocked β) (programId : Name) : Except Failure ℕ := do
  let e ← lookup ⟨.budgetRefused, "configured original work envelope required"⟩ m.binding programId
  let unverified : Failure :=
    ⟨.budgetRefused, "clock observation persistence unverified; no new work authority"⟩
  let row ← lookup unverified m.row programId
  check (row.pending = false) unverified
  let captured ← lookup unverified m.process.readings programId
  let unverifiable : Failure :=
    ⟨.budgetRefused, "original work deadline expired or boot clock unverifiable"⟩
  match captured with
  | none => .error unverifiable
  | some reading =>
    check (e.projection.Verifiable reading) unverifiable
    let previous ← subscript m.process.watermarks programId
    check (previous.wall ≤ reading.wall ∧ previous.bootNs ≤ reading.bootNs)
      ⟨.budgetRefused, "observed wall/boot clock rollback; no new work authority"⟩
    return e.projection.decisionTime (some reading)

/-- `check_work_authority`. -/
def checkWorkAuthority (standing : Standing β) (m : Clocked β) (programId : Name) :
    Except Failure Unit := do
  let e ← lookup ⟨.budgetRefused, "configured original work envelope required"⟩ m.binding programId
  check (standing.current m.business programId) ⟨.budgetRefused,
    "work envelope belongs to a different current specification"⟩
  let now ← m.workDecisionTime programId
  check (now < e.projection.wallDeadline) ⟨.budgetRefused,
    "original work deadline expired or boot clock unverifiable"⟩
  check (standing.withdrawn m.business programId = false) ⟨.budgetRefused,
    "work authority revoked"⟩

/-- The readings when the protocol ends without a committed observation. -/
def noReadings (m : Clocked β) (programId : Name) : Option (Option BootClockReading) :=
  (m.envelope programId).map fun _ => none

/-- The readings a completed protocol hands out: a clock callback that changed the store
invalidates its answer. -/
def takenReadings (m : Clocked β) (eligible : List Name) (reading : Option BootClockReading)
    (changed : Bool) (programId : Name) : Option (Option BootClockReading) :=
  (m.envelope programId).map fun _ =>
    if programId ∈ eligible ∧ changed = false then reading else none

/-- `_flush_clock_observations` with its outcome: the machine afterwards, or none when it
raised. -/
def flush (m : Clocked β) (outcome : FlushOutcome) : Clocked β × Bool :=
  if m.process.captures = [] then (m, true)
  else
    match outcome, flushRows m.rows m.process.captures with
    | .committed, some rows =>
      ({ m with
        rows := rows
        process := { m.process with
          watermarks := fun p =>
            if (m.process.captures.lookup p).isSome then
              (Rows.find ClockRow.programId rows p).map ClockRow.reading
            else m.process.watermarks p
          captures := [] } }, true)
    | .interrupted, some rows => ({ m with rows := rows }, false)
    | _, _ => (m, false)

/-- End the protocol with the given readings. -/
def finish (m : Clocked β) (readings : Name → Option (Option BootClockReading)) : Clocked β :=
  { m with process := { m.process with phase := .idle, readings := readings } }

/-- Enter a phase of the protocol. -/
def enter (m : Clocked β) (phase : ClockPhase) : Clocked β :=
  { m with process := { m.process with phase := phase, readings := fun _ => none } }

@[simp] theorem finish_phase (m : Clocked β) (readings : Name → Option (Option BootClockReading)) :
    (m.finish readings).process.phase = .idle := rfl

@[simp] theorem enter_phase (m : Clocked β) (phase : ClockPhase) :
    (m.enter phase).process.phase = phase := rfl

/-- What can happen next. -/
inductive Action (β : Type)
  /-- Record the first binding or the clock origin of a Program. -/
  | configure (e : Envelope)
  /-- Accept a budget whose clock origin is on record. -/
  | bind (programId : Name)
  /-- Begin `_prepare_work_clocks`: flush what an earlier protocol captured. -/
  | begin (outcome : FlushOutcome)
  /-- The marking transaction. -/
  | mark (commits : Bool)
  /-- The answer of the clocks, and whether the callback changed the store. -/
  | capture (reading : Option BootClockReading) (changed : Bool)
  /-- Flush the captured reading and hand it out. -/
  | publish (outcome : FlushOutcome)
  /-- A transaction on the rest of the database, with the authority of a Program when it needs
  it. It rolls back when it raises. -/
  | transact (authority : Option Name) (body : β → Except Failure β)
  /-- The process dies, and a fresh one opens the store. -/
  | crash

/-- The transaction of a `transact` action. -/
def transaction (standing : Standing β) (m : Clocked β) (authority : Option Name)
    (body : β → Except Failure β) : Except Failure (Unit × β) := do
  match authority with
  | some programId => m.checkWorkAuthority standing programId
  | none => pure ()
  let business ← body m.business
  return ((), business)

/-- The machine after an action. -/
def next (standing : Standing β) (m : Clocked β) : Action β → Clocked β
  | .configure e =>
    if m.process.phase = .idle ∧ m.envelope e.programId = none then
      { m with envelopes := m.envelopes ++ [e] }
    else m
  | .bind programId =>
    match m.process.phase, m.envelope programId with
    | .idle, some e =>
      { m with envelopes := Rows.update Envelope.programId m.envelopes { e with bound := true } }
    | _, _ => m
  | .begin outcome =>
    if m.process.phase = .idle then
      match m.flush outcome with
      | (m, true) => m.enter .flushed
      | (m, false) => m.finish m.noReadings
    else m
  | .mark commits =>
    if m.process.phase = .flushed then
      if commits then
        { m.enter (.marked (CreatidyKernel.mark m.rows m.envelopes).2) with
          rows := (CreatidyKernel.mark m.rows m.envelopes).1 }
      else m.finish m.noReadings
    else m
  | .capture reading changed =>
    match m.process.phase with
    | .marked eligible =>
      if eligible = [] then m.finish m.noReadings
      else
        { m with process := { m.process with
          phase := .captured eligible reading changed
          captures := m.process.captures.filter (fun c => c.1 ∉ eligible) ++
            eligible.map fun p => (p, reading) } }
    | _ => m
  | .publish outcome =>
    match m.process.phase with
    | .captured eligible reading changed =>
      match m.flush outcome with
      | (m, true) => m.finish (m.takenReadings eligible reading changed)
      | (m, false) => m.finish m.noReadings
    | _ => m
  | .transact authority body =>
    if m.process.phase = .idle then
      { m.finish fun _ => none with
        business := Runs.settle m.business (m.transaction standing authority body) }
    else m
  | .crash => { m with process := .fresh }

end Clocked

end CreatidyKernel
