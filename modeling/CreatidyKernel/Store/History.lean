import CreatidyKernel.Codec.Command
import CreatidyKernel.Lib.Rows
import CreatidyKernel.Store.Journal

set_option relaxedAutoImplicit false
set_option autoImplicit false

/-!
# History and projections

The authority of the store over Programs is an append-only history: one row for each accepted
command, with its canonical input and the facts that resulted. Beside it stand the recorded
result of each command key, and the projections, which hold the current facts of each Program
and can be rebuilt from the history.

## Main definitions

* `HistoryRow`, `AdmissionRow`, `HeadRow`, `WorkUnitRow`, `AttemptRow` — the rows.
* `Aggregates` — the tables.
* `Aggregates.loadHead`, `Aggregates.duplicateResult` — the reads.
* `Aggregates.create`, `Aggregates.record` — the writes of a creation and of a command.
* `Aggregates.rebuild` — the projections decoded from the history.
-/

namespace CreatidyKernel

open Checked Codec

/-! ## Rows -/

/-- A row of `history`. -/
structure HistoryRow where
  programId : Name
  sequence : ℕ
  schemaVersion : ℕ
  commandKey : String
  commandType : String
  actorId : Name
  inputDigest : Name
  inputJson : String
  aggregateRevision : ℕ
  factsDigest : Name
  factsJson : String
deriving DecidableEq

/-- A row of `command_admissions`. -/
structure AdmissionRow where
  commandKey : String
  programId : Name
  commandType : String
  inputDigest : Name
  resultSequence : ℕ
  resultDigest : Name
  resultJson : String
deriving DecidableEq

/-- The admission `_insert_command_result` writes beside a history row. -/
def HistoryRow.admission (row : HistoryRow) : AdmissionRow :=
  ⟨row.commandKey, row.programId, row.commandType, row.inputDigest, row.sequence,
    row.factsDigest, row.factsJson⟩

/-- A row of `program_projection`. -/
structure HeadRow where
  programId : Name
  aggregateRevision : ℕ
  historySequence : ℕ
  schemaVersion : ℕ
  factsDigest : Name
  programJson : String
deriving DecidableEq

/-- A row of `work_unit_projection`. -/
structure WorkUnitRow where
  programId : Name
  workUnitId : Name
  status : WorkUnitStatus
  activeAttemptId : Option Name
  satisfactionId : Option Name
deriving DecidableEq

/-- A row of `attempt_projection`. -/
structure AttemptRow where
  programId : Name
  attemptId : Name
  status : AttemptStatus
  attemptJson : String
deriving DecidableEq

/-- The tables of the aggregates. -/
structure Aggregates where
  history : List HistoryRow
  admissions : List AdmissionRow
  heads : List HeadRow
  workUnits : List WorkUnitRow
  attempts : List AttemptRow
deriving DecidableEq

namespace Aggregates

/-- The tables of a new database. -/
def empty : Aggregates := ⟨[], [], [], [], []⟩

/-! ## Writing -/

/-- `_insert_history`. -/
def insertHistory (a : Aggregates) (row : HistoryRow) : Aggregates :=
  { a with history := a.history ++ [row] }

/-- The rows of the units of a Program. -/
def workUnitRows (p : Program) : List WorkUnitRow :=
  p.workUnitStates.map fun s =>
    ⟨p.programId, s.workUnitId, s.status, s.activeAttemptId, s.satisfactionId⟩

/-- The rows of the Attempts of a Program. -/
def attemptRows (p : Program) : List AttemptRow :=
  p.attempts.map fun t => ⟨p.programId, t.attemptId, t.status, attemptProjectionJson t⟩

/-- `_write_projections`: deleting the head of a Program deletes the rows of its units and
Attempts with it. -/
def writeProjections (a : Aggregates) (p : Program) (historySequence : ℕ) (factsJson : String)
    (factsDigest : Name) : Aggregates :=
  { a with
    heads := (a.heads.filter fun r => r.programId ≠ p.programId) ++
      [⟨p.programId, p.revision, historySequence, 1, factsDigest, factsJson⟩]
    workUnits := (a.workUnits.filter fun r => r.programId ≠ p.programId) ++ workUnitRows p
    attempts := (a.attempts.filter fun r => r.programId ≠ p.programId) ++ attemptRows p }

/-- Write an accepted command: its history row, the projections, and its recorded result. -/
def commit (a : Aggregates) (p : Program) (row : HistoryRow) : Aggregates :=
  let a := (a.insertHistory row).writeProjections p row.sequence row.factsJson row.factsDigest
  { a with admissions := a.admissions ++ [row.admission] }

section

variable [Sha256]

/-! ## Reading -/

/-- `_decode_facts`. -/
def decodeFacts (raw : String) (programId : Name) (revision : ℕ) : Except Failure Program := do
  let p ← (programFromJson raw).mapError fun e =>
    if e.fault = .recordCodec then
      ⟨.corruptHistory, "stored K1 facts cannot be decoded or validated"⟩
    else e
  check (p.programId = programId ∧ p.revision = revision) ⟨.corruptHistory,
    "stored K1 facts do not match their aggregate envelope"⟩
  return p

/-- The rows of a Program, in the order of their sequence numbers. -/
def historyOf (a : Aggregates) (programId : Name) : List HistoryRow :=
  SortedBy.sortBy HistoryRow.sequence (a.history.filter fun r => r.programId = programId)

/-- The row of the head of a Program. -/
def head (a : Aggregates) (programId : Name) : Option HeadRow :=
  Rows.find HeadRow.programId a.heads programId

/-- The exception of a missing head. -/
def notFound (programId : Name) : Failure :=
  ⟨.programNotFound, "Program " ++ pyRepr programId.val ++ " does not exist"⟩

/-- `_load_head`. -/
def loadHead (a : Aggregates) (programId : Name) : Except Failure Program := do
  let row ← lookup (notFound programId) a.head programId
  check (Sha256.hexdigest row.programJson = row.factsDigest) ⟨.corruptHistory,
    "Program projection digest does not match its contents"⟩
  let p ← decodeFacts row.programJson programId row.aggregateRevision
  let mismatch : Failure :=
    ⟨.corruptHistory, "Program projection does not match the authoritative history head"⟩
  match (a.historyOf programId).getLast? with
  | none => .error mismatch
  | some latest =>
    check (latest.sequence = row.historySequence ∧ latest.factsDigest = row.factsDigest ∧
      row.schemaVersion = 1) mismatch
    return p

/-- `_duplicate_result`. -/
def duplicateResult (a : Aggregates) (commandKey : String) (inputDigest : Name) :
    Except Failure (Option Program) :=
  match Rows.find AdmissionRow.commandKey a.admissions commandKey with
  | none => .ok none
  | some row => do
    check (row.inputDigest = inputDigest) ⟨.idempotencyConflict,
      "command key was already bound to different canonical input"⟩
    check (Sha256.hexdigest row.resultJson = row.resultDigest) ⟨.corruptHistory,
      "recorded command result digest does not match its contents"⟩
    let p ← (programFromJson row.resultJson).mapError fun e =>
      if e.fault = .recordCodec then
        ⟨.corruptHistory, "recorded command result cannot be decoded"⟩
      else e
    return some p

/-- A key has no recorded result exactly when there is no admission under it. -/
theorem duplicateResult_eq_none {a : Aggregates} {commandKey : String} {inputDigest : Name} :
    a.duplicateResult commandKey inputDigest = .ok none ↔
      Rows.find AdmissionRow.commandKey a.admissions commandKey = none := by
  unfold duplicateResult
  cases Rows.find AdmissionRow.commandKey a.admissions commandKey with
  | none => simp
  | some row =>
    simp only [reduceCtorEq, iff_false]
    intro h
    obtain ⟨-, h⟩ := check_bind_eq_ok.1 h
    obtain ⟨-, h⟩ := check_bind_eq_ok.1 h
    obtain ⟨_, -, h⟩ := bind_eq_ok.1 h
    cases h

/-! ## Commands -/

/-- The history row of a creation. -/
def creationRow (spec : ProgramSpec) (commandKey : String) (p : Program) (factsJson : String) :
    HistoryRow :=
  ⟨spec.programId, 1, 1, commandKey, "create_program", spec.authority.ownerId,
    digest (createInput spec), createInputJson spec, p.revision, Sha256.hexdigest factsJson,
    factsJson⟩

/-- The history row of a command. -/
def commandRow (programId : Name) (sequence : ℕ) (commandKey : String) (c : DomainCommand)
    (p : Program) (factsJson : String) : HistoryRow :=
  ⟨programId, sequence, 1, commandKey, c.request.action.value, c.actorId,
    digest (commandInput programId c), commandInputJson programId c, p.revision,
    Sha256.hexdigest factsJson, factsJson⟩

/-- `_create`. -/
def create (a : Aggregates) (spec : ProgramSpec) (commandKey : String) :
    Except Failure (Program × Aggregates) := do
  Journal.validateCommandKey commandKey
  match ← a.duplicateResult commandKey (digest (createInput spec)) with
  | some duplicate => return (duplicate, a)
  | none =>
    check (a.head spec.programId = none) ⟨.programAlreadyExists,
      "Program " ++ pyRepr spec.programId.val ++ " already exists"⟩
    let initial ← Program.create spec
    let factsJson ← programJson initial
    return (initial, a.commit initial (creationRow spec commandKey initial factsJson))

/-- The writes of `_admit_decision` once a command is accepted. -/
def record (a : Aggregates) (programId : Name) (commandKey : String) (c : DomainCommand)
    (p : Program) : Except Failure Aggregates := do
  check (p.programId = programId) ⟨.corruptHistory,
    "K1 returned a result for a different aggregate"⟩
  let head ← lookup (notFound programId) a.head programId
  let factsJson ← programJson p
  return a.commit p
    (commandRow programId (head.historySequence + 1) commandKey c p factsJson)

/-! ## Rebuilding -/

/-- What the replay knows of a Program: `latest` and `expected_sequence`. -/
structure Replayed where
  program : Program
  sequence : ℕ
  factsJson : String
  factsDigest : Name

/-- The check that the admission of a row is on record beside it. -/
def admitted (a : Aggregates) (row : HistoryRow) : Prop :=
  Rows.find AdmissionRow.commandKey a.admissions row.commandKey = some row.admission

instance (a : Aggregates) (row : HistoryRow) : Decidable (a.admitted row) :=
  inferInstanceAs (Decidable (_ = _))

/-- The check of the input of a row, by the kind of its command. -/
def replayInput (row : HistoryRow) (previous : Option Replayed) : Except Failure Unit :=
  if row.commandType = "create_program" then do
    check (row.sequence = 1 ∧ previous.isNone) ⟨.corruptHistory,
      "Program creation record is not the first aggregate record"⟩
    validateCreateInput row.inputJson row.programId row.actorId row.inputDigest
  else do
    check (previous.isSome) ⟨.corruptHistory,
      "domain command record precedes Program creation"⟩
    validateHistoryInput row.inputJson
      ⟨row.programId, row.commandType, row.actorId, row.inputDigest⟩

/-- The body of the loop of `rebuild_projections` for one row. -/
def replayRow (a : Aggregates) (row : HistoryRow) (previous : Option Replayed) :
    Except Failure Replayed := do
  check (row.schemaVersion = 1) ⟨.corruptHistory,
    "unsupported history record schema " ++ toString row.schemaVersion⟩
  check (Nonblank row.commandKey) ⟨.corruptHistory, "history command key is empty"⟩
  check (Sha256.hexdigest row.factsJson = row.factsDigest) ⟨.corruptHistory,
    "history fact snapshot digest does not match its contents"⟩
  check (row.sequence = previous.elim 0 Replayed.sequence + 1) ⟨.corruptHistory,
    "aggregate history sequence is not contiguous"⟩
  replayInput row previous
  let p ← decodeFacts row.factsJson row.programId row.aggregateRevision
  check (∀ r ∈ previous, r.program.revision ≤ p.revision) ⟨.corruptHistory,
    "aggregate revision regressed in authoritative history"⟩
  check (row.sequence = 1 → p.revision = 0 ∧ p.status = .draft) ⟨.corruptHistory,
    "Program creation must record the initial K1 aggregate"⟩
  check (a.admitted row) ⟨.corruptHistory,
    "history record and command admission are not atomically consistent"⟩
  return ⟨p, row.sequence, row.factsJson, row.factsDigest⟩

/-- The entry of a Program in a replay under way. -/
def replayed (latest : List Replayed) (programId : Name) : Option Replayed :=
  Rows.find (fun r => r.program.programId) latest programId

/-- `latest[program_id] = r`: a dictionary keeps the place of a key it has. -/
def remember (latest : List Replayed) (r : Replayed) : List Replayed :=
  match replayed latest r.program.programId with
  | none => latest ++ [r]
  | some _ => Rows.update (fun r => r.program.programId) latest r

/-- The loop of `rebuild_projections`. -/
def replay (a : Aggregates) : List Replayed → List HistoryRow → Except Failure (List Replayed)
  | latest, [] => .ok latest
  | latest, row :: rest => do
    let r ← a.replayRow row (replayed latest row.programId)
    a.replay (remember latest r) rest

/-- `rebuild_projections`. -/
def rebuild (a : Aggregates) : Except Failure (ℕ × Aggregates) := do
  let rows := SortedBy.sortBy (fun r : HistoryRow => toLex (r.programId, r.sequence)) a.history
  let latest ← a.replay [] rows
  let cleared : Aggregates := { a with heads := [], workUnits := [], attempts := [] }
  return (latest.length, latest.foldl (fun a r =>
    a.writeProjections r.program r.sequence r.factsJson r.factsDigest) cleared)

end

end Aggregates

end CreatidyKernel
