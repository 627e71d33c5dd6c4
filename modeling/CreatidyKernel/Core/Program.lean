import CreatidyKernel.Core.Projection

set_option relaxedAutoImplicit false
set_option autoImplicit false

/-!
# The Program aggregate

A `Program` is an immutable aggregate. A command is applied in two parts: its guards decide
the `Ledger` of the next Program, or refuse; then `assemble` projects the states from the
ledger, derives the status and the conclusions, and validates the result.

## Main definitions

* `Ledger`, `Program` — the fields a command decides, and the aggregate.
* `Program.create` — a new Program from its first specification.
* `Program.validate` — the consistency check of an aggregate.
* `Program.assemble` — the next aggregate of a ledger.
* `Program.guards`, `Program.apply` — the guards of the twelve commands, and a whole step.
-/

namespace CreatidyKernel

open Checked

/-! ## Aggregate -/

/-- The fields of a Program that a command decides; the others are derived from them. -/
structure Ledger where
  spec : ProgramSpec
  status : ProgramStatus
  attempts : List Attempt
  satisfactions : List TrustedSatisfaction
  cancellations : List WorkUnitCancellation
  attemptCancellations : List AttemptCancellation
  specHistory : List ProgramSpec
deriving DecidableEq

/-- The immutable aggregate; projections derive from complete facts. -/
structure Program extends Ledger where
  revision : ℕ
  workUnitStates : List WorkUnitState
  conclusions : List ProgramConclusion
deriving DecidableEq

/-- The states of the units of a Program that is not activated yet. -/
def pendingStates (spec : ProgramSpec) : List WorkUnitState :=
  spec.unitIds.map fun n => ⟨n, .pending⟩

/-- `_program_status`. -/
def programStatus (previous : ProgramStatus) (states : List WorkUnitState) : ProgramStatus :=
  if previous = .cancelled then previous
  else if previous = .draft then previous
  else if ∀ s ∈ states, s.status = .satisfied then .completed
  else if previous = .paused then .paused else .active

namespace Program

/-- A new Program begins with the first approved revision of its specification. -/
def create (spec : ProgramSpec) : Except Failure Program :=
  if spec.revision ≠ 1 ∨ spec.parentDigest ≠ none then
    .error ⟨.invalidDomainValue,
      "a new Program must begin with the first approved ProgramSpec revision"⟩
  else .ok {
    spec, status := .draft, revision := 0, workUnitStates := pendingStates spec, attempts := [],
    satisfactions := [], cancellations := [], attemptCancellations := [], conclusions := [],
    specHistory := [spec] }

/-- `program_id`. -/
def programId (p : Program) : Name := p.spec.programId

/-- `state`: the first state of a unit. -/
def state (p : Program) (workUnitId : Name) : Except Failure WorkUnitState :=
  lookup ⟨.missingReference, "unknown WorkUnit " ++ pyRepr workUnitId.val⟩
    (fun n => p.workUnitStates.find? fun s => s.workUnitId = n) workUnitId

/-- `attempt`: the first Attempt with an identifier. -/
def attempt (p : Program) (attemptId : Name) : Except Failure Attempt :=
  lookup ⟨.missingReference, "unknown Attempt " ++ pyRepr attemptId.val⟩
    (fun n => p.attempts.find? fun a => a.attemptId = n) attemptId

/-- `resolved_inputs`: the approved inputs of a unit, which must be available. -/
def resolvedInputs (p : Program) (workUnitId : Name) : Except Failure (List InputBinding) := do
  let unit ← p.spec.workUnit workUnitId
  let inputs ← CreatidyKernel.resolvedInputs p.spec unit (stateById p.workUnitStates)
    (index TrustedSatisfaction.referenceId p.satisfactions)
  match inputs with
  | none => .error ⟨.missingInput,
      "WorkUnit " ++ pyRepr workUnitId.val ++ " has unavailable approved inputs"⟩
  | some inputs => return inputs

/-- `ready_work_unit_ids`. -/
def readyWorkUnitIds (p : Program) : List Name :=
  if p.status = .active then
    (p.workUnitStates.filter fun s => s.status = .ready).map WorkUnitState.workUnitId
  else []

/-- `_authorize`. -/
def authorize (p : Program) (action : DomainAction) (actorId : Name) : Except Failure Unit :=
  let envelope := p.spec.authority
  if action = .amendSpec ∨ action = .cancelProgram ∨ action = .cancelWorkUnit then
    check (actorId = envelope.ownerId) ⟨.authorityViolation, "an owner decision is required"⟩
  else if action = .satisfyWorkUnit then
    check (actorId ∈ envelope.trustedSatisfactionIssuers)
      ⟨.authorityViolation, "satisfaction requires a trusted producer"⟩
  else
    check (action ∈ envelope.allowedActions ∧
        (actorId = envelope.ownerId ∨ actorId ∈ envelope.delegatedActorIds))
      ⟨.authorityViolation, "actor " ++ pyRepr actorId.val ++ " cannot perform " ++
        pyRepr action.value⟩

/-! ## Validation -/

section

variable [Sha256]

/-- `{(item.revision, item.digest): item for item in self.spec_history}`. -/
def historical (p : Program) : ℕ × Name → Option ProgramSpec :=
  index (fun s => (s.revision, s.digest)) p.specHistory

/-- `attempt_positions`: the index of an Attempt in the history. -/
def attemptPosition (attempts : List Attempt) (attemptId : Name) : Option ℕ :=
  (index (fun e : Attempt × ℕ => e.1.attemptId) attempts.zipIdx attemptId).map Prod.snd

/-- Two consecutive specifications form a step of the approved revision chain. -/
def Follows (later earlier : ProgramSpec) : Prop :=
  later.revision = earlier.revision + 1 ∧ later.parentDigest = some earlier.digest ∧
    later.programId = earlier.programId

instance (later earlier : ProgramSpec) : Decidable (Follows later earlier) :=
  inferInstanceAs (Decidable (_ ∧ _ ∧ _))

/-- The lineage of a remediation Attempt cites an earlier finished subject. -/
def validateRemediation (p : Program) (a : Attempt) (remediationOf : Name) :
    Except Failure Unit := do
  let failure : Failure := ⟨.invalidDomainValue,
    "Attempt remediation lineage must cite an earlier finished subject"⟩
  match index Attempt.attemptId p.attempts remediationOf with
  | none => .error failure
  | some source =>
    let i ← subscript (attemptPosition p.attempts) source.attemptId
    let j ← subscript (attemptPosition p.attempts) a.attemptId
    check (i < j ∧ source.status = .finished ∧ source.spec.workUnitId = a.spec.workUnitId ∧
      source.spec.pin = a.spec.pin) failure

/-- The checks on one Attempt. -/
def validateAttempt (p : Program) (a : Attempt) : Except Failure Unit := do
  let failure : Failure := ⟨.invalidDomainValue, "Attempt must cite its historical ProgramSpec"⟩
  match p.historical a.spec.pin with
  | none => .error failure
  | some historical =>
    check (a.spec.programId = p.programId) failure
    check (a.spec.workUnitId ∈ historical.unitIds)
      ⟨.invalidDomainValue, "Attempt cites a foreign WorkUnit"⟩
    match a.spec.remediationOf with
    | none => return ()
    | some source => p.validateRemediation a source

/-- The checks on one satisfaction. -/
def validateSatisfaction (p : Program) (s : TrustedSatisfaction) : Except Failure Unit := do
  let failure : Failure := ⟨.invalidDomainValue,
    "satisfaction must cite its historical ProgramSpec"⟩
  match p.historical s.pin with
  | none => .error failure
  | some historical =>
    check (s.programId = p.programId) failure
    let fingerprint ← historical.fingerprint s.workUnitId
    check (s.workUnitFingerprint = fingerprint) ⟨.invalidDomainValue,
      "satisfaction must pin its historical acceptance subject"⟩
    let unmatched : Failure := ⟨.invalidDomainValue,
      "satisfaction must cite a matching finished Attempt"⟩
    match index Attempt.attemptId p.attempts s.sourceAttemptId with
    | none => .error unmatched
    | some source =>
      check (source.status = .finished ∧ source.spec.workUnitId = s.workUnitId ∧
        source.spec.pin = s.pin) unmatched
      let unit ← historical.workUnit s.workUnitId
      check (s.outputNames = unit.outputs) ⟨.invalidDomainValue,
        "satisfaction outputs must match historical declarations"⟩
      check (0 < s.recordOrder ∧ s.recordOrder ≤ p.revision) ⟨.invalidDomainValue,
        "satisfaction has no authoritative aggregate record order"⟩

/-- The checks on one cancellation of a unit. -/
def validateCancellation (p : Program) (c : WorkUnitCancellation) : Except Failure Unit := do
  let failure : Failure := ⟨.invalidDomainValue,
    "cancellation must pin a historical WorkUnit intent"⟩
  match p.historical c.pin with
  | none => .error failure
  | some historical =>
    let fingerprint ← historical.fingerprint c.workUnitId
    check (c.workUnitFingerprint = fingerprint ∧ c.recordOrder ≤ p.revision) failure

/-- The states of an activated Program are the projection of its history. -/
def validateProjection (p : Program) : Except Failure Unit :=
  if p.status = .draft then .ok ()
  else do
    let states ← project p.spec p.attempts p.satisfactions p.cancellations
    check (p.workUnitStates = states) ⟨.invalidDomainValue,
      "WorkUnit projection differs from immutable history"⟩

/-- The loop over the live Attempts; `seen` is `live_by_unit`. -/
def validateLive (states : List WorkUnitState) : List Name → List Attempt → Except Failure Unit
  | _, [] => .ok ()
  | seen, a :: rest =>
    if a.Live then do
      let failure : Failure := ⟨.invalidDomainValue,
        "each live Attempt must retain one current, non-cancelled WorkUnit subject"⟩
      match stateById states a.spec.workUnitId with
      | none => .error failure
      | some s =>
        check (a.spec.workUnitId ∉ seen ∧ s.status ≠ .cancelled) failure
        check (s.status = .active → s.activeAttemptId = some a.attemptId) ⟨.invalidDomainValue,
          "an active WorkUnit must identify its one live Attempt"⟩
        validateLive states (a.spec.workUnitId :: seen) rest
    else validateLive states seen rest

/-- `_validate`. -/
def validate (p : Program) : Except Failure Unit := do
  check (p.specHistory.getLast? = some p.spec) ⟨.invalidDomainValue,
    "aggregate and spec history must be consistent"⟩
  check (p.specHistory.map ProgramSpec.revision).Nodup ⟨.invalidDomainValue,
    "historical ProgramSpec revisions must be unique"⟩
  check (∀ e ∈ p.specHistory.zip p.specHistory.tail, Follows e.2 e.1) ⟨.invalidDomainValue,
    "ProgramSpec history must form an immutable approved revision chain"⟩
  check (p.attempts.map Attempt.attemptId).Nodup ⟨.duplicateAttempt,
    "Attempt IDs must be unique"⟩
  check (p.satisfactions.map TrustedSatisfaction.referenceId).Nodup ⟨.invalidDomainValue,
    "satisfaction IDs must be unique"⟩
  p.attempts.forM p.validateAttempt
  p.satisfactions.forM p.validateSatisfaction
  p.cancellations.forM p.validateCancellation
  p.validateProjection
  validateLive p.workUnitStates [] p.attempts
  check (p.status = .completed → ∀ s ∈ p.workUnitStates, s.status = .satisfied)
    ⟨.invalidDomainValue, "completion requires satisfaction of every current obligation"⟩
  check (p.status = .cancelled → ∀ a ∈ p.attempts, ¬a.Live) ⟨.invalidDomainValue,
    "a cancelled Program cannot retain live Attempts"⟩

/-! ## Assembly -/

/-- The conclusions after a step: a terminal status that is new, or reached again under a new
specification, is recorded. -/
def conclude (p : Program) (spec : ProgramSpec) (status : ProgramStatus) :
    List ProgramConclusion :=
  if h : (status = .completed ∨ status = .cancelled) ∧ (p.status ≠ status ∨ spec ≠ p.spec) then
    p.conclusions ++ [⟨status, spec.revision, spec.digest, p.revision + 1, h.1,
      spec.valid.revisionPos, p.revision.succ_pos⟩]
  else p.conclusions

/-- The aggregate of a ledger with its projected states, before validation. -/
def successor (p : Program) (d : Ledger) (states : List WorkUnitState) : Program :=
  let status := if d.status = .draft ∨ d.status = .cancelled then d.status
    else programStatus d.status states
  { d with
    status, revision := p.revision + 1, workUnitStates := states,
    conclusions := p.conclude d.spec status }

/-- The states of the units under a ledger. -/
def ledgerStates (d : Ledger) : Except Failure (List WorkUnitState) :=
  if d.status = .draft then .ok (pendingStates d.spec)
  else project d.spec d.attempts d.satisfactions d.cancellations

/-- `_assemble`. -/
def assemble (p : Program) (d : Ledger) : Except Failure Program := do
  let states ← ledgerStates d
  let q := p.successor d states
  q.validate
  return q

end

/-! ## Attempt updates -/

/-- Give the Attempts with an identifier another status. -/
def replaceStatus (attempts : List Attempt) (attemptId : Name) (status : AttemptStatus) :
    List Attempt :=
  attempts.map fun a => if a.attemptId = attemptId then a.withStatus status else a

/-- The live Attempts among some identifiers. -/
def liveIds (attempts : List Attempt) (ids : List Name) : List Name :=
  (attempts.filter fun a => a.attemptId ∈ ids ∧ a.Live).map Attempt.attemptId

/-- The Attempts after the live ones among some identifiers are cancelled. -/
def withdrawn (attempts : List Attempt) (ids : List Name) : List Attempt :=
  attempts.map fun a =>
    if a.attemptId ∈ liveIds attempts ids then a.withStatus .cancelled else a

/-- `cancel_live`: cancel the live Attempts among some identifiers, and record it. -/
def cancelLive (actorId : Name) (revision : ℕ) (ids : List Name) (reason : Name) (d : Ledger) :
    Ledger :=
  { d with
    attempts := withdrawn d.attempts ids
    attemptCancellations := d.attemptCancellations ++
      (SortedSet.ofList (liveIds d.attempts ids)).toList.map fun id =>
        ⟨id, actorId, reason, revision + 1, revision.succ_pos⟩ }

/-! ## Guards of the commands -/

/-- The guard of a command that moves the Program from one status to another. -/
def switchStatus (p : Program) (source target : ProgramStatus) (message : String) :
    Except Failure Ledger := do
  check (p.status = source) ⟨.illegalTransition, message⟩
  return { p.toLedger with status := target }

/-- `ActivateProgram`. -/
def activateProgram (p : Program) : Except Failure Ledger :=
  p.switchStatus .draft .active "only a draft Program may activate"

/-- `PauseProgram`. -/
def pauseProgram (p : Program) : Except Failure Ledger :=
  p.switchStatus .active .paused "only an active Program may pause"

/-- `ResumeProgram`. -/
def resumeProgram (p : Program) : Except Failure Ledger :=
  p.switchStatus .paused .active "only a paused Program may resume"

/-- `CancelProgram`. -/
def cancelProgram (p : Program) (actorId : Name) : Except Failure Ledger := do
  check (p.status = .draft ∨ p.status = .active ∨ p.status = .paused) ⟨.illegalTransition,
    "Program cannot be abandoned from this state"⟩
  let d := cancelLive actorId p.revision (p.attempts.map Attempt.attemptId)
    ⟨"Program abandonment", by decide⟩ p.toLedger
  return { d with status := .cancelled }

/-- One pass along the order adds every unit that depends on an affected one. -/
def spread (spec : ProgramSpec) : List Name → List Name → Except Failure (List Name)
  | affected, [] => .ok affected
  | affected, n :: rest => do
    let u ← spec.workUnit n
    spread spec (if ∃ dep ∈ u.dependencies.toList, dep ∈ affected then n :: affected else affected)
      rest

section

variable [Sha256]

/-- `CancelWorkUnit`. -/
def cancelWorkUnit (p : Program) (actorId workUnitId reason : Name) : Except Failure Ledger := do
  check (p.status = .active ∨ p.status = .paused) ⟨.illegalTransition,
    "WorkUnit abandonment requires an active or paused Program"⟩
  let unit ← p.spec.workUnit workUnitId
  let order ← p.spec.topologicalOrder
  let affected ← spread p.spec [unit.workUnitId] order
  let state ← p.state unit.workUnitId
  check (state.status ≠ .cancelled) ⟨.illegalTransition,
    "cannot abandon an already cancelled obligation"⟩
  let fingerprint ← p.spec.fingerprint unit.workUnitId
  let cancellation : WorkUnitCancellation := ⟨unit.workUnitId, fingerprint, p.spec.revision,
    p.spec.digest, actorId, reason, p.revision + 1, p.spec.valid.revisionPos,
    p.revision.succ_pos⟩
  let ids := (p.attempts.filter fun a => a.spec.workUnitId ∈ affected).map Attempt.attemptId
  return cancelLive actorId p.revision ids ⟨"WorkUnit abandonment", by decide⟩
    { p.toLedger with cancellations := p.cancellations ++ [cancellation] }

/-- A remediation Attempt links the latest Attempt of its unit, which has finished. -/
def checkRemediation (p : Program) (unit : WorkUnit) (remediationOf : Name) :
    Except Failure Unit := do
  let source ← p.attempt remediationOf
  let failure : Failure := ⟨.illegalTransition,
    "remediation must link the latest finished Attempt for this WorkUnit"⟩
  check (source.status = .finished ∧ source.spec.workUnitId = unit.workUnitId ∧
    source.spec.pin = (p.spec.revision, p.spec.digest)) failure
  match p.attempts.reverse.find? fun a => a.spec.workUnitId = unit.workUnitId with
  | none => .error failure
  | some previous => check (previous.attemptId = source.attemptId) failure

/-- The lineage of a requested Attempt, if it has one. -/
def checkLineage (p : Program) (unit : WorkUnit) : Option Name → Except Failure Unit
  | none => .ok ()
  | some remediationOf => p.checkRemediation unit remediationOf

/-- `PrepareAttempt`. -/
def prepareAttempt (p : Program) (actorId : Name) (requested : AttemptSpec) :
    Except Failure Ledger := do
  check (requested.programId = p.programId) ⟨.authorityViolation,
    "Attempt belongs to a foreign Program"⟩
  check (requested.pin = (p.spec.revision, p.spec.digest)) ⟨.staleRevision,
    "Attempt must pin the current ProgramSpec"⟩
  let unit ← p.spec.workUnit requested.workUnitId
  let unready : Failure := ⟨.illegalTransition,
    "Attempt preparation requires an active, ready WorkUnit"⟩
  check (p.status = .active) unready
  let state ← p.state unit.workUnitId
  check (state.status = .ready) unready
  check (∀ a ∈ p.attempts, a.attemptId ≠ requested.attemptId) ⟨.duplicateAttempt,
    "Attempt " ++ pyRepr requested.attemptId.val ++ " already exists"⟩
  check (∀ a ∈ p.attempts, a.spec.workUnitId = unit.workUnitId → ¬a.Live) ⟨.illegalTransition,
    "a WorkUnit already has an outstanding Attempt"⟩
  let inputs ← p.resolvedInputs unit.workUnitId
  check (requested.effectiveInputs.toList = inputs) ⟨.missingInput,
    "Attempt bindings must exactly match current approved references and provenance"⟩
  p.checkLineage unit requested.remediationOf
  check (p.attempts.length < min p.spec.budget.maxAttempts p.spec.authority.maxAttempts)
    ⟨.budgetExceeded, "attempt admission limit exceeded"⟩
  check ((p.attempts.filter fun a => a.Live).length < p.spec.budget.maxActiveAttempts)
    ⟨.budgetExceeded, "active Attempt admission limit exceeded"⟩
  return { p.toLedger with attempts := p.attempts ++ [⟨requested, .prepared, actorId⟩] }

/-- `StartAttempt`. -/
def startAttempt (p : Program) (attemptId : Name) : Except Failure Ledger := do
  let current ← p.attempt attemptId
  let state ← p.state current.spec.workUnitId
  check (p.status = .active ∧ current.status = .prepared ∧ state.activeAttemptId = some attemptId)
    ⟨.illegalTransition, "only a prepared Attempt in an active Program may start"⟩
  return { p.toLedger with attempts := replaceStatus p.attempts attemptId .executing }

/-- The Program is active, paused or completed. -/
def Open (p : Program) : Prop := p.status = .active ∨ p.status = .paused ∨ p.status = .completed

instance (p : Program) : Decidable p.Open := inferInstanceAs (Decidable (_ ∨ _ ∨ _))

/-- `FinishAttempt`. -/
def finishAttempt (p : Program) (attemptId : Name) : Except Failure Ledger := do
  let current ← p.attempt attemptId
  check (p.Open ∧ current.status = .executing) ⟨.illegalTransition,
    "only an executing Attempt may finish"⟩
  return { p.toLedger with attempts := replaceStatus p.attempts attemptId .finished }

/-- The guard that failing and cancelling an Attempt share. -/
def checkLive (p : Program) (attemptId : Name) : Except Failure Unit := do
  let current ← p.attempt attemptId
  check (p.Open ∧ current.Live) ⟨.illegalTransition, "only a live Attempt may fail or cancel"⟩

/-- `FailAttempt`. -/
def failAttempt (p : Program) (attemptId : Name) : Except Failure Ledger := do
  p.checkLive attemptId
  return { p.toLedger with attempts := replaceStatus p.attempts attemptId .failed }

/-- `CancelAttempt`. -/
def cancelAttempt (p : Program) (actorId attemptId : Name) : Except Failure Ledger := do
  p.checkLive attemptId
  return cancelLive actorId p.revision [attemptId] ⟨"Attempt cancellation", by decide⟩ p.toLedger

/-- `SatisfyWorkUnit`. -/
def satisfyWorkUnit (p : Program) (actorId : Name) (fact : TrustedSatisfaction) :
    Except Failure Ledger := do
  check p.Open ⟨.illegalTransition,
    "satisfaction requires an activated, non-abandoned Program"⟩
  check (fact.issuerId = actorId) ⟨.authorityViolation,
    "satisfaction issuer and trusted command actor must match"⟩
  check (fact.programId = p.programId) ⟨.authorityViolation,
    "satisfaction belongs to a foreign Program"⟩
  match p.specHistory.find? fun s => (s.revision, s.digest) = fact.pin with
  | none => .error ⟨.staleRevision,
      "satisfaction must cite an approved historical ProgramSpec"⟩
  | some historicalSpec =>
    let historicalUnit ← historicalSpec.workUnit fact.workUnitId
    let fingerprint ← historicalSpec.fingerprint historicalUnit.workUnitId
    check (fact.workUnitFingerprint = fingerprint) ⟨.staleRevision,
      "satisfaction does not pin its historical WorkUnit intent"⟩
    check (fact.recordOrder = 0 ∧ ∀ s ∈ p.satisfactions, s.referenceId ≠ fact.referenceId)
      ⟨.illegalTransition, "satisfaction has already been recorded"⟩
    let source ← p.attempt fact.sourceAttemptId
    check (source.status = .finished) ⟨.illegalTransition,
      "satisfaction requires a finished source Attempt"⟩
    check (source.spec.programId = p.programId ∧
        source.spec.workUnitId = historicalUnit.workUnitId) ⟨.authorityViolation,
      "satisfaction source Attempt has a foreign subject"⟩
    check (source.spec.pin = fact.pin) ⟨.staleRevision,
      "satisfaction must cite its source Attempt's historical spec"⟩
    check (fact.outputNames = historicalUnit.outputs) ⟨.missingInput,
      "satisfaction must bind exactly the declared outputs"⟩
    return { p.toLedger with satisfactions := p.satisfactions ++ [fact.recordAt (p.revision + 1)] }

/-! ### Amendments -/

/-- The action the actor of a live Attempt must still be allowed to take. -/
def requiredAction (a : Attempt) : DomainAction :=
  if a.status = .prepared then .startAttempt else .finishAttempt

/-- A live Attempt loses its subject or its operational authority under the specification of
the ledger. -/
def invalidated (d : Ledger) (projected : List WorkUnitState) (a : Attempt) :
    Except Failure Bool :=
  match d.spec.workUnit a.spec.workUnitId,
      d.specHistory.find? fun s => (s.revision, s.digest) = a.spec.pin with
  | .ok unit, some sourceSpec => do
    let inputs ← CreatidyKernel.resolvedInputs d.spec unit (stateById projected)
      (index TrustedSatisfaction.referenceId d.satisfactions)
    let before ← sourceSpec.fingerprint a.spec.workUnitId
    let now ← d.spec.fingerprint a.spec.workUnitId
    match inputs with
    | none => return true
    | some inputs =>
      if before ≠ now ∨ ¬SameSubject a.spec.effectiveInputs.toList inputs ∨
          requiredAction a ∉ d.spec.authority.allowedActions ∨
          (a.actorId ≠ d.spec.authority.ownerId ∧
            a.actorId ∉ d.spec.authority.delegatedActorIds) then return true
      else
        let state ← subscript (stateById projected) a.spec.workUnitId
        return decide (state.status = .cancelled)
  | _, _ => .ok true

/-- The live Attempts an amendment invalidates. -/
def invalidAttempts (d : Ledger) (projected : List WorkUnitState) : Except Failure (List Name) := do
  let invalid ← filterM (fun a => if a.Live then invalidated d projected a else .ok false)
    d.attempts
  return invalid.map Attempt.attemptId

/-- The withdrawal loop: withdraw invalidated Attempts until none is left. Every round but the
last cancels a live Attempt, so the number of live Attempts and one more round suffice. -/
def withdraw (actorId : Name) (revision : ℕ) : ℕ → Ledger → Except Failure Ledger
  | 0, d => .ok d
  | fuel + 1, d => do
    let projected ← project d.spec d.attempts d.satisfactions d.cancellations
    let invalid ← invalidAttempts d projected
    if invalid = [] then return d
    else withdraw actorId revision fuel (cancelLive actorId revision invalid
      ⟨"amendment withdrew Attempt subject or operational authority", Nonblank.withdrawn⟩ d)

/-- `AmendProgramSpec`; a no-op amendment leaves the Program as it is. -/
def amendProgramSpec (p : Program) (actorId : Name) (amendment : SpecAmendment) :
    Except Failure (Option Ledger) := do
  check (p.status ≠ .cancelled) ⟨.illegalTransition, "an abandoned Program cannot be amended"⟩
  let spec ← p.spec.amend amendment
  if spec = p.spec then return none
  else
    let d ← withdraw actorId p.revision ((p.attempts.filter fun a => a.Live).length + 1)
      { p.toLedger with spec, specHistory := p.specHistory ++ [spec] }
    return some d

/-! ## Commands -/

/-- The guards of a command: the ledger it decides, or none for a no-op amendment. -/
def guards (p : Program) (c : DomainCommand) : Except Failure (Option Ledger) := do
  check (c.expectedRevision = p.revision) ⟨.staleRevision,
    "expected aggregate revision does not match current revision"⟩
  p.authorize c.request.action c.actorId
  match c.request with
  | .activateProgram => some <$> p.activateProgram
  | .pauseProgram => some <$> p.pauseProgram
  | .resumeProgram => some <$> p.resumeProgram
  | .cancelProgram => some <$> p.cancelProgram c.actorId
  | .cancelWorkUnit workUnitId reason => some <$> p.cancelWorkUnit c.actorId workUnitId reason
  | .prepareAttempt attempt => some <$> p.prepareAttempt c.actorId attempt
  | .startAttempt attemptId => some <$> p.startAttempt attemptId
  | .finishAttempt attemptId => some <$> p.finishAttempt attemptId
  | .failAttempt attemptId => some <$> p.failAttempt attemptId
  | .cancelAttempt attemptId => some <$> p.cancelAttempt c.actorId attemptId
  | .satisfyWorkUnit satisfaction => some <$> p.satisfyWorkUnit c.actorId satisfaction
  | .amendProgramSpec amendment => p.amendProgramSpec c.actorId amendment

/-- `apply`: one command. -/
def apply (p : Program) (c : DomainCommand) : Except Failure Program := do
  match ← p.guards c with
  | none => return p
  | some d => p.assemble d

theorem amendProgramSpec_sorted {p : Program} {actorId : Name} {amendment : SpecAmendment}
    {d : Option Ledger} :
    p.amendProgramSpec actorId amendment.sorted = .ok d ↔
      p.amendProgramSpec actorId amendment = .ok d := by
  simp only [amendProgramSpec, bind_eq_ok, ProgramSpec.amend_sorted]

/-- The order of the tuples of an amendment does not matter to a command that is accepted. -/
theorem apply_sorted {p q : Program} {c : DomainCommand} :
    p.apply c.sorted = .ok q ↔ p.apply c = .ok q := by
  obtain ⟨revision, actor, request⟩ := c
  cases request with
  | amendProgramSpec amendment =>
    have hguards (d : Option Ledger) :
        p.guards (DomainCommand.sorted ⟨revision, actor, .amendProgramSpec amendment⟩) = .ok d ↔
          p.guards ⟨revision, actor, .amendProgramSpec amendment⟩ = .ok d := by
      simp only [DomainCommand.sorted, guards, Request.action, bind_eq_ok, amendProgramSpec_sorted]
      exact Iff.rfl
    rw [apply, apply, bind_eq_ok, bind_eq_ok]
    simp only [hguards]
  | _ => rfl

/-- Commands applied one after the other. -/
def run (p : Program) : List DomainCommand → Except Failure Program
  | [] => .ok p
  | c :: rest => do
    let q ← p.apply c
    q.run rest

/-- The Programs reached from a first specification by accepted commands. -/
inductive Reachable : Program → Prop
  | create {spec : ProgramSpec} {p : Program} (h : create spec = .ok p) : Reachable p
  | step {p q : Program} (hp : Reachable p) (c : DomainCommand) (h : p.apply c = .ok q) :
      Reachable q

/-- A run of accepted commands stays among the reachable Programs. -/
theorem Reachable.run {p q : Program} (hp : Reachable p) {commands : List DomainCommand}
    (h : p.run commands = .ok q) : Reachable q := by
  induction commands generalizing p with
  | nil => exact Except.ok.inj h ▸ hp
  | cons c rest ih =>
    obtain ⟨p', hc, h⟩ := bind_eq_ok.1 h
    exact ih (hp.step c hc) h

end

end Program

end CreatidyKernel
