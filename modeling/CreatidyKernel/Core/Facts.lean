import CreatidyKernel.Core.Spec

set_option relaxedAutoImplicit false
set_option autoImplicit false

/-!
# Attempts, recorded facts and commands

The records a Program accumulates: Attempts with their execution snapshots, trusted
satisfactions, cancellations and conclusions; the projected state of a WorkUnit; and the
twelve commands.

## Main definitions

* `AttemptSpec`, `Attempt` — an execution snapshot and its lifecycle status.
* `TrustedSatisfaction` — an independent acceptance of a finished Attempt.
* `WorkUnitCancellation`, `AttemptCancellation`, `ProgramConclusion` — owner decisions and
  terminal observations.
* `WorkUnitState` — the projected state, whose phase holds the fact it cites.
* `DomainCommand` — a request with the expected revision and the actor.
-/

namespace CreatidyKernel

open Checked

/-! ## Attempts -/

/-- An immutable execution snapshot with approved input provenance. -/
structure AttemptSpec where
  attemptId : Name
  programId : Name
  workUnitId : Name
  specRevision : ℕ
  specDigest : Name
  effectiveInputs : Bindings
  allocationReference : Option Name
  agentDefinitionReference : Option Name
  workspaceReference : Option Name
  contextReference : Option Name
  remediationOf : Option Name
  specRevisionPos : 0 < specRevision
deriving DecidableEq

namespace AttemptSpec

/-- The constructor of an execution snapshot. -/
def init (attemptId programId workUnitId : String) (specRevision : Int) (specDigest : String)
    (effectiveInputs : List InputBinding) (allocationReference agentDefinitionReference
      workspaceReference contextReference remediationOf : Option String) :
    Except Failure AttemptSpec := do
  let attemptId ← nonempty attemptId "attempt_id"
  let programId ← nonempty programId "program_id"
  let workUnitId ← nonempty workUnitId "work_unit_id"
  let specDigest ← nonempty specDigest "spec_digest"
  let specRevision ← positive specRevision "spec_revision"
  let allocation ← optionalNonempty allocationReference "allocation_reference"
  let agentDefinition ← optionalNonempty agentDefinitionReference "agent_definition_reference"
  let workspace ← optionalNonempty workspaceReference "workspace_reference"
  let context ← optionalNonempty contextReference "context_reference"
  let remediationOf ← optionalNonempty remediationOf "remediation_of"
  let inputs ← bindings effectiveInputs "effective_inputs"
  return ⟨attemptId, programId, workUnitId, specRevision.1, specDigest, inputs, allocation,
    agentDefinition, workspace, context, remediationOf, specRevision.2⟩

/-- The constructor accepts the fields of every snapshot. -/
theorem init_self (s : AttemptSpec) :
    init s.attemptId.val s.programId.val s.workUnitId.val s.specRevision s.specDigest.val
      s.effectiveInputs.toList (s.allocationReference.map Subtype.val)
      (s.agentDefinitionReference.map Subtype.val) (s.workspaceReference.map Subtype.val)
      (s.contextReference.map Subtype.val) (s.remediationOf.map Subtype.val) = .ok s := by
  simp only [init, nonempty_val, positive_coe s.specRevisionPos, optionalNonempty_val, bindings,
    sortedTuple_toList, ok_bind]
  rfl

/-- The specification the snapshot pins. -/
def pin (s : AttemptSpec) : ℕ × Name := (s.specRevision, s.specDigest)

/-- The dictionary of a snapshot, with its lineage if it has one; the digest and the codec
build the same one. -/
def payload (s : AttemptSpec) : Json :=
  let base : List (String × Json) :=
    [("agent_definition_reference", optionalName s.agentDefinitionReference),
      ("allocation_reference", optionalName s.allocationReference),
      ("attempt_id", .str s.attemptId.val),
      ("context_reference", optionalName s.contextReference),
      ("effective_inputs", .arr (s.effectiveInputs.toList.map InputBinding.payload)),
      ("program_id", .str s.programId.val)]
  let lineage : List (String × Json) :=
    match s.remediationOf with
    | none => []
    | some source => [("remediation_of", .str source.val)]
  let rest : List (String × Json) :=
    [("spec_digest", .str s.specDigest.val), ("spec_revision", .int s.specRevision),
      ("work_unit_id", .str s.workUnitId.val),
      ("workspace_reference", optionalName s.workspaceReference)]
  .obj (base ++ lineage ++ rest)

theorem payload_wf (s : AttemptSpec) : s.payload.WF := by
  unfold payload
  cases s.remediationOf with
  | none =>
    refine (Json.wf_obj _).2 ⟨by simp only [List.cons_append, List.nil_append, List.map]; decide, ?_⟩
    simp +contextual [InputBinding.payload_wf]
  | some r =>
    refine (Json.wf_obj _).2 ⟨by simp only [List.cons_append, List.nil_append, List.map]; decide, ?_⟩
    simp +contextual [InputBinding.payload_wf]

/-- `AttemptSpec.digest`. -/
def digest [Sha256] (s : AttemptSpec) : Name := CreatidyKernel.digest s.payload

end AttemptSpec

/-- An Attempt; its snapshot never changes. -/
structure Attempt where
  spec : AttemptSpec
  status : AttemptStatus
  actorId : Name
deriving DecidableEq

namespace Attempt

/-- The identifier of the Attempt. -/
def attemptId (a : Attempt) : Name := a.spec.attemptId

/-- `status in (PREPARED, EXECUTING)`. -/
def Live (a : Attempt) : Prop := a.status = .prepared ∨ a.status = .executing

instance (a : Attempt) : Decidable a.Live :=
  inferInstanceAs (Decidable (a.status = .prepared ∨ a.status = .executing))

/-- The Attempt with another status. -/
def withStatus (a : Attempt) (status : AttemptStatus) : Attempt := { a with status }

@[simp] theorem withStatus_spec (a : Attempt) (s : AttemptStatus) :
    (a.withStatus s).spec = a.spec := rfl

@[simp] theorem withStatus_status (a : Attempt) (s : AttemptStatus) :
    (a.withStatus s).status = s := rfl

@[simp] theorem withStatus_attemptId (a : Attempt) (s : AttemptStatus) :
    (a.withStatus s).attemptId = a.attemptId := rfl

/-- A live Attempt is not finished. -/
theorem Live.ne_finished {a : Attempt} (h : a.Live) : a.status ≠ .finished := by
  rcases h with h | h <;> simp [h]

end Attempt

/-! ## Facts -/

/-- A trusted independent acceptance of a finished Attempt. -/
structure TrustedSatisfaction where
  referenceId : Name
  programId : Name
  workUnitId : Name
  specRevision : ℕ
  specDigest : Name
  workUnitFingerprint : Name
  issuerId : Name
  sourceAttemptId : Name
  outputBindings : Bindings
  /-- The aggregate revision that recorded the fact, zero before it is recorded. -/
  recordOrder : ℕ
  specRevisionPos : 0 < specRevision
  outputsInitial : ∀ b ∈ outputBindings.toList, b.source = .initial
deriving DecidableEq

namespace TrustedSatisfaction

/-- The constructor of a satisfaction. -/
def init (referenceId programId workUnitId : String) (specRevision : Int)
    (specDigest workUnitFingerprint issuerId sourceAttemptId : String)
    (outputBindings : List InputBinding) (recordOrder : Int) :
    Except Failure TrustedSatisfaction := do
  let referenceId ← nonempty referenceId "reference_id"
  let programId ← nonempty programId "program_id"
  let workUnitId ← nonempty workUnitId "work_unit_id"
  let specDigest ← nonempty specDigest "spec_digest"
  let fingerprint ← nonempty workUnitFingerprint "work_unit_fingerprint"
  let issuerId ← nonempty issuerId "issuer_id"
  let sourceAttemptId ← nonempty sourceAttemptId "source_attempt_id"
  let specRevision ← positive specRevision "spec_revision"
  let recordOrder ← natural recordOrder "record_order"
  let outputs ← bindings outputBindings "output_bindings"
  if h : ∀ b ∈ outputs.toList, b.source = .initial then
    return ⟨referenceId, programId, workUnitId, specRevision.1, specDigest, fingerprint, issuerId,
      sourceAttemptId, outputs, recordOrder, specRevision.2, h⟩
  else .error ⟨.invalidDomainValue,
    "declared outputs must contain only opaque name/reference pairs"⟩

/-- The constructor accepts the fields of every satisfaction. -/
theorem init_self (s : TrustedSatisfaction) :
    init s.referenceId.val s.programId.val s.workUnitId.val s.specRevision s.specDigest.val
      s.workUnitFingerprint.val s.issuerId.val s.sourceAttemptId.val s.outputBindings.toList
      s.recordOrder = .ok s := by
  have h := s.outputsInitial
  simp only [init, nonempty_val, positive_coe s.specRevisionPos, natural_coe, bindings,
    sortedTuple_toList, ok_bind, dif_pos h]
  rfl

/-- The specification the satisfaction pins. -/
def pin (s : TrustedSatisfaction) : ℕ × Name := (s.specRevision, s.specDigest)

/-- The names of the bound outputs, as a set. -/
def outputNames (s : TrustedSatisfaction) : SortedSet Name :=
  SortedSet.ofList (s.outputBindings.toList.map InputBinding.name)

/-- The fact as recorded at a revision. -/
def recordAt (s : TrustedSatisfaction) (order : ℕ) : TrustedSatisfaction :=
  { s with recordOrder := order }

end TrustedSatisfaction

/-- Explicit owner abandonment of exactly one historical WorkUnit intent. -/
structure WorkUnitCancellation where
  workUnitId : Name
  workUnitFingerprint : Name
  specRevision : ℕ
  specDigest : Name
  actorId : Name
  reason : Name
  recordOrder : ℕ
  specRevisionPos : 0 < specRevision
  recordOrderPos : 0 < recordOrder
deriving DecidableEq

/-- The constructor of a cancellation of a unit. -/
def WorkUnitCancellation.init (workUnitId workUnitFingerprint : String) (specRevision : Int)
    (specDigest actorId reason : String) (recordOrder : Int) :
    Except Failure WorkUnitCancellation := do
  let workUnitId ← nonempty workUnitId "work_unit_id"
  let fingerprint ← nonempty workUnitFingerprint "work_unit_fingerprint"
  let specDigest ← nonempty specDigest "spec_digest"
  let actorId ← nonempty actorId "actor_id"
  let reason ← nonempty reason "reason"
  let specRevision ← positive specRevision "spec_revision"
  let recordOrder ← positive recordOrder "record_order"
  return ⟨workUnitId, fingerprint, specRevision.1, specDigest, actorId, reason, recordOrder.1,
    specRevision.2, recordOrder.2⟩

theorem WorkUnitCancellation.init_self (c : WorkUnitCancellation) :
    WorkUnitCancellation.init c.workUnitId.val c.workUnitFingerprint.val c.specRevision
      c.specDigest.val c.actorId.val c.reason.val c.recordOrder = .ok c := by
  simp only [WorkUnitCancellation.init, nonempty_val, positive_coe c.specRevisionPos,
    positive_coe c.recordOrderPos, ok_bind]
  rfl

/-- The specification the cancellation pins. -/
def WorkUnitCancellation.pin (c : WorkUnitCancellation) : ℕ × Name :=
  (c.specRevision, c.specDigest)

/-- A domain cancellation decision on one Attempt. -/
structure AttemptCancellation where
  attemptId : Name
  actorId : Name
  reason : Name
  recordOrder : ℕ
  recordOrderPos : 0 < recordOrder
deriving DecidableEq

/-- The constructor of a cancellation of an Attempt. -/
def AttemptCancellation.init (attemptId actorId reason : String) (recordOrder : Int) :
    Except Failure AttemptCancellation := do
  let attemptId ← nonempty attemptId "attempt_id"
  let actorId ← nonempty actorId "actor_id"
  let reason ← nonempty reason "reason"
  let recordOrder ← positive recordOrder "record_order"
  return ⟨attemptId, actorId, reason, recordOrder.1, recordOrder.2⟩

theorem AttemptCancellation.init_self (c : AttemptCancellation) :
    AttemptCancellation.init c.attemptId.val c.actorId.val c.reason.val c.recordOrder = .ok c := by
  simp only [AttemptCancellation.init, nonempty_val, positive_coe c.recordOrderPos, ok_bind]
  rfl

/-- A terminal observation of the Program, retained across later amendments. -/
structure ProgramConclusion where
  status : ProgramStatus
  specRevision : ℕ
  specDigest : Name
  recordOrder : ℕ
  terminal : status = .completed ∨ status = .cancelled
  specRevisionPos : 0 < specRevision
  recordOrderPos : 0 < recordOrder
deriving DecidableEq

/-- The constructor of a conclusion. -/
def ProgramConclusion.init (status : ProgramStatus) (specRevision : Int) (specDigest : String)
    (recordOrder : Int) : Except Failure ProgramConclusion :=
  if h : status = .completed ∨ status = .cancelled then do
    let specRevision ← positive specRevision "spec_revision"
    let specDigest ← nonempty specDigest "spec_digest"
    let recordOrder ← positive recordOrder "record_order"
    return ⟨status, specRevision.1, specDigest, recordOrder.1, h, specRevision.2, recordOrder.2⟩
  else .error ⟨.invalidDomainValue, "a Program conclusion must be terminal"⟩

theorem ProgramConclusion.init_self (c : ProgramConclusion) :
    ProgramConclusion.init c.status c.specRevision c.specDigest.val c.recordOrder = .ok c := by
  rw [ProgramConclusion.init, dif_pos c.terminal]
  simp only [nonempty_val, positive_coe c.specRevisionPos, positive_coe c.recordOrderPos, ok_bind]
  rfl

/-! ## Projected state of a WorkUnit -/

/-- The phase of a WorkUnit, with the Attempt or the satisfaction it cites. -/
inductive Phase
  | pending
  | ready
  | active (activeAttemptId : Name)
  | satisfied (satisfactionId : Name)
  | cancelled
deriving DecidableEq

/-- The rebuildable current projection of a WorkUnit. -/
structure WorkUnitState where
  workUnitId : Name
  phase : Phase
deriving DecidableEq

namespace WorkUnitState

/-- The status of the WorkUnit. -/
def status (s : WorkUnitState) : WorkUnitStatus :=
  match s.phase with
  | .pending => .pending
  | .ready => .ready
  | .active _ => .active
  | .satisfied _ => .satisfied
  | .cancelled => .cancelled

/-- The live Attempt of an active WorkUnit. -/
def activeAttemptId (s : WorkUnitState) : Option Name :=
  match s.phase with
  | .active a => some a
  | _ => none

/-- The chosen satisfaction of a satisfied WorkUnit. -/
def satisfactionId (s : WorkUnitState) : Option Name :=
  match s.phase with
  | .satisfied f => some f
  | _ => none

/-- The constructor of a state: exactly an active state has an Attempt, and exactly a satisfied
one a satisfaction. -/
def init (workUnitId : String) (status : WorkUnitStatus)
    (activeAttemptId satisfactionId : Option String) : Except Failure WorkUnitState := do
  let workUnitId ← nonempty workUnitId "work_unit_id"
  let attempt ← optionalNonempty activeAttemptId "active_attempt_id"
  let satisfaction ← optionalNonempty satisfactionId "satisfaction_id"
  check (attempt.isSome ↔ status = .active)
    ⟨.invalidDomainValue, "exactly an active WorkUnit must have an active Attempt"⟩
  check (satisfaction.isSome ↔ status = .satisfied)
    ⟨.invalidDomainValue, "exactly a satisfied WorkUnit must cite its satisfaction"⟩
  match status, attempt, satisfaction with
  | .active, some a, _ => return ⟨workUnitId, .active a⟩
  | .satisfied, _, some f => return ⟨workUnitId, .satisfied f⟩
  | .ready, _, _ => return ⟨workUnitId, .ready⟩
  | .cancelled, _, _ => return ⟨workUnitId, .cancelled⟩
  | _, _, _ => return ⟨workUnitId, .pending⟩

/-- The constructor accepts the fields of every state. -/
theorem init_self (s : WorkUnitState) :
    init s.workUnitId.val s.status (s.activeAttemptId.map Subtype.val)
      (s.satisfactionId.map Subtype.val) = .ok s := by
  obtain ⟨u, phase⟩ := s
  simp only [init, nonempty_val, optionalNonempty_val, ok_bind]
  cases phase <;> rfl

@[simp] theorem status_eq_cancelled {s : WorkUnitState} :
    s.status = .cancelled ↔ s.phase = .cancelled := by
  unfold status
  cases s.phase <;> simp

theorem status_eq_satisfied {s : WorkUnitState} :
    s.status = .satisfied ↔ ∃ f, s.phase = .satisfied f := by
  unfold status
  cases s.phase <;> simp

@[simp] theorem activeAttemptId_eq_some {s : WorkUnitState} {a : Name} :
    s.activeAttemptId = some a ↔ s.phase = .active a := by
  unfold activeAttemptId
  cases s.phase <;> simp

@[simp] theorem satisfactionId_eq_some {s : WorkUnitState} {f : Name} :
    s.satisfactionId = some f ↔ s.phase = .satisfied f := by
  unfold satisfactionId
  cases s.phase <;> simp

end WorkUnitState

/-! ## Commands -/

/-- What a command asks for. -/
inductive Request
  | activateProgram
  | pauseProgram
  | resumeProgram
  | cancelProgram
  | cancelWorkUnit (workUnitId reason : Name)
  | prepareAttempt (attempt : AttemptSpec)
  | startAttempt (attemptId : Name)
  | finishAttempt (attemptId : Name)
  | failAttempt (attemptId : Name)
  | cancelAttempt (attemptId : Name)
  | satisfyWorkUnit (satisfaction : TrustedSatisfaction)
  | amendProgramSpec (amendment : SpecAmendment)
deriving DecidableEq

/-- A domain command. -/
structure DomainCommand where
  expectedRevision : ℕ
  actorId : Name
  request : Request
deriving DecidableEq

/-- The constructor of a command. -/
def DomainCommand.init (expectedRevision : Int) (actorId : String) (request : Request) :
    Except Failure DomainCommand := do
  let expectedRevision ← natural expectedRevision "expected_revision"
  let actorId ← nonempty actorId "actor_id"
  return ⟨expectedRevision, actorId, request⟩

/-- The constructor accepts the fields of every command. -/
theorem DomainCommand.init_self (c : DomainCommand) :
    init c.expectedRevision c.actorId.val c.request = .ok c := by
  simp only [init, natural_coe, nonempty_val, ok_bind]
  rfl

/-- The command with the tuples of an amendment sorted. -/
def DomainCommand.sorted (c : DomainCommand) : DomainCommand :=
  { c with request := match c.request with
    | .amendProgramSpec amendment => .amendProgramSpec amendment.sorted
    | request => request }

/-- The action a command is authorized under. -/
def Request.action : Request → DomainAction
  | .activateProgram => .activateProgram
  | .pauseProgram => .pauseProgram
  | .resumeProgram => .resumeProgram
  | .cancelProgram => .cancelProgram
  | .cancelWorkUnit _ _ => .cancelWorkUnit
  | .prepareAttempt _ => .prepareAttempt
  | .startAttempt _ => .startAttempt
  | .finishAttempt _ => .finishAttempt
  | .failAttempt _ => .failAttempt
  | .cancelAttempt _ => .cancelAttempt
  | .satisfyWorkUnit _ => .satisfyWorkUnit
  | .amendProgramSpec _ => .amendSpec

end CreatidyKernel
