import CreatidyKernel.Intake.Records
import CreatidyKernel.Lib.Rows

set_option relaxedAutoImplicit false
set_option autoImplicit false

/-!
# The ordinary intake

The owner prepares drafts of a task and approves the last one of them. Both calls are several
transactions on the journal: a process may end between any two of them, and what was written
before stays. What the evidence reader, the Program store and the clock answer during a call are
arguments of the call.

## Main definitions

* `Intake.Store`, `Intake.transact`, `Intake.record` — the journal and its durable writes.
* `Intake.recover`, `Intake.history`, `Intake.baselineAge`, `Intake.consumptions` — the reads.
* `Intake.prepare`, `Intake.validate`, `Intake.approve` — the calls.
* `Intake.Call`, `Intake.next` — the intake as a system.
-/

namespace CreatidyKernel

namespace Intake

open Checked Action

/-! ## The journal -/

/-- The rows of the intake, how many durable writes the process still lives for, and which age
was used for which identity so far. -/
structure Store where
  rows : List Row
  allowance : ℕ
  ages : List (Identity × ℤ)
deriving DecidableEq

/-- A program over the store. -/
abbrev Op (α : Type) := Action Store Stop α

/-- Raise an exception. -/
def fail {α : Type} (f : Failure) : Op α := raise (.raised f)

/-- A computation that may raise. -/
def lift {α : Type} (x : Except Failure α) : Op α := of (x.mapError .raised)

/-- `_insert_intent`, as a function of the rows. -/
def insertIntent (rows : List Row) (key : String) (record : Record) : Except Failure (List Row) :=
  match rows.filter fun r => r.operationId = key ∨ r.effectKey = key with
  | [] => .ok (rows ++ [⟨key, key, record, none, 0⟩])
  | existing => do
    check (∀ r ∈ existing, existing.length = 1 ∧ r.operationId = key ∧ r.effectKey = key ∧
      r.record = record) ⟨.operationConflict,
        "logical effect identity is bound to a different request"⟩
    return rows

/-- `_finalize_artifact`, as a function of the rows. -/
def finalizeArtifact (rows : List Row) (key : String) (record : Record) :
    Except Failure (List Row) := do
  let row ← lookup ⟨.operationConflict, "operation does not exist"⟩
    (Rows.find Row.operationId rows) key
  match row.artifact with
  | none => return Rows.update Row.operationId rows { row with artifact := some record }
  | some existing => do
    check (existing = record) ⟨.operationConflict, "artifact reference is immutable"⟩
    return rows

/-- A transaction on the rows. One that changes them is durable, which a process whose allowance
is used up does not reach. -/
def transact (g : List Row → Except Failure (List Row)) : Op Unit := fun s =>
  match g s.rows with
  | .error f => (.error (.raised f), s)
  | .ok rows =>
    if rows = s.rows then (.ok (), s)
    else if s.allowance = 0 then (.error .crashed, s)
    else (.ok (), { s with rows := rows, allowance := s.allowance - 1 })

/-- `intent`. -/
def intent (key : String) (record : Record) : Op Unit :=
  transact fun rows => insertIntent rows key record

/-- `finalize_artifact`. -/
def finalize (key : String) (record : Record) : Op Unit :=
  transact fun rows => finalizeArtifact rows key record

/-- `_record`. -/
def record (key : String) (r : Record) : Op Unit := do
  intent key r
  finalize key r

/-- `operations`: the rows whose key starts with a text, in the order of the keys. -/
def operations (s : Store) (start : String) : List Row :=
  (SortedBy.sortBy Row.operationId s.rows).filter fun r =>
    start.toList.isPrefixOf r.operationId.toList

/-- `find_artifact`. -/
def findArtifact (s : Store) (key : String) : Option Record :=
  (Rows.find Row.operationId s.rows key).bind Row.artifact

section

variable [Sha256]

/-! ## Reading -/

/-- `_recover`. -/
def recover (row : Row) : Op Record := do
  lift row.check
  let s ← read
  match findArtifact s row.operationId with
  | none => do
    finalize row.operationId row.record
    return row.record
  | some artifact =>
    if artifact = row.record then return row.record
    else fail (refusal "intake artifact differs from journal")

/-- The draft of a record, if it is one. -/
def Record.draft? : Record → Option Draft
  | .draft d => some d
  | _ => none

/-- The chain of drafts `history` demands. -/
def Chained (taskId : String) : ℕ → Option Name → List Draft → Prop
  | _, _, [] => True
  | index, parent, d :: rest =>
    (d.taskId = taskId ∧ d.revision = index + 1 ∧ d.parentDigest = parent) ∧
      Chained taskId (index + 1) (some d.digest) rest

instance Chained.decidable (taskId : String) : (index : ℕ) → (parent : Option Name) →
    (drafts : List Draft) → Decidable (Chained taskId index parent drafts)
  | _, _, [] => inferInstanceAs (Decidable True)
  | index, _, d :: rest =>
    have := Chained.decidable taskId (index + 1) (some d.digest) rest
    inferInstanceAs (Decidable (_ ∧ _))

/-- `history`. -/
def history (taskId : String) : Op (List Draft) := do
  let start ← lift (taskPrefix taskId)
  let s ← read
  let records ← each recover
    (operations s start ++ operations s ("ordinary:record:ordinary-draft:" ++ taskId ++ ":"))
  let drafts := SortedBy.sortBy Draft.revision (records.filterMap Record.draft?)
  lift (check (Chained taskId 0 none drafts) (refusal "broken immutable draft chain"))
  return drafts

/-- The age a record gives for an identity. -/
def Record.ageOf (i : Identity) : Record → Option ℤ
  | .baselineAge j observedAt => if j = i then some observedAt else none
  | _ => none

/-- The age a draft gives for an identity. -/
def Draft.ageOf (i : Identity) (d : Draft) : Option ℤ :=
  if d.evidence.identity = i then some d.evidence.observedAt else none

/-- `sorted(task_ids)` of the drafts among some records. -/
def taskIds (records : List Record) : List String :=
  SortedBy.sortBy id ((records.filterMap Record.draft?).map Draft.taskId).dedup

/-- `known_age`: the earliest age on record for an identity. -/
def knownAge (i : Identity) : Op (Option ℤ) := do
  let s ← read
  let records ← each recover (operations s "ordinary:")
  let histories ← each history (taskIds records)
  return (records.filterMap (Record.ageOf i) ++ histories.flatten.filterMap (Draft.ageOf i)).min?

/-- The record of an age learned to be lower than the known one. -/
def learnAge (i : Identity) (known : Option ℤ) (observedAt : ℤ) : Op Unit :=
  match known with
  | some age =>
    if observedAt < age ∧ i.Resolved then
      record (ageKey i observedAt) (.baselineAge i observedAt)
    else return ()
  | none => return ()

/-- The age a call uses for an identity. -/
def effectiveAge (known : Option ℤ) (observedAt : ℤ) : ℤ := known.elim observedAt (min observedAt)

/-- `_baseline_age`. -/
def baselineAge (e : Evidence) : Op ℤ := do
  let known ← knownAge e.identity
  lift (check (0 < e.observedAt) (refusal "positive intake integer required"))
  learnAge e.identity known e.observedAt
  let age := effectiveAge known e.observedAt
  write fun s => { s with ages := s.ages ++ [(e.identity, age)] }
  return age

/-- `historical_decision`. -/
def historicalDecision (decisionId : String) : Op Decision := do
  let s ← read
  let row ← lift (lookup ⟨.operationConflict, "operation does not exist"⟩
    (Rows.find Row.operationId s.rows) (decisionKey decisionId))
  match ← recover row with
  | .decision d => do
    lift (check (d.decisionId = decisionId) (refusal "unsupported historical decision"))
    return d
  | _ => fail (refusal "unsupported historical decision")

/-- The body of the loop of `_consumptions`. -/
def consumptionOf (drafts : List Draft) (row : Row) : Op (Option (Row × Consumption)) := do
  match ← recover row with
  | .consumption c => do
    let decision ← historicalDecision c.decision
    lift (check (∃ d ∈ drafts, d.digest = c.draft ∧ decision.draftDigest = d.digest ∧
      decision.revision = d.revision ∧ decision.evidenceDigest = d.evidence.digest)
      (refusal "consumption differs from task subject"))
    return some (row, c)
  | _ => return none

/-- `_consumptions`. -/
def consumptions (taskId : String) : Op (List (Row × Consumption)) := do
  let drafts ← history taskId
  let s ← read
  let found ← each (consumptionOf drafts) (operations s ("ordinary:consumed:" ++ taskId ++ ":"))
  return found.filterMap id

/-! ## Preparing -/

/-- The identity of a selection, which amendments of a task keep. -/
def IssueSubject.selection (s : IssueSubject) : Text × Text × ℕ × Text :=
  (s.origin, s.repository, s.issue, s.branch)

/-- The draft that follows a history. -/
def nextDraft (taskId : String) (previous : Option Draft) (declaration : Declaration)
    (evidence : Evidence) : Draft :=
  ⟨taskId, previous.elim 0 Draft.revision + 1, previous.map Draft.digest, declaration, evidence,
    Nat.succ_pos _⟩

/-- The record of a new draft, under the key that is free for it. -/
def recordDraft (taskId : String) (d : Draft) : Op Draft := do
  let start ← lift (taskPrefix taskId)
  let s ← read
  let key := start ++ toString d.revision
  -- a legacy consumption for task `draft` can occupy this exact key
  let key := if (operations s key).any fun r => r.operationId = key
    then fallbackKey taskId d.revision else key
  record key (.draft d)
  return d

/-- The part of `prepare` after the age of the evidence is known. -/
def amendDraft (taskId : String) (previous : Option Draft) (selected : IssueSubject)
    (declaration : Declaration) (evidence : Evidence) : Op Draft := do
  lift (check (∀ d ∈ previous, d.evidence.subject ≠ selected →
    d.evidence.subject.selection = selected.selection)
    (refusal "task selection identity changed"))
  match previous.filter fun d =>
    d.declaration.raw = declaration.raw ∧ d.evidence.digest = evidence.digest with
  | some d => return d
  | none => recordDraft taskId (nextDraft taskId previous declaration evidence)

/-- `prepare`; the evidence is what the reader answers. -/
def prepare (taskId : String) (selected : IssueSubject) (declaration : Declaration)
    (expectedParent : Option Name) (evidence : Evidence) : Op Draft := do
  let drafts ← history taskId
  let previous := drafts.getLast?
  lift (check (expectedParent = previous.map Draft.digest)
    (refusal "draft amendment expected parent differs"))
  lift (check (evidence.subject = selected) (refusal "evidence subject differs"))
  let age ← baselineAge evidence
  amendDraft taskId previous selected declaration { evidence with observedAt := age }

/-! ## Approving -/

/-- What the Program store and the clock answer at one moment of a call, and whether a callback
wrote to the store meanwhile. -/
structure Reading where
  program : Option Program
  now : ℤ
  changed : Bool

/-- `_check_authority`. -/
def checkAuthority (principal : Principal) (draft : Draft) (policy : OwnerPolicy)
    (current : Evidence) (drafts : List Draft) (program : Option Program) :
    Except Failure Unit := do
  check (principal.role = "owner" ∧ principal.actorId = policy.authority.ownerId)
    (refusal "authenticated owner required")
  check (∀ p ∈ program, p.status ≠ .cancelled) (refusal "Program is cancelled")
  check ((∃ d ∈ drafts.getLast?, d.digest = draft.digest) ∧
    current.digest = draft.evidence.digest)
    (refusal "revision or evidence changed; explicit amendment required")
  let recipes := digest (.arr (draft.declaration.recipes.map .str))
  check (current.subject.base = current.source ∧ current.issueState.val = "open" ∧
    current.disposition = .remains ∧ current.recipeDigest.val = recipes.val ∧
    current.baselineProducer.val ∈ policy.evidenceProducers ∧
    current.relevanceProducer.val ∈ policy.evidenceProducers ∧
    current.relevanceReference.val =
      "sha256:" ++ (Sha256.hexdigest current.relevanceProof.val).val)
    (refusal "required current evidence unresolved")
  check (current.baselineResult.val = "passed" ∨ (current.baselineResult.val = "failed" ∧
    policy.repairBaselineReference = some current.baselineReference))
    (refusal "baseline unavailable or unrelated failure")
  check (draft.declaration.unknowns = []) (refusal "required meaning remains unknown")
  check (draft.declaration.paths ⊆ policy.paths ∧ draft.declaration.network ⊆ policy.network ∧
    draft.declaration.effects ⊆ policy.effects ∧ draft.declaration.recipes ⊆ policy.recipes)
    (refusal "proposal exceeds trusted owner policy")

/-- The condition of `_check_time`. -/
def InTime (draft : Draft) (policy : OwnerPolicy) (current : Evidence) (expiresAt age now : ℤ) :
    Prop :=
  now < expiresAt ∧ current.observedAt ≤ now ∧ draft.evidence.observedAt ≤ now ∧
    now - min draft.evidence.observedAt age ≤ policy.freshnessSeconds

instance (draft : Draft) (policy : OwnerPolicy) (current : Evidence) (expiresAt age now : ℤ) :
    Decidable (InTime draft policy current expiresAt age now) :=
  inferInstanceAs (Decidable (_ ∧ _ ∧ _ ∧ _))

/-- `_check_time`. -/
def checkTime (draft : Draft) (policy : OwnerPolicy) (current : Evidence)
    (expiresAt age now : ℤ) : Except Failure Unit :=
  check (InTime draft policy current expiresAt age now) (refusal "decision or evidence expired")

/-- `_validate`. -/
def validate (principal : Principal) (draft : Draft) (policy : OwnerPolicy) (current : Evidence)
    (expiresAt : ℤ) (reading : Reading) : Op Unit := do
  let drafts ← history draft.taskId
  let age ← baselineAge current
  lift (checkAuthority principal draft policy current drafts reading.program)
  lift (checkTime draft policy current expiresAt age reading.now)

/-- `validate_authority`. -/
def validateAuthority (principal : Principal) (draft : Draft) (policy : OwnerPolicy)
    (current : Evidence) (reading : Reading) : Op Unit := do
  let drafts ← history draft.taskId
  lift (checkAuthority principal draft policy current drafts reading.program)

/-- `_final_program`: the reads of a cut, which no write may interrupt, before the time. -/
def finalProgram (specDigest : Name) (principal : Principal) (draft : Draft)
    (policy : OwnerPolicy) (current : Evidence) (expiresAt : ℤ) (reading : Reading) :
    Op Program := do
  let before ← read
  let program ← lift (lookup ⟨.programNotFound, "Program does not exist"⟩
    (fun _ : Unit => reading.program) ())
  let drafts ← history draft.taskId
  let age ← baselineAge current
  lift (check (program.spec.digest = specDigest) (refusal "current Program binding changed"))
  lift (checkAuthority principal draft policy current drafts (some program))
  let after ← read
  lift (check (reading.changed = false ∧ before.rows = after.rows)
    (refusal "final store read cut changed during a callback"))
  lift (checkTime draft policy current expiresAt age reading.now)
  return program

/-- `_current_program`. -/
def currentProgram (specDigest : Name) (reading : Reading) : Op Program := do
  let program ← lift (lookup ⟨.programNotFound, "Program does not exist"⟩
    (fun _ : Unit => reading.program) ())
  lift (check (program.status ≠ .cancelled) (refusal "Program is cancelled"))
  lift (check (program.spec.digest = specDigest) (refusal "current Program binding changed"))
  return program

/-- What an approval is asked for with, and what its callees answer. -/
structure Approval where
  principal : Principal
  draft : Draft
  policy : OwnerPolicy
  decisionId : String
  expiresAt : ℤ
  /-- The answer of the evidence reader. -/
  current : Evidence
  /-- The answers of the Program store and the clock, check by check. -/
  readings : ℕ → Reading
  /-- `has_work_budget`. -/
  budgeted : Bool
  /-- Whether the transaction of the Program store that creates, amends or budgets the Program
  goes through, and with which Program. -/
  outcome : Except Failure Program

namespace Approval

variable (a : Approval)

/-- The decision of an approval. -/
def decision : Decision :=
  ⟨a.decisionId, a.principal.actorId, a.draft.digest, a.draft.revision, a.current.digest,
    a.policy.digest, a.policy.payload, a.expiresAt⟩

/-- The inputs of the Program of an approval. -/
def inputs : Except Failure (List InputBinding) := do
  let declaration ← InputBinding.init "ordinary-declaration"
    ("sha256:" ++ (Sha256.hexdigest a.draft.declaration.raw.val).val) "initial" none none none
  let evidence ← InputBinding.init "ordinary-evidence"
    ("sha256:" ++ a.current.digest.val) "initial" none none none
  let recipes ← InputBinding.init "ordinary-recipes"
    ("sha256:" ++ a.current.recipeDigest.val) "initial" none none none
  return [declaration, evidence, recipes]

/-- The unit of the Program of an approval. -/
def unit (inputs : List InputBinding) : Except Failure WorkUnit :=
  WorkUnit.init "ordinary" a.draft.declaration.outcome.val []
    (inputs.map fun b => b.name.val) []
    (a.draft.declaration.criteria.map Subtype.val) (some a.policy.reference)

/-- The Program of an approval. -/
def programId : String := "ordinary:" ++ a.draft.taskId

/-- The specification an approval creates. -/
def created (unit : WorkUnit) (inputs : List InputBinding) : Except Failure ProgramSpec :=
  ProgramSpec.construct a.programId a.draft.declaration.outcome.val [unit] inputs a.policy.budget
    a.policy.authority 1 none (a.draft.declaration.criteria.map Subtype.val) [a.policy.reference]

/-- The specification an approval amends a Program to. -/
def amended (p : Program) (unit : WorkUnit) (inputs : List InputBinding) :
    Except Failure ProgramSpec := do
  let amendment ← SpecAmendment.init p.spec.revision (some a.draft.declaration.outcome.val)
    (some [unit]) (some inputs) (some a.policy.budget) (some a.policy.authority)
    "owner amendment" (some (a.draft.declaration.criteria.map Subtype.val))
    (some [a.policy.reference])
  p.spec.amend amendment

/-- The consumption of an approval by a specification. -/
def consumption (spec : ProgramSpec) (expectedRevision : Option ℕ) : Consumption :=
  ⟨a.decisionId, a.draft.digest, spec.digest, expectedRevision⟩

/-- `_validate` during an approval. -/
def check (i : ℕ) : Op Unit :=
  validate a.principal a.draft a.policy a.current a.expiresAt (a.readings i)

/-- `_final_program` during an approval. -/
def final (specDigest : Name) (i : ℕ) : Op Program :=
  finalProgram specDigest a.principal a.draft a.policy a.current a.expiresAt (a.readings i)

/-- The records `accept_work_budget` publishes in its transaction. -/
def publish (records : List (String × Record)) (rows : List Row) : Except Failure (List Row) :=
  records.foldlM (fun rows r => do
    let rows ← insertIntent rows r.1 r.2
    finalizeArtifact rows r.1 r.2) rows

/-- The validation `accept_work_budget` calls back. -/
def confirm : Option Program → Op Unit
  | none => a.check 2
  | some p => do
    let _ ← a.final p.spec.digest 2
    return ()

/-- `accept_budget`. -/
def acceptBudget (current : Option Program) (records : List (String × Record)) : Op Program := do
  let before ← read
  a.confirm current
  let after ← read
  lift (Checked.check (before.rows = after.rows)
    (refusal "final store read cut changed during a callback"))
  let program ← lift a.outcome
  transact (publish records)
  return program

/-- The records of an approval without a work budget, between two validations. -/
def recordBoth (consumptionKey : String) (consumption : Consumption) : Op Unit := do
  a.check 2
  record (decisionKey a.decisionId) (.decision a.decision)
  record consumptionKey (.consumption consumption)
  a.check 3

/-- The decision of an approval whose consumption is on record. -/
def replay (p : Program) : Op Program := do
  if a.policy.workBudget.isSome then
    a.acceptBudget (some p) [(decisionKey a.decisionId, .decision a.decision)]
  else do
    a.check 2
    record (decisionKey a.decisionId) (.decision a.decision)
    a.check 3
    a.final p.spec.digest 4

/-- The part of `approve` that creates or amends the Program. -/
def decide (current : Option Program) (key : String) : Op Program := do
  let inputs ← lift a.inputs
  let unit ← lift (a.unit inputs)
  match current with
  | none => do
    let spec ← lift (a.created unit inputs)
    let consumption := a.consumption spec none
    if a.policy.workBudget.isSome then
      a.acceptBudget none
        [(decisionKey a.decisionId, .decision a.decision), (key, .consumption consumption)]
    else do
      a.recordBoth key consumption
      let program ← lift a.outcome
      a.final program.spec.digest 5
  | some p => do
    let spec ← lift (a.amended p unit inputs)
    let consumption := a.consumption spec (some p.revision)
    if a.policy.workBudget.isSome then
      a.acceptBudget (some p)
        [(decisionKey a.decisionId, .decision a.decision), (key, .consumption consumption)]
    else do
      a.recordBoth key consumption
      let _ ← currentProgram p.spec.digest (a.readings 4)
      let program ← lift a.outcome
      a.final program.spec.digest 5

/-- The part of `approve` after the consumptions are read. -/
def settle (prior : List (Row × Consumption)) (current : Option Program) : Op Program := do
  let matching := prior.filter fun c => c.2.decision = a.decisionId
  lift (Checked.check (matching.length ≤ 1) (refusal "ambiguous decision consumption"))
  lift (Checked.check (a.policy.workBudget.isSome ∨ a.budgeted = false)
    ⟨.budgetRefused, "configured work envelope cannot be removed"⟩)
  match matching, current with
  | (row, c) :: _, some p =>
    if c.program = p.spec.digest then a.replay p
    else if c.expectedRevision = some p.revision then a.decide current row.operationId
    else fail (refusal "approval recovery no longer matches Program")
  | (row, _) :: _, none => a.decide none row.operationId
  | [], current => a.decide current (consumptionKey a.draft.taskId (prior.length + 1))

end Approval

/-- `approve`. -/
def approve (a : Approval) : Op (Decision × Program) := do
  let _ ← lift (taskPrefix a.decisionId)
  a.check 0
  let prior ← consumptions a.draft.taskId
  let program ← a.settle prior (a.readings 1).program
  return (a.decision, program)

/-! ## The system -/

/-- The calls of the intake. -/
inductive Call
  | prepare (taskId : String) (selected : IssueSubject) (declaration : Declaration)
      (expectedParent : Option Name) (evidence : Evidence)
  | approve (a : Approval)
  | validate (principal : Principal) (draft : Draft) (policy : OwnerPolicy) (current : Evidence)
      (expiresAt : ℤ) (reading : Reading)
  | baselineAge (evidence : Evidence)
  | history (taskId : String)

/-- What a call does to the store. -/
def Call.perform : Call → Op Unit
  | .prepare taskId selected declaration expectedParent evidence => do
    let _ ← Intake.prepare taskId selected declaration expectedParent evidence
    return ()
  | .approve a => do
    let _ ← Intake.approve a
    return ()
  | .validate principal draft policy current expiresAt reading =>
    Intake.validate principal draft policy current expiresAt reading
  | .baselineAge evidence => do
    let _ ← Intake.baselineAge evidence
    return ()
  | .history taskId => do
    let _ ← Intake.history taskId
    return ()

/-- The store after a call whose process lives for a number of durable writes. -/
def next (s : Store) (call : ℕ × Call) : Store :=
  (call.2.perform { s with allowance := call.1 }).2

end

end Intake

end CreatidyKernel
