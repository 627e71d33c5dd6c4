import CreatidyKernel.Core.Verification
import CreatidyKernel.Intake.Records

set_option relaxedAutoImplicit false
set_option autoImplicit false

/-!
# Proposals of an ordinary Program

A proposal joins the drafts of several native issues with the evidence about the native
dependencies of each. The specification of the Program is built from it: one unit for each draft,
after the units of the issues it depends on.

## Main definitions

* `Intake.DependencyEvidence` — what is known of the dependencies of a native issue.
* `Intake.OrdinaryProposal` — drafts with the evidence about their dependencies.
* `Intake.OrdinaryProgram.spec` — the specification a proposal asks for.

## Main results

* `Intake.OrdinaryProgram.spec_eq_ok` — every dependency of a specified proposal is complete, and
  is a draft of it.
-/

namespace CreatidyKernel

namespace Intake

open Checked

/-- A native issue a draft depends on: the origin, the repository and the number. -/
abbrev Obligation := String × String × ℕ

/-- The JSON form of an obligation. -/
def Obligation.payload (o : Obligation) : Json := .arr [.str o.1, .str o.2.1, .int o.2.2]

/-! ## Evidence -/

/-- `DependencyEvidence`. -/
structure DependencyEvidence where
  subject : IssueSubject
  required : List Obligation
  reference : Text
  observedAt : ℤ
  freshUntil : ℤ
  complete : Bool
  positive : ∀ o ∈ required, 0 < o.2.2
  nodup : required.Nodup
  ordered : ¬freshUntil < observedAt
deriving DecidableEq

namespace DependencyEvidence

/-- The constructor of the evidence. -/
def init (subject : IssueSubject) (required : List Obligation) (reference : String)
    (observedAt freshUntil : ℤ) (complete : Bool) : Except Failure DependencyEvidence :=
  if h : (∀ o ∈ required, 0 < o.2.2) ∧ required.Nodup ∧ reference ≠ "" ∧ observedAt ≤ freshUntil
  then .ok ⟨subject, required, ⟨reference, h.2.2.1⟩, observedAt, freshUntil, complete, h.1, h.2.1,
    Int.not_lt.2 h.2.2.2⟩
  else .error ⟨.valueError, "immutable native dependency evidence required"⟩

/-- `DependencyEvidence.payload`. -/
def payload (e : DependencyEvidence) : Json :=
  .obj [("complete", .bool e.complete), ("fresh_until", .int e.freshUntil),
    ("observed_at", .int e.observedAt), ("reference", .str e.reference.val),
    ("required", .arr (e.required.map Obligation.payload)), ("subject", e.subject.payload)]

end DependencyEvidence

/-! ## Proposals -/

/-- `OrdinaryProposal`. -/
structure OrdinaryProposal where
  programId : Name
  objective : Name
  drafts : List Draft
  dependencies : List DependencyEvidence
  nonempty : drafts ≠ []
  nodup : (drafts.map Draft.taskId).Nodup
  /-- The evidence is about the subjects of the drafts, one by one. -/
  subjects : drafts.map (fun d => d.evidence.subject) =
    dependencies.map DependencyEvidence.subject
deriving DecidableEq

/-- The native issue of a draft. -/
def Draft.obligation (d : Draft) : Obligation :=
  (d.evidence.subject.origin.val, d.evidence.subject.repository.val, d.evidence.subject.issue)

namespace OrdinaryProposal

/-- `OrdinaryProposal.payload`. -/
def payload (p : OrdinaryProposal) : Json :=
  .obj [("dependencies", .arr (p.dependencies.map DependencyEvidence.payload)),
    ("drafts", .arr (p.drafts.map Draft.payload)), ("kind", .str "ordinary-program-proposal"),
    ("objective", .str p.objective.val), ("program", .str p.programId.val), ("version", .int 1)]

/-- `OrdinaryProposal.digest`. -/
def digest [Sha256] (p : OrdinaryProposal) : Name := CreatidyKernel.digest p.payload

/-- The task of the draft of a native issue. -/
def identity (p : OrdinaryProposal) (o : Obligation) : Option String :=
  (p.drafts.find? fun d => d.obligation = o).map Draft.taskId

/-- There is evidence for each draft. -/
theorem length_eq (p : OrdinaryProposal) : p.drafts.length = p.dependencies.length := by
  have h := congrArg List.length p.subjects
  simpa using h

/-- A native issue has an identity when it is the issue of a draft. -/
theorem identity_eq_none {p : OrdinaryProposal} {o : Obligation} :
    p.identity o = none ↔ ∀ d ∈ p.drafts, d.obligation ≠ o := by
  simp [identity]

end OrdinaryProposal

/-! ## The specification -/

/-- What an `OrdinaryProgram` is bound to. -/
structure OrdinaryProgram where
  policy : OwnerPolicy
  verification : VerificationPolicy
  executionReference : String

namespace OrdinaryProgram

variable [Sha256]

/-- The binding of the meaning of a draft. -/
def meaning (d : Draft) : Except Failure InputBinding :=
  InputBinding.init ("meaning:" ++ d.taskId) ("sha256:" ++ (CreatidyKernel.digest d.payload).val)
    "initial" none none none

/-- The unit of a draft, with the tasks it comes after. -/
def unit (o : OrdinaryProgram) (d : Draft) (predecessors : List String) :
    Except Failure WorkUnit :=
  WorkUnit.init d.taskId d.declaration.outcome.val predecessors
    (["meaning:" ++ d.taskId, "ordinary-declaration", "ordinary-harness-policy"] ++
      predecessors.map fun p => "result:" ++ p)
    ["result:" ++ d.taskId] (o.verification.checks.map Subtype.val) (some o.policy.reference)

/-- The tasks of the issues a draft depends on. -/
def predecessors (p : OrdinaryProposal) (dependency : DependencyEvidence) :
    Except Failure (List String) := do
  check (dependency.complete = true ∧ ∀ o ∈ dependency.required, p.identity o ≠ none)
    (refusal ("required native predecessor is unknown, unsupported or outside the approved " ++
      "finite Program"))
  return SortedBy.sortBy id (dependency.required.filterMap p.identity)

/-- The input and the unit of a draft with its dependencies. -/
def entry (o : OrdinaryProgram) (p : OrdinaryProposal) (pair : Draft × DependencyEvidence) :
    Except Failure (InputBinding × WorkUnit) := do
  let predecessors ← predecessors p pair.2
  let input ← meaning pair.1
  let unit ← o.unit pair.1 predecessors
  return (input, unit)

/-- The specification of a new Program. -/
def created (o : OrdinaryProgram) (p : OrdinaryProposal) (units : List WorkUnit)
    (inputs : List InputBinding) : Except Failure ProgramSpec :=
  ProgramSpec.construct p.programId.val p.objective.val units inputs o.policy.budget
    o.policy.authority 1 none (o.verification.checks.map Subtype.val) [o.policy.reference]

/-- The specification a Program is amended to. -/
def amended (o : OrdinaryProgram) (p : OrdinaryProposal) (previous : Program)
    (units : List WorkUnit) (inputs : List InputBinding) : Except Failure ProgramSpec := do
  let amendment ← SpecAmendment.init previous.spec.revision (some p.objective.val) (some units)
    (some inputs) (some o.policy.budget) (some o.policy.authority) "owner amendment"
    (some (o.verification.checks.map Subtype.val)) (some [o.policy.reference])
  previous.spec.amend amendment

/-- `_spec`. -/
def spec (o : OrdinaryProgram) (p : OrdinaryProposal) (previous : Option Program) :
    Except Failure ProgramSpec := do
  check ((p.drafts.map Draft.obligation).Nodup)
    (refusal "one unambiguous obligation per selected native issue required")
  let declaration ← InputBinding.init "ordinary-declaration" ("sha256:" ++ p.digest.val) "initial"
    none none none
  let harness ← InputBinding.init "ordinary-harness-policy" o.executionReference "initial"
    none none none
  let entries ← (p.drafts.zip p.dependencies).mapM (o.entry p)
  let inputs := declaration :: harness :: entries.map Prod.fst
  let units := entries.map Prod.snd
  match previous with
  | none => o.created p units inputs
  | some previous => o.amended p previous units inputs

/-! ## What is specified -/

omit [Sha256] in
/-- A draft whose evidence passes has complete evidence, about issues of drafts only. -/
theorem predecessors_eq_ok {p : OrdinaryProposal} {dependency : DependencyEvidence}
    {tasks : List String} (h : predecessors p dependency = .ok tasks) :
    dependency.complete = true ∧ ∀ o ∈ dependency.required, ∃ d ∈ p.drafts, d.obligation = o := by
  obtain ⟨⟨hcomplete, hknown⟩, -⟩ := check_bind_eq_ok.mp h
  refine ⟨hcomplete, fun o ho => ?_⟩
  by_contra hnone
  push Not at hnone
  exact hknown o ho (OrdinaryProposal.identity_eq_none.mpr hnone)

/-- Every dependency of a specified proposal is complete, and is the issue of a draft of it. -/
theorem spec_eq_ok {o : OrdinaryProgram} {p : OrdinaryProposal} {previous : Option Program}
    {result : ProgramSpec} (h : o.spec p previous = .ok result) :
    ∀ e ∈ p.dependencies, e.complete = true ∧
      ∀ r ∈ e.required, ∃ d ∈ p.drafts, d.obligation = r := by
  intro e he
  obtain ⟨-, h⟩ := check_bind_eq_ok.mp h
  obtain ⟨_, -, h⟩ := bind_eq_ok.mp h
  obtain ⟨_, -, h⟩ := bind_eq_ok.mp h
  obtain ⟨entries, hentries, -⟩ := bind_eq_ok.mp h
  obtain ⟨i, hi, rfl⟩ := List.getElem_of_mem he
  have hlen : i < p.drafts.length := by rw [p.length_eq]; exact hi
  have hmem : (p.drafts[i], p.dependencies[i]) ∈ p.drafts.zip p.dependencies := by
    rw [← List.getElem_zip (h := by simp [hlen, hi])]
    exact List.getElem_mem _
  obtain ⟨_, -, hentry⟩ := exists_of_mem_mapM hentries hmem
  obtain ⟨_, hpred, -⟩ := bind_eq_ok.mp hentry
  exact predecessors_eq_ok hpred

end OrdinaryProgram

end Intake

end CreatidyKernel
