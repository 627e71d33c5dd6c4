import CreatidyKernel.Core.Values
import CreatidyKernel.Lib.Layers

set_option relaxedAutoImplicit false
set_option autoImplicit false

/-!
# WorkUnits, specifications and amendments

A `ProgramSpec` is one owner-approved snapshot of a Program: its WorkUnits, their dependency
graph, the initial inputs, limits and authority. Its constructor refuses graphs with missing
units, ambiguous producers, cycles or unsourced inputs, and stores every tuple sorted.

## Main definitions

* `WorkUnit`, `ProgramSpec` — the values, each with its validity as a field.
* `SpecArgs`, `SpecArgs.Valid`, `SpecArgs.check` — the arguments of the constructor of a
  specification, what it requires of them, and its checks in order.
* `ProgramSpec.fingerprint` — the digest of the intent a WorkUnit depends on.
* `SpecAmendment`, `ProgramSpec.amend` — owner-authored replacements.

## Main results

* `SpecArgs.check_eq_ok` — the constructor accepts exactly the valid arguments.
* `ProgramSpec.init_args` — it rebuilds every specification from its own fields.
* `ProgramSpec.closeDependencies_spec` — the work list of the fingerprint collects exactly the
  units the target depends on, within its fuel.
* `ProgramSpec.fingerprint_total` — every unit of a specification has a fingerprint.
-/

namespace CreatidyKernel

open Checked

/-! ## WorkUnits -/

/-- A Program-scoped obligation with its acceptance intent and declarations. -/
structure WorkUnit where
  workUnitId : Name
  obligation : Name
  dependencies : SortedSet Name
  requiredInputs : SortedSet Name
  outputs : SortedSet Name
  acceptanceCriteria : SortedSet Name
  acceptancePolicyReference : Option PolicyReference
  /-- There are criteria or there is a policy to accept by. -/
  acceptable : acceptanceCriteria.toList ≠ [] ∨ acceptancePolicyReference ≠ none
  /-- No logical name is both consumed and produced. -/
  disjoint : ∀ n ∈ requiredInputs.toList, n ∉ outputs.toList
deriving DecidableEq

namespace WorkUnit

/-- The constructor of a WorkUnit. -/
def init (workUnitId obligation : String) (dependencies requiredInputs outputs
      acceptanceCriteria : List String) (acceptancePolicyReference : Option PolicyReference) :
    Except Failure WorkUnit := do
  let workUnitId ← nonempty workUnitId "work_unit_id"
  let obligation ← nonempty obligation "obligation"
  let indistinct : Failure := ⟨.invalidDomainValue,
    "dependencies must be distinct nonblank WorkUnit IDs"⟩
  let deps ← allNonblank dependencies indistinct
  let deps ← sortedTuple id deps indistinct
  let inputs ← immutableStrings requiredInputs "required_inputs"
  let declared ← immutableStrings outputs "outputs"
  let criteria ← criteria acceptanceCriteria "WorkUnit acceptance_criteria"
  if ha : criteria.toList ≠ [] ∨ acceptancePolicyReference ≠ none then
    if hd : ∀ n ∈ inputs.toList, n ∉ declared.toList then
      return ⟨workUnitId, obligation, deps, inputs, declared, criteria,
        acceptancePolicyReference, ha, hd⟩
    else .error ⟨.invalidDomainValue,
      "a WorkUnit cannot consume and produce the same logical name"⟩
  else .error ⟨.invalidDomainValue,
    "WorkUnit requires acceptance criteria or an acceptance policy reference"⟩

/-- The constructor accepts the fields of every WorkUnit. -/
theorem init_self (u : WorkUnit) :
    init u.workUnitId.val u.obligation.val (u.dependencies.toList.map Subtype.val)
      (u.requiredInputs.toList.map Subtype.val) (u.outputs.toList.map Subtype.val)
      (u.acceptanceCriteria.toList.map Subtype.val) u.acceptancePolicyReference = .ok u := by
  have ha := u.acceptable
  have hd := u.disjoint
  simp only [init, nonempty_val, allNonblank_val, sortedTuple_toList, immutableStrings_val,
    criteria_toList, ok_bind, dif_pos ha, dif_pos hd]
  rfl

/-- The payload of a WorkUnit. -/
def payload (u : WorkUnit) : Json :=
  .obj [("acceptance_criteria", names u.acceptanceCriteria.toList),
    ("acceptance_policy_reference", match u.acceptancePolicyReference with
      | none => .null
      | some r => r.payload),
    ("dependencies", names u.dependencies.toList),
    ("obligation", .str u.obligation.val),
    ("outputs", names u.outputs.toList),
    ("required_inputs", names u.requiredInputs.toList),
    ("work_unit_id", .str u.workUnitId.val)]

theorem payload_wf (u : WorkUnit) : u.payload.WF := by
  refine (Json.wf_obj _).2 ⟨by simp only [List.map]; decide, ?_⟩
  cases u.acceptancePolicyReference <;> simp [PolicyReference.payload_wf]

end WorkUnit

/-- The dependency graph of a list of units. -/
def dependencyGraph (units : List WorkUnit) : List (Name × List Name) :=
  units.map fun u => (u.workUnitId, u.dependencies.toList)

theorem map_fst_dependencyGraph (units : List WorkUnit) :
    (dependencyGraph units).map Prod.fst = units.map WorkUnit.workUnitId := by
  simp [dependencyGraph]

/-- `_topological_order`. -/
def topologicalOrder (units : List WorkUnit) : Except Failure (List Name) :=
  match Layers.topologicalOrder (dependencyGraph units) with
  | .ok order => .ok order
  | .error remaining => .error ⟨.cycleDetected,
      "WorkUnit dependency cycle involves: " ++ ", ".intercalate (remaining.map Subtype.val)⟩

theorem topologicalOrder_eq_ok {units : List WorkUnit} {order : List Name} :
    topologicalOrder units = .ok order ↔
      Layers.topologicalOrder (dependencyGraph units) = .ok order := by
  unfold topologicalOrder
  split <;> simp_all

/-- The dependency relation of a list of units. -/
def DependsOn (units : List WorkUnit) (n d : Name) : Prop :=
  ∃ u ∈ units, u.workUnitId = n ∧ d ∈ u.dependencies

theorem edge_dependencyGraph {units : List WorkUnit} {n d : Name} :
    Layers.Edge (dependencyGraph units) n d ↔ DependsOn units n d := by
  simp only [Layers.Edge, dependencyGraph, List.mem_map, DependsOn, Prod.mk.injEq]
  constructor
  · rintro ⟨_, ⟨u, hu, rfl, rfl⟩, hd⟩
    exact ⟨u, hu, rfl, hd⟩
  · rintro ⟨u, hu, rfl, hd⟩
    exact ⟨_, ⟨u, hu, rfl, rfl⟩, hd⟩

/-! ## Arguments of a specification -/

/-- The arguments of the constructor of a specification. -/
structure SpecArgs where
  programId : Name
  objective : Name
  workUnits : List WorkUnit
  initialInputs : List InputBinding
  budget : BudgetPolicy
  authority : AuthorityEnvelope
  revision : ℕ
  parentDigest : Option Name
  acceptanceCriteria : List Name
  policyReferences : List PolicyReference

namespace SpecArgs

/-- The logical names with their producers; an initial input has no producing unit. -/
def producers (a : SpecArgs) : List (Name × Option Name) :=
  a.initialInputs.map (fun b => (b.name, none)) ++
    a.workUnits.flatMap fun u => u.outputs.toList.map fun o => (o, some u.workUnitId)

/-- What the constructor requires of its arguments. -/
structure Valid (a : SpecArgs) : Prop where
  unitsNonempty : a.workUnits ≠ []
  unitIds : (a.workUnits.map WorkUnit.workUnitId).Nodup
  inputNames : (a.initialInputs.map InputBinding.name).Nodup
  inputsInitial : ∀ b ∈ a.initialInputs, b.source = .initial
  criteria : a.acceptanceCriteria.Nodup
  policies : (a.policyReferences.map PolicyReference.key).Nodup
  criteriaNonempty : a.acceptanceCriteria ≠ []
  policiesNonempty : a.policyReferences ≠ []
  revisionPos : 0 < a.revision
  /-- Every dependency names a unit. -/
  dependencies : ∀ u ∈ a.workUnits, ∀ d ∈ u.dependencies.toList,
    d ∈ a.workUnits.map WorkUnit.workUnitId
  /-- Every logical name has one producer. -/
  producersNodup : (a.producers.map Prod.fst).Nodup
  /-- The graph has no cycle. -/
  ordered : ∃ order, topologicalOrder a.workUnits = .ok order
  /-- Every required input is initial or produced by a direct predecessor. -/
  sourced : ∀ u ∈ a.workUnits, ∀ n ∈ u.requiredInputs.toList,
    ∃ p ∈ a.producers, p.1 = n ∧ ∀ v ∈ p.2, v ∈ u.dependencies.toList

/-! ## The checks in order -/

/-- Record the outputs of one unit in the table of producers. -/
def declareOutputs (unitId : Name) :
    List (Name × Option Name) → List Name → Except Failure (List (Name × Option Name))
  | producers, [] => .ok producers
  | producers, output :: rest =>
    if output ∈ producers.map Prod.fst then
      .error ⟨.invalidGraph,
        "logical input " ++ pyRepr output.val ++ " has ambiguous producers"⟩
    else declareOutputs unitId (producers ++ [(output, some unitId)]) rest

/-- The loop over the units: dependencies exist, and outputs have one producer. -/
def declareUnits (ids : List Name) :
    List (Name × Option Name) → List WorkUnit → Except Failure (List (Name × Option Name))
  | producers, [] => .ok producers
  | producers, u :: rest => do
    u.dependencies.toList.forM fun d => Checked.check (d ∈ ids) ⟨.missingReference,
      "WorkUnit " ++ pyRepr u.workUnitId.val ++ " depends on missing WorkUnit " ++ pyRepr d.val⟩
    let producers ← declareOutputs u.workUnitId producers u.outputs.toList
    declareUnits ids producers rest

/-- The last loop: `name` has a source `unit` may consume. -/
def checkInput (producers : List (Name × Option Name)) (u : WorkUnit) (n : Name) :
    Except Failure Unit :=
  let failure : Failure := ⟨.missingInput,
    "WorkUnit " ++ pyRepr u.workUnitId.val ++ " has no direct approved source for " ++
      pyRepr n.val⟩
  match index Prod.fst producers n with
  | none => .error failure
  | some (_, none) => .ok ()
  | some (_, some source) => Checked.check (source ∈ u.dependencies.toList) failure

/-- The checks of the constructor, in its order. -/
def check (a : SpecArgs) : Except Failure Unit := do
  Checked.check (a.workUnits ≠ []) ⟨.invalidDomainValue,
    "work_units must be a nonempty tuple of WorkUnit values"⟩
  Checked.check (a.workUnits.map WorkUnit.workUnitId).Nodup ⟨.invalidGraph,
    "WorkUnit IDs must be unique within a Program"⟩
  let _ ← bindings a.initialInputs "initial_inputs"
  Checked.check (∀ b ∈ a.initialInputs, b.source = .initial) ⟨.invalidDomainValue,
    "approved initial inputs cannot cite a predecessor"⟩
  let _ ← distinctCriteria a.acceptanceCriteria "Program acceptance_criteria"
  let _ ← CreatidyKernel.policies a.policyReferences "policy_references"
  Checked.check (a.acceptanceCriteria ≠ [] ∧ a.policyReferences ≠ []) ⟨.invalidDomainValue,
    "Program acceptance criteria and pinned policy references are required"⟩
  Checked.check (0 < a.revision) ⟨.invalidDomainValue, "revision must be a positive integer"⟩
  let producers ← declareUnits (a.workUnits.map WorkUnit.workUnitId)
    (a.initialInputs.map fun b => (b.name, none)) a.workUnits
  let _ ← topologicalOrder a.workUnits
  a.workUnits.forM fun u => u.requiredInputs.toList.forM (checkInput producers u)

theorem declareOutputs_eq_ok {unitId : Name} {outputs : List Name}
    {producers producers' : List (Name × Option Name)} (h : (producers.map Prod.fst).Nodup) :
    declareOutputs unitId producers outputs = .ok producers' ↔
      producers' = producers ++ outputs.map (fun o => (o, some unitId)) ∧
        (producers'.map Prod.fst).Nodup := by
  induction outputs generalizing producers with
  | nil =>
    simp only [declareOutputs, Except.ok.injEq, List.map_nil, List.append_nil]
    exact ⟨fun e => ⟨e.symm, e ▸ h⟩, fun e => e.1.symm⟩
  | cons o rest ih =>
    rw [declareOutputs]
    split_ifs with ho
    · simp only [false_iff, not_and]
      rintro rfl hn
      simp only [List.map_append, List.map_cons] at hn
      exact (List.nodup_append.1 hn).2.2 o ho o List.mem_cons_self rfl
    · have hn : ((producers ++ [(o, some unitId)]).map Prod.fst).Nodup := by
        rw [List.map_append, List.nodup_append]
        refine ⟨h, List.nodup_singleton _, ?_⟩
        rintro a ha _ (_ | ⟨_, ⟨⟩⟩) rfl
        exact ho ha
      rw [ih hn]
      simp

theorem declareUnits_eq_ok {ids : List Name} {units : List WorkUnit}
    {producers producers' : List (Name × Option Name)} (h : (producers.map Prod.fst).Nodup) :
    declareUnits ids producers units = .ok producers' ↔
      (∀ u ∈ units, ∀ d ∈ u.dependencies.toList, d ∈ ids) ∧
      producers' = producers ++
        units.flatMap (fun u => u.outputs.toList.map fun o => (o, some u.workUnitId)) ∧
      (producers'.map Prod.fst).Nodup := by
  induction units generalizing producers with
  | nil =>
    simp only [declareUnits, Except.ok.injEq, List.flatMap_nil, List.append_nil]
    exact ⟨fun e => ⟨by simp, e.symm, e ▸ h⟩, fun e => e.2.1.symm⟩
  | cons u rest ih =>
    rw [declareUnits, bind_eq_ok]
    simp only [forM_eq_ok, check_eq_ok, bind_eq_ok, declareOutputs_eq_ok h]
    constructor
    · rintro ⟨_, hdeps, mid, ⟨rfl, hmid⟩, hrest⟩
      obtain ⟨hall, heq, hn⟩ := (ih hmid).1 hrest
      exact ⟨List.forall_mem_cons.2 ⟨hdeps, hall⟩, by simpa [List.append_assoc] using heq, hn⟩
    · rintro ⟨hall, rfl, hn⟩
      rw [List.forall_mem_cons] at hall
      have hmid : ((producers ++ u.outputs.toList.map fun o =>
          (o, some u.workUnitId)).map Prod.fst).Nodup := by
        refine hn.sublist (List.Sublist.map _ ?_)
        rw [List.flatMap_cons, ← List.append_assoc]
        exact List.sublist_append_left _ _
      refine ⟨(), hall.1, _, ⟨rfl, hmid⟩, (ih hmid).2 ⟨hall.2, ?_, hn⟩⟩
      simp [List.append_assoc]

theorem checkInput_eq_ok {producers : List (Name × Option Name)}
    (h : (producers.map Prod.fst).Nodup) {u : WorkUnit} {n : Name} :
    checkInput producers u n = .ok () ↔
      ∃ p ∈ producers, p.1 = n ∧ ∀ v ∈ p.2, v ∈ u.dependencies.toList := by
  unfold checkInput
  cases hi : index Prod.fst producers n with
  | none =>
    simp only [reduceCtorEq, false_iff, not_exists, not_and]
    exact fun p hp he => absurd he (index_eq_none_iff.1 hi p hp)
  | some p =>
    have huniq : ∀ q ∈ producers, q.1 = n → q = p := fun q hq he =>
      Option.some.inj (((index_eq_some_iff h).2 ⟨hq, he⟩).symm.trans hi)
    obtain ⟨hp, hn⟩ := index_eq_some hi
    obtain ⟨m, source⟩ := p
    constructor
    · intro hc
      refine ⟨_, hp, hn, ?_⟩
      rintro v hv
      obtain rfl : source = some v := hv
      simpa using hc
    · rintro ⟨q, hq, he, hv⟩
      obtain rfl := huniq q hq he
      cases source with
      | none => rfl
      | some v => simpa using hv v rfl

/-- The constructor accepts exactly the valid arguments. -/
theorem check_eq_ok {a : SpecArgs} : a.check = .ok () ↔ a.Valid := by
  have hbase (h : (a.initialInputs.map InputBinding.name).Nodup) :
      ((a.initialInputs.map fun b => (b.name, (none : Option Name))).map Prod.fst).Nodup := by
    simpa [List.map_map, Function.comp_def] using h
  simp only [check, bind_eq_ok, Checked.check_eq_ok, bindings, distinctCriteria,
    CreatidyKernel.policies, sortedTuple_eq_ok, forM_eq_ok]
  constructor
  · rintro ⟨_, h1, _, h2, _, ⟨h3, -⟩, _, h4, _, ⟨h5, -⟩, _, ⟨h6, -⟩, _, h7, _, h8, ps, h9, order,
      h10, h11⟩
    obtain ⟨hdeps, rfl, hn⟩ := (declareUnits_eq_ok (hbase h3)).1 h9
    exact ⟨h1, h2, h3, h4, by simpa using h5, h6, h7.1, h7.2, h8, hdeps, hn, ⟨order, h10⟩,
      fun u hu n hmem => (checkInput_eq_ok hn).1 (h11 u hu n hmem)⟩
  · intro v
    obtain ⟨order, horder⟩ := v.ordered
    exact ⟨(), v.unitsNonempty, (), v.unitIds, _, ⟨v.inputNames, rfl⟩, (), v.inputsInitial, _,
      ⟨by simpa using v.criteria, rfl⟩, _, ⟨v.policies, rfl⟩, (),
      ⟨v.criteriaNonempty, v.policiesNonempty⟩, (), v.revisionPos, _,
      (declareUnits_eq_ok (hbase v.inputNames)).2 ⟨v.dependencies, rfl, v.producersNodup⟩, order,
      horder, fun u hu n hmem => (checkInput_eq_ok v.producersNodup).2 (v.sourced u hu n hmem)⟩

/-- Validity does not depend on the order of the tuples. -/
theorem Valid.perm {a a' : SpecArgs} (v : a.Valid) (hu : a.workUnits.Perm a'.workUnits)
    (hi : a.initialInputs.Perm a'.initialInputs)
    (hc : a.acceptanceCriteria.Perm a'.acceptanceCriteria)
    (hp : a.policyReferences.Perm a'.policyReferences) (hr : a.revision = a'.revision) :
    a'.Valid := by
  have hprod : a.producers.Perm a'.producers := (hi.map _).append (hu.flatMap_right _)
  refine ⟨fun h => v.unitsNonempty ((h ▸ hu).eq_nil), (hu.map _).nodup_iff.1 v.unitIds,
    (hi.map _).nodup_iff.1 v.inputNames, fun b hb => v.inputsInitial b (hi.mem_iff.2 hb),
    hc.nodup_iff.1 v.criteria, (hp.map _).nodup_iff.1 v.policies,
    fun h => v.criteriaNonempty ((h ▸ hc).eq_nil), fun h => v.policiesNonempty ((h ▸ hp).eq_nil),
    hr ▸ v.revisionPos, ?_, (hprod.map _).nodup_iff.1 v.producersNodup, ?_, ?_⟩
  · exact fun u hmem d hd => (hu.map _).mem_iff.1 (v.dependencies u (hu.mem_iff.2 hmem) d hd)
  · obtain ⟨order, h⟩ := v.ordered
    refine ⟨order, ?_⟩
    rw [topologicalOrder_eq_ok] at h ⊢
    rw [← h]
    exact (Layers.topologicalOrder_perm (hu.map _)).symm
  · intro u hmem n hn
    obtain ⟨p, hpm, hpn⟩ := v.sourced u (hu.mem_iff.2 hmem) n hn
    exact ⟨p, hprod.mem_iff.1 hpm, hpn⟩

end SpecArgs

/-! ## Specifications -/

/-- One immutable owner-approved snapshot, with every tuple sorted. -/
structure ProgramSpec where
  programId : Name
  objective : Name
  workUnits : SortedBy WorkUnit.workUnitId
  initialInputs : Bindings
  budget : BudgetPolicy
  authority : AuthorityEnvelope
  revision : ℕ
  parentDigest : Option Name
  acceptanceCriteria : SortedSet Name
  policyReferences : SortedBy PolicyReference.key
  /-- The fields are arguments the constructor accepts. -/
  valid : SpecArgs.Valid ⟨programId, objective, workUnits.toList, initialInputs.toList, budget,
    authority, revision, parentDigest, acceptanceCriteria.toList, policyReferences.toList⟩
deriving DecidableEq

namespace ProgramSpec

/-- The fields of a specification, as arguments of its constructor. -/
def args (p : ProgramSpec) : SpecArgs :=
  ⟨p.programId, p.objective, p.workUnits.toList, p.initialInputs.toList, p.budget, p.authority,
    p.revision, p.parentDigest, p.acceptanceCriteria.toList, p.policyReferences.toList⟩

/-- Sort accepted arguments into a specification. -/
def ofValid (a : SpecArgs) (v : a.Valid) : ProgramSpec where
  programId := a.programId
  objective := a.objective
  workUnits := .ofList a.workUnits v.unitIds
  initialInputs := .ofList a.initialInputs v.inputNames
  budget := a.budget
  authority := a.authority
  revision := a.revision
  parentDigest := a.parentDigest
  acceptanceCriteria := SortedBy.ofList a.acceptanceCriteria (by simpa using v.criteria)
  policyReferences := .ofList a.policyReferences v.policies
  valid := v.perm (SortedBy.perm_sortBy _).symm (SortedBy.perm_sortBy _).symm
    (SortedBy.perm_sortBy _).symm (SortedBy.perm_sortBy _).symm rfl

/-- The constructor: check the arguments, then sort them. -/
def init (a : SpecArgs) : Except Failure ProgramSpec :=
  match h : a.check with
  | .error e => .error e
  | .ok () => .ok (ofValid a (SpecArgs.check_eq_ok.1 h))

theorem init_eq_ok {a : SpecArgs} {p : ProgramSpec} :
    init a = .ok p ↔ ∃ v : a.Valid, ofValid a v = p := by
  unfold init
  split
  · next e h =>
    simp only [reduceCtorEq, false_iff, not_exists]
    intro v
    rw [SpecArgs.check_eq_ok.2 v] at h
    cases h
  · next h =>
    rw [Except.ok.injEq]
    exact ⟨fun e => ⟨_, e⟩, fun ⟨_, e⟩ => e⟩

/-- The constructor rebuilds every specification from its own fields. -/
theorem init_args (p : ProgramSpec) : init p.args = .ok p := by
  refine init_eq_ok.2 ⟨p.valid, ?_⟩
  simp [ofValid, args, SortedBy.ofList_toList]

/-- The order of the tuples does not matter to the constructor. -/
theorem init_perm {a a' : SpecArgs} {p : ProgramSpec} (h : init a = .ok p)
    (hu : a.workUnits.Perm a'.workUnits) (hi : a.initialInputs.Perm a'.initialInputs)
    (hc : a.acceptanceCriteria.Perm a'.acceptanceCriteria)
    (hp : a.policyReferences.Perm a'.policyReferences)
    (hrest : (a.programId, a.objective, a.budget, a.authority, a.revision, a.parentDigest) =
      (a'.programId, a'.objective, a'.budget, a'.authority, a'.revision, a'.parentDigest)) :
    init a' = .ok p := by
  obtain ⟨v, rfl⟩ := init_eq_ok.1 h
  simp only [Prod.mk.injEq] at hrest
  obtain ⟨h1, h2, h3, h4, h5, h6⟩ := hrest
  refine init_eq_ok.2 ⟨v.perm hu hi hc hp h5, ?_⟩
  have hsort {α κ : Type} [LinearOrder κ] {key : α → κ} {l l' : List α} (hl : l.Perm l')
      (hn : (l.map key).Nodup) (hn' : (l'.map key).Nodup) :
      SortedBy.ofList l' hn' = SortedBy.ofList l hn :=
    SortedBy.ext_mem fun x => by rw [SortedBy.mem_ofList, SortedBy.mem_ofList, hl.mem_iff]
  simp only [ofValid, mk.injEq]
  exact ⟨h1.symm, h2.symm, hsort hu _ _, hsort hi _ _, h3.symm, h4.symm, h5.symm, h6.symm,
    hsort hc _ _, hsort hp _ _⟩

/-- The constructor on the raw scalar arguments. -/
def construct (programId objective : String) (workUnits : List WorkUnit)
    (initialInputs : List InputBinding) (budget : BudgetPolicy) (authority : AuthorityEnvelope)
    (revision : Int) (parentDigest : Option String) (acceptanceCriteria : List String)
    (policyReferences : List PolicyReference) : Except Failure ProgramSpec := do
  let programId ← nonempty programId "program_id"
  let objective ← nonempty objective "objective"
  let criteria ← allNonblank acceptanceCriteria ⟨.invalidDomainValue,
    "Program acceptance_criteria must contain nonblank criteria"⟩
  let revision ← positive revision "revision"
  let parentDigest ← optionalNonempty parentDigest "parent_digest"
  init ⟨programId, objective, workUnits, initialInputs, budget, authority, revision.1,
    parentDigest, criteria, policyReferences⟩

/-- The constructor accepts the fields of every specification. -/
theorem construct_self (p : ProgramSpec) :
    construct p.programId.val p.objective.val p.workUnits.toList p.initialInputs.toList p.budget
      p.authority p.revision (p.parentDigest.map Subtype.val)
      (p.acceptanceCriteria.toList.map Subtype.val) p.policyReferences.toList = .ok p := by
  simp only [construct, nonempty_val, allNonblank_val, positive_coe p.valid.revisionPos,
    optionalNonempty_val, ok_bind]
  exact p.init_args

/-! ### Units -/

/-- `{unit.id: unit for unit in self.work_units}`. -/
def byId (p : ProgramSpec) : Name → Option WorkUnit :=
  index WorkUnit.workUnitId p.workUnits.toList

@[simp] theorem byId_eq_some {p : ProgramSpec} {n : Name} {u : WorkUnit} :
    p.byId n = some u ↔ u ∈ p.workUnits ∧ u.workUnitId = n :=
  index_eq_some_iff p.workUnits.nodup_keys

/-- `work_unit`: the unit with an identifier. -/
def workUnit (p : ProgramSpec) (workUnitId : Name) : Except Failure WorkUnit :=
  lookup ⟨.missingReference, "unknown WorkUnit " ++ pyRepr workUnitId.val⟩ p.workUnits.get?
    workUnitId

@[simp] theorem workUnit_eq_ok {p : ProgramSpec} {n : Name} {u : WorkUnit} :
    p.workUnit n = .ok u ↔ u ∈ p.workUnits ∧ u.workUnitId = n := by
  rw [workUnit, lookup_eq_ok, SortedBy.get?_eq_some_iff]

/-- The identifiers of the units. -/
def unitIds (p : ProgramSpec) : List Name := p.workUnits.toList.map WorkUnit.workUnitId

theorem mem_unitIds {p : ProgramSpec} {n : Name} :
    n ∈ p.unitIds ↔ ∃ u, u ∈ p.workUnits ∧ u.workUnitId = n := by
  simp only [unitIds, List.mem_map, SortedBy.mem_toList]

theorem exists_workUnit {p : ProgramSpec} {n : Name} (h : n ∈ p.unitIds) :
    ∃ u, p.workUnit n = .ok u := by
  obtain ⟨u, hu⟩ := mem_unitIds.1 h
  exact ⟨u, workUnit_eq_ok.2 hu⟩

/-- Dependencies are units. -/
theorem mem_unitIds_of_dependency {p : ProgramSpec} {u : WorkUnit} (hu : u ∈ p.workUnits)
    {d : Name} (hd : d ∈ u.dependencies) : d ∈ p.unitIds := p.valid.dependencies u hu d hd

/-- `topological_order`. -/
def topologicalOrder (p : ProgramSpec) : Except Failure (List Name) :=
  CreatidyKernel.topologicalOrder p.workUnits.toList

/-- The dependency relation of a specification. -/
abbrev DependsOn (p : ProgramSpec) : Name → Name → Prop :=
  CreatidyKernel.DependsOn p.workUnits.toList

/-- Every specification has an order of its units in which dependencies come first. -/
theorem exists_topologicalOrder (p : ProgramSpec) :
    ∃ order, p.topologicalOrder = .ok order ∧ order.Nodup ∧ (∀ n, n ∈ order ↔ n ∈ p.unitIds) ∧
      Layers.Respects p.DependsOn [] order := by
  obtain ⟨order, h⟩ := p.valid.ordered
  have hl := topologicalOrder_eq_ok.1 h
  have hn : ((dependencyGraph p.workUnits.toList).map Prod.fst).Nodup := by
    rw [map_fst_dependencyGraph]
    exact p.workUnits.nodup_keys
  obtain ⟨hnd, hmem⟩ := Layers.mem_topologicalOrder hn hl
  refine ⟨order, h, hnd, fun n => ?_, ?_⟩
  · rw [hmem, map_fst_dependencyGraph, unitIds]
  · exact (Layers.topologicalOrder_respects hn hl).mono (by simp)
      fun n _ d hd => .inr (edge_dependencyGraph.2 hd)

/-! ### Payloads -/

/-- `semantic_payload`: everything but the revision and the parent. -/
def semanticPayload (p : ProgramSpec) : Json :=
  .obj [("acceptance_criteria", names p.acceptanceCriteria.toList),
    ("authority", p.authority.payload),
    ("budget", p.budget.payload),
    ("initial_inputs", .arr (p.initialInputs.toList.map InputBinding.payload)),
    ("objective", .str p.objective.val),
    ("policy_references", .arr (p.policyReferences.toList.map PolicyReference.payload)),
    ("program_id", .str p.programId.val),
    ("work_units", .arr (p.workUnits.toList.map WorkUnit.payload))]

/-- `payload`: the semantic payload with the revision and the parent. -/
def payload (p : ProgramSpec) : Json :=
  .obj [("acceptance_criteria", names p.acceptanceCriteria.toList),
    ("authority", p.authority.payload),
    ("budget", p.budget.payload),
    ("initial_inputs", .arr (p.initialInputs.toList.map InputBinding.payload)),
    ("objective", .str p.objective.val),
    ("parent_digest", optionalName p.parentDigest),
    ("policy_references", .arr (p.policyReferences.toList.map PolicyReference.payload)),
    ("program_id", .str p.programId.val),
    ("revision", .int p.revision),
    ("work_units", .arr (p.workUnits.toList.map WorkUnit.payload))]

theorem payload_wf (p : ProgramSpec) : p.payload.WF := by
  refine (Json.wf_obj _).2 ⟨by simp only [List.map]; decide, ?_⟩
  simp +contextual [AuthorityEnvelope.payload_wf, BudgetPolicy.payload_wf,
    InputBinding.payload_wf, PolicyReference.payload_wf, WorkUnit.payload_wf]

/-- `digest`: the digest of the payload. -/
def digest [Sha256] (p : ProgramSpec) : Name := CreatidyKernel.digest p.payload

/-! ### Fingerprints -/

/-- The work list of the fingerprint: `pending` is a stack whose top is the head. The fuel
bounds the number of pops; `closeDependencies_spec` shows that it suffices. -/
def closeDependencies (byId : Name → Option WorkUnit) :
    ℕ → List Name → List Name → Except Failure (List Name)
  | _, closure, [] => .ok closure
  | 0, closure, _ :: _ => .ok closure
  | fuel + 1, closure, predecessor :: pending =>
    if predecessor ∈ closure then closeDependencies byId fuel closure pending
    else do
      let unit ← subscript byId predecessor
      closeDependencies byId fuel (predecessor :: closure)
        (unit.dependencies.toList.reverse ++ pending)

/-- The number of dependencies of the units outside a list. -/
def openDependencies (units : List WorkUnit) (closure : List Name) : ℕ :=
  ((units.filter fun u => u.workUnitId ∉ closure).map fun u => u.dependencies.toList.length).sum

theorem openDependencies_cons {units : List WorkUnit} {closure : List Name} {u : WorkUnit}
    (hn : (units.map WorkUnit.workUnitId).Nodup) (hu : u ∈ units)
    (hc : u.workUnitId ∉ closure) :
    openDependencies units (u.workUnitId :: closure) + u.dependencies.toList.length =
      openDependencies units closure := by
  induction units with
  | nil => cases hu
  | cons v rest ih =>
    rw [List.map_cons, List.nodup_cons] at hn
    unfold openDependencies at ih ⊢
    rcases List.mem_cons.1 hu with rfl | hu
    · have hrest : rest.filter (fun w => w.workUnitId ∉ u.workUnitId :: closure) =
          rest.filter fun w => w.workUnitId ∉ closure := by
        refine List.filter_congr fun w hw => ?_
        have : w.workUnitId ≠ u.workUnitId := fun he => hn.1 (he ▸ List.mem_map_of_mem hw)
        simp [this]
      rw [List.filter_cons_of_neg (by simp), List.filter_cons_of_pos (by simpa using hc), hrest]
      simp [Nat.add_comm]
    · have hne : v.workUnitId ≠ u.workUnitId := fun he =>
        hn.1 (he ▸ List.mem_map_of_mem hu)
      have ih := ih hn.2 hu
      by_cases hv : v.workUnitId ∈ closure
      · rw [List.filter_cons_of_neg (by simp [hv]), List.filter_cons_of_neg (by simp [hv]), ih]
      · rw [List.filter_cons_of_pos (by simp [hv, hne]), List.filter_cons_of_pos (by simp [hv])]
        simp only [List.map_cons, List.sum_cons]
        omega

/-- With enough fuel the work list collects a set closed under dependencies, of units the
starting points reach. -/
theorem closeDependencies_spec (p : ProgramSpec) (fuel : ℕ) (closure pending : List Name)
    (hfuel : pending.length + openDependencies p.workUnits.toList closure ≤ fuel)
    (hunits : ∀ n ∈ pending, n ∈ p.unitIds)
    (hclosed : ∀ n ∈ closure, ∀ d, p.DependsOn n d → d ∈ closure ∨ d ∈ pending) :
    ∃ result, closeDependencies p.byId fuel closure pending = .ok result ∧
      closure ⊆ result ∧ pending ⊆ result ∧
      (∀ n ∈ result, ∀ d, p.DependsOn n d → d ∈ result) ∧
      ∀ n ∈ result, n ∈ closure ∨
        ∃ m ∈ pending, Relation.ReflTransGen p.DependsOn m n := by
  induction fuel generalizing closure pending with
  | zero =>
    cases pending with
    | nil =>
      refine ⟨closure, by simp [closeDependencies], by simp, by simp, fun n hn d hd => ?_,
        fun n hn => .inl hn⟩
      simpa using hclosed n hn d hd
    | cons n pending => simp at hfuel
  | succ fuel ih =>
    cases pending with
    | nil =>
      refine ⟨closure, by simp [closeDependencies], by simp, by simp, fun n hn d hd => ?_,
        fun n hn => .inl hn⟩
      simpa using hclosed n hn d hd
    | cons n pending =>
      rw [List.forall_mem_cons] at hunits
      rw [closeDependencies]
      split_ifs with hn
      · obtain ⟨result, hok, hc, hp, hcl, hreach⟩ := ih closure pending
          (by simp only [List.length_cons] at hfuel; omega) hunits.2 (fun m hm d hd => by
            rcases hclosed m hm d hd with h | h
            · exact .inl h
            · rcases List.mem_cons.1 h with rfl | h
              exacts [.inl hn, .inr h])
        refine ⟨result, hok, hc, List.cons_subset.2 ⟨hc hn, hp⟩, hcl, fun m hm => ?_⟩
        exact (hreach m hm).imp_right fun ⟨k, hk, hkm⟩ => ⟨k, List.mem_cons_of_mem _ hk, hkm⟩
      · obtain ⟨u, hu, rfl⟩ := mem_unitIds.1 hunits.1
        have hby : subscript p.byId u.workUnitId = .ok u :=
          subscript_eq_ok.2 (byId_eq_some.2 ⟨hu, rfl⟩)
        have hdep : ∀ d, p.DependsOn u.workUnitId d ↔ d ∈ u.dependencies := fun d => by
          refine ⟨fun ⟨v, hv, he, hd⟩ => ?_, fun hd => ⟨u, hu, rfl, hd⟩⟩
          rwa [p.workUnits.eq_of_key_eq hv hu he] at hd
        have hcount := openDependencies_cons p.workUnits.nodup_keys hu hn
        obtain ⟨result, hok, hc, hp, hcl, hreach⟩ := ih (u.workUnitId :: closure)
          (u.dependencies.toList.reverse ++ pending)
          (by
            simp only [List.length_cons, List.length_append, List.length_reverse] at hfuel ⊢
            omega)
          (fun m hm => by
            rcases List.mem_append.1 hm with h | h
            · exact mem_unitIds_of_dependency hu (List.mem_reverse.1 h)
            · exact hunits.2 m h)
          (fun m hm d hd => by
            rcases List.mem_cons.1 hm with rfl | hm
            · exact .inr (List.mem_append_left _ (List.mem_reverse.2 ((hdep d).1 hd)))
            · rcases hclosed m hm d hd with h | h
              · exact .inl (List.mem_cons_of_mem _ h)
              · rcases List.mem_cons.1 h with rfl | h
                exacts [.inl List.mem_cons_self, .inr (List.mem_append_right _ h)])
        rw [List.cons_subset] at hc
        refine ⟨result, by rw [hby, ok_bind, hok], hc.2,
          List.cons_subset.2 ⟨hc.1, fun m hm => hp (List.mem_append_right _ hm)⟩, hcl,
          fun m hm => ?_⟩
        rcases hreach m hm with h | ⟨k, hk, hkm⟩
        · rcases List.mem_cons.1 h with rfl | h
          exacts [.inr ⟨_, List.mem_cons_self, .refl⟩, .inl h]
        · rcases List.mem_append.1 hk with h | h
          · exact .inr ⟨_, List.mem_cons_self, .head ((hdep k).2 (List.mem_reverse.1 h)) hkm⟩
          · exact .inr ⟨k, List.mem_cons_of_mem _ h, hkm⟩

/-- The units a target depends on, itself included. -/
def closure (p : ProgramSpec) (target : WorkUnit) : Except Failure (SortedSet Name) := do
  let closure ← closeDependencies p.byId (openDependencies p.workUnits.toList [] + 1)
    [target.workUnitId] target.dependencies.toList.reverse
  return SortedSet.ofList closure

/-- The closure of a unit consists of the units it reaches along dependencies. -/
theorem closure_spec (p : ProgramSpec) {target : WorkUnit} (ht : target ∈ p.workUnits) :
    ∃ c, p.closure target = .ok c ∧ ∀ n, n ∈ c ↔
      Relation.ReflTransGen p.DependsOn target.workUnitId n := by
  have hdep : ∀ d, p.DependsOn target.workUnitId d ↔ d ∈ target.dependencies := fun d => by
    refine ⟨fun ⟨v, hv, he, hd⟩ => ?_, fun hd => ⟨target, ht, rfl, hd⟩⟩
    rwa [p.workUnits.eq_of_key_eq hv ht he] at hd
  have hcount : openDependencies p.workUnits.toList [target.workUnitId] +
      target.dependencies.toList.length = openDependencies p.workUnits.toList [] :=
    openDependencies_cons p.workUnits.nodup_keys ht (by simp)
  obtain ⟨c, hok, hself, -, hcl, hreach⟩ := closeDependencies_spec p
    (openDependencies p.workUnits.toList [] + 1) [target.workUnitId]
    target.dependencies.toList.reverse (by rw [List.length_reverse]; omega)
    (fun n hn => mem_unitIds_of_dependency ht (List.mem_reverse.1 hn))
    (fun n hn d hd => by
      rw [List.mem_singleton] at hn
      subst hn
      exact .inr (List.mem_reverse.2 ((hdep d).1 hd)))
  refine ⟨SortedSet.ofList c, by rw [closure, hok]; rfl, fun n => ?_⟩
  rw [SortedSet.mem_ofList]
  constructor
  · intro hn
    rcases hreach n hn with h | ⟨m, hm, hmn⟩
    · rw [List.mem_singleton.1 h]
    · exact .head ((hdep m).2 (List.mem_reverse.1 hm)) hmn
  · intro h
    induction h with
    | refl => exact hself List.mem_cons_self
    | tail _ hd ih => exact hcl _ ih _ hd

/-- The payload of the intent of a closure of units. -/
def intentPayload (p : ProgramSpec) (units : List WorkUnit) : Json :=
  let consumed := units.flatMap fun u => u.requiredInputs.toList
  .obj [("acceptance_criteria", names p.acceptanceCriteria.toList),
    ("closure", .arr (units.map WorkUnit.payload)),
    ("encoding", .str "creatidy-k1-work-unit-intent-v1"),
    ("initial_inputs", .arr ((p.initialInputs.toList.filter fun b => b.name ∈ consumed).map
      InputBinding.payload)),
    ("objective", .str p.objective.val),
    ("policy_references", .arr (p.policyReferences.toList.map PolicyReference.payload)),
    ("program_id", .str p.programId.val)]

/-- `work_unit_applicability_fingerprint`. -/
def fingerprint [Sha256] (p : ProgramSpec) (workUnitId : Name) : Except Failure Name := do
  let target ← p.workUnit workUnitId
  let closure ← p.closure target
  let units ← closure.toList.mapM (subscript p.byId)
  return CreatidyKernel.digest (p.intentPayload units)

/-- Every unit of a specification has a fingerprint. -/
theorem fingerprint_total [Sha256] (p : ProgramSpec) {n : Name} (h : n ∈ p.unitIds) :
    ∃ f, p.fingerprint n = .ok f := by
  obtain ⟨u, hu⟩ := exists_workUnit h
  obtain ⟨hmem, rfl⟩ := workUnit_eq_ok.1 hu
  obtain ⟨c, hc, hreach⟩ := p.closure_spec hmem
  have hunits : ∀ m ∈ c.toList, ∃ v, subscript p.byId m = .ok v := fun m hm => by
    have hm' : m ∈ p.unitIds := by
      rcases Relation.ReflTransGen.cases_tail ((hreach m).1 hm) with he | ⟨k, -, v, hv, -, hd⟩
      · exact he ▸ h
      · exact mem_unitIds_of_dependency hv hd
    obtain ⟨v, hv⟩ := mem_unitIds.1 hm'
    exact ⟨v, subscript_eq_ok.2 (byId_eq_some.2 hv)⟩
  obtain ⟨units, hu'⟩ := exists_mapM_eq_ok hunits
  exact ⟨_, by rw [fingerprint, hu, ok_bind, hc, ok_bind, hu', ok_bind]; rfl⟩

/-- Only units of the specification have a fingerprint. -/
theorem mem_unitIds_of_fingerprint [Sha256] {p : ProgramSpec} {n f : Name}
    (h : p.fingerprint n = .ok f) : n ∈ p.unitIds := by
  obtain ⟨u, hu, -⟩ := bind_eq_ok.1 h
  exact mem_unitIds.2 ⟨u, workUnit_eq_ok.1 hu⟩

end ProgramSpec

/-! ## Amendments -/

/-- Owner-authored candidate replacements of the fields of a specification. -/
structure SpecAmendment where
  expectedRevision : ℕ
  objective : Option Name
  workUnits : Option (List WorkUnit)
  initialInputs : Option (List InputBinding)
  budget : Option BudgetPolicy
  authority : Option AuthorityEnvelope
  reason : Name
  acceptanceCriteria : Option (List Name)
  policyReferences : Option (List PolicyReference)
  expectedRevisionPos : expectedRevision ≥ 1
  /-- At least one field is replaced. -/
  replaces : objective ≠ none ∨ workUnits ≠ none ∨ initialInputs ≠ none ∨ budget ≠ none ∨
    authority ≠ none ∨ acceptanceCriteria ≠ none ∨ policyReferences ≠ none
  inputNames : ∀ l ∈ initialInputs, (l.map InputBinding.name).Nodup
  criteriaNodup : ∀ l ∈ acceptanceCriteria, (l.map id).Nodup
  policiesNodup : ∀ l ∈ policyReferences, (l.map PolicyReference.key).Nodup
deriving DecidableEq

namespace SpecAmendment

/-! An amendment may leave the lists as they are. -/

theorem kept_inputs : ∀ l ∈ (none : Option (List InputBinding)), (l.map InputBinding.name).Nodup := by
  rintro _ ⟨⟩

theorem kept_criteria : ∀ l ∈ (none : Option (List Name)), (l.map id).Nodup := by
  rintro _ ⟨⟩

theorem kept_policies :
    ∀ l ∈ (none : Option (List PolicyReference)), (l.map PolicyReference.key).Nodup := by
  rintro _ ⟨⟩

end SpecAmendment

namespace SpecAmendment

/-- The criteria of an amendment, where the constructor only rules out blank ones. -/
def nonblankCriteria : Option (List String) → Except Failure (Option (List Name))
  | none => .ok none
  | some values => some <$> allNonblank values
      ⟨.invalidDomainValue, "acceptance_criteria must contain nonblank criteria"⟩

/-- The constructor of an amendment. -/
def init (expectedRevision : Int) (objective : Option String) (workUnits : Option (List WorkUnit))
    (initialInputs : Option (List InputBinding)) (budget : Option BudgetPolicy)
    (authority : Option AuthorityEnvelope) (reason : String)
    (acceptanceCriteria : Option (List String))
    (policyReferences : Option (List PolicyReference)) : Except Failure SpecAmendment := do
  let expectedRevision ← positive expectedRevision "expected_revision"
  let reason ← nonempty reason "reason"
  let idle : Failure := ⟨.invalidDomainValue,
    "an amendment must specify at least one replacement"⟩
  check (objective ≠ none ∨ workUnits ≠ none ∨ initialInputs ≠ none ∨ budget ≠ none ∨
    authority ≠ none ∨ acceptanceCriteria ≠ none ∨ policyReferences ≠ none) idle
  let objective ← optionalNonempty objective "objective"
  if hi : ∀ l ∈ initialInputs, (l.map InputBinding.name).Nodup then
    let criteria ← nonblankCriteria acceptanceCriteria
    if hc : ∀ l ∈ criteria, (l.map id).Nodup then
      if hp : ∀ l ∈ policyReferences, (l.map PolicyReference.key).Nodup then
        if hr : objective ≠ none ∨ workUnits ≠ none ∨ initialInputs ≠ none ∨ budget ≠ none ∨
            authority ≠ none ∨ criteria ≠ none ∨ policyReferences ≠ none then
          return ⟨expectedRevision.1, objective, workUnits, initialInputs, budget, authority,
            reason, criteria, policyReferences, pos_of_revision expectedRevision, hr, hi, hc, hp⟩
        else .error idle
      else .error ⟨.invalidDomainValue, "policy_references must not repeat a reference"⟩
    else .error ⟨.invalidDomainValue, "acceptance_criteria must not repeat a criterion"⟩
  else .error ⟨.invalidDomainValue, "initial_inputs must have unique logical names"⟩

theorem nonblankCriteria_val (criteria : Option (List Name)) :
    nonblankCriteria (criteria.map fun l => l.map Subtype.val) = .ok criteria := by
  cases criteria with
  | none => rfl
  | some l => exact map_eq_ok.2 ⟨l, allNonblank_val _ _, rfl⟩

/-- The constructor accepts the fields of every amendment. -/
theorem init_self (a : SpecAmendment) :
    init a.expectedRevision (a.objective.map Subtype.val) a.workUnits a.initialInputs a.budget
      a.authority a.reason.val (a.acceptanceCriteria.map fun l => l.map Subtype.val)
      a.policyReferences = .ok a := by
  have hr := a.replaces
  simp only [init, positive_coe a.expectedRevisionPos, nonempty_val, optionalNonempty_val,
    nonblankCriteria_val, ok_bind, ne_eq, Option.map_eq_none_iff, check_of hr,
    dif_pos a.inputNames, dif_pos a.criteriaNodup, dif_pos a.policiesNodup, dif_pos hr]
  rfl

/-- The amendment with every tuple sorted. -/
def sorted (a : SpecAmendment) : SpecAmendment where
  expectedRevision := a.expectedRevision
  objective := a.objective
  workUnits := a.workUnits.map (SortedBy.sortBy WorkUnit.workUnitId)
  initialInputs := a.initialInputs.map (SortedBy.sortBy InputBinding.name)
  budget := a.budget
  authority := a.authority
  reason := a.reason
  acceptanceCriteria := a.acceptanceCriteria.map (SortedBy.sortBy id)
  policyReferences := a.policyReferences.map (SortedBy.sortBy PolicyReference.key)
  expectedRevisionPos := a.expectedRevisionPos
  replaces := by simpa using a.replaces
  inputNames := by
    intro l hl
    obtain ⟨l', hl', rfl⟩ := Option.map_eq_some_iff.1 hl
    exact ((SortedBy.perm_sortBy l').map _).nodup_iff.2 (a.inputNames l' hl')
  criteriaNodup := by
    intro l hl
    obtain ⟨l', hl', rfl⟩ := Option.map_eq_some_iff.1 hl
    exact ((SortedBy.perm_sortBy l').map _).nodup_iff.2 (a.criteriaNodup l' hl')
  policiesNodup := by
    intro l hl
    obtain ⟨l', hl', rfl⟩ := Option.map_eq_some_iff.1 hl
    exact ((SortedBy.perm_sortBy l').map _).nodup_iff.2 (a.policiesNodup l' hl')

end SpecAmendment

/-- The arguments `amend` passes to the constructor of the proposed specification. -/
def ProgramSpec.amendedArgs [Sha256] (p : ProgramSpec) (a : SpecAmendment) : SpecArgs where
  programId := p.programId
  objective := a.objective.getD p.objective
  workUnits := a.workUnits.getD p.workUnits.toList
  initialInputs := a.initialInputs.getD p.initialInputs.toList
  budget := a.budget.getD p.budget
  authority := a.authority.getD p.authority
  revision := p.revision + 1
  parentDigest := some p.digest
  acceptanceCriteria := a.acceptanceCriteria.getD p.acceptanceCriteria.toList
  policyReferences := a.policyReferences.getD p.policyReferences.toList

/-- `amend`: the next approved revision, or the specification itself if nothing changes. -/
def ProgramSpec.amend [Sha256] (p : ProgramSpec) (a : SpecAmendment) :
    Except Failure ProgramSpec := do
  check (a.expectedRevision = p.revision) ⟨.staleRevision,
    "amendment expected an older ProgramSpec revision"⟩
  let proposed ← ProgramSpec.init (p.amendedArgs a)
  return if proposed.semanticPayload = p.semanticPayload then p else proposed

/-- The order of the tuples does not matter to an amendment that is accepted. -/
theorem ProgramSpec.amend_sorted [Sha256] {p q : ProgramSpec} {a : SpecAmendment} :
    p.amend a.sorted = .ok q ↔ p.amend a = .ok q := by
  have hperm {α κ : Type} [LinearOrder κ] {key : α → κ} (o : Option (List α)) (l : List α) :
      ((o.map (SortedBy.sortBy key)).getD l).Perm (o.getD l) := by
    cases o with
    | none => exact .refl _
    | some l => exact SortedBy.perm_sortBy l
  have hinit (spec : ProgramSpec) : ProgramSpec.init (p.amendedArgs a.sorted) = .ok spec ↔
      ProgramSpec.init (p.amendedArgs a) = .ok spec :=
    ⟨fun h => ProgramSpec.init_perm h (hperm _ _) (hperm _ _) (hperm _ _) (hperm _ _) rfl,
      fun h => ProgramSpec.init_perm h (hperm _ _).symm (hperm _ _).symm (hperm _ _).symm
        (hperm _ _).symm rfl⟩
  simp only [ProgramSpec.amend, bind_eq_ok, hinit]
  exact Iff.rfl

/-- An amendment either changes nothing or continues the revision chain. -/
theorem ProgramSpec.amend_eq_ok [Sha256] {p q : ProgramSpec} {a : SpecAmendment}
    (h : p.amend a = .ok q) :
    q = p ∨ (q.revision = p.revision + 1 ∧ q.parentDigest = some p.digest ∧
      q.programId = p.programId) := by
  obtain ⟨_, -, h⟩ := bind_eq_ok.1 h
  obtain ⟨proposed, hp, h⟩ := bind_eq_ok.1 h
  obtain ⟨v, rfl⟩ := ProgramSpec.init_eq_ok.1 hp
  rw [pure_eq_ok] at h
  split_ifs at h
  · exact .inl h.symm
  · subst h
    exact .inr ⟨rfl, rfl, rfl⟩

end CreatidyKernel
