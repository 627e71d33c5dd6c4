import CreatidyKernel.Core.Projection

set_option relaxedAutoImplicit false
set_option autoImplicit false

/-!
# Locality of the projection

The state of a unit is decided by its dependency cone: the objective, the criteria and the
policies of the Program, the units it reaches along dependencies and the initial inputs these
consume. The fingerprint hashes exactly this intent.

## Main definitions

* `ProgramSpec.InCone`, `ProgramSpec.ConsumesInput` — the units in the cone of a unit, and the
  initial inputs they consume.
* `SameIntent` — two specifications agree on the cone of a unit.

## Main results

* `ProgramSpec.fingerprint_spec` — the fingerprint is the digest of the intent.
* `SameIntent.fingerprint_eq` — one intent, one fingerprint.
* `SameIntent.project_eq` — one intent, one state for every history.
-/

namespace CreatidyKernel

open Checked

namespace ProgramSpec

/-- The unit is reached from another one along dependencies. -/
def InCone (p : ProgramSpec) (n : Name) (unit : WorkUnit) : Prop :=
  unit ∈ p.workUnits ∧ Relation.ReflTransGen p.DependsOn n unit.workUnitId

/-- The initial input is required by a unit in the cone. -/
def ConsumesInput (p : ProgramSpec) (n : Name) (b : InputBinding) : Prop :=
  b ∈ p.initialInputs ∧ ∃ unit, p.InCone n unit ∧ b.name ∈ unit.requiredInputs

theorem dependsOn_iff {p : ProgramSpec} {u : WorkUnit} (hu : u ∈ p.workUnits) {d : Name} :
    p.DependsOn u.workUnitId d ↔ d ∈ u.dependencies := by
  constructor
  · rintro ⟨v, hv, he, hd⟩
    rwa [p.workUnits.eq_of_key_eq hv hu he] at hd
  · exact fun hd => ⟨u, hu, rfl, hd⟩

/-- Everything a unit reaches is a unit. -/
theorem mem_unitIds_of_reaches {p : ProgramSpec} {n m : Name} (hn : n ∈ p.unitIds)
    (h : Relation.ReflTransGen p.DependsOn n m) : m ∈ p.unitIds := by
  rcases Relation.ReflTransGen.cases_tail h with rfl | ⟨k, -, v, hv, -, hd⟩
  · exact hn
  · exact mem_unitIds_of_dependency hv hd

/-- The fingerprint is the digest of the intent of the units in the cone, in their order. -/
theorem fingerprint_spec [Sha256] (p : ProgramSpec) {n : Name} (hn : n ∈ p.unitIds) :
    ∃ units : SortedBy WorkUnit.workUnitId, (∀ u, u ∈ units ↔ p.InCone n u) ∧
      p.fingerprint n = .ok (CreatidyKernel.digest (p.intentPayload units.toList)) := by
  obtain ⟨target, ht⟩ := exists_workUnit hn
  obtain ⟨hmem, rfl⟩ := workUnit_eq_ok.1 ht
  obtain ⟨c, hc, hreach⟩ := p.closure_spec hmem
  have hunits : ∀ m ∈ c.toList, ∃ v, subscript p.byId m = .ok v := fun m hm => by
    obtain ⟨v, hv⟩ := mem_unitIds.1 (mem_unitIds_of_reaches hn ((hreach m).1 hm))
    exact ⟨v, subscript_eq_ok.2 (byId_eq_some.2 hv)⟩
  obtain ⟨units, hu⟩ := exists_mapM_eq_ok hunits
  have hids : units.map WorkUnit.workUnitId = c.toList :=
    map_result hu fun m _ v hv => (byId_eq_some.1 (subscript_eq_ok.1 hv)).2
  have hsorted : units.Pairwise (WorkUnit.workUnitId · < WorkUnit.workUnitId ·) := by
    have hc := c.sorted
    rw [← hids, List.pairwise_map] at hc
    exact hc
  refine ⟨⟨units, hsorted⟩, fun u => ?_, by rw [fingerprint, ht, ok_bind, hc, ok_bind, hu]; rfl⟩
  show u ∈ units ↔ _
  constructor
  · intro hm
    obtain ⟨m, hmc, hv⟩ := exists_of_mem_result hu hm
    obtain ⟨hum, rfl⟩ := byId_eq_some.1 (subscript_eq_ok.1 hv)
    exact ⟨hum, (hreach _).1 hmc⟩
  · rintro ⟨hum, hr⟩
    obtain ⟨v, hv, hvm⟩ := exists_of_mem_mapM hu ((hreach _).2 hr)
    obtain ⟨hvm', he⟩ := byId_eq_some.1 (subscript_eq_ok.1 hvm)
    rwa [p.workUnits.eq_of_key_eq hvm' hum he] at hv

end ProgramSpec

/-- Two specifications give a unit one intent. -/
structure SameIntent (p q : ProgramSpec) (n : Name) : Prop where
  programId : p.programId = q.programId
  objective : p.objective = q.objective
  acceptanceCriteria : p.acceptanceCriteria = q.acceptanceCriteria
  policyReferences : p.policyReferences = q.policyReferences
  units : ∀ u, p.InCone n u ↔ q.InCone n u
  inputs : ∀ b, p.ConsumesInput n b ↔ q.ConsumesInput n b

namespace SameIntent

variable {p q : ProgramSpec} {n : Name}

theorem symm (h : SameIntent p q n) : SameIntent q p n :=
  ⟨h.programId.symm, h.objective.symm, h.acceptanceCriteria.symm, h.policyReferences.symm,
    fun u => (h.units u).symm, fun b => (h.inputs b).symm⟩

/-- A unit has its own definition in both specifications. -/
theorem workUnit (h : SameIntent p q n) {u : WorkUnit} (hu : u ∈ p.workUnits)
    (he : u.workUnitId = n) : u ∈ q.workUnits :=
  ((h.units u).1 ⟨hu, he ▸ .refl⟩).1

/-- Dependencies agree along the cone. -/
theorem reaches (h : SameIntent p q n) (hn : n ∈ p.unitIds) {m : Name}
    (hr : Relation.ReflTransGen p.DependsOn n m) : Relation.ReflTransGen q.DependsOn n m := by
  obtain ⟨u, hu, rfl⟩ := ProgramSpec.mem_unitIds.1 (ProgramSpec.mem_unitIds_of_reaches hn hr)
  exact ((h.units u).1 ⟨hu, hr⟩).2

/-- Sub-cones agree as well. -/
theorem of_reaches (h : SameIntent p q n) (hp : n ∈ p.unitIds) (hq : n ∈ q.unitIds) {m : Name}
    (hm : Relation.ReflTransGen p.DependsOn n m) : SameIntent p q m := by
  -- one step inside the cone is a step of the other specification
  have hstep {p q : ProgramSpec} (h : SameIntent p q n) (hp : n ∈ p.unitIds) {m k : Name}
      (hm : Relation.ReflTransGen p.DependsOn n m)
      (hk : Relation.ReflTransGen p.DependsOn m k) : Relation.ReflTransGen q.DependsOn m k := by
    induction hk with
    | refl => exact .refl
    | tail hb hd ih =>
      obtain ⟨u, hu, rfl, hdu⟩ := hd
      exact ih.tail ⟨u, ((h.units u).1 ⟨hu, hm.trans hb⟩).1, rfl, hdu⟩
  have hm' := h.reaches hp hm
  have hcone (u : WorkUnit) : p.InCone m u ↔ q.InCone m u :=
    ⟨fun ⟨hu, hr⟩ => ⟨((h.units u).1 ⟨hu, hm.trans hr⟩).1, hstep h hp hm hr⟩,
      fun ⟨hu, hr⟩ => ⟨((h.units u).2 ⟨hu, hm'.trans hr⟩).1, hstep h.symm hq hm' hr⟩⟩
  have hinput {p q : ProgramSpec} (h : SameIntent p q n)
      (hm : Relation.ReflTransGen p.DependsOn n m) (hcone : ∀ u, p.InCone m u → q.InCone m u)
      {b : InputBinding} (hb : p.ConsumesInput m b) : q.ConsumesInput m b := by
    obtain ⟨hb, u, hu, hname⟩ := hb
    exact ⟨((h.inputs b).1 ⟨hb, u, ⟨hu.1, hm.trans hu.2⟩, hname⟩).1, u, hcone u hu, hname⟩
  exact ⟨h.programId, h.objective, h.acceptanceCriteria, h.policyReferences, hcone,
    fun b => ⟨hinput h hm fun u => (hcone u).1, hinput h.symm hm' fun u => (hcone u).2⟩⟩

/-- The initial inputs a unit requires are the same. -/
theorem initialInputs (h : SameIntent p q n) {u : WorkUnit} (hp : u ∈ p.workUnits)
    (hq : u ∈ q.workUnits) (he : u.workUnitId = n) :
    p.initialInputs.toList.filter (fun b => b.name ∈ u.requiredInputs) =
      q.initialInputs.toList.filter fun b => b.name ∈ u.requiredInputs := by
  refine SortedBy.filter_eq_filter fun b => ⟨fun ⟨hb, hn⟩ => ⟨?_, hn⟩, fun ⟨hb, hn⟩ => ⟨?_, hn⟩⟩
  · exact ((h.inputs b).1 ⟨hb, u, ⟨hp, he ▸ .refl⟩, hn⟩).1
  · exact ((h.inputs b).2 ⟨hb, u, ⟨hq, he ▸ .refl⟩, hn⟩).1

/-- The payloads of one intent are equal. -/
theorem intentPayload_eq (h : SameIntent p q n) {units : SortedBy WorkUnit.workUnitId}
    (hp : ∀ u, u ∈ units ↔ p.InCone n u) (hq : ∀ u, u ∈ units ↔ q.InCone n u) :
    p.intentPayload units.toList = q.intentPayload units.toList := by
  have hconsumed {p : ProgramSpec} (hp : ∀ u, u ∈ units ↔ p.InCone n u) (b : InputBinding) :
      b ∈ p.initialInputs ∧ b.name ∈ units.toList.flatMap (fun u => u.requiredInputs.toList) ↔
        p.ConsumesInput n b := by
    simp only [List.mem_flatMap, SortedBy.mem_toList, hp]
    exact Iff.rfl
  have hinputs := SortedBy.filter_eq_filter (s := p.initialInputs) (t := q.initialInputs)
    (P := fun b => b.name ∈ units.toList.flatMap fun u => u.requiredInputs.toList)
    (Q := fun b => b.name ∈ units.toList.flatMap fun u => u.requiredInputs.toList)
    fun b => by rw [hconsumed hp, hconsumed hq, h.inputs]
  simp only [ProgramSpec.intentPayload, h.programId, h.objective, h.acceptanceCriteria,
    h.policyReferences, hinputs]

section

variable [Sha256]

/-- One intent, one fingerprint. -/
theorem fingerprint_eq (h : SameIntent p q n) (hp : n ∈ p.unitIds) (hq : n ∈ q.unitIds) :
    p.fingerprint n = q.fingerprint n := by
  obtain ⟨units, hu, hf⟩ := p.fingerprint_spec hp
  obtain ⟨units', hu', hf'⟩ := q.fingerprint_spec hq
  obtain rfl : units = units' := SortedBy.ext_mem fun u => by rw [hu, hu', h.units]
  rw [hf, hf', h.intentPayload_eq hu hu']

/-- One intent and one history of predecessors, one state. -/
theorem projectUnit_eq (h : SameIntent p q n) (hp : n ∈ p.unitIds) (hq : n ∈ q.unitIds)
    (attempts : List Attempt) (satisfactions : List TrustedSatisfaction)
    (cancellations : List WorkUnitCancellation) {t t' : Name → Option WorkUnitState}
    (ht : ∀ d, p.DependsOn n d → t d = t' d) :
    projectUnit p attempts satisfactions cancellations t n =
      projectUnit q attempts satisfactions cancellations t' n := by
  rw [projectUnit_congr p attempts satisfactions cancellations ht]
  obtain ⟨u, hu⟩ := ProgramSpec.exists_workUnit hp
  obtain ⟨hmem, he⟩ := ProgramSpec.workUnit_eq_ok.1 hu
  have hmem' := h.workUnit hmem he
  have hu' : q.workUnit n = .ok u := ProgramSpec.workUnit_eq_ok.2 ⟨hmem', he⟩
  have hinputs := h.initialInputs hmem hmem' he
  have hresolved (r : Name → Option TrustedSatisfaction) :
      resolvedInputs p u t' r = resolvedInputs q u t' r := by
    simp only [resolvedInputs, hinputs]
  simp only [projectUnit, hu, hu', h.fingerprint_eq hp hq, ok_bind, hresolved]

/-- One intent, one state: the projections of one history under both specifications agree. -/
theorem project_eq (h : SameIntent p q n) (hn : n ∈ p.unitIds) (hn' : n ∈ q.unitIds)
    {attempts : List Attempt} {satisfactions : List TrustedSatisfaction}
    {cancellations : List WorkUnitCancellation} {states states' : List WorkUnitState}
    (hp : project p attempts satisfactions cancellations = .ok states)
    (hq : project q attempts satisfactions cancellations = .ok states') :
    stateById states n = stateById states' n := by
  have hfix {p : ProgramSpec} {states : List WorkUnitState}
      (hp : project p attempts satisfactions cancellations = .ok states) {m : Name}
      (hm : m ∈ p.unitIds) : ∃ s, stateById states m = some s ∧
        projectUnit p attempts satisfactions cancellations (stateById states) m = .ok s := by
    obtain ⟨hids, hall⟩ := project_fixedPoint hp
    obtain ⟨s, hs, rfl⟩ := List.mem_map.1 (hids ▸ hm)
    have hnd : (states.map WorkUnitState.workUnitId).Nodup := hids ▸ p.workUnits.nodup_keys
    exact ⟨s, (index_eq_some_iff hnd).2 ⟨hs, rfl⟩, hall s hs⟩
  obtain ⟨order, -, -, hmem, hr⟩ := p.exists_topologicalOrder
  -- induction along the dependency order, inside the cone
  have hcone : ∀ m ∈ order, Relation.ReflTransGen p.DependsOn n m →
      stateById states m = stateById states' m := by
    refine hr.forall_of_step (by simp) fun m hm ih hreach => ?_
    have hsame := h.of_reaches hn hn' hreach
    have hmp := (hmem m).1 hm
    have hmq : m ∈ q.unitIds := ProgramSpec.mem_unitIds_of_reaches hn' (h.reaches hn hreach)
    obtain ⟨s, hs, hps⟩ := hfix hp hmp
    obtain ⟨s', hs', hqs⟩ := hfix hq hmq
    have heq := hsame.projectUnit_eq hmp hmq attempts satisfactions cancellations
      fun d hd => ih d hd (hreach.tail hd)
    rw [hs, hs', Except.ok.inj (hps.symm.trans (heq.trans hqs))]
  exact hcone n ((hmem n).2 hn) .refl

end

end SameIntent

end CreatidyKernel
