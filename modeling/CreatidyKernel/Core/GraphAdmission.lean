import CreatidyKernel.Core.Closure

set_option relaxedAutoImplicit false
set_option autoImplicit false

/-!
# Which graphs a specification admits

The constructor of a specification checks its tuples one after the other, with a table of
producers and a layered elimination. What it accepts is a property of the graph alone.

## Main definitions

* `SpecArgs.ScalarsValid`, `SpecArgs.AdmissibleGraph` — the conditions on the fields and on the
  graph.

## Main results

* `topologicalOrder_total_iff`, `topologicalOrder_spec` — when there is a topological order, and
  what it is.
* `graph_admission` — the constructor accepts exactly the admissible graphs.
* `graph_admission_empty` — it refuses a graph without units.
-/

namespace CreatidyKernel

open Checked

/-- Every dependency names a unit. -/
def DependenciesExist (units : List WorkUnit) : Prop :=
  ∀ u ∈ units, ∀ d ∈ u.dependencies, d ∈ units.map WorkUnit.workUnitId

/-- No unit depends on itself, directly or through others. -/
def Acyclic (units : List WorkUnit) : Prop :=
  ∀ n, ¬Relation.TransGen (DependsOn units) n n

theorem closed_dependencyGraph {units : List WorkUnit} :
    Layers.Closed (dependencyGraph units) ↔ DependenciesExist units := by
  simp only [Layers.Closed, edge_dependencyGraph, map_fst_dependencyGraph, DependsOn,
    DependenciesExist]
  constructor
  · exact fun h u hu d hd => h _ d ⟨u, hu, rfl, hd⟩
  · rintro h n d ⟨u, hu, rfl, hd⟩
    exact h u hu d hd

/-- The layered elimination succeeds exactly on graphs whose dependencies exist and that have
no cycle. -/
theorem topologicalOrder_total_iff {units : List WorkUnit}
    (hn : (units.map WorkUnit.workUnitId).Nodup) :
    (∃ order, topologicalOrder units = .ok order) ↔ DependenciesExist units ∧ Acyclic units := by
  have hkeys : ((dependencyGraph units).map Prod.fst).Nodup := by
    rwa [map_fst_dependencyGraph]
  simp only [topologicalOrder_eq_ok]
  rw [Layers.exists_topologicalOrder_iff hkeys, closed_dependencyGraph]
  have hedge : Layers.Edge (dependencyGraph units) = DependsOn units := by
    funext n d
    exact propext edge_dependencyGraph
  rw [hedge, Acyclic]

/-- A returned order lists every unit once, after its dependencies. -/
theorem topologicalOrder_spec {units : List WorkUnit}
    (hn : (units.map WorkUnit.workUnitId).Nodup) {order : List Name}
    (h : topologicalOrder units = .ok order) :
    order.Perm (units.map WorkUnit.workUnitId) ∧
      ∀ n d, DependsOn units n d → order.idxOf d < order.idxOf n := by
  rw [topologicalOrder_eq_ok] at h
  rw [← map_fst_dependencyGraph] at hn ⊢
  obtain ⟨hnodup, hmem⟩ := Layers.mem_topologicalOrder hn h
  refine ⟨(List.perm_ext_iff_of_nodup hnodup hn).2 hmem, fun n d hd => ?_⟩
  rw [← edge_dependencyGraph] at hd
  have hnode : n ∈ order := by
    obtain ⟨ds, hds, -⟩ := hd
    exact (hmem n).2 (List.mem_map_of_mem hds)
  exact ((Layers.topologicalOrder_respects hn h).idxOf_lt hnode hd).resolve_left (by simp)

namespace SpecArgs

/-- The fields that are not part of the graph are valid. -/
structure ScalarsValid (a : SpecArgs) : Prop where
  criteria : a.acceptanceCriteria.Nodup
  policies : (a.policyReferences.map PolicyReference.key).Nodup
  criteriaNonempty : a.acceptanceCriteria ≠ []
  policiesNonempty : a.policyReferences ≠ []
  revisionPos : 0 < a.revision

/-- The conditions on the units and the initial inputs, as a property of the graph. -/
structure AdmissibleGraph (units : List WorkUnit) (initialInputs : List InputBinding) : Prop where
  unitIds : (units.map WorkUnit.workUnitId).Nodup
  dependencies : DependenciesExist units
  acyclic : Acyclic units
  /-- Every logical name has one producer. -/
  producers : (initialInputs.map InputBinding.name ++
    units.flatMap fun u => u.outputs.toList).Nodup
  /-- Every required input is initial or an output of a direct dependency. -/
  sourced : ∀ u ∈ units, ∀ n ∈ u.requiredInputs,
    (∃ b ∈ initialInputs, b.name = n) ∨
      ∃ d ∈ u.dependencies, ∃ v ∈ units, v.workUnitId = d ∧ n ∈ v.outputs

/-- The names the table of producers has entries for. -/
theorem map_fst_producers (a : SpecArgs) : a.producers.map Prod.fst =
    a.initialInputs.map InputBinding.name ++ a.workUnits.flatMap fun u => u.outputs.toList := by
  simp only [producers, List.map_append, List.map_map, List.map_flatMap, Function.comp_def,
    List.map_id']

/-- A name has a source a unit may consume when it is initial or a direct dependency outputs
it. -/
theorem sourced_iff (a : SpecArgs) (u : WorkUnit) (n : Name) :
    (∃ p ∈ a.producers, p.1 = n ∧ ∀ v ∈ p.2, v ∈ u.dependencies.toList) ↔
      (∃ b ∈ a.initialInputs, b.name = n) ∨
        ∃ d ∈ u.dependencies, ∃ v ∈ a.workUnits, v.workUnitId = d ∧ n ∈ v.outputs := by
  constructor
  · rintro ⟨p, hp, rfl, hd⟩
    rcases List.mem_append.1 hp with hi | ho
    · obtain ⟨b, hb, rfl⟩ := List.mem_map.1 hi
      exact .inl ⟨b, hb, rfl⟩
    · obtain ⟨v, hv, ho⟩ := List.mem_flatMap.1 ho
      obtain ⟨o, ho', rfl⟩ := List.mem_map.1 ho
      exact .inr ⟨v.workUnitId, hd _ rfl, v, hv, rfl, ho'⟩
  · rintro (⟨b, hb, rfl⟩ | ⟨d, hd, v, hv, rfl, ho⟩)
    · exact ⟨(b.name, none), List.mem_append_left _ (List.mem_map_of_mem hb), rfl, nofun⟩
    · refine ⟨(n, some v.workUnitId), List.mem_append_right _ (List.mem_flatMap.2
        ⟨v, hv, List.mem_map_of_mem ho⟩), rfl, ?_⟩
      rintro _ ⟨⟩
      exact hd

/-- What the constructor requires is that there are units, that every initial input is initial,
and that the graph is admissible. -/
theorem valid_iff {a : SpecArgs} (hs : a.ScalarsValid) :
    a.Valid ↔ a.workUnits ≠ [] ∧ (∀ b ∈ a.initialInputs, b.source = .initial) ∧
      AdmissibleGraph a.workUnits a.initialInputs := by
  constructor
  · intro v
    obtain ⟨hdeps, hacyclic⟩ := (topologicalOrder_total_iff v.unitIds).1 v.ordered
    refine ⟨v.unitsNonempty, v.inputsInitial, v.unitIds, hdeps, hacyclic, ?_, ?_⟩
    · rw [← map_fst_producers]
      exact v.producersNodup
    · exact fun u hu n hn => (sourced_iff a u n).1 (v.sourced u hu n hn)
  · rintro ⟨hne, hinit, g⟩
    have hproducers : (a.producers.map Prod.fst).Nodup := by
      rw [map_fst_producers]
      exact g.producers
    exact {
      unitsNonempty := hne
      unitIds := g.unitIds
      inputNames := (List.nodup_append.1 g.producers).1
      inputsInitial := hinit
      criteria := hs.criteria
      policies := hs.policies
      criteriaNonempty := hs.criteriaNonempty
      policiesNonempty := hs.policiesNonempty
      revisionPos := hs.revisionPos
      dependencies := g.dependencies
      producersNodup := hproducers
      ordered := (topologicalOrder_total_iff g.unitIds).2 ⟨g.dependencies, g.acyclic⟩
      sourced := fun u hu n hn => (sourced_iff a u n).2 (g.sourced u hu n hn) }

end SpecArgs

/-! ## Main result -/

/-- **Graph admission is exact.** With valid fields besides the graph, the constructor returns
exactly when there are units, no initial input cites a predecessor and the graph is admissible.
The elimination ends by itself on every list of units with different identifiers: it returns
exactly when every dependency exists and there is no cycle, and then an order of the units in
which every unit comes after its dependencies. -/
theorem graph_admission :
    (∀ a : SpecArgs, a.ScalarsValid →
      ((∃ p, ProgramSpec.init a = .ok p) ↔ a.workUnits ≠ [] ∧
        (∀ b ∈ a.initialInputs, b.source = .initial) ∧
          SpecArgs.AdmissibleGraph a.workUnits a.initialInputs)) ∧
    ∀ units : List WorkUnit, (units.map WorkUnit.workUnitId).Nodup →
      (∀ fuel, units.length ≤ fuel → Layers.loop fuel (dependencyGraph units) =
        Layers.topologicalOrder (dependencyGraph units)) ∧
      ((∃ order, topologicalOrder units = .ok order) ↔
        DependenciesExist units ∧ Acyclic units) ∧
      ∀ order, topologicalOrder units = .ok order →
        order.Perm (units.map WorkUnit.workUnitId) ∧
          ∀ n d, DependsOn units n d → order.idxOf d < order.idxOf n := by
  refine ⟨fun a hs => ?_, fun units hn => ⟨fun fuel hf => ?_, topologicalOrder_total_iff hn,
    fun order => topologicalOrder_spec hn⟩⟩
  · rw [← SpecArgs.valid_iff hs]
    constructor
    · rintro ⟨p, hp⟩
      exact (ProgramSpec.init_eq_ok.1 hp).1
    · exact fun v => ⟨.ofValid a v, ProgramSpec.init_eq_ok.2 ⟨v, rfl⟩⟩
  · exact Layers.loop_of_le (by simpa [dependencyGraph] using hf)

/-! ### A graph without units, and one with a missing dependency -/

namespace Sample

/-- The sample fields with no units. -/
def unitless : SpecArgs := { spec.args with workUnits := [] }

/-- A unit that depends on a unit that does not exist. -/
def dangling : WorkUnit :=
  { unit with dependencies := ⟨[⟨"missing", Nonblank.missing⟩], List.pairwise_singleton _ _⟩ }

end Sample

/-- The empty graph meets every condition on graphs, with valid fields besides, and is refused;
the elimination fails on a graph that has no cycle but a missing dependency. -/
theorem graph_admission_empty :
    (Sample.unitless.ScalarsValid ∧
      SpecArgs.AdmissibleGraph Sample.unitless.workUnits Sample.unitless.initialInputs ∧
      ∀ p, ProgramSpec.init Sample.unitless ≠ .ok p) ∧
    Acyclic [Sample.dangling] ∧ ∀ order, topologicalOrder [Sample.dangling] ≠ .ok order := by
  refine ⟨⟨⟨by decide, by decide, by decide, by decide, by decide⟩,
    ⟨by simp [Sample.unitless], ?_, ?_, by decide, ?_⟩, fun p hp => ?_⟩, ?_, fun order h => ?_⟩
  · intro u hu
    cases hu
  · intro n hn
    obtain ⟨d, ⟨u, hu, -⟩, -⟩ := Relation.TransGen.head'_iff.1 hn
    cases hu
  · intro u hu
    cases hu
  · exact (ProgramSpec.init_eq_ok.1 hp).1.unitsNonempty rfl
  · intro n hn
    obtain ⟨m, hnm, hmn⟩ := Relation.TransGen.tail'_iff.1 hn
    -- the only edge leads to a node without edges
    have hedge : ∀ {a b}, DependsOn [Sample.dangling] a b → a.val = "build" ∧ b.val = "missing" := by
      rintro a b ⟨u, hu, rfl, hb⟩
      obtain rfl := List.mem_singleton.1 hu
      exact ⟨rfl, congrArg Subtype.val (List.mem_singleton.1 hb)⟩
    obtain ⟨d, hnd, -⟩ := Relation.TransGen.head'_iff.1 hn
    exact absurd ((hedge hnd).1.symm.trans (hedge hmn).2) (by decide)
  · have hnone : (topologicalOrder [Sample.dangling]).isOk = false := by decide
    rw [h] at hnone
    cases hnone

end CreatidyKernel
