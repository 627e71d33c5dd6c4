import CreatidyKernel.Core.Acceptance
import CreatidyKernel.Core.Admission

set_option relaxedAutoImplicit false
set_option autoImplicit false

/-!
# Resolution of the inputs of a unit

The inputs of a unit are collected into a dictionary by name, from the initial inputs and then
from one predecessor after the other, where a later entry overwrites an earlier one. In a
reachable Program nothing is overwritten: a required name has one source, although the
satisfaction consulted may have been issued under another revision of the specification.

## Main definitions

* `resolvedAlong` — the loop along any order of the dependencies.
* `Program.Supplies` — where the binding of a required name comes from.
* `Program.Preparable` — what `PrepareAttempt` asks for apart from the state of the unit and its
  inputs.

## Main results

* `Program.supplies_unique` — a name has one source.
* `Program.resolvedAlong_spec` — when the loop resolves the inputs, and to what.
* `Program.input_resolution` — the inputs are missing exactly while a direct dependency is not
  satisfied, and they are all a ready unit needs for its next Attempt.
* `Program.ready_outstanding` — a ready unit whose live Attempt holds replaced inputs.
-/

namespace CreatidyKernel

open Checked

/-- The loop of `_resolved_inputs` along the dependencies in some order. -/
def resolvedAlong (spec : ProgramSpec) (unit : WorkUnit) (dependencies : List Name)
    (projected : Name → Option WorkUnitState)
    (satisfactions : Name → Option TrustedSatisfaction) :
    Except Failure (Option (List InputBinding)) := do
  let waiting ← anyM (unsatisfied projected) dependencies
  if waiting then return none
  else
    let found ← dependencies.mapM (predecessorOutputs unit projected satisfactions)
    return collectInputs unit.requiredInputs
      ((spec.initialInputs.toList.filter fun b => b.name ∈ unit.requiredInputs) ++ found.flatten)

/-- The code visits the dependencies in the order of the unit. -/
theorem resolvedAlong_dependencies (spec : ProgramSpec) (unit : WorkUnit)
    (projected : Name → Option WorkUnitState)
    (satisfactions : Name → Option TrustedSatisfaction) :
    resolvedAlong spec unit unit.dependencies.toList projected satisfactions =
      resolvedInputs spec unit projected satisfactions := rfl

theorem WorkUnitState.status_eq_pending {s : WorkUnitState} :
    s.status = .pending ↔ s.phase = .pending := by
  cases h : s.phase <;> simp [WorkUnitState.status, h]

/-- A unit whose inputs are resolved is not pending. -/
theorem openPhase_ne_pending (attempts : List Attempt) (n : Name) (inputs : List InputBinding) :
    openPhase attempts n (some inputs) ≠ .pending := by
  unfold openPhase
  repeat' split
  all_goals simp_all

namespace Program

/-- The table of the satisfactions of a Program. -/
abbrev satisfactionById (p : Program) : Name → Option TrustedSatisfaction :=
  index TrustedSatisfaction.referenceId p.satisfactions

/-- A direct dependency is not satisfied. -/
def Waiting (p : Program) (unit : WorkUnit) : Prop :=
  ∃ d ∈ unit.dependencies, ∃ t ∈ p.workUnitStates, t.workUnitId = d ∧ t.status ≠ .satisfied

/-- The binding of a required name: an initial input, or an output of the satisfaction chosen
for a direct predecessor. -/
def Supplies (p : Program) (unit : WorkUnit) (b : InputBinding) : Prop :=
  b.name ∈ unit.requiredInputs ∧ (b ∈ p.spec.initialInputs ∨
    ∃ t ∈ p.workUnitStates, t.workUnitId ∈ unit.dependencies ∧
      ∃ s ∈ p.satisfactions, t.phase = .satisfied s.referenceId ∧
        ∃ o ∈ s.outputBindings, b = predecessorBinding t.workUnitId s o)

/-- What `PrepareAttempt` requires of a command apart from the state of the unit and the
bindings of the requested Attempt. -/
structure Preparable [Sha256] (p : Program) (unit : WorkUnit) (c : DomainCommand)
    (requested : AttemptSpec) : Prop where
  request : c.request = .prepareAttempt requested
  revision : c.expectedRevision = p.revision
  authorized : p.authorize .prepareAttempt c.actorId = .ok ()
  program : requested.programId = p.programId
  pin : requested.pin = (p.spec.revision, p.spec.digest)
  subject : requested.workUnitId = unit.workUnitId
  active : p.status = .active
  fresh : ∀ a ∈ p.attempts, a.attemptId ≠ requested.attemptId
  /-- No Attempt for the unit is outstanding. -/
  alone : ∀ a ∈ p.attempts, a.spec.workUnitId = unit.workUnitId → ¬a.Live
  lineage : p.checkLineage unit requested.remediationOf = .ok ()
  admitted : p.attempts.length < min p.spec.budget.maxAttempts p.spec.authority.maxAttempts
  admittedActive : (p.attempts.filter fun a => a.Live).length < p.spec.budget.maxActiveAttempts

section

variable [Sha256] {p : Program} {unit : WorkUnit}

/-! ## One source for a name -/

/-- The unit that produces a supplied name, if it is not an initial input. -/
theorem producer_of_supplies (h : p.Coherent) {b : InputBinding} (hb : p.Supplies unit b) :
    (b ∈ p.spec.initialInputs ∧ (b.name, none) ∈ p.spec.args.producers) ∨
      ∃ t ∈ p.workUnitStates, (b.name, some t.workUnitId) ∈ p.spec.args.producers ∧
        ∃ s ∈ p.satisfactions, t.phase = .satisfied s.referenceId ∧
          ∃ o ∈ s.outputBindings, b = predecessorBinding t.workUnitId s o := by
  obtain ⟨-, hi | ⟨t, ht, -, s, hs, hphase, o, ho, rfl⟩⟩ := hb
  · exact .inl ⟨hi, List.mem_append_left _ (List.mem_map_of_mem hi)⟩
  · -- the chosen satisfaction binds exactly the outputs its unit declares now
    obtain ⟨v, hv, hvid, hout⟩ := satisfied_outputs h ht hs hphase
    have hname : o.name ∈ v.outputs := by
      rw [← hout, TrustedSatisfaction.outputNames, SortedSet.mem_ofList]
      exact List.mem_map_of_mem ho
    refine .inr ⟨t, ht, ?_, s, hs, hphase, o, ho, rfl⟩
    rw [← hvid]
    exact List.mem_append_right _ (List.mem_flatMap.2 ⟨v, hv, List.mem_map_of_mem hname⟩)

/-- A name has no two sources: neither an initial input and a predecessor, nor two
predecessors, nor two bindings of one source. -/
theorem supplies_unique (h : p.Coherent) {b b' : InputBinding} (hb : p.Supplies unit b)
    (hb' : p.Supplies unit b') (hn : b.name = b'.name) : b = b' := by
  rcases producer_of_supplies h hb with ⟨hi, hp⟩ | ⟨t, ht, hp, s, hs, hphase, o, ho, he⟩
  · rcases producer_of_supplies h hb' with ⟨hi', -⟩ | ⟨t', -, hp', -⟩
    · exact p.spec.initialInputs.eq_of_key_eq hi hi' hn
    · rw [hn] at hp
      exact absurd (producer_unique p.spec hp hp') nofun
  · rcases producer_of_supplies h hb' with ⟨-, hp'⟩ | ⟨t', ht', hp', s', hs', hphase', o', ho', he'⟩
    · rw [hn] at hp
      exact absurd (producer_unique p.spec hp hp') nofun
    · have hid : t.workUnitId = t'.workUnitId :=
        Option.some.inj (producer_unique p.spec (hn ▸ hp) hp')
      obtain rfl : t = t' := List.inj_on_of_nodup_map h.nodup_workUnitId ht ht' hid
      obtain rfl : s = s' := List.inj_on_of_nodup_map h.ledger.satisfactions.ids hs hs'
        (Phase.satisfied.inj (hphase.symm.trans hphase'))
      obtain rfl : o = o' := s.outputBindings.eq_of_key_eq ho ho' (by
        rw [he, he'] at hn
        exact hn)
      exact he.trans he'.symm

/-- Supplied bindings of the same names are the same bindings. -/
theorem supplied_eq (h : p.Coherent) {l l' : List InputBinding}
    (hn : l.map InputBinding.name = l'.map InputBinding.name)
    (hl : ∀ b ∈ l, p.Supplies unit b) (hl' : ∀ b ∈ l', p.Supplies unit b) : l = l' := by
  induction l generalizing l' with
  | nil => exact (List.map_eq_nil_iff.1 hn.symm).symm
  | cons b l ih =>
    cases l' with
    | nil => cases hn
    | cons b' l' =>
      obtain ⟨hb, hrest⟩ := List.cons.inj hn
      rw [List.forall_mem_cons] at hl hl'
      rw [supplies_unique h hl.1 hl'.1 hb, ih hrest hl.2 hl'.2]

/-! ## The tables of a Program -/

/-- Every direct dependency has a state, and a satisfied one has its satisfaction. -/
theorem dependency_state (h : p.Coherent) (hu : unit ∈ p.spec.workUnits) {d : Name}
    (hd : d ∈ unit.dependencies) : ∃ t ∈ p.workUnitStates, t.workUnitId = d ∧
      stateById p.workUnitStates d = some t ∧
      ∀ f, t.phase = .satisfied f → ∃ s ∈ p.satisfactions, s.referenceId = f ∧
        p.satisfactionById f = some s := by
  have hmem : d ∈ p.workUnitStates.map WorkUnitState.workUnitId := by
    rw [h.map_workUnitId]
    exact ProgramSpec.mem_unitIds_of_dependency hu hd
  obtain ⟨t, ht, rfl⟩ := List.mem_map.1 hmem
  refine ⟨t, ht, rfl, (index_eq_some_iff h.nodup_workUnitId).2 ⟨ht, rfl⟩, fun f hf => ?_⟩
  obtain ⟨_, _, _, matching, latest, -, -, -, -, -, hm, hl, hid⟩ := satisfied_inv h ht hf
  have hs : latest ∈ p.satisfactions := (((filterM_eq_ok hm).2 latest).1 (List.argmax_mem hl)).1
  exact ⟨latest, hs, hid, (index_eq_some_iff h.ledger.satisfactions.ids).2 ⟨hs, hid⟩⟩

/-- The dictionary the loop fills holds the supplied bindings, in whatever order the
dependencies are visited. -/
theorem mem_resolved (h : p.Coherent) {deps : List Name}
    (hdeps : ∀ d, d ∈ deps ↔ d ∈ unit.dependencies) {found : List (List InputBinding)}
    (hfound : deps.mapM (predecessorOutputs unit (stateById p.workUnitStates) p.satisfactionById) =
      .ok found) {b : InputBinding} :
    b ∈ (p.spec.initialInputs.toList.filter fun b => b.name ∈ unit.requiredInputs) ++
      found.flatten ↔ p.Supplies unit b := by
  rw [List.mem_append, List.mem_filter, decide_eq_true_iff, SortedBy.mem_toList]
  constructor
  · rintro (⟨hi, hn⟩ | hp)
    · exact ⟨hn, .inl hi⟩
    · obtain ⟨out, hout, hbo⟩ := List.mem_flatten.1 hp
      obtain ⟨d, hd, hdo⟩ := exists_of_mem_result hfound hout
      obtain ⟨t, f, s, ht, hphase, hs, rfl⟩ := predecessorOutputs_eq_ok.1 hdo
      obtain ⟨o, ho, rfl⟩ := List.mem_map.1 hbo
      obtain ⟨htm, rfl⟩ := index_eq_some ht
      obtain ⟨hsm, rfl⟩ := index_eq_some hs
      rw [List.mem_filter, decide_eq_true_iff] at ho
      exact ⟨ho.2, .inr ⟨t, htm, (hdeps _).1 hd, s, hsm, hphase, o, ho.1, rfl⟩⟩
  · rintro ⟨hn, hi | ⟨t, ht, hd, s, hs, hphase, o, ho, rfl⟩⟩
    · exact .inl ⟨hi, hn⟩
    · obtain ⟨out, hout, hdo⟩ := exists_of_mem_mapM hfound ((hdeps _).2 hd)
      obtain ⟨t', f', s', ht', hphase', hs', rfl⟩ := predecessorOutputs_eq_ok.1 hdo
      obtain ⟨htm', he⟩ := index_eq_some ht'
      obtain rfl := List.inj_on_of_nodup_map h.nodup_workUnitId htm' ht he
      obtain ⟨hsm', he'⟩ := index_eq_some hs'
      obtain rfl := List.inj_on_of_nodup_map h.ledger.satisfactions.ids hsm' hs
        (he'.trans (Phase.satisfied.inj (hphase'.symm.trans hphase)))
      refine .inr (List.mem_flatten.2 ⟨_, hout, List.mem_map_of_mem (List.mem_filter.2 ⟨ho, ?_⟩)⟩)
      exact decide_eq_true hn

/-- Every required name is supplied when the direct dependencies are satisfied: its producer is
an initial input or a direct dependency, whose satisfaction binds the outputs it declares. -/
theorem exists_supplies (h : p.Coherent) (hu : unit ∈ p.spec.workUnits) (hw : ¬p.Waiting unit)
    {n : Name} (hn : n ∈ unit.requiredInputs) : ∃ b, b.name = n ∧ p.Supplies unit b := by
  obtain ⟨⟨name, producer⟩, hp, he, hdirect⟩ := p.spec.valid.sourced unit hu n hn
  obtain rfl : name = n := he
  rcases List.mem_append.1 hp with hp | hp
  · obtain ⟨b, hb, he⟩ := List.mem_map.1 hp
    obtain ⟨hname, -⟩ := Prod.mk.inj he
    exact ⟨b, hname, hname ▸ hn, .inl hb⟩
  · obtain ⟨v, hv, ho⟩ := List.mem_flatMap.1 hp
    obtain ⟨o, ho, he⟩ := List.mem_map.1 ho
    obtain ⟨rfl, rfl⟩ := Prod.mk.inj he
    have hd : v.workUnitId ∈ unit.dependencies := hdirect _ rfl
    obtain ⟨t, ht, htd, -, hsat⟩ := dependency_state h hu hd
    have hst : t.status = .satisfied := by
      by_contra hne
      exact hw ⟨v.workUnitId, hd, t, ht, htd, hne⟩
    obtain ⟨f, hf⟩ := WorkUnitState.status_eq_satisfied.1 hst
    obtain ⟨s, hs, rfl, -⟩ := hsat f hf
    obtain ⟨v', hv', hvid, hout⟩ := satisfied_outputs h ht hs hf
    obtain rfl : v' = v := p.spec.workUnits.eq_of_key_eq hv' hv (hvid.trans htd)
    have hbound : o ∈ s.outputNames := by rwa [hout]
    rw [TrustedSatisfaction.outputNames, SortedSet.mem_ofList, List.mem_map] at hbound
    obtain ⟨b, hb, rfl⟩ := hbound
    exact ⟨predecessorBinding t.workUnitId s b, rfl, hn,
      .inr ⟨t, ht, htd ▸ hd, s, hs, hf, b, hb, rfl⟩⟩

/-- The loop resolves nothing exactly while a direct dependency is not satisfied, and otherwise
the required names, each with the binding that is supplied for it. -/
theorem resolvedAlong_spec (h : p.Coherent) (hu : unit ∈ p.spec.workUnits) {deps : List Name}
    (hdeps : ∀ d, d ∈ deps ↔ d ∈ unit.dependencies) :
    ∃ result, resolvedAlong p.spec unit deps (stateById p.workUnitStates) p.satisfactionById =
        .ok result ∧
      (result = none ↔ p.Waiting unit) ∧
      ∀ inputs ∈ result, inputs.map InputBinding.name = unit.requiredInputs.toList ∧
        ∀ b ∈ inputs, p.Supplies unit b := by
  have htests : ∀ d ∈ deps, ∃ b, unsatisfied (stateById p.workUnitStates) d = .ok b := by
    intro d hd
    obtain ⟨t, -, -, ht, -⟩ := dependency_state h hu ((hdeps d).1 hd)
    exact ⟨_, unsatisfied_eq_ok.2 ⟨t, ht, decide_eq_true_iff (p := t.status ≠ .satisfied)⟩⟩
  obtain ⟨waiting, hany, hiff⟩ := anyM_eq_ok htests
  have hwaiting : waiting = true ↔ p.Waiting unit := by
    rw [hiff]
    constructor
    · rintro ⟨d, hd, hu⟩
      obtain ⟨t, ht, hst⟩ := unsatisfied_eq_ok.1 hu
      obtain ⟨htm, htd⟩ := index_eq_some ht
      exact ⟨d, (hdeps d).1 hd, t, htm, htd, hst.1 rfl⟩
    · rintro ⟨d, hd, t, ht, rfl, hst⟩
      exact ⟨t.workUnitId, (hdeps _).2 hd, unsatisfied_eq_ok.2
        ⟨t, (index_eq_some_iff h.nodup_workUnitId).2 ⟨ht, rfl⟩, by simp [hst]⟩⟩
  rw [resolvedAlong, hany, ok_bind]
  cases waiting with
  | true => exact ⟨none, rfl, by simpa using hwaiting, by simp⟩
  | false =>
    have hw : ¬p.Waiting unit := fun hw => Bool.false_ne_true (hwaiting.2 hw)
    have hout : ∀ d ∈ deps, ∃ out, predecessorOutputs unit (stateById p.workUnitStates)
        p.satisfactionById d = .ok out := by
      intro d hd
      obtain ⟨t, ht, htd, htable, hsat⟩ := dependency_state h hu ((hdeps d).1 hd)
      have hst : t.status = .satisfied := by
        by_contra hne
        exact hw ⟨d, (hdeps d).1 hd, t, ht, htd, hne⟩
      obtain ⟨f, hf⟩ := WorkUnitState.status_eq_satisfied.1 hst
      obtain ⟨s, -, -, hs⟩ := hsat f hf
      exact ⟨_, predecessorOutputs_eq_ok.2 ⟨t, f, s, htable, hf, hs, rfl⟩⟩
    obtain ⟨found, hfound⟩ := exists_mapM_eq_ok hout
    have hmem := fun b => mem_resolved h hdeps hfound (b := b)
    set resolved := (p.spec.initialInputs.toList.filter fun b => b.name ∈ unit.requiredInputs) ++
      found.flatten with hresolved
    have hall : ∀ n ∈ unit.requiredInputs.toList,
        (index InputBinding.name resolved n).isSome := by
      intro n hn
      obtain ⟨b, rfl, hb⟩ := exists_supplies h hu hw hn
      rw [Option.isSome_iff_ne_none, ne_eq, index_eq_none_iff]
      exact fun hne => hne b ((hmem b).2 hb) rfl
    have hcollect : collectInputs unit.requiredInputs resolved =
        some (unit.requiredInputs.toList.filterMap (index InputBinding.name resolved)) :=
      if_pos hall
    refine ⟨_, by simp only [Bool.false_eq_true, if_false, hfound, ok_bind]; rfl, ?_, ?_⟩
    · rw [← hresolved, hcollect]
      simpa using hw
    · intro inputs hi
      rw [← hresolved] at hi
      obtain ⟨hnames, hb⟩ := collectInputs_eq_some.1 hi
      exact ⟨hnames, fun b hbm => (hmem b).1 (index_eq_some (hb b hbm)).1⟩

/-- The result does not depend on the order in which the dependencies are visited. -/
theorem resolvedAlong_eq (h : p.Coherent) (hu : unit ∈ p.spec.workUnits) {deps : List Name}
    (hdeps : ∀ d, d ∈ deps ↔ d ∈ unit.dependencies) :
    resolvedAlong p.spec unit deps (stateById p.workUnitStates) p.satisfactionById =
      CreatidyKernel.resolvedInputs p.spec unit (stateById p.workUnitStates)
        p.satisfactionById := by
  obtain ⟨r, hr, hnone, hsome⟩ := resolvedAlong_spec h hu hdeps
  obtain ⟨r', hr', hnone', hsome'⟩ := resolvedAlong_spec h hu
    fun d => (Iff.rfl : d ∈ unit.dependencies.toList ↔ d ∈ unit.dependencies)
  rw [← resolvedAlong_dependencies, hr, hr']
  cases r with
  | none => rw [hnone'.2 (hnone.1 rfl)]
  | some inputs =>
    cases r' with
    | none => exact absurd (hnone.2 (hnone'.1 rfl)) nofun
    | some inputs' =>
      obtain ⟨hnames, hall⟩ := hsome inputs rfl
      obtain ⟨hnames', hall'⟩ := hsome' inputs' rfl
      rw [supplied_eq h (hnames.trans hnames'.symm) hall hall']

/-! ## Ready and pending units -/

/-- Whether a unit without an applicable satisfaction and without a live Attempt on current
inputs is ready or pending is decided by its inputs. -/
theorem resolved_of_phase (h : p.Coherent) (hd : p.status ≠ .draft)
    (hu : unit ∈ p.spec.workUnits) {s : WorkUnitState} (hs : s ∈ p.workUnitStates)
    (hid : s.workUnitId = unit.workUnitId) {inputs : Option (List InputBinding)}
    (hr : CreatidyKernel.resolvedInputs p.spec unit (stateById p.workUnitStates)
      p.satisfactionById = .ok inputs) :
    (s.status = .pending → inputs = none) ∧ (s.status = .ready → inputs ≠ none) := by
  obtain ⟨v, fp, hv, hvid, -, ⟨-, heq⟩ | ⟨-, inputs', matching, hr', -, heq⟩⟩ :=
    projectUnit_inv ((project_fixedPoint (h.projected hd)).2 s hs)
  · rw [heq]
    exact ⟨nofun, nofun⟩
  · obtain rfl : v = unit := p.spec.workUnits.eq_of_key_eq hv hu (hvid.trans hid)
    obtain rfl : inputs = inputs' := Except.ok.inj (hr.symm.trans hr')
    rw [heq]
    cases matching.argmax TrustedSatisfaction.recordOrder with
    | some latest => exact ⟨nofun, nofun⟩
    | none =>
      cases inputs with
      | none => exact ⟨fun _ => rfl, nofun⟩
      | some inputs =>
        refine ⟨fun hp => ?_, fun _ => nofun⟩
        exact absurd (WorkUnitState.status_eq_pending.1 hp) (openPhase_ne_pending _ _ _)

/-- Under the other conditions of the command a ready unit is prepared exactly with its resolved
inputs. -/
theorem prepare_ready (hp : p.Reachable) (hu : unit ∈ p.spec.workUnits) {s : WorkUnitState}
    (hs : s ∈ p.workUnitStates) (hid : s.workUnitId = unit.workUnitId)
    (hready : s.status = .ready) {inputs : List InputBinding}
    (hr : p.resolvedInputs unit.workUnitId = .ok inputs) {c : DomainCommand}
    {requested : AttemptSpec} (hc : p.Preparable unit c requested) :
    (∃ q, p.apply c = .ok q) ↔ requested.effectiveInputs.toList = inputs := by
  have hunit : p.spec.workUnit requested.workUnitId = .ok unit :=
    ProgramSpec.workUnit_eq_ok.2 ⟨hu, hc.subject.symm⟩
  have hstate : p.state unit.workUnitId = .ok s := hp.coherent.state_eq_ok.2 ⟨hs, hid⟩
  have hprepare (d : Ledger) : p.prepareAttempt c.actorId requested = .ok d ↔
      requested.effectiveInputs.toList = inputs ∧
        { p.toLedger with attempts := p.attempts ++ [⟨requested, .prepared, c.actorId⟩] } = d := by
    simp only [prepareAttempt, check_of hc.program, check_of hc.pin, check_of hc.active,
      check_of hc.fresh, check_of hc.alone, check_of hc.admitted, check_of hc.admittedActive,
      check_of hready, hunit, hstate, hr, hc.lineage, ok_bind, check_bind_eq_ok, pure_eq_ok]
  have hguards : p.guards c = some <$> p.prepareAttempt c.actorId requested := by
    rw [guards, check_of hc.revision, hc.request]
    simp only [Request.action, hc.authorized, ok_bind]
  constructor
  · rintro ⟨q, hq⟩
    obtain ⟨d, hg, -⟩ := bind_eq_ok.1 hq
    rw [hguards, map_eq_ok] at hg
    obtain ⟨d, hd, -⟩ := hg
    exact ((hprepare d).1 hd).1
  · intro he
    have hg := hguards.trans (congrArg (some <$> ·) ((hprepare _).2 ⟨he, rfl⟩))
    obtain ⟨hd, hsub⟩ := guards_coherent hp.coherent hg
    obtain ⟨states, hq, -⟩ := assemble_coherent hp.coherent hd hsub
    exact ⟨_, bind_of_ok hg hq⟩

/-- No Attempt is prepared for a unit with an outstanding one. -/
theorem prepare_refused {a : Attempt} (ha : a ∈ p.attempts) (hl : a.Live) {c : DomainCommand}
    {requested : AttemptSpec} (hc : c.request = .prepareAttempt requested)
    (he : requested.workUnitId = a.spec.workUnitId) (q : Program) : p.apply c ≠ .ok q := by
  intro hq
  obtain ⟨d, hg, -⟩ := bind_eq_ok.1 hq
  simp only [guards, hc, bind_eq_ok, map_eq_ok, prepareAttempt, check_eq_ok] at hg
  obtain ⟨_, -, _, -, _, ⟨_, -, _, -, unit, hu, _, -, _, -, _, -, _, -, _, halone, -⟩, -⟩ := hg
  obtain ⟨-, hid⟩ := ProgramSpec.workUnit_eq_ok.1 hu
  exact halone a ha (he.symm.trans hid.symm) hl

/-! ## Main result -/

/-- In every reachable Program past the draft, the inputs of a unit of the current
specification are missing exactly while a direct dependency is not satisfied. Otherwise they
bind the required names, each from its one source, in whatever order the dependencies are
visited. So a pending unit waits for a dependency; a ready one has its inputs, and a command that
meets the other conditions, among them that no Attempt for the unit is outstanding, prepares
an Attempt exactly with these inputs. -/
theorem input_resolution (hp : p.Reachable) (hd : p.status ≠ .draft)
    (hu : unit ∈ p.spec.workUnits) :
    (∃ result, CreatidyKernel.resolvedInputs p.spec unit (stateById p.workUnitStates)
        p.satisfactionById = .ok result ∧
      (result = none ↔ p.Waiting unit) ∧
      ∀ inputs ∈ result, inputs.map InputBinding.name = unit.requiredInputs.toList ∧
        ∀ b ∈ inputs, p.Supplies unit b) ∧
    (∀ b b', p.Supplies unit b → p.Supplies unit b' → b.name = b'.name → b = b') ∧
    (∀ deps : List Name, (∀ d, d ∈ deps ↔ d ∈ unit.dependencies) →
      resolvedAlong p.spec unit deps (stateById p.workUnitStates) p.satisfactionById =
        CreatidyKernel.resolvedInputs p.spec unit (stateById p.workUnitStates)
          p.satisfactionById) ∧
    ∀ s ∈ p.workUnitStates, s.workUnitId = unit.workUnitId →
      (s.status = .pending → p.Waiting unit) ∧
      (s.status = .ready → ∃ inputs : Bindings,
        p.resolvedInputs unit.workUnitId = .ok inputs.toList ∧
        ∀ c requested, p.Preparable unit c requested →
          ((∃ q, p.apply c = .ok q) ↔ requested.effectiveInputs = inputs)) := by
  have h := hp.coherent
  obtain ⟨result, hr, hnone, hsome⟩ := resolvedAlong_spec h hu
    fun d => (Iff.rfl : d ∈ unit.dependencies.toList ↔ d ∈ unit.dependencies)
  rw [resolvedAlong_dependencies] at hr
  refine ⟨⟨result, hr, hnone, hsome⟩, fun b b' => supplies_unique h,
    fun deps hdeps => resolvedAlong_eq h hu hdeps, fun s hs hid => ⟨fun hpending => ?_,
      fun hready => ?_⟩⟩
  · exact hnone.1 ((resolved_of_phase h hd hu hs hid hr).1 hpending)
  · have hne := (resolved_of_phase h hd hu hs hid hr).2 hready
    obtain ⟨inputs, rfl⟩ := Option.ne_none_iff_exists'.1 hne
    obtain ⟨hnames, -⟩ := hsome inputs rfl
    have hsorted : inputs.Pairwise (InputBinding.name · < InputBinding.name ·) := by
      rw [← List.pairwise_map, hnames]
      exact unit.requiredInputs.sorted
    have hinputs : p.resolvedInputs unit.workUnitId = .ok inputs := by
      rw [resolvedInputs, ProgramSpec.workUnit_eq_ok.2 ⟨hu, rfl⟩, ok_bind, hr]
      rfl
    refine ⟨⟨inputs, hsorted⟩, hinputs, fun c requested hc => ?_⟩
    rw [prepare_ready hp hu hs hid hready hinputs hc]
    exact ⟨fun he => SortedBy.ext he, fun he => he ▸ rfl⟩

end

end Program

/-! ### A ready unit with an outstanding Attempt -/

namespace Sample

/-- The first artifact is accepted, the second unit is prepared with it, and then the other
artifact is accepted. -/
def untilReplaced : List DomainCommand :=
  untilReview.take 8 ++ [⟨8, ⟨"owner", Nonblank.owner⟩, .prepareAttempt reviewing⟩,
    { reaccept with expectedRevision := 9 }]

end Sample

/-- After the first of two units is accepted, the second is ready and is prepared exactly with
its resolved inputs. -/
theorem Program.input_resolution_sample :
    ∃ p, @Reachable Sample.sha256 p ∧ ∃ inputs : Bindings,
      p.resolvedInputs Sample.consuming.workUnitId = .ok inputs.toList ∧
      ∀ c requested, @Preparable Sample.sha256 p Sample.consuming c requested →
        ((∃ q, @apply Sample.sha256 p c = .ok q) ↔ requested.effectiveInputs = inputs) := by
  have hrun : (Sample.chain (Sample.untilReview.take 8) >>= fun p => do
      let s ← p.state Sample.consuming.workUnitId
      return (p.status, s.status, decide (Sample.consuming ∈ p.spec.workUnits))) =
        .ok (.active, .ready, true) := by
    decide +kernel
  obtain ⟨p, hp, h⟩ := bind_eq_ok.1 hrun
  obtain ⟨s, hs, h⟩ := bind_eq_ok.1 h
  obtain ⟨hactive, h⟩ := Prod.mk.inj (pure_eq_ok.1 h)
  obtain ⟨hready, hu⟩ := Prod.mk.inj h
  have hreach := Sample.reachable_chain hp
  obtain ⟨hmem, hid⟩ :=
    (@Coherent.state_eq_ok Sample.sha256 _ (@Reachable.coherent Sample.sha256 _ hreach) _ _).1 hs
  obtain ⟨-, -, -, hphase⟩ := @input_resolution Sample.sha256 p _ hreach
    (by rw [hactive]; nofun) (of_decide_eq_true hu)
  exact ⟨p, hreach, (hphase s hmem hid).2 hready⟩

/-- The review holds the replaced artifact, so its unit is ready and its inputs are resolved;
but the review is outstanding, and no Attempt with the current inputs is prepared. -/
theorem Program.ready_outstanding :
    ∃ p, @Reachable Sample.sha256 p ∧ p.status = .active ∧
      ∃ s ∈ p.workUnitStates, s.status = .ready ∧
        (∃ inputs, p.resolvedInputs s.workUnitId = .ok inputs) ∧
        ∀ c requested, c.request = .prepareAttempt requested →
          requested.workUnitId = s.workUnitId → ∀ q, @Program.apply Sample.sha256 p c ≠ .ok q := by
  have hrun : (Sample.chain Sample.untilReplaced >>= fun p => do
      let s ← p.state Sample.consuming.workUnitId
      let inputs ← p.resolvedInputs s.workUnitId
      let a ← p.attempt Sample.reviewing.attemptId
      return (p.status, s.status, decide (a.Live ∧ a.spec.workUnitId = s.workUnitId))) =
        .ok (.active, .ready, true) := by
    decide +kernel
  obtain ⟨p, hp, h⟩ := bind_eq_ok.1 hrun
  obtain ⟨s, hs, h⟩ := bind_eq_ok.1 h
  obtain ⟨inputs, hi, h⟩ := bind_eq_ok.1 h
  obtain ⟨a, ha, h⟩ := bind_eq_ok.1 h
  obtain ⟨hactive, h⟩ := Prod.mk.inj (pure_eq_ok.1 h)
  obtain ⟨hready, h⟩ := Prod.mk.inj h
  obtain ⟨hl, hunit⟩ := of_decide_eq_true h
  have hreach := Sample.reachable_chain hp
  have hcoherent := @Reachable.coherent Sample.sha256 _ hreach
  refine ⟨p, hreach, hactive, s, ?_, hready, ⟨inputs, hi⟩, fun c requested hc he => ?_⟩
  · exact ((@Coherent.state_eq_ok Sample.sha256 _ hcoherent _ _).1 hs).1
  · have hmem := ((@Coherent.attempt_eq_ok Sample.sha256 _ hcoherent _ _).1 ha).1
    exact @prepare_refused Sample.sha256 _ _ hmem hl _ _ hc (he.trans hunit.symm)

end CreatidyKernel
