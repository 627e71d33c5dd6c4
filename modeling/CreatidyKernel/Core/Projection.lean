import Mathlib.Data.List.MinMax
import CreatidyKernel.Core.Facts

set_option relaxedAutoImplicit false
set_option autoImplicit false

/-!
# The historical projection

The state of every WorkUnit is computed from the current specification and the complete
history of facts, along the dependency order: cancelled under the current intent, satisfied by
the latest applicable fact, active with a live Attempt whose inputs are current, ready, or
pending.

## Main definitions

* `resolvedInputs` — the approved references a unit consumes, if its predecessors provide them.
* `projectUnit`, `project` — the state of one unit given its predecessors, and of all units.
* `Abandoned` — a unit or one of its ancestors is cancelled under its current fingerprint.
* `WorkUnitState.settled` — what the facts settle of a state.

## Main results

* `resolvedInputs_total` — with satisfied predecessors the inputs are resolved without error.
* `project_total` — the projection raises nothing when satisfactions cite known Attempts.
* `project_fixedPoint` — its result is a fixed point of the rule for one unit.
* `projectUnit_inv` — how the state of a unit was decided.
* `cancelled_iff_abandoned` — the cancelled units are the abandoned ones, so they depend on
  the specification and the cancellations only.
* `project_settled` — transitions of Attempts change nothing that is settled.
-/

namespace CreatidyKernel

open Checked

/-! ## Input resolution -/

/-- The binding a consumer gets for an output of a predecessor. -/
def predecessorBinding (predecessor : Name) (source : TrustedSatisfaction)
    (output : InputBinding) : InputBinding :=
  ⟨output.name, output.reference, .predecessor predecessor source.referenceId⟩

/-- The required inputs one satisfied predecessor provides. -/
def predecessorOutputs (unit : WorkUnit) (projected : Name → Option WorkUnitState)
    (satisfactions : Name → Option TrustedSatisfaction) (predecessor : Name) :
    Except Failure (List InputBinding) := do
  let state ← subscript projected predecessor
  let source ← subscript (fun k : Option Name => k.bind satisfactions) state.satisfactionId
  return (source.outputBindings.toList.filter fun o => o.name ∈ unit.requiredInputs).map
    (predecessorBinding predecessor source)

/-- `projected[predecessor].status is not SATISFIED`. -/
def unsatisfied (projected : Name → Option WorkUnitState) (predecessor : Name) :
    Except Failure Bool := do
  let state ← subscript projected predecessor
  return decide (state.status ≠ .satisfied)

/-- The table of resolved names as a tuple in name order, unless a required name is missing. -/
def collectInputs (required : SortedSet Name) (resolved : List InputBinding) :
    Option (List InputBinding) :=
  if ∀ n ∈ required.toList, (index InputBinding.name resolved n).isSome then
    some (required.toList.filterMap (index InputBinding.name resolved))
  else none

/-- `_resolved_inputs`. -/
def resolvedInputs (spec : ProgramSpec) (unit : WorkUnit)
    (projected : Name → Option WorkUnitState)
    (satisfactions : Name → Option TrustedSatisfaction) :
    Except Failure (Option (List InputBinding)) := do
  let waiting ← anyM (unsatisfied projected) unit.dependencies.toList
  if waiting then return none
  else
    let found ← unit.dependencies.toList.mapM (predecessorOutputs unit projected satisfactions)
    return collectInputs unit.requiredInputs
      ((spec.initialInputs.toList.filter fun b => b.name ∈ unit.requiredInputs) ++ found.flatten)

/-- `_same_subject`. -/
def SameSubject (left right : List InputBinding) : Prop :=
  left.map InputBinding.subject = right.map InputBinding.subject

instance (left right : List InputBinding) : Decidable (SameSubject left right) :=
  inferInstanceAs (Decidable (left.map InputBinding.subject = right.map InputBinding.subject))

/-! ## The projection -/

section

variable [Sha256]

/-- `chosen[predecessor].status is CANCELLED`. -/
def inheritsCancellation (chosen : Name → Option WorkUnitState) (predecessor : Name) :
    Except Failure Bool := do
  let state ← subscript chosen predecessor
  return decide (state.status = .cancelled)

/-- The conditions under which a recorded satisfaction counts for a unit. -/
def applicable (attempts : List Attempt) (unit : WorkUnit) (fingerprint : Name)
    (inputs : Option (List InputBinding)) (item : TrustedSatisfaction) : Except Failure Bool :=
  if item.workUnitId = unit.workUnitId ∧ item.workUnitFingerprint = fingerprint ∧
      item.outputNames = unit.outputs then
    match inputs with
    | none => .ok false
    | some inputs => do
      let source ← subscript (index Attempt.attemptId attempts) item.sourceAttemptId
      return decide (SameSubject source.spec.effectiveInputs.toList inputs)
  else .ok false

/-- The first live Attempt for a unit. -/
def liveAttempt (attempts : List Attempt) (unitId : Name) : Option Attempt :=
  attempts.find? fun a => a.spec.workUnitId = unitId ∧ a.Live

/-- The phase of a unit without an applicable satisfaction. -/
def openPhase (attempts : List Attempt) (unitId : Name) (inputs : Option (List InputBinding)) :
    Phase :=
  match inputs with
  | none => .pending
  | some inputs =>
    match liveAttempt attempts unitId with
    | none => .ready
    | some live =>
      if SameSubject live.spec.effectiveInputs.toList inputs then .active live.attemptId
      else .ready

/-- The body of the loop of `_project`: the state of one unit from those chosen before. -/
def projectUnit (spec : ProgramSpec) (attempts : List Attempt)
    (satisfactions : List TrustedSatisfaction) (cancellations : List WorkUnitCancellation)
    (chosen : Name → Option WorkUnitState) (unitId : Name) : Except Failure WorkUnitState := do
  let unit ← spec.workUnit unitId
  let fingerprint ← spec.fingerprint unitId
  let inherited ← anyM (inheritsCancellation chosen) unit.dependencies.toList
  if inherited ∨ ∃ c ∈ cancellations, c.workUnitId = unitId ∧ c.workUnitFingerprint = fingerprint
  then return ⟨unitId, .cancelled⟩
  else
    let inputs ← resolvedInputs spec unit chosen
      (index TrustedSatisfaction.referenceId satisfactions)
    let matching ← filterM (applicable attempts unit fingerprint inputs) satisfactions
    match matching.argmax TrustedSatisfaction.recordOrder with
    | some latest => return ⟨unitId, .satisfied latest.referenceId⟩
    | none => return ⟨unitId, openPhase attempts unitId inputs⟩

/-- The dictionary `_project` fills along the dependency order. -/
def projectTable (spec : ProgramSpec) (attempts : List Attempt)
    (satisfactions : List TrustedSatisfaction) (cancellations : List WorkUnitCancellation) :
    Except Failure (Name → Option WorkUnitState) := do
  let order ← spec.topologicalOrder
  Layers.tabulate (projectUnit spec attempts satisfactions cancellations) (fun _ => none) order

/-- `_project`: the states in the order of the units. -/
def project (spec : ProgramSpec) (attempts : List Attempt)
    (satisfactions : List TrustedSatisfaction) (cancellations : List WorkUnitCancellation) :
    Except Failure (List WorkUnitState) := do
  let chosen ← projectTable spec attempts satisfactions cancellations
  spec.unitIds.mapM (subscript chosen)

end

/-! ## Facts about input resolution -/

/-- Resolved inputs are the required names, each with a resolved binding. -/
theorem collectInputs_eq_some {required : SortedSet Name} {resolved inputs : List InputBinding} :
    collectInputs required resolved = some inputs ↔
      inputs.map InputBinding.name = required.toList ∧
        ∀ b ∈ inputs, index InputBinding.name resolved b.name = some b := by
  have hnames : ∀ l : List Name, (∀ n ∈ l, (index InputBinding.name resolved n).isSome) →
      (l.filterMap (index InputBinding.name resolved)).map InputBinding.name = l := by
    intro l hl
    induction l with
    | nil => rfl
    | cons n l ih =>
      rw [List.forall_mem_cons] at hl
      obtain ⟨b, hb⟩ := Option.isSome_iff_exists.1 hl.1
      rw [List.filterMap_cons_some hb, List.map_cons, ih hl.2, (index_eq_some hb).2]
  unfold collectInputs
  constructor
  · intro h
    split_ifs at h with hall
    obtain rfl := Option.some.inj h
    refine ⟨hnames _ hall, fun b hb => ?_⟩
    obtain ⟨n, -, hn⟩ := List.mem_filterMap.1 hb
    rwa [(index_eq_some hn).2]
  · rintro ⟨hn, hb⟩
    have hall : ∀ n ∈ required.toList, (index InputBinding.name resolved n).isSome := by
      intro n hmem
      rw [← hn, List.mem_map] at hmem
      obtain ⟨b, hbm, rfl⟩ := hmem
      rw [hb b hbm]
      rfl
    rw [if_pos hall, Option.some.injEq, ← hn, List.filterMap_map]
    -- looking a listed name up gives the listed binding back
    clear hn hall
    induction inputs with
    | nil => rfl
    | cons b inputs ih =>
      rw [List.forall_mem_cons] at hb
      rw [List.filterMap_cons_some (b := b) (by exact hb.1), ih hb.2]

/-- Some predecessor is not satisfied. -/
theorem unsatisfied_eq_ok {projected : Name → Option WorkUnitState} {d : Name} {b : Bool} :
    unsatisfied projected d = .ok b ↔
      ∃ s, projected d = some s ∧ (b = true ↔ s.status ≠ .satisfied) := by
  simp only [unsatisfied, bind_eq_ok, subscript_eq_ok, pure_eq_ok]
  constructor
  · rintro ⟨s, hs, rfl⟩
    exact ⟨s, hs, by simp⟩
  · rintro ⟨s, hs, hb⟩
    exact ⟨s, hs, by rw [Bool.eq_iff_iff, hb, decide_eq_true_iff]⟩

/-- The required outputs of a predecessor come from its chosen satisfaction. -/
theorem predecessorOutputs_eq_ok {unit : WorkUnit} {projected : Name → Option WorkUnitState}
    {satisfactions : Name → Option TrustedSatisfaction} {d : Name} {out : List InputBinding} :
    predecessorOutputs unit projected satisfactions d = .ok out ↔
      ∃ s f source, projected d = some s ∧ s.phase = .satisfied f ∧
        satisfactions f = some source ∧
        out = (source.outputBindings.toList.filter fun o => o.name ∈ unit.requiredInputs).map
          (predecessorBinding d source) := by
  simp only [predecessorOutputs, bind_eq_ok, subscript_eq_ok, pure_eq_ok,
    Option.bind_eq_some_iff, WorkUnitState.satisfactionId_eq_some]
  constructor
  · rintro ⟨s, hs, source, ⟨f, hf, hsource⟩, rfl⟩
    exact ⟨s, f, source, hs, hf, hsource, rfl⟩
  · rintro ⟨s, f, source, hs, hf, hsource, rfl⟩
    exact ⟨s, hs, source, ⟨f, hf, hsource⟩, rfl⟩

/-- Inputs are resolved without error when predecessors are projected and the satisfactions
they cite are known. -/
theorem resolvedInputs_total (spec : ProgramSpec) (unit : WorkUnit)
    {projected : Name → Option WorkUnitState}
    {satisfactions : Name → Option TrustedSatisfaction}
    (hp : ∀ d ∈ unit.dependencies, ∃ s, projected d = some s ∧
      ∀ f, s.phase = .satisfied f → (satisfactions f).isSome) :
    ∃ inputs, resolvedInputs spec unit projected satisfactions = .ok inputs := by
  have htests : ∀ d ∈ unit.dependencies.toList, ∃ b, unsatisfied projected d = .ok b := by
    intro d hd
    obtain ⟨s, hs, -⟩ := hp d hd
    exact ⟨_, unsatisfied_eq_ok.2 ⟨s, hs, (decide_eq_true_iff (p := s.status ≠ .satisfied))⟩⟩
  obtain ⟨b, hb, hiff⟩ := anyM_eq_ok htests
  rw [resolvedInputs, hb, ok_bind]
  cases b with
  | true => exact ⟨none, rfl⟩
  | false =>
    have hout : ∀ d ∈ unit.dependencies.toList, ∃ out,
        predecessorOutputs unit projected satisfactions d = .ok out := by
      intro d hd
      obtain ⟨s, hs, hf⟩ := hp d hd
      obtain ⟨s', hs', hst⟩ := unsatisfied_eq_ok.1 (anyM_eq_false hb d hd)
      obtain rfl : s = s' := Option.some.inj (hs.symm.trans hs')
      obtain ⟨f, hphase⟩ := WorkUnitState.status_eq_satisfied.1 (by simpa using hst)
      obtain ⟨source, hsource⟩ := Option.isSome_iff_exists.1 (hf f hphase)
      exact ⟨_, predecessorOutputs_eq_ok.2 ⟨s, f, source, hs, hphase, hsource, rfl⟩⟩
    obtain ⟨found, hfound⟩ := exists_mapM_eq_ok hout
    exact ⟨_, by simp only [Bool.false_eq_true, if_false, hfound, ok_bind]; rfl⟩

/-- Resolved inputs have satisfied predecessors, and every binding is an initial input of the
specification or an output of the satisfaction chosen for a predecessor. -/
theorem resolvedInputs_eq_some {spec : ProgramSpec} {unit : WorkUnit}
    {projected : Name → Option WorkUnitState}
    {satisfactions : Name → Option TrustedSatisfaction} {inputs : List InputBinding}
    (h : resolvedInputs spec unit projected satisfactions = .ok (some inputs)) :
    (∀ d ∈ unit.dependencies, ∃ s f source, projected d = some s ∧ s.phase = .satisfied f ∧
      satisfactions f = some source) ∧
    inputs.map InputBinding.name = unit.requiredInputs.toList ∧
    ∀ b ∈ inputs, b ∈ spec.initialInputs ∨
      ∃ d ∈ unit.dependencies, ∃ s f source, projected d = some s ∧ s.phase = .satisfied f ∧
        satisfactions f = some source ∧
        ∃ o ∈ source.outputBindings, b = predecessorBinding d source o := by
  obtain ⟨waiting, -, h⟩ := bind_eq_ok.1 h
  cases waiting with
  | true => simp at h
  | false =>
    simp only [Bool.false_eq_true, if_false, bind_eq_ok, pure_eq_ok] at h
    obtain ⟨found, hfound, h⟩ := h
    obtain ⟨hnames, hb⟩ := collectInputs_eq_some.1 h
    refine ⟨fun d hd => ?_, hnames, fun b hbm => ?_⟩
    · obtain ⟨out, -, hout⟩ := exists_of_mem_mapM hfound hd
      obtain ⟨s, f, source, hs, hf, hsource, -⟩ := predecessorOutputs_eq_ok.1 hout
      exact ⟨s, f, source, hs, hf, hsource⟩
    · obtain ⟨hmem, -⟩ := index_eq_some (hb b hbm)
      rcases List.mem_append.1 hmem with hi | hp
      · exact .inl (List.mem_of_mem_filter hi)
      · obtain ⟨out, hout, hbo⟩ := List.mem_flatten.1 hp
        obtain ⟨d, hd, hdo⟩ := exists_of_mem_result hfound hout
        obtain ⟨s, f, source, hs, hf, hsource, rfl⟩ := predecessorOutputs_eq_ok.1 hdo
        obtain ⟨o, ho, rfl⟩ := List.mem_map.1 hbo
        exact .inr ⟨d, hd, s, f, source, hs, hf, hsource, o, List.mem_of_mem_filter ho, rfl⟩

/-! ## Locality -/

/-- Two tables that agree on the predecessors of a unit resolve the same inputs. -/
theorem resolvedInputs_congr (spec : ProgramSpec) (unit : WorkUnit)
    {t t' : Name → Option WorkUnitState} (satisfactions : Name → Option TrustedSatisfaction)
    (h : ∀ d ∈ unit.dependencies, t d = t' d) :
    resolvedInputs spec unit t satisfactions = resolvedInputs spec unit t' satisfactions := by
  have hu : anyM (unsatisfied t) unit.dependencies.toList =
      anyM (unsatisfied t') unit.dependencies.toList :=
    anyM_congr fun d hd => by simp only [unsatisfied, subscript, lookup, h d hd]
  have ho : unit.dependencies.toList.mapM (predecessorOutputs unit t satisfactions) =
      unit.dependencies.toList.mapM (predecessorOutputs unit t' satisfactions) :=
    mapM_congr fun d hd => by simp only [predecessorOutputs, subscript, lookup, h d hd]
  rw [resolvedInputs, resolvedInputs, hu, ho]

/-- The state of a unit depends on the states of its predecessors only. -/
theorem projectUnit_congr [Sha256] (spec : ProgramSpec) (attempts : List Attempt)
    (satisfactions : List TrustedSatisfaction) (cancellations : List WorkUnitCancellation)
    {t t' : Name → Option WorkUnitState} {n : Name}
    (h : ∀ d, spec.DependsOn n d → t d = t' d) :
    projectUnit spec attempts satisfactions cancellations t n =
      projectUnit spec attempts satisfactions cancellations t' n := by
  unfold projectUnit
  cases hu : spec.workUnit n with
  | error e => rfl
  | ok unit =>
    obtain ⟨hmem, rfl⟩ := ProgramSpec.workUnit_eq_ok.1 hu
    have hd : ∀ d ∈ unit.dependencies, t d = t' d := fun d hd => h d ⟨unit, hmem, rfl, hd⟩
    have hi : anyM (inheritsCancellation t) unit.dependencies.toList =
        anyM (inheritsCancellation t') unit.dependencies.toList :=
      anyM_congr fun d hdm => by simp only [inheritsCancellation, subscript, lookup, hd d hdm]
    simp only [ok_bind, hi, resolvedInputs_congr spec unit _ hd]

/-! ## How a state was decided -/

/-- A predecessor is cancelled, or the unit is under its current fingerprint. -/
def CancelledBy (cancellations : List WorkUnitCancellation)
    (chosen : Name → Option WorkUnitState) (unit : WorkUnit) (fingerprint : Name) : Prop :=
  (∃ d ∈ unit.dependencies, ∃ s, chosen d = some s ∧ s.phase = .cancelled) ∨
    ∃ c ∈ cancellations, c.workUnitId = unit.workUnitId ∧ c.workUnitFingerprint = fingerprint

theorem inheritsCancellation_eq_ok {chosen : Name → Option WorkUnitState} {d : Name} {b : Bool} :
    inheritsCancellation chosen d = .ok b ↔
      ∃ s, chosen d = some s ∧ (b = true ↔ s.phase = .cancelled) := by
  simp only [inheritsCancellation, bind_eq_ok, subscript_eq_ok, pure_eq_ok,
    WorkUnitState.status_eq_cancelled]
  constructor
  · rintro ⟨s, hs, rfl⟩
    exact ⟨s, hs, by simp⟩
  · rintro ⟨s, hs, hb⟩
    exact ⟨s, hs, by rw [Bool.eq_iff_iff, hb, decide_eq_true_iff]⟩

/-- An applicable satisfaction pins the unit, its fingerprint and its outputs, and its source
Attempt consumed the current inputs. -/
theorem applicable_eq_true {attempts : List Attempt} {unit : WorkUnit} {fingerprint : Name}
    {inputs : Option (List InputBinding)} {item : TrustedSatisfaction} :
    applicable attempts unit fingerprint inputs item = .ok true ↔
      (item.workUnitId = unit.workUnitId ∧ item.workUnitFingerprint = fingerprint ∧
        item.outputNames = unit.outputs) ∧
      ∃ resolved source, inputs = some resolved ∧
        index Attempt.attemptId attempts item.sourceAttemptId = some source ∧
        SameSubject source.spec.effectiveInputs.toList resolved := by
  unfold applicable
  split_ifs with hc
  · cases inputs with
    | none => simp
    | some resolved =>
      simp only [bind_eq_ok, subscript_eq_ok, pure_eq_ok, decide_eq_true_iff]
      constructor
      · rintro ⟨source, hs, hsub⟩
        exact ⟨hc, resolved, source, rfl, hs, hsub⟩
      · rintro ⟨-, _, source, ⟨⟩, hs, hsub⟩
        exact ⟨source, hs, hsub⟩
  · simp [hc]

/-- Conditions can be evaluated when the source Attempt is known. -/
theorem applicable_total {attempts : List Attempt} {item : TrustedSatisfaction}
    (h : (index Attempt.attemptId attempts item.sourceAttemptId).isSome) (unit : WorkUnit)
    (fingerprint : Name) (inputs : Option (List InputBinding)) :
    ∃ b, applicable attempts unit fingerprint inputs item = .ok b := by
  obtain ⟨source, hs⟩ := Option.isSome_iff_exists.1 h
  unfold applicable
  split_ifs
  · cases inputs with
    | none => exact ⟨false, rfl⟩
    | some resolved => exact ⟨_, by rw [subscript_eq_ok.2 hs]; rfl⟩
  · exact ⟨false, rfl⟩

/-- The phase of a unit that is not cancelled is not the cancelled one. -/
theorem openPhase_ne_cancelled (attempts : List Attempt) (n : Name)
    (inputs : Option (List InputBinding)) : openPhase attempts n inputs ≠ .cancelled := by
  unfold openPhase
  repeat' split
  all_goals nofun

section

variable [Sha256]

variable {spec : ProgramSpec} {attempts : List Attempt} {satisfactions : List TrustedSatisfaction}
  {cancellations : List WorkUnitCancellation} {chosen : Name → Option WorkUnitState} {n : Name}
  {s : WorkUnitState}

/-- How the state of a unit was decided: it is cancelled exactly under `CancelledBy`, and
otherwise its inputs were resolved, the applicable satisfactions were listed, and the latest
of them or else the live Attempt decides the phase. -/
theorem projectUnit_inv (h : projectUnit spec attempts satisfactions cancellations chosen n = .ok s) :
    ∃ unit fingerprint, unit ∈ spec.workUnits ∧ unit.workUnitId = n ∧
      spec.fingerprint n = .ok fingerprint ∧
      ((CancelledBy cancellations chosen unit fingerprint ∧ s = ⟨n, .cancelled⟩) ∨
        (¬CancelledBy cancellations chosen unit fingerprint ∧
          ∃ inputs matching,
            resolvedInputs spec unit chosen
              (index TrustedSatisfaction.referenceId satisfactions) = .ok inputs ∧
            filterM (applicable attempts unit fingerprint inputs) satisfactions = .ok matching ∧
            s = ⟨n, match matching.argmax TrustedSatisfaction.recordOrder with
              | some latest => .satisfied latest.referenceId
              | none => openPhase attempts n inputs⟩)) := by
  obtain ⟨unit, hu, h⟩ := bind_eq_ok.1 h
  obtain ⟨fingerprint, hf, h⟩ := bind_eq_ok.1 h
  obtain ⟨inherited, hi, h⟩ := bind_eq_ok.1 h
  obtain ⟨hmem, rfl⟩ := ProgramSpec.workUnit_eq_ok.1 hu
  refine ⟨unit, fingerprint, hmem, rfl, hf, ?_⟩
  split_ifs at h with hc
  · refine .inl ⟨?_, (pure_eq_ok.1 h).symm⟩
    refine hc.imp_left fun hinh => ?_
    subst hinh
    obtain ⟨d, hd, hdc⟩ := anyM_eq_true hi
    obtain ⟨t, ht, hphase⟩ := inheritsCancellation_eq_ok.1 hdc
    exact ⟨d, hd, t, ht, hphase.1 rfl⟩
  · rw [not_or] at hc
    refine .inr ⟨?_, ?_⟩
    · rintro (⟨d, hd, t, ht, hphase⟩ | hdirect)
      · have hfalse := anyM_eq_false (Bool.eq_false_iff.2 hc.1 ▸ hi) d hd
        obtain ⟨t', ht', hiff⟩ := inheritsCancellation_eq_ok.1 hfalse
        obtain rfl : t = t' := Option.some.inj (ht.symm.trans ht')
        exact Bool.false_ne_true (hiff.2 hphase)
      · exact hc.2 hdirect
    · obtain ⟨inputs, hr, h⟩ := bind_eq_ok.1 h
      obtain ⟨matching, hm, h⟩ := bind_eq_ok.1 h
      refine ⟨inputs, matching, hr, hm, ?_⟩
      cases hl : matching.argmax TrustedSatisfaction.recordOrder with
      | none => rw [hl] at h; exact (pure_eq_ok.1 h).symm
      | some latest => rw [hl] at h; exact (pure_eq_ok.1 h).symm

/-- A unit is projected cancelled exactly under `CancelledBy`. -/
theorem projectUnit_cancelled_iff
    (h : projectUnit spec attempts satisfactions cancellations chosen n = .ok s) :
    s.phase = .cancelled ↔ ∃ unit fingerprint, unit ∈ spec.workUnits ∧ unit.workUnitId = n ∧
      spec.fingerprint n = .ok fingerprint ∧
        CancelledBy cancellations chosen unit fingerprint := by
  obtain ⟨unit, fp, hu, rfl, hf, ⟨hc, rfl⟩ | ⟨hc, inputs, matching, -, -, rfl⟩⟩ :=
    projectUnit_inv h
  · exact ⟨fun _ => ⟨unit, fp, hu, rfl, hf, hc⟩, fun _ => rfl⟩
  · constructor
    · intro hp
      exfalso
      cases hl : matching.argmax TrustedSatisfaction.recordOrder with
      | none => simp only [hl] at hp; exact openPhase_ne_cancelled _ _ _ hp
      | some latest => simp only [hl] at hp; cases hp
    · rintro ⟨unit', fp', hu', he, hf', hc'⟩
      rw [spec.workUnits.eq_of_key_eq hu' hu he] at hc'
      rw [hf] at hf'
      exact absurd (Except.ok.inj hf' ▸ hc') hc

/-- The state carries the identifier of its unit. -/
theorem projectUnit_workUnitId
    (h : projectUnit spec attempts satisfactions cancellations chosen n = .ok s) :
    s.workUnitId = n := by
  obtain ⟨unit, fp, -, rfl, -, ⟨-, rfl⟩ | ⟨-, inputs, matching, -, -, rfl⟩⟩ :=
    projectUnit_inv h <;> rfl

/-- A satisfied unit cites a recorded satisfaction. -/
theorem projectUnit_satisfied {f : Name}
    (h : projectUnit spec attempts satisfactions cancellations chosen n = .ok s)
    (hs : s.phase = .satisfied f) : ∃ item ∈ satisfactions, item.referenceId = f := by
  obtain ⟨unit, fp, -, rfl, -, ⟨-, rfl⟩ | ⟨-, inputs, matching, -, hm, rfl⟩⟩ :=
    projectUnit_inv h
  · cases hs
  · cases hl : matching.argmax TrustedSatisfaction.recordOrder with
    | none =>
      simp only [hl, openPhase] at hs
      repeat' split at hs
      all_goals cases hs
    | some latest =>
      simp only [hl, Phase.satisfied.injEq] at hs
      exact ⟨latest, (((filterM_eq_ok hm).2 latest).1 (List.argmax_mem hl)).1, hs⟩

/-! ## Totality and the fixed point -/

/-- The rule for one unit raises nothing when its predecessors are projected and every
satisfaction cites a known Attempt. -/
theorem projectUnit_total (hn : n ∈ spec.unitIds)
    (hsource : ∀ item ∈ satisfactions,
      (index Attempt.attemptId attempts item.sourceAttemptId).isSome)
    (hpred : ∀ d, spec.DependsOn n d → ∃ t, chosen d = some t ∧
      ∀ f, t.phase = .satisfied f → ∃ item ∈ satisfactions, item.referenceId = f) :
    ∃ s, projectUnit spec attempts satisfactions cancellations chosen n = .ok s := by
  obtain ⟨unit, hu⟩ := ProgramSpec.exists_workUnit hn
  obtain ⟨fp, hf⟩ := spec.fingerprint_total hn
  obtain ⟨hmem, rfl⟩ := ProgramSpec.workUnit_eq_ok.1 hu
  have hdeps : ∀ d ∈ unit.dependencies.toList, ∃ b, inheritsCancellation chosen d = .ok b := by
    intro d hd
    obtain ⟨t, ht, -⟩ := hpred d ⟨unit, hmem, rfl, hd⟩
    exact ⟨_, inheritsCancellation_eq_ok.2 ⟨t, ht,
      (decide_eq_true_iff (p := t.phase = .cancelled))⟩⟩
  obtain ⟨b, hb, -⟩ := anyM_eq_ok hdeps
  unfold projectUnit
  simp only [hu, hf, hb, ok_bind]
  split_ifs
  · exact ⟨_, rfl⟩
  · have hcited : ∀ d ∈ unit.dependencies, ∃ t, chosen d = some t ∧ ∀ f, t.phase = .satisfied f →
        (index TrustedSatisfaction.referenceId satisfactions f).isSome := by
      intro d hd
      obtain ⟨t, ht, hcite⟩ := hpred d ⟨unit, hmem, rfl, hd⟩
      refine ⟨t, ht, fun f hp => ?_⟩
      obtain ⟨item, hitem, rfl⟩ := hcite f hp
      rw [Option.isSome_iff_ne_none, ne_eq, index_eq_none_iff]
      exact fun hall => hall item hitem rfl
    obtain ⟨inputs, hi⟩ := resolvedInputs_total spec unit hcited
    obtain ⟨matching, hm⟩ := exists_filterM_eq_ok fun item hitem =>
      applicable_total (hsource item hitem) unit fp inputs
    rw [hi, ok_bind, hm, ok_bind]
    cases matching.argmax TrustedSatisfaction.recordOrder with
    | none => exact ⟨_, rfl⟩
    | some latest => exact ⟨_, rfl⟩

/-- The dictionary of the projection is a fixed point of the rule for one unit. -/
theorem projectTable_fixedPoint
    (h : projectTable spec attempts satisfactions cancellations = .ok chosen) :
    ∀ n ∈ spec.unitIds, ∃ s, chosen n = some s ∧
      projectUnit spec attempts satisfactions cancellations chosen n = .ok s := by
  obtain ⟨order, ho, hnd, hmem, hr⟩ := spec.exists_topologicalOrder
  rw [projectTable, ho, ok_bind] at h
  have hlocal : ∀ (t t' : Name → Option WorkUnitState) (n : Name),
      (∀ d, spec.DependsOn n d → t d = t' d) →
      projectUnit spec attempts satisfactions cancellations t n =
        projectUnit spec attempts satisfactions cancellations t' n :=
    fun _ _ _ hd => projectUnit_congr spec attempts satisfactions cancellations hd
  intro n hn
  exact Layers.tabulate_spec hlocal hr hnd (by simp) h n ((hmem n).2 hn)

/-- The dictionary exists when every satisfaction cites a known Attempt. -/
theorem projectTable_total
    (hsource : ∀ item ∈ satisfactions,
      (index Attempt.attemptId attempts item.sourceAttemptId).isSome) :
    ∃ chosen, projectTable spec attempts satisfactions cancellations = .ok chosen := by
  obtain ⟨order, ho, hnd, hmem, hr⟩ := spec.exists_topologicalOrder
  rw [projectTable, ho, ok_bind]
  have hrule : ∀ t, ∀ n ∈ order, (∀ d, spec.DependsOn n d → ∃ r, t d = some r ∧
        ∀ f, r.phase = .satisfied f → ∃ item ∈ satisfactions, item.referenceId = f) →
      ∃ s, projectUnit spec attempts satisfactions cancellations t n = .ok s ∧
        ∀ f, s.phase = .satisfied f → ∃ item ∈ satisfactions, item.referenceId = f := by
    intro t n hn hpred
    obtain ⟨s, hs⟩ := projectUnit_total ((hmem n).1 hn) hsource hpred
    exact ⟨s, hs, fun f hf => projectUnit_satisfied hs hf⟩
  exact Layers.tabulate_total hrule hr hnd (by simp) (by simp)

/-- The projection as a dictionary over a list of states. -/
abbrev stateById (states : List WorkUnitState) : Name → Option WorkUnitState :=
  index WorkUnitState.workUnitId states

/-- The projection lists one state for each unit, and is a fixed point of the rule for one
unit. -/
theorem project_fixedPoint {states : List WorkUnitState}
    (h : project spec attempts satisfactions cancellations = .ok states) :
    states.map WorkUnitState.workUnitId = spec.unitIds ∧
      ∀ s ∈ states, projectUnit spec attempts satisfactions cancellations (stateById states)
        s.workUnitId = .ok s := by
  obtain ⟨chosen, hc, h⟩ := bind_eq_ok.1 h
  have hfix := projectTable_fixedPoint hc
  have hids : states.map WorkUnitState.workUnitId = spec.unitIds := by
    refine map_result h fun n hn s hs => ?_
    obtain ⟨s', hs', hp⟩ := hfix n hn
    rw [subscript_eq_ok, hs'] at hs
    exact projectUnit_workUnitId (Option.some.inj hs ▸ hp)
  have hnd : (states.map WorkUnitState.workUnitId).Nodup := by
    rw [hids]
    exact spec.workUnits.nodup_keys
  have htable : ∀ n ∈ spec.unitIds, stateById states n = chosen n := by
    intro n hn
    obtain ⟨s, hs, hsn⟩ := exists_of_mem_mapM h hn
    obtain ⟨s', hs', hp⟩ := hfix n hn
    rw [subscript_eq_ok] at hsn
    obtain rfl : s = s' := Option.some.inj (hsn.symm.trans hs')
    rw [hsn]
    exact (index_eq_some_iff hnd).2 ⟨hs, projectUnit_workUnitId hp⟩
  refine ⟨hids, fun s hs => ?_⟩
  have hn : s.workUnitId ∈ spec.unitIds := hids ▸ List.mem_map_of_mem hs
  obtain ⟨s', hs', hp⟩ := hfix _ hn
  have hself : stateById states s.workUnitId = some s := (index_eq_some_iff hnd).2 ⟨hs, rfl⟩
  rw [htable _ hn, hs'] at hself
  rw [← Option.some.inj hself] at hp ⊢
  rw [projectUnit_workUnitId hp]
  rw [← hp]
  refine projectUnit_congr spec _ _ _ fun d ⟨u, hu, _, hd⟩ => htable d ?_
  exact ProgramSpec.mem_unitIds_of_dependency hu hd

/-- The projection raises nothing when every satisfaction cites a known Attempt. -/
theorem project_total
    (hsource : ∀ item ∈ satisfactions,
      (index Attempt.attemptId attempts item.sourceAttemptId).isSome) :
    ∃ states, project spec attempts satisfactions cancellations = .ok states := by
  obtain ⟨chosen, hc⟩ : ∃ chosen, projectTable spec attempts satisfactions cancellations =
      .ok chosen := projectTable_total hsource
  have hfix := projectTable_fixedPoint hc
  rw [project, hc, ok_bind]
  refine exists_mapM_eq_ok fun n hn => ?_
  obtain ⟨s, hs, -⟩ := hfix n hn
  exact ⟨s, subscript_eq_ok.2 hs⟩

/-! ## Cancelled units -/

/-- A unit is cancelled under its current fingerprint, or depends on one that is. -/
inductive Abandoned (spec : ProgramSpec) (cancellations : List WorkUnitCancellation) :
    Name → Prop
  | direct {n fingerprint : Name} (hf : spec.fingerprint n = .ok fingerprint)
      (c : WorkUnitCancellation) (hc : c ∈ cancellations) (hu : c.workUnitId = n)
      (hp : c.workUnitFingerprint = fingerprint) : Abandoned spec cancellations n
  | inherited {n d : Name} (hd : spec.DependsOn n d) (h : Abandoned spec cancellations d) :
      Abandoned spec cancellations n

/-- The cancelled units are the abandoned ones. -/
theorem cancelled_iff_abandoned {states : List WorkUnitState}
    (h : project spec attempts satisfactions cancellations = .ok states) (hs : s ∈ states) :
    s.phase = .cancelled ↔ Abandoned spec cancellations s.workUnitId := by
  obtain ⟨hids, hfix⟩ := project_fixedPoint h
  have hnd : (states.map WorkUnitState.workUnitId).Nodup := by
    rw [hids]
    exact spec.workUnits.nodup_keys
  obtain ⟨order, -, -, hmem, hr⟩ := spec.exists_topologicalOrder
  -- induction along the dependency order: the phases of predecessors are decided first
  have hall : ∀ n ∈ order, ∀ t ∈ states, t.workUnitId = n →
      (t.phase = .cancelled ↔ Abandoned spec cancellations n) := by
    refine hr.forall_of_step (by simp) fun n hn ih t ht he => ?_
    subst he
    rw [projectUnit_cancelled_iff (hfix t ht)]
    constructor
    · rintro ⟨unit, fp, hu, he, hf, ⟨d, hd, r, hrd, hphase⟩ | ⟨c, hc, hcu, hcf⟩⟩
      · have hdep : spec.DependsOn t.workUnitId d := ⟨unit, hu, he, hd⟩
        obtain ⟨hrm, hre⟩ := index_eq_some hrd
        exact .inherited hdep ((ih d hdep r hrm hre).1 hphase)
      · exact .direct hf c hc (hcu.trans he) hcf
    · intro hab
      obtain ⟨unit, hu⟩ := ProgramSpec.exists_workUnit ((hmem _).1 hn)
      obtain ⟨humem, hue⟩ := ProgramSpec.workUnit_eq_ok.1 hu
      obtain ⟨fp, hf⟩ := spec.fingerprint_total ((hmem _).1 hn)
      refine ⟨unit, fp, humem, hue, hf, ?_⟩
      cases hab with
      | direct hf' c hc hcu hcf =>
        rw [hf] at hf'
        exact .inr ⟨c, hc, hcu.trans hue.symm, hcf.trans (Except.ok.inj hf').symm⟩
      | @inherited _ d hdep hd =>
        have hdn : d ∈ spec.unitIds := by
          obtain ⟨v, hv, -, hdv⟩ := hdep
          exact ProgramSpec.mem_unitIds_of_dependency hv hdv
        obtain ⟨r, hrm, hre⟩ := List.mem_map.1 (hids ▸ hdn)
        refine .inl ⟨d, ?_, r, (index_eq_some_iff hnd).2 ⟨hrm, hre⟩,
          (ih d hdep r hrm hre).2 hd⟩
        obtain ⟨v, hv, hve, hdv⟩ := hdep
        rwa [spec.workUnits.eq_of_key_eq hv humem (hve.trans hue.symm)] at hdv
  have hn : s.workUnitId ∈ spec.unitIds := hids ▸ List.mem_map_of_mem hs
  exact hall _ ((hmem _).2 hn) s hs rfl

end

/-! ## Settled states -/

/-- What the facts settle of a state: satisfied by one of them, cancelled, or neither; whether
an open unit is pending, ready or active is left out. -/
def WorkUnitState.settled (s : WorkUnitState) : Option (Option Name) :=
  match s.phase with
  | .satisfied f => some (some f)
  | .cancelled => some none
  | .pending | .ready | .active _ => none

namespace WorkUnitState

theorem settled_eq_satisfied {s : WorkUnitState} {f : Name} :
    s.settled = some (some f) ↔ s.phase = .satisfied f := by
  cases h : s.phase <;> simp [settled, h]

theorem settled_eq_cancelled {s : WorkUnitState} :
    s.settled = some none ↔ s.phase = .cancelled := by
  cases h : s.phase <;> simp [settled, h]

theorem satisfactionId_eq_settled (s : WorkUnitState) : s.satisfactionId = s.settled.join := by
  cases h : s.phase <;> simp [satisfactionId, settled, h]

theorem status_eq_satisfied_iff (s : WorkUnitState) :
    s.status = .satisfied ↔ s.settled.join.isSome := by
  cases h : s.phase <;> simp [status, settled, h]

end WorkUnitState

/-- Whether a unit is satisfied, and by what, decides what its successors are given. -/
theorem resolvedInputs_settled (spec : ProgramSpec) (unit : WorkUnit)
    {t t' : Name → Option WorkUnitState} (satisfactions : Name → Option TrustedSatisfaction)
    (h : ∀ d ∈ unit.dependencies, (t d).map WorkUnitState.settled =
      (t' d).map WorkUnitState.settled) :
    resolvedInputs spec unit t satisfactions = resolvedInputs spec unit t' satisfactions := by
  have hcases : ∀ d ∈ unit.dependencies, (t d = none ∧ t' d = none) ∨
      ∃ s s', t d = some s ∧ t' d = some s' ∧ s.settled = s'.settled := by
    intro d hd
    have hmap := h d hd
    cases ht : t d <;> cases ht' : t' d <;> simp_all
  have hu : anyM (unsatisfied t) unit.dependencies.toList =
      anyM (unsatisfied t') unit.dependencies.toList := by
    refine anyM_congr fun d hd => ?_
    rcases hcases d hd with ⟨ht, ht'⟩ | ⟨s, s', ht, ht', hs⟩
    · simp only [unsatisfied, subscript, lookup, ht, ht']
    · simp only [unsatisfied, subscript, lookup, ht, ht', ok_bind, ne_eq,
        WorkUnitState.status_eq_satisfied_iff, hs]
  have ho : unit.dependencies.toList.mapM (predecessorOutputs unit t satisfactions) =
      unit.dependencies.toList.mapM (predecessorOutputs unit t' satisfactions) := by
    refine mapM_congr fun d hd => ?_
    rcases hcases d hd with ⟨ht, ht'⟩ | ⟨s, s', ht, ht', hs⟩
    · simp only [predecessorOutputs, subscript, lookup, ht, ht']
    · have hf : s.satisfactionId = s'.satisfactionId := by
        rw [s.satisfactionId_eq_settled, s'.satisfactionId_eq_settled, hs]
      simp only [predecessorOutputs, subscript, lookup, ht, ht', ok_bind, hf]
  rw [resolvedInputs, resolvedInputs, hu, ho]

section

variable {attempts attempts' : List Attempt}

/-- Attempts with the same snapshots at the same places give one snapshot for an identifier. -/
theorem index_spec (h : attempts'.map Attempt.spec = attempts.map Attempt.spec) (id : Name) :
    (index Attempt.attemptId attempts' id).map Attempt.spec =
      (index Attempt.attemptId attempts id).map Attempt.spec := by
  have hindex (l : List Attempt) : (index Attempt.attemptId l id).map Attempt.spec =
      (l.map Attempt.spec).reverse.find? fun s => s.attemptId = id := by
    rw [← List.map_reverse, List.find?_map]
    rfl
  rw [hindex, hindex, h]

/-- Whether a satisfaction counts depends on the snapshots of the Attempts only. -/
theorem applicable_congr (h : attempts'.map Attempt.spec = attempts.map Attempt.spec)
    (unit : WorkUnit) (fingerprint : Name) (inputs : Option (List InputBinding))
    (item : TrustedSatisfaction) :
    applicable attempts' unit fingerprint inputs item =
      applicable attempts unit fingerprint inputs item := by
  have hsource := index_spec h item.sourceAttemptId
  unfold applicable
  split_ifs
  · cases inputs with
    | none => rfl
    | some resolved =>
      simp only [subscript, lookup]
      cases h' : index Attempt.attemptId attempts' item.sourceAttemptId <;>
        cases h : index Attempt.attemptId attempts item.sourceAttemptId <;> simp_all
  · rfl

theorem openPhase_settled (attempts : List Attempt) (n : Name)
    (inputs : Option (List InputBinding)) :
    (⟨n, openPhase attempts n inputs⟩ : WorkUnitState).settled = none := by
  unfold openPhase
  repeat' split
  all_goals rfl

variable [Sha256] {spec : ProgramSpec} {satisfactions : List TrustedSatisfaction}
  {cancellations : List WorkUnitCancellation}

/-- What is settled of a unit depends on what is settled of its predecessors, on the facts and on
the snapshots of the Attempts, not on their statuses. -/
theorem projectUnit_settled (h : attempts'.map Attempt.spec = attempts.map Attempt.spec)
    {t t' : Name → Option WorkUnitState} {n : Name} {s s' : WorkUnitState}
    (ht : ∀ d, spec.DependsOn n d → (t d).map WorkUnitState.settled =
      (t' d).map WorkUnitState.settled)
    (hs : projectUnit spec attempts satisfactions cancellations t n = .ok s)
    (hs' : projectUnit spec attempts' satisfactions cancellations t' n = .ok s') :
    s'.settled = s.settled := by
  have happ : ∀ unit fp inputs, applicable attempts' unit fp inputs =
      applicable attempts unit fp inputs := fun unit fp inputs =>
    funext fun item => applicable_congr h unit fp inputs item
  obtain ⟨unit, fp, hu, rfl, hfp, hcase⟩ := projectUnit_inv hs
  obtain ⟨unit', fp', hu', he, hfp', hcase'⟩ := projectUnit_inv hs'
  obtain rfl := spec.workUnits.eq_of_key_eq hu' hu he
  obtain rfl := Except.ok.inj (hfp.symm.trans hfp')
  have hd : ∀ d ∈ unit'.dependencies, (t d).map WorkUnitState.settled =
      (t' d).map WorkUnitState.settled := fun d hd => ht d ⟨unit', hu', rfl, hd⟩
  have hcancelled : CancelledBy cancellations t unit' fp ↔
      CancelledBy cancellations t' unit' fp := by
    refine or_congr_left (exists_congr fun d => and_congr_right fun hdm => ?_)
    simp only [← WorkUnitState.settled_eq_cancelled, ← Option.map_eq_some_iff]
    rw [hd d hdm]
  rcases hcase with ⟨hc, rfl⟩ | ⟨hc, inputs, matching, hr, hm, rfl⟩
  · rcases hcase' with ⟨-, rfl⟩ | ⟨hc', -⟩
    · rfl
    · exact absurd (hcancelled.1 hc) hc'
  · rcases hcase' with ⟨hc', -⟩ | ⟨-, inputs', matching', hr', hm', rfl⟩
    · exact absurd (hcancelled.2 hc') hc
    · rw [← resolvedInputs_settled spec unit' _ hd] at hr'
      obtain rfl := Except.ok.inj (hr.symm.trans hr')
      rw [happ] at hm'
      obtain rfl := Except.ok.inj (hm.symm.trans hm')
      cases matching.argmax TrustedSatisfaction.recordOrder with
      | some latest => rfl
      | none => rw [openPhase_settled, openPhase_settled]

/-- Transitions of Attempts change nothing that is settled. -/
theorem project_settled (h : attempts'.map Attempt.spec = attempts.map Attempt.spec)
    {states states' : List WorkUnitState}
    (hs : project spec attempts satisfactions cancellations = .ok states)
    (hs' : project spec attempts' satisfactions cancellations = .ok states') (n : Name) :
    (stateById states n).map WorkUnitState.settled =
      (stateById states' n).map WorkUnitState.settled := by
  obtain ⟨hids, hfix⟩ := project_fixedPoint hs
  obtain ⟨hids', hfix'⟩ := project_fixedPoint hs'
  have hnd : (states.map WorkUnitState.workUnitId).Nodup := hids ▸ spec.workUnits.nodup_keys
  have hnd' : (states'.map WorkUnitState.workUnitId).Nodup := hids' ▸ spec.workUnits.nodup_keys
  obtain ⟨order, -, -, hmem, hr⟩ := spec.exists_topologicalOrder
  by_cases hn : n ∈ order
  · -- induction along the dependency order: predecessors are settled alike
    revert n
    refine hr.forall_of_step (by simp) fun n hn ih => ?_
    have hn := (hmem n).1 hn
    obtain ⟨s, hsm, rfl⟩ := List.mem_map.1 (hids ▸ hn)
    obtain ⟨s', hsm', he⟩ := List.mem_map.1 (hids' ▸ hn)
    have hp' := hfix' s' hsm'
    rw [he] at hp'
    rw [show stateById states s.workUnitId = some s from (index_eq_some_iff hnd).2 ⟨hsm, rfl⟩,
      show stateById states' s.workUnitId = some s' from (index_eq_some_iff hnd').2 ⟨hsm', he⟩,
      Option.map_some, Option.map_some, projectUnit_settled h ih (hfix s hsm) hp']
  · have hnone : ∀ l : List WorkUnitState, l.map WorkUnitState.workUnitId = spec.unitIds →
        stateById l n = none := by
      intro l hl
      refine index_eq_none_iff.2 fun s hsm he => hn ((hmem n).2 ?_)
      rw [← hl, ← he]
      exact List.mem_map_of_mem hsm
    rw [hnone states hids, hnone states' hids']

end
end CreatidyKernel
