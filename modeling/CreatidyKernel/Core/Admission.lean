import CreatidyKernel.Core.Verification
import CreatidyKernel.Core.AppendOnly

set_option relaxedAutoImplicit false
set_option autoImplicit false

/-!
# What an admission changes

An admitted result is recorded as a satisfaction. It becomes the state of its unit exactly when
the Attempt consumed the inputs that are resolved for the unit now: the verifier compares the
pinned specification but not these inputs, so after a predecessor is accepted again a result
can be admitted that the projection ignores.

## Main definitions

* `Program.Effective` — the unit of a result is satisfied by the fact the result carries.
* `Program.ConsumesCurrent` — the Attempt of a candidate consumed the current inputs.

## Main results

* `project_append_of_not_reaches` — a new satisfaction changes only the units behind its own.
* `projectUnit_append` — it satisfies a ready unit exactly when it is applicable.
* `Program.admission_effective_iff` — an admitted result is effective exactly when the Attempt
  consumed the current inputs.
* `Program.admission_ignored` — the run in which an admitted result is ignored.
-/

namespace CreatidyKernel

open Checked

/-! ## A new satisfaction in the projection -/

/-- Resolved inputs do not change with a satisfaction no predecessor cites. -/
theorem resolvedInputs_append (spec : ProgramSpec) (unit : WorkUnit)
    {t : Name → Option WorkUnitState} {satisfactions : List TrustedSatisfaction}
    {fact : TrustedSatisfaction}
    (h : ∀ d s, t d = some s → s.phase ≠ .satisfied fact.referenceId) :
    resolvedInputs spec unit t
        (index TrustedSatisfaction.referenceId (satisfactions ++ [fact])) =
      resolvedInputs spec unit t (index TrustedSatisfaction.referenceId satisfactions) := by
  have hp : ∀ d, predecessorOutputs unit t
      (index TrustedSatisfaction.referenceId (satisfactions ++ [fact])) d =
      predecessorOutputs unit t (index TrustedSatisfaction.referenceId satisfactions) d := by
    intro d
    unfold predecessorOutputs
    cases hd : t d with
    | none => simp only [subscript, lookup, hd, error_bind]
    | some s =>
      simp only [subscript, lookup, hd, ok_bind]
      cases hf : s.satisfactionId with
      | none => rfl
      | some f =>
        have hne : fact.referenceId ≠ f := by
          rintro rfl
          exact h d s hd (WorkUnitState.satisfactionId_eq_some.1 hf)
        simp only [Option.bind_some, index_append_of_ne hne]
  rw [resolvedInputs, resolvedInputs, mapM_congr fun d _ => hp d]

section

variable [Sha256] {spec : ProgramSpec} {attempts : List Attempt}
  {satisfactions : List TrustedSatisfaction} {cancellations : List WorkUnitCancellation}
  {fact : TrustedSatisfaction} {t : Name → Option WorkUnitState} {n : Name}

/-- No state of a projection cites a satisfaction that is not recorded. -/
theorem cited_of_project {states : List WorkUnitState}
    (hs : project spec attempts satisfactions cancellations = .ok states)
    (hnew : ∀ item ∈ satisfactions, item.referenceId ≠ fact.referenceId) :
    ∀ d s, stateById states d = some s → s.phase ≠ .satisfied fact.referenceId := by
  intro d s hd hphase
  obtain ⟨hmem, rfl⟩ := index_eq_some hd
  obtain ⟨item, hitem, hid⟩ := projectUnit_satisfied ((project_fixedPoint hs).2 s hmem) hphase
  exact hnew item hitem hid

/-- A satisfaction of one unit does not change the state of another, if no predecessor cites
it. -/
theorem projectUnit_append_of_ne (h : ∀ d s, t d = some s → s.phase ≠ .satisfied fact.referenceId)
    (hn : fact.workUnitId ≠ n) :
    projectUnit spec attempts (satisfactions ++ [fact]) cancellations t n =
      projectUnit spec attempts satisfactions cancellations t n := by
  unfold projectUnit
  cases hu : spec.workUnit n with
  | error e => rfl
  | ok unit =>
    obtain ⟨-, rfl⟩ := ProgramSpec.workUnit_eq_ok.1 hu
    simp only [ok_bind, resolvedInputs_append spec unit h]
    have happ : ∀ fp inputs, applicable attempts unit fp inputs fact = .ok false := by
      intro fp inputs
      exact if_neg fun hc => hn hc.1
    simp only [filterM_append, filterM, happ, ok_bind, Bool.false_eq_true, if_false]
    refine congrArg _ (funext fun fp => congrArg _ (funext fun inherited => ?_))
    split_ifs
    · rfl
    · refine congrArg _ (funext fun inputs => ?_)
      cases filterM (applicable attempts unit fp inputs) satisfactions with
      | error e => rfl
      | ok r =>
        simp only [ok_bind, pure_bind, List.append_nil]

/-- A satisfaction of a ready unit becomes its state exactly when it is applicable. -/
theorem projectUnit_append (h : ∀ d s, t d = some s → s.phase ≠ .satisfied fact.referenceId)
    (hready : projectUnit spec attempts satisfactions cancellations t n = .ok ⟨n, .ready⟩)
    {s : WorkUnitState}
    (hs : projectUnit spec attempts (satisfactions ++ [fact]) cancellations t n = .ok s) :
    ∃ unit fingerprint inputs, spec.workUnit n = .ok unit ∧ spec.fingerprint n = .ok fingerprint ∧
      resolvedInputs spec unit t (index TrustedSatisfaction.referenceId satisfactions) =
        .ok (some inputs) ∧
      (s.phase = .satisfied fact.referenceId ↔
        applicable attempts unit fingerprint (some inputs) fact = .ok true) := by
  simp only [projectUnit, bind_eq_ok] at hready hs
  obtain ⟨unit, hu, fp, hf, inherited, hi, hready⟩ := hready
  obtain ⟨unit', hu', fp', hf', inherited', hi', hs⟩ := hs
  obtain rfl := Except.ok.inj (hu.symm.trans hu')
  obtain rfl := Except.ok.inj (hf.symm.trans hf')
  obtain rfl := Except.ok.inj (hi.symm.trans hi')
  split_ifs at hready hs with hc
  · simp at hready
  simp only [resolvedInputs_append spec unit h, filterM_append, bind_eq_ok, pure_eq_ok] at hready hs
  obtain ⟨inputs, hr, matching, hm, hready⟩ := hready
  obtain ⟨inputs', hr', _, ⟨matching', hm', new, hnew, rfl⟩, hs⟩ := hs
  obtain rfl := Except.ok.inj (hr.symm.trans hr')
  obtain rfl := Except.ok.inj (hm.symm.trans hm')
  -- nothing was applicable before, so the new satisfaction is the latest one or none is
  cases hl : matching.argmax TrustedSatisfaction.recordOrder with
  | some latest => simp [hl] at hready
  | none =>
    simp only [hl, pure_eq_ok, WorkUnitState.mk.injEq, true_and] at hready
    obtain ⟨resolved, rfl⟩ : ∃ resolved, inputs = some resolved := by
      cases inputs with
      | none => simp [openPhase] at hready
      | some resolved => exact ⟨resolved, rfl⟩
    refine ⟨unit, fp, resolved, hu, hf, hr, ?_⟩
    rw [List.argmax_eq_none.1 hl, List.nil_append] at hs
    simp only [filterM, bind_eq_ok, pure_eq_ok] at hnew
    obtain ⟨b, hb, _, ⟨⟩, rfl⟩ := hnew
    rw [hb]
    cases b with
    | true =>
      simp only [if_true, List.argmax_singleton, pure_eq_ok] at hs
      exact hs ▸ ⟨fun _ => rfl, fun _ => rfl⟩
    | false =>
      simp only [Bool.false_eq_true, if_false, List.argmax_nil, pure_eq_ok] at hs
      rw [← hs, hready]
      constructor <;> rintro ⟨⟩

/-- A new satisfaction changes only the states of its unit and of the units behind it. -/
theorem project_append_of_not_reaches {states states' : List WorkUnitState}
    (hs : project spec attempts satisfactions cancellations = .ok states)
    (hs' : project spec attempts (satisfactions ++ [fact]) cancellations = .ok states')
    (hnew : ∀ item ∈ satisfactions, item.referenceId ≠ fact.referenceId) {m : Name}
    (hm : m ∈ spec.unitIds) (hr : ¬Relation.ReflTransGen spec.DependsOn m fact.workUnitId) :
    stateById states m = stateById states' m := by
  obtain ⟨hids, hfix⟩ := project_fixedPoint hs
  obtain ⟨hids', hfix'⟩ := project_fixedPoint hs'
  have hnd : (states.map WorkUnitState.workUnitId).Nodup := hids ▸ spec.workUnits.nodup_keys
  have hnd' : (states'.map WorkUnitState.workUnitId).Nodup := hids' ▸ spec.workUnits.nodup_keys
  obtain ⟨order, -, -, hmem, hrespects⟩ := spec.exists_topologicalOrder
  have hall : ∀ m ∈ order, ¬Relation.ReflTransGen spec.DependsOn m fact.workUnitId →
      stateById states m = stateById states' m := by
    refine hrespects.forall_of_step (by simp) fun m hm ih hr => ?_
    have hm := (hmem m).1 hm
    obtain ⟨s, hsm, rfl⟩ := List.mem_map.1 (hids ▸ hm)
    obtain ⟨s', hsm', he⟩ := List.mem_map.1 (hids' ▸ hm)
    have hp := hfix s hsm
    have hp' := hfix' s' hsm'
    rw [he, ← projectUnit_congr spec attempts _ cancellations
      (t := stateById states) fun d hd => ih d hd fun hdr => hr (.head hd hdr),
      projectUnit_append_of_ne (cited_of_project hs hnew) fun he => hr (he ▸ .refl)] at hp'
    obtain rfl := Except.ok.inj (hp.symm.trans hp')
    exact ((index_eq_some_iff hnd).2 ⟨hsm, rfl⟩).trans
      ((index_eq_some_iff hnd').2 ⟨hsm', rfl⟩).symm
  exact hall m ((hmem m).2 hm) hr

/-- In the projection with a new satisfaction of a ready unit, the unit is satisfied by it
exactly when it is applicable under the inputs resolved before. -/
theorem project_append_ready {states states' : List WorkUnitState}
    (hs : project spec attempts satisfactions cancellations = .ok states)
    (hs' : project spec attempts (satisfactions ++ [fact]) cancellations = .ok states')
    (hnew : ∀ item ∈ satisfactions, item.referenceId ≠ fact.referenceId)
    (hready : ⟨fact.workUnitId, .ready⟩ ∈ states) :
    ∃ s ∈ states', s.workUnitId = fact.workUnitId ∧
      ∃ unit fingerprint inputs, spec.workUnit fact.workUnitId = .ok unit ∧
        spec.fingerprint fact.workUnitId = .ok fingerprint ∧
        resolvedInputs spec unit (stateById states)
          (index TrustedSatisfaction.referenceId satisfactions) = .ok (some inputs) ∧
        (s.phase = .satisfied fact.referenceId ↔
          applicable attempts unit fingerprint (some inputs) fact = .ok true) := by
  obtain ⟨hids, hfix⟩ := project_fixedPoint hs
  obtain ⟨hids', hfix'⟩ := project_fixedPoint hs'
  have hunit : fact.workUnitId ∈ spec.unitIds := hids ▸ List.mem_map_of_mem hready
  obtain ⟨s, hsm, hid⟩ := List.mem_map.1 (hids' ▸ hunit)
  have hpred : ∀ d, spec.DependsOn fact.workUnitId d → stateById states d = stateById states' d := by
    intro d hd
    obtain ⟨order, -, -, horder, hr⟩ := spec.exists_topologicalOrder
    have hdm : d ∈ spec.unitIds := by
      obtain ⟨v, hv, -, hdv⟩ := hd
      exact ProgramSpec.mem_unitIds_of_dependency hv hdv
    refine project_append_of_not_reaches hs hs' hnew hdm fun hreach => ?_
    exact hr.acyclic d ((horder d).2 hdm) _ hreach hd
  have hrule := hfix _ hready
  have hrule' := hfix' s hsm
  rw [hid, ← projectUnit_congr spec attempts _ cancellations hpred] at hrule'
  exact ⟨s, hsm, hid, projectUnit_append (cited_of_project hs hnew) hrule hrule'⟩

/-! ## The decision and its record -/

namespace Program

variable {p q : Program}

/-- The unit of the result is satisfied by the fact the result carries. -/
def Effective (p : Program) (r : AcceptedResult) : Prop :=
  ∃ s, p.state r.satisfaction.workUnitId = .ok s ∧
    s.phase = .satisfied r.satisfaction.referenceId

/-- The Attempt of a candidate consumed the inputs that are resolved for its unit. -/
def ConsumesCurrent (p : Program) (candidate : CandidateResult) : Prop :=
  ∃ a inputs, p.attemptNamed candidate.publication.attemptId = .ok a ∧
    p.resolvedInputs a.spec.workUnitId = .ok inputs ∧
    SameSubject a.spec.effectiveInputs.toList inputs

omit [Sha256] in
/-- A result is effective when the state of its unit cites its fact. -/
theorem effective_iff {r : AcceptedResult} {s : WorkUnitState}
    (hs : p.state r.satisfaction.workUnitId = .ok s) :
    p.Effective r ↔ s.phase = .satisfied r.satisfaction.referenceId := by
  constructor
  · rintro ⟨s', hs', hphase⟩
    rw [hs] at hs'
    exact Except.ok.inj hs' ▸ hphase
  · exact fun h => ⟨s, hs, h⟩

omit [Sha256] in
/-- A candidate consumed the current inputs when its one Attempt did. -/
theorem consumesCurrent_iff {candidate : CandidateResult} {a : Attempt}
    {inputs : List InputBinding} (ha : p.attemptNamed candidate.publication.attemptId = .ok a)
    (hi : p.resolvedInputs a.spec.workUnitId = .ok inputs) :
    p.ConsumesCurrent candidate ↔ SameSubject a.spec.effectiveInputs.toList inputs := by
  constructor
  · rintro ⟨a', inputs', ha', hi', hsame⟩
    rw [ha] at ha'
    obtain rfl := Except.ok.inj ha'
    rw [hi] at hi'
    exact Except.ok.inj hi' ▸ hsame
  · exact fun h => ⟨a, inputs, ha, hi, h⟩

omit [Sha256] in
/-- A satisfaction binds the names of the outputs it was made from. -/
theorem init_eq_ok {referenceId programId workUnitId specDigest fingerprint issuerId
    sourceAttemptId : Name} {revision : ℕ} {outputs : List InputBinding}
    {fact : TrustedSatisfaction}
    (h : TrustedSatisfaction.init referenceId.val programId.val workUnitId.val revision
      specDigest.val fingerprint.val issuerId.val sourceAttemptId.val outputs 0 = .ok fact) :
    fact.workUnitId = workUnitId ∧ fact.workUnitFingerprint = fingerprint ∧
      fact.sourceAttemptId = sourceAttemptId ∧
      fact.outputNames = SortedSet.ofList (outputs.map InputBinding.name) := by
  simp only [TrustedSatisfaction.init, nonempty_val, ok_bind, bind_eq_ok] at h
  obtain ⟨revision', -, order, -, bound, hb, h⟩ := h
  obtain ⟨hn, rfl⟩ := sortedTuple_eq_ok.1 hb
  split_ifs at h with hi
  obtain rfl := pure_eq_ok.1 h
  refine ⟨rfl, rfl, rfl, SortedBy.ext_mem fun n => ?_⟩
  simp only [TrustedSatisfaction.outputNames, SortedSet.mem_ofList, List.mem_map]
  exact exists_congr fun b => and_congr_left' (SortedBy.mem_ofList hn)

/-- What an accepted decision found: a finished Attempt for a ready unit, and a satisfaction
with the unit, its fingerprint, the Attempt and the declared outputs. -/
theorem verifyCandidate_accepted {candidate : CandidateResult} {collected : ArtifactManifest}
    {policy : VerificationPolicy} {producer : CheckProducer} {inspection : Inspection} {now : ℤ}
    {clock : Option (ℕ → ℤ)} {r : AcceptedResult}
    (h : verifyCandidate p candidate collected policy producer inspection now clock =
      .ok (.accepted r)) :
    ∃ attempt unit state, p.attemptNamed candidate.publication.attemptId = .ok attempt ∧
      p.spec.workUnit attempt.spec.workUnitId = .ok unit ∧
      p.state unit.workUnitId = .ok state ∧ state.status = .ready ∧
      r.satisfaction.workUnitId = unit.workUnitId ∧
      p.spec.fingerprint unit.workUnitId = .ok r.satisfaction.workUnitFingerprint ∧
      r.satisfaction.sourceAttemptId = attempt.attemptId ∧
      r.satisfaction.outputNames = unit.outputs := by
  simp only [verifyCandidate, bind_eq_ok] at h
  obtain ⟨attempt, ha, unit, hu, _, hc, ⟨observed, readings⟩, -, h⟩ := h
  simp only [checkSubjects, bind_eq_ok, check_eq_ok] at hc
  obtain ⟨state, hstate, _, ⟨hready, -⟩, _, -, _, -, _, -, _, -, _, -, _, hnames, -⟩ := hc
  refine ⟨attempt, unit, state, ha, hu, hstate, hready, ?_⟩
  split_ifs at h with hf
  · simp at h
  simp only [bind_eq_ok, pure_eq_ok, Verdict.accepted.injEq] at h
  obtain ⟨outputs, ho, fingerprint, hfp, fact, hinit, rfl⟩ := h
  obtain ⟨hunit, hprint, hsource, hout⟩ := init_eq_ok hinit
  have hbound : outputs.map InputBinding.name = candidate.outputs.map Prod.fst := by
    refine map_mapM ho fun o _ b hb => ?_
    obtain ⟨artifact, -, hb⟩ := bind_eq_ok.1 hb
    exact pure_eq_ok.1 hb ▸ rfl
  exact ⟨hunit, hprint ▸ hfp, hsource, by rw [hout, hbound, hnames]⟩

theorem Coherent.attemptNamed_eq_ok (h : p.Coherent) {id : String} {a : Attempt}
    (ha : p.attemptNamed id = .ok a) : p.attempt a.attemptId = .ok a := by
  have hmem := List.mem_of_find?_eq_some (lookup_eq_ok.1 ha)
  exact h.attempt_eq_ok.2 ⟨hmem, rfl⟩

/-- The states before and after a satisfaction are the projections of the histories without
and with it. -/
theorem apply_satisfyWorkUnit (h : p.Coherent) {revision : ℕ} {issuerId : Name}
    {fact : TrustedSatisfaction}
    (ha : p.apply ⟨revision, issuerId, .satisfyWorkUnit fact⟩ = .ok q) :
    project p.spec p.attempts p.satisfactions p.cancellations = .ok p.workUnitStates ∧
      project p.spec p.attempts (p.satisfactions ++ [fact.recordAt (p.revision + 1)])
        p.cancellations = .ok q.workUnitStates ∧
      ∀ s ∈ p.satisfactions, s.referenceId ≠ fact.referenceId := by
  have hq := apply_coherent h ha
  rcases apply_eq_ok ha with ⟨hg, -⟩ | ⟨d, states, hg, rfl⟩
  · obtain ⟨amendment, hne, -⟩ := (guards_eq_none_iff hg).1 rfl
    cases hne
  · cases guards_decided hg with
    | satisfyWorkUnit hs _ _ hnew =>
      have hopen : p.status ≠ .draft := by rcases hs with hs | hs | hs <;> rw [hs] <;> nofun
      exact ⟨h.projected hopen, hq.projected (mt (nextStatus_cases _ states).1.1 hopen), hnew⟩

/-- An admitted result is effective exactly when its Attempt consumed the inputs that are
resolved for the unit now. -/
theorem admission_effective_iff (hp : p.Reachable) {candidate : CandidateResult}
    {collected admitted : ArtifactManifest} {policy pinned : VerificationPolicy}
    {producer : CheckProducer} {inspection : Inspection} {now later : ℤ}
    {clock : Option (ℕ → ℤ)} {r : AcceptedResult} {repository baseRevision headRevision : Name}
    (hv : verifyCandidate p candidate collected policy producer inspection now clock =
      .ok (.accepted r))
    (ha : admitAccepted p r admitted pinned repository baseRevision headRevision later = .ok q) :
    q.Effective r ↔ p.ConsumesCurrent candidate := by
  obtain ⟨attempt, unit, state, hattempt, hunit, hstate, hready, hid, hprint, hsource, hnames⟩ :=
    verifyCandidate_accepted hv
  simp only [admitAccepted, bind_eq_ok] at ha
  obtain ⟨_, -, _, -, _, -, _, -, happly⟩ := ha
  have hc := hp.coherent
  have hq := apply_coherent hc happly
  obtain ⟨hs, hs', hnew⟩ := apply_satisfyWorkUnit hc happly
  obtain ⟨hmem, hwork⟩ := ProgramSpec.workUnit_eq_ok.1 hunit
  obtain ⟨hstate, hstateId⟩ := hc.state_eq_ok.1 hstate
  have hbefore : (⟨r.satisfaction.workUnitId, .ready⟩ : WorkUnitState) ∈ p.workUnitStates := by
    obtain ⟨n, phase⟩ := state
    rw [hid, ← hstateId]
    cases phase <;> first | exact hstate | cases hready
  obtain ⟨state', hstate', hid', unit', fp, inputs, hunit', hfp, hresolved, hiff⟩ :=
    project_append_ready hs hs' hnew hbefore
  change p.spec.workUnit r.satisfaction.workUnitId = .ok unit' at hunit'
  change p.spec.fingerprint r.satisfaction.workUnitId = .ok fp at hfp
  rw [hid, hwork, hunit] at hunit'
  obtain rfl := Except.ok.inj hunit'
  rw [hid, hprint] at hfp
  obtain rfl := Except.ok.inj hfp
  -- the two sides of the equivalence, each about the one Attempt and the one list of inputs
  have hattempt' := hc.attemptNamed_eq_ok hattempt
  have hinputs : p.resolvedInputs attempt.spec.workUnitId = .ok inputs := by
    rw [Program.resolvedInputs, hunit, ok_bind, hresolved]
    rfl
  rw [effective_iff (hq.state_eq_ok.2 ⟨hstate', hid'⟩), consumesCurrent_iff hattempt hinputs]
  refine hiff.trans (applicable_eq_true.trans ?_)
  obtain ⟨hmemA, -⟩ := hc.attempt_eq_ok.1 hattempt'
  have hindex : index Attempt.attemptId p.attempts attempt.attemptId = some attempt :=
    hc.ledger.attempts.index_attemptId.2 ⟨hmemA, rfl⟩
  constructor
  · rintro ⟨-, resolved, source, ⟨⟩, hsrc, hsame⟩
    change index Attempt.attemptId p.attempts r.satisfaction.sourceAttemptId = some source at hsrc
    rw [hsource, hindex] at hsrc
    exact Option.some.inj hsrc ▸ hsame
  · intro hsame
    refine ⟨⟨hid, rfl, hnames⟩, inputs, attempt, rfl, ?_, hsame⟩
    show index Attempt.attemptId p.attempts r.satisfaction.sourceAttemptId = some attempt
    rw [hsource, hindex]

end Program

end

/-! ### A review of a replaced artifact -/

namespace Sample

/-- The first of two units: it produces the binary. -/
def producing : WorkUnit :=
  { unit with outputs := ⟨[⟨"binary", by decide⟩], List.pairwise_singleton _ _⟩, disjoint := nofun }

/-- The second unit consumes the binary. -/
def consuming : WorkUnit :=
  { unit with
    workUnitId := ⟨"review", Nonblank.review⟩
    dependencies := ⟨[⟨"build", Nonblank.build⟩], List.pairwise_singleton _ _⟩
    requiredInputs := ⟨[⟨"binary", by decide⟩], List.pairwise_singleton _ _⟩
    outputs := ⟨[⟨"report", Nonblank.report⟩], List.pairwise_singleton _ _⟩
    disjoint := by decide }

/-- The specification of the two units. -/
def chained : ProgramSpec :=
  { spec with
    workUnits := .ofList [producing, consuming] (by decide)
    valid := SpecArgs.check_eq_ok.1 (by decide) }

/-- An Attempt for the first unit. -/
def built (attemptId : Name) : AttemptSpec := { attempt with attemptId }

/-- The acceptance of an Attempt for the first unit, with the artifact it produced. -/
def delivered (referenceId attemptId artifact : Name) : TrustedSatisfaction :=
  { satisfaction with
    referenceId
    sourceAttemptId := attemptId
    outputBindings := ⟨[⟨⟨"binary", by decide⟩, artifact, .initial⟩], List.pairwise_singleton _ _⟩
    outputsInitial := by simp }

/-- The Attempt for the second unit consumed the first artifact. -/
def reviewing : AttemptSpec :=
  { attempt with
    attemptId := ⟨"b1", by decide⟩
    workUnitId := consuming.workUnitId
    workspaceReference := some ⟨"workspace", by decide⟩
    effectiveInputs := ⟨[⟨⟨"binary", by decide⟩, ⟨"artifact:1", by decide⟩,
      .predecessor ⟨"build", Nonblank.build⟩ ⟨"s1", Nonblank.s1⟩⟩], List.pairwise_singleton _ _⟩ }

/-- Prepare, start and finish an Attempt from a revision on. -/
def attemptCommands (revision : ℕ) (a : AttemptSpec) : List DomainCommand :=
  [⟨revision, ⟨"owner", Nonblank.owner⟩, .prepareAttempt a⟩,
    ⟨revision + 1, ⟨"owner", Nonblank.owner⟩, .startAttempt a.attemptId⟩,
    ⟨revision + 2, ⟨"owner", Nonblank.owner⟩, .finishAttempt a.attemptId⟩]

/-- Two Attempts for the first unit finish, the first is accepted, and the second unit is
attempted with its artifact. -/
def untilReview : List DomainCommand :=
  activate :: attemptCommands 1 (built ⟨"a1", Nonblank.a1⟩) ++
    attemptCommands 4 (built ⟨"a2", Nonblank.a2⟩) ++
    ⟨7, ⟨"judge", Nonblank.judge⟩, .satisfyWorkUnit
      (delivered ⟨"s1", Nonblank.s1⟩ ⟨"a1", Nonblank.a1⟩ ⟨"artifact:1", by decide⟩)⟩ ::
    attemptCommands 8 reviewing

/-- The other Attempt for the first unit is accepted too. -/
def reaccept : DomainCommand :=
  ⟨11, ⟨"judge", Nonblank.judge⟩, .satisfyWorkUnit
    (delivered ⟨"s2", by decide⟩ ⟨"a2", Nonblank.a2⟩ ⟨"artifact:2", by decide⟩)⟩

/-- What the worker publishes for the second unit. -/
def proposal : CandidateResult where
  candidateId := ⟨"candidate:b1", by decide⟩
  publication := ⟨"b1", "5feceb66ffc86f38",
    ⟨"workspace", [⟨⟨"report.md", by decide⟩, ⟨"e3b0", by decide⟩, by decide⟩]⟩⟩
  outputs := [(⟨"report", Nonblank.report⟩, ⟨"report.md", by decide⟩)]
  names := by decide
  paths := by decide

/-- The policy asks for the two approved criteria. -/
def policy : VerificationPolicy where
  reference := ⟨⟨"p", Nonblank.p⟩, ⟨"1", Nonblank.one⟩, ⟨"d", Nonblank.d⟩⟩
  checks := [⟨"done", Nonblank.done⟩, ⟨"tests pass", Nonblank.testsPass⟩]
  reviewerRequired := false
  nonempty := by simp
  nodup := by decide

/-- A producer whose checks all pass. -/
def producer : CheckProducer := fun name subject => .ok (some {
  evidenceId := name
  checkName := name
  subject
  producer := ⟨"ci", by decide⟩
  toolVersion := ⟨"1", Nonblank.one⟩
  artifactReference := ⟨"log", Nonblank.log⟩
  observedAt := 0
  freshUntil := 10
  passed := true
  reviewerSession := none
  ordered := by decide })

/-- The judge inspects the repository. -/
def inspection : Inspection :=
  ⟨⟨"repo", Nonblank.repo⟩, ⟨"base", Nonblank.base⟩, ⟨"head", by decide⟩, ⟨"judge", Nonblank.judge⟩,
    ⟨"accepted:b1", by decide⟩⟩

/-- The Program after some commands. -/
def chain (commands : List DomainCommand) : Except Failure Program :=
  Program.create chained >>= fun p => @Program.run sha256 p commands

/-- Verify the proposal against a Program and admit the result. -/
def receive (p : Program) : Except Failure (AcceptedResult × Program) := do
  match ← @verifyCandidate sha256 p proposal proposal.publication.artifacts policy producer
    inspection 0 none with
  | .rejected _ => .error ⟨.valueError, "rejected"⟩
  | .accepted r =>
    let q ← @admitAccepted sha256 p r proposal.publication.artifacts policy inspection.repository
      inspection.baseRevision inspection.headRevision 1
    return (r, q)

theorem reachable_chain {commands : List DomainCommand} {p : Program}
    (h : chain commands = .ok p) : @Program.Reachable sha256 p := by
  obtain ⟨new, hnew, h⟩ := bind_eq_ok.1 h
  exact @Program.Reachable.run sha256 _ _ (@Program.Reachable.create sha256 _ _ hnew) _ h

/-- What a reception that returned has verified and admitted. -/
theorem receive_eq_ok {p q : Program} {r : AcceptedResult} (h : receive p = .ok (r, q)) :
    @verifyCandidate sha256 p proposal proposal.publication.artifacts policy producer inspection
        0 none = .ok (.accepted r) ∧
      @admitAccepted sha256 p r proposal.publication.artifacts policy inspection.repository
        inspection.baseRevision inspection.headRevision 1 = .ok q := by
  obtain ⟨v, hv, h⟩ := bind_eq_ok.1 h
  cases v with
  | rejected r => cases h
  | accepted r =>
    obtain ⟨q, hq, h⟩ := bind_eq_ok.1 h
    cases pure_eq_ok.1 h
    exact ⟨hv, hq⟩

end Sample

/-- The admitted review of the current artifact is effective. -/
theorem Program.admission_effective_reviewed :
    ∃ p q r, @Reachable Sample.sha256 p ∧ Sample.receive p = .ok (r, q) ∧ q.Effective r := by
  have hrun : (Sample.chain Sample.untilReview >>= fun p => do
      let a ← p.attemptNamed Sample.proposal.publication.attemptId
      let inputs ← p.resolvedInputs a.spec.workUnitId
      let out ← Sample.receive p
      return decide (SameSubject a.spec.effectiveInputs.toList inputs)) = .ok true := by
    decide +kernel
  obtain ⟨p, hp, h⟩ := bind_eq_ok.1 hrun
  obtain ⟨a, ha, h⟩ := bind_eq_ok.1 h
  obtain ⟨inputs, hi, h⟩ := bind_eq_ok.1 h
  obtain ⟨⟨r, q⟩, hout, h⟩ := bind_eq_ok.1 h
  obtain ⟨hv, hq⟩ := Sample.receive_eq_ok hout
  refine ⟨p, q, r, Sample.reachable_chain hp, hout, ?_⟩
  refine (@admission_effective_iff Sample.sha256 _ _ (Sample.reachable_chain hp) _ _ _ _ _ _ _ _ _
    _ _ _ _ _ hv hq).2 ⟨a, inputs, ha, hi, ?_⟩
  exact of_decide_eq_true (pure_eq_ok.1 h)

/-- After the first unit is accepted again with another artifact, the review of the earlier
artifact is verified and admitted, and its unit is not satisfied. -/
theorem Program.admission_ignored :
    ∃ p q r, @Reachable Sample.sha256 p ∧
      @verifyCandidate Sample.sha256 p Sample.proposal Sample.proposal.publication.artifacts
        Sample.policy Sample.producer Sample.inspection 0 none = .ok (.accepted r) ∧
      @admitAccepted Sample.sha256 p r Sample.proposal.publication.artifacts Sample.policy
        Sample.inspection.repository Sample.inspection.baseRevision
        Sample.inspection.headRevision 1 = .ok q ∧
      ¬q.Effective r := by
  have hrun : (Sample.chain (Sample.untilReview ++ [Sample.reaccept]) >>= fun p => do
      let (r, q) ← Sample.receive p
      let s ← q.state r.satisfaction.workUnitId
      return s.phase) = .ok .ready := by
    decide +kernel
  obtain ⟨p, hp, h⟩ := bind_eq_ok.1 hrun
  obtain ⟨⟨r, q⟩, hout, h⟩ := bind_eq_ok.1 h
  obtain ⟨s, hs, h⟩ := bind_eq_ok.1 h
  obtain ⟨hv, hq⟩ := Sample.receive_eq_ok hout
  refine ⟨p, q, r, Sample.reachable_chain hp, hv, hq, ?_⟩
  rw [effective_iff hs, pure_eq_ok.1 h]
  nofun

end CreatidyKernel
