import CreatidyKernel.Core.Closure

set_option relaxedAutoImplicit false
set_option autoImplicit false

/-!
# No stale acceptance

A unit that is projected satisfied rests on one consistent set of accepted results: all its
ancestors are satisfied, its satisfaction pins the current intent, and the Attempt behind it
consumed exactly the current initial inputs and the outputs of the satisfactions chosen now.

## Main definitions

* `Program.Provides` — the current source of an input of a unit.
* `Program.Accepts` — a recorded satisfaction meets the current intent and inputs of a unit.

## Main results

* `Program.provides_unique` — an input has one current source.
* `Program.satisfied_inv` — what the projection checked for a satisfied unit.
* `Program.no_stale_acceptance` — satisfied units rest on current results, and a completed
  Program on results for every unit.
-/

namespace CreatidyKernel

open Checked

namespace Program

/-! ## Current inputs -/

/-- A binding stands for a current approved input of a unit: an initial input, or an output
that a direct predecessor declares, with the reference its chosen satisfaction binds. -/
def Provides (p : Program) (unit : WorkUnit) (b : InputBinding) : Prop :=
  (b.sourceKind = "initial" ∧
    ∃ i ∈ p.spec.initialInputs, i.name = b.name ∧ i.reference = b.reference) ∨
  ∃ d ∈ unit.dependencies, b.sourceWorkUnitId = some d ∧
    (∃ v ∈ p.spec.workUnits, v.workUnitId = d ∧ b.name ∈ v.outputs) ∧
    ∃ t ∈ p.workUnitStates, t.workUnitId = d ∧
      ∃ s ∈ p.satisfactions, t.phase = .satisfied s.referenceId ∧
        ∃ o ∈ s.outputBindings, o.name = b.name ∧ o.reference = b.reference

/-- The inputs of an Attempt are, name by name, the current approved inputs of a unit. -/
def Consumes (p : Program) (unit : WorkUnit) (inputs : List InputBinding) : Prop :=
  inputs.map InputBinding.name = unit.requiredInputs.toList ∧ ∀ b ∈ inputs, p.Provides unit b

/-- A satisfaction pins the current fingerprint and outputs of a unit, and its source Attempt
finished on the current inputs. -/
def Accepts [Sha256] (p : Program) (unit : WorkUnit) (s : TrustedSatisfaction) : Prop :=
  s.workUnitId = unit.workUnitId ∧
    p.spec.fingerprint unit.workUnitId = .ok s.workUnitFingerprint ∧
    s.outputNames = unit.outputs ∧
    ∃ source ∈ p.attempts, source.attemptId = s.sourceAttemptId ∧ source.status = .finished ∧
      p.Consumes unit source.spec.effectiveInputs.toList

/-- The subject of a binding decides whether it stands for a current input. -/
theorem provides_congr {p : Program} {unit : WorkUnit} {b b' : InputBinding}
    (h : b.subject = b'.subject) : p.Provides unit b ↔ p.Provides unit b' := by
  simp only [InputBinding.subject, Prod.mk.injEq] at h
  obtain ⟨hname, href, hkind, hunit, -⟩ := h
  rw [Provides, Provides, hname, href, hkind, hunit]

/-- Same subjects, same current inputs. -/
theorem consumes_congr {p : Program} {unit : WorkUnit} {l l' : List InputBinding}
    (h : SameSubject l l') (hc : p.Consumes unit l) : p.Consumes unit l' := by
  obtain ⟨hnames, hall⟩ := hc
  have hfst : ∀ l : List InputBinding, l.map InputBinding.name =
      (l.map InputBinding.subject).map Prod.fst := fun l => by
    rw [List.map_map]
    rfl
  refine ⟨by rw [hfst, ← h, ← hfst, hnames], fun b hb => ?_⟩
  have hmem : b.subject ∈ l.map InputBinding.subject := by
    rw [h]
    exact List.mem_map_of_mem hb
  obtain ⟨b', hb', he⟩ := List.mem_map.1 hmem
  exact (provides_congr he).1 (hall b' hb')

/-- Lists with the same names whose bindings agree on each name have the same subjects. -/
theorem sameSubject_of_names {l l' : List InputBinding}
    (hn : l.map InputBinding.name = l'.map InputBinding.name)
    (h : ∀ b ∈ l, ∀ b' ∈ l', b.name = b'.name → b.subject = b'.subject) : SameSubject l l' := by
  induction l generalizing l' with
  | nil =>
    rw [List.map_nil, eq_comm, List.map_eq_nil_iff] at hn
    rw [hn]
    rfl
  | cons b l ih =>
    cases l' with
    | nil => cases hn
    | cons b' l' =>
      obtain ⟨hb, hl⟩ := List.cons.inj hn
      have hrest := ih hl fun c hc c' hc' =>
        h c (List.mem_cons_of_mem _ hc) c' (List.mem_cons_of_mem _ hc')
      exact List.cons_eq_cons.2 ⟨h b List.mem_cons_self b' List.mem_cons_self hb, hrest⟩

section

variable [Sha256] {p : Program}

omit [Sha256] in
/-- A logical name has one producer. -/
theorem producer_unique (spec : ProgramSpec) {n : Name} {a b : Option Name}
    (ha : (n, a) ∈ spec.args.producers) (hb : (n, b) ∈ spec.args.producers) : a = b :=
  congrArg Prod.snd (List.inj_on_of_nodup_map spec.valid.producersNodup ha hb rfl)

/-- An input of a unit has one current source. -/
theorem provides_unique (h : p.Coherent) {unit : WorkUnit} {b b' : InputBinding}
    (hb : p.Provides unit b) (hb' : p.Provides unit b') (hn : b.name = b'.name) :
    b.subject = b'.subject := by
  have hinit : ∀ i ∈ p.spec.initialInputs, (i.name, none) ∈ p.spec.args.producers :=
    fun i hi => List.mem_append_left _ (List.mem_map_of_mem hi)
  have hout : ∀ v ∈ p.spec.workUnits, ∀ o ∈ v.outputs,
      (o, some v.workUnitId) ∈ p.spec.args.producers := fun v hv o ho =>
    List.mem_append_right _ (List.mem_flatMap.2 ⟨v, hv, List.mem_map_of_mem ho⟩)
  have hsubject : ∀ c : InputBinding, ∀ d, c.sourceWorkUnitId = some d →
      c.subject = (c.name, c.reference, "predecessor", some d, some c.name) := by
    rintro ⟨n, r, _ | ⟨u, s⟩⟩ d hd <;> cases hd
    rfl
  rcases hb with ⟨hk, i, hi, hin, hir⟩ | ⟨d, hd, hbd, ⟨v, hv, rfl, ho⟩, t, ht, htd, s, hs, hphase,
    o, hom, hon, hor⟩
  · rcases hb' with ⟨hk', i', hi', hin', hir'⟩ | ⟨d', -, hbd', ⟨v', hv', rfl, ho'⟩, -⟩
    · have hii : i = i' := p.spec.initialInputs.eq_of_key_eq hi hi' (hin.trans (hn.trans hin'.symm))
      have hnone : ∀ c : InputBinding, c.sourceKind = "initial" →
          c.subject = (c.name, c.reference, "initial", none, none) := by
        rintro ⟨n, r, _ | ⟨u, s⟩⟩ hc
        · rfl
        · exact absurd hc (by simp [InputBinding.sourceKind])
      rw [hnone b hk, hnone b' hk', hn, ← hir, ← hir', hii]
    · have hx := hinit i hi
      rw [hin, hn] at hx
      exact absurd (producer_unique p.spec hx (hout v' hv' _ ho')) (by rintro ⟨⟩)
  · rcases hb' with ⟨hk', i', hi', hin', hir'⟩ | ⟨d', -, hbd', ⟨v', hv', rfl, ho'⟩, t', ht', htd',
      s', hs', hphase', o', hom', hon', hor'⟩
    · have hx := hinit i' hi'
      rw [hin', ← hn] at hx
      exact absurd (producer_unique p.spec (hout v hv _ ho) hx) (by rintro ⟨⟩)
    · have hvv : v.workUnitId = v'.workUnitId :=
        Option.some.inj (producer_unique p.spec (hout v hv _ ho) (hn ▸ hout v' hv' _ ho'))
      have htt : t = t' := List.inj_on_of_nodup_map h.nodup_workUnitId ht ht'
        (htd.trans (hvv.trans htd'.symm))
      subst htt
      have hss : s = s' := List.inj_on_of_nodup_map h.ledger.satisfactions.ids hs hs'
        (Phase.satisfied.inj (hphase.symm.trans hphase'))
      subst hss
      have hoo : o = o' := s.outputBindings.eq_of_key_eq hom hom' (hon.trans (hn.trans hon'.symm))
      rw [hsubject b _ hbd, hsubject b' _ hbd', hn, ← hor, ← hor', hoo, hvv]

/-! ## Satisfied units -/

/-- What the projection checked for a satisfied unit. -/
theorem satisfied_inv (h : p.Coherent) {st : WorkUnitState} (hst : st ∈ p.workUnitStates)
    {f : Name} (hs : st.phase = .satisfied f) :
    ∃ unit fingerprint resolved matching latest, unit ∈ p.spec.workUnits ∧
      unit.workUnitId = st.workUnitId ∧ p.spec.fingerprint st.workUnitId = .ok fingerprint ∧
      (∀ c ∈ p.cancellations, c.workUnitId = st.workUnitId →
        c.workUnitFingerprint ≠ fingerprint) ∧
      CreatidyKernel.resolvedInputs p.spec unit (stateById p.workUnitStates)
        (index TrustedSatisfaction.referenceId p.satisfactions) = .ok (some resolved) ∧
      filterM (applicable p.attempts unit fingerprint (some resolved)) p.satisfactions =
        .ok matching ∧
      matching.argmax TrustedSatisfaction.recordOrder = some latest ∧ latest.referenceId = f := by
  have hd : p.status ≠ .draft := fun hd => by
    rw [h.pending hd, pendingStates, List.mem_map] at hst
    obtain ⟨n, -, rfl⟩ := hst
    cases hs
  obtain ⟨unit, fp, hu, hid, hf, ⟨-, heq⟩ | ⟨hnc, inputs, matching, hr, hm, heq⟩⟩ :=
    projectUnit_inv ((project_fixedPoint (h.projected hd)).2 st hst)
  · rw [heq] at hs
    cases hs
  · cases hl : matching.argmax TrustedSatisfaction.recordOrder with
    | none =>
      rw [heq] at hs
      simp only [hl, openPhase] at hs
      repeat' split at hs
      all_goals cases hs
    | some latest =>
      rw [heq] at hs
      simp only [hl, Phase.satisfied.injEq] at hs
      obtain ⟨-, happ⟩ := ((filterM_eq_ok hm).2 latest).1 (List.argmax_mem hl)
      obtain ⟨-, resolved, -, rfl, -⟩ := applicable_eq_true.1 happ
      refine ⟨unit, fp, resolved, matching, latest, hu, hid, hf, fun c hc he hcf => ?_, hr, hm,
        hl, hs⟩
      exact hnc (.inr ⟨c, hc, he.trans hid.symm, hcf⟩)

/-- The chosen satisfaction of a satisfied unit binds the outputs the unit declares. -/
theorem satisfied_outputs (h : p.Coherent) {st : WorkUnitState} (hst : st ∈ p.workUnitStates)
    {s : TrustedSatisfaction} (hsm : s ∈ p.satisfactions)
    (hs : st.phase = .satisfied s.referenceId) :
    ∃ unit ∈ p.spec.workUnits, unit.workUnitId = st.workUnitId ∧ s.outputNames = unit.outputs := by
  obtain ⟨unit, fp, resolved, matching, latest, hu, hid, -, -, -, hm, hl, hf⟩ :=
    satisfied_inv h hst hs
  obtain ⟨hlm, happ⟩ := ((filterM_eq_ok hm).2 latest).1 (List.argmax_mem hl)
  obtain rfl := List.inj_on_of_nodup_map h.ledger.satisfactions.ids hlm hsm hf
  exact ⟨unit, hu, hid, (applicable_eq_true.1 happ).1.2.2⟩

/-- Resolved inputs are the current approved inputs of the unit. -/
theorem consumes_resolved (h : p.Coherent) {unit : WorkUnit} {resolved : List InputBinding}
    (hr : CreatidyKernel.resolvedInputs p.spec unit (stateById p.workUnitStates)
      (index TrustedSatisfaction.referenceId p.satisfactions) = .ok (some resolved)) :
    p.Consumes unit resolved := by
  obtain ⟨-, hnames, hall⟩ := resolvedInputs_eq_some hr
  refine ⟨hnames, fun b hb => ?_⟩
  rcases hall b hb with hi | ⟨d, hd, t, f, source, ht, hphase, hsource, o, ho, rfl⟩
  · have hinit := p.spec.valid.inputsInitial b hi
    exact .inl ⟨by rw [InputBinding.sourceKind, hinit], b, hi, rfl, rfl⟩
  · obtain ⟨htm, htd⟩ := index_eq_some ht
    obtain ⟨hsm, rfl⟩ := index_eq_some hsource
    obtain ⟨v, hv, hvid, hout⟩ := satisfied_outputs h htm hsm hphase
    have hon : o.name ∈ v.outputs := by
      rw [← hout, TrustedSatisfaction.outputNames, SortedSet.mem_ofList]
      exact List.mem_map_of_mem ho
    exact .inr ⟨d, hd, rfl, ⟨v, hv, hvid.trans htd, hon⟩, t, htm, htd, source, hsm, hphase, o, ho,
      rfl, rfl⟩

/-- Everything a satisfied unit depends on is satisfied. -/
theorem ancestor_satisfied (h : p.Coherent) {st : WorkUnitState} (hst : st ∈ p.workUnitStates)
    {f : Name} (hs : st.phase = .satisfied f) {n : Name}
    (hn : Relation.ReflTransGen p.spec.DependsOn st.workUnitId n) :
    ∃ t ∈ p.workUnitStates, t.workUnitId = n ∧ ∃ g, t.phase = .satisfied g := by
  induction hn with
  | refl => exact ⟨st, hst, rfl, f, hs⟩
  | tail _ hd ih =>
    obtain ⟨t, ht, htn, g, hg⟩ := ih
    obtain ⟨unit, -, resolved, -, -, hu, hid, -, -, hr, -⟩ := satisfied_inv h ht hg
    obtain ⟨v, hv, hve, hdv⟩ := hd
    rw [p.spec.workUnits.eq_of_key_eq hv hu (hve.trans (htn.symm.trans hid.symm))] at hdv
    obtain ⟨t', g', -, ht', hg', -⟩ := (resolvedInputs_eq_some hr).1 _ hdv
    obtain ⟨htm, hte⟩ := index_eq_some ht'
    exact ⟨t', htm, hte, g', hg'⟩

/-- The source Attempt of a recorded satisfaction has finished. -/
theorem source_finished (h : p.Coherent) {s : TrustedSatisfaction} (hs : s ∈ p.satisfactions)
    {a : Attempt} (ha : a ∈ p.attempts) (hid : a.attemptId = s.sourceAttemptId) :
    a.status = .finished := by
  obtain ⟨a', ha', hid', hfin, -⟩ := (h.ledger.satisfactions.each s hs).source
  rwa [List.inj_on_of_nodup_map h.ledger.attempts.ids ha ha' (hid.trans hid'.symm)]

/-- The chosen satisfaction is accepted, and is the latest accepted one. -/
theorem satisfied_accepts (h : p.Coherent) {st : WorkUnitState} (hst : st ∈ p.workUnitStates)
    {f : Name} (hs : st.phase = .satisfied f) :
    ∃ unit ∈ p.spec.workUnits, unit.workUnitId = st.workUnitId ∧
      ∃ s ∈ p.satisfactions, s.referenceId = f ∧ p.Accepts unit s ∧
        ∀ s' ∈ p.satisfactions, p.Accepts unit s' → s'.recordOrder ≤ s.recordOrder := by
  obtain ⟨unit, fp, resolved, matching, latest, hu, hid, hfp, -, hr, hm, hl, hf⟩ :=
    satisfied_inv h hst hs
  have hresolved := consumes_resolved h hr
  obtain ⟨-, hmem⟩ := filterM_eq_ok hm
  obtain ⟨hlm, happ⟩ := (hmem latest).1 (List.argmax_mem hl)
  obtain ⟨⟨hlu, hlf, hlo⟩, _, source, ⟨⟩, hsource, hsub⟩ := applicable_eq_true.1 happ
  obtain ⟨hsm, hsid⟩ := index_eq_some hsource
  rw [← hid] at hfp
  refine ⟨unit, hu, hid, latest, hlm, hf, ⟨hlu, hlf ▸ hfp, hlo, source, hsm, hsid,
    source_finished h hlm hsm hsid, consumes_congr hsub.symm hresolved⟩, ?_⟩
  rintro s' hs' ⟨hu', hf', ho', source', hsm', hsid', -, hcons⟩
  -- an accepted satisfaction passes the filter of the projection, so the maximum bounds it
  have hsame : SameSubject source'.spec.effectiveInputs.toList resolved :=
    sameSubject_of_names (hcons.1.trans hresolved.1.symm) fun b hb b' hb' =>
      provides_unique h (hcons.2 b hb) (hresolved.2 b' hb')
  have hfp' : s'.workUnitFingerprint = fp := Except.ok.inj (hf'.symm.trans hfp)
  refine List.le_of_mem_argmax ((hmem s').2 ⟨hs', ?_⟩) hl
  exact applicable_eq_true.2 ⟨⟨hu', hfp', ho'⟩, resolved, source', rfl,
    h.ledger.attempts.index_attemptId.2 ⟨hsm', hsid'⟩, hsame⟩

/-! ## Main result -/

/-- In every reachable Program a satisfied unit and all its ancestors are satisfied and not
cancelled under their current fingerprints, and the satisfaction of the unit is the latest one
that pins its current intent and whose source Attempt finished on the current inputs. In a
completed Program this holds of every unit. -/
theorem no_stale_acceptance (hp : p.Reachable) :
    (∀ st ∈ p.workUnitStates, ∀ f, st.phase = .satisfied f →
      (∀ n, Relation.ReflTransGen p.spec.DependsOn st.workUnitId n →
        (∃ t ∈ p.workUnitStates, t.workUnitId = n ∧ ∃ g, t.phase = .satisfied g) ∧
        ∀ c ∈ p.cancellations, c.workUnitId = n →
          p.spec.fingerprint n ≠ .ok c.workUnitFingerprint) ∧
      ∃ unit ∈ p.spec.workUnits, unit.workUnitId = st.workUnitId ∧
        ∃ s ∈ p.satisfactions, s.referenceId = f ∧ p.Accepts unit s ∧
          ∀ s' ∈ p.satisfactions, p.Accepts unit s' → s'.recordOrder ≤ s.recordOrder) ∧
    (p.status = .completed → ∀ unit ∈ p.spec.workUnits, ∃ st ∈ p.workUnitStates,
      st.workUnitId = unit.workUnitId ∧ ∃ f, st.phase = .satisfied f) := by
  have h := hp.coherent
  refine ⟨fun st hst f hs => ⟨fun n hn => ?_, satisfied_accepts h hst hs⟩, fun hc unit hu => ?_⟩
  · obtain ⟨t, ht, rfl, g, hg⟩ := ancestor_satisfied h hst hs hn
    refine ⟨⟨t, ht, rfl, g, hg⟩, fun c hc he hf => ?_⟩
    obtain ⟨unit, fp, -, -, -, -, -, hfp, hnc, -⟩ := satisfied_inv h ht hg
    exact hnc c hc he (Except.ok.inj (hf.symm.trans hfp))
  · have hmem : unit.workUnitId ∈ p.workUnitStates.map WorkUnitState.workUnitId := by
      rw [h.map_workUnitId]
      exact List.mem_map_of_mem hu
    obtain ⟨st, hst, he⟩ := List.mem_map.1 hmem
    exact ⟨st, hst, he, WorkUnitState.status_eq_satisfied.1 (h.completed hc st hst)⟩

end

/-- The completed sample Program rests on a result for its unit. -/
theorem no_stale_acceptance_completed :
    ∃ st ∈ Sample.completed.workUnitStates, st.workUnitId = Sample.unit.workUnitId ∧
      ∃ f, st.phase = .satisfied f :=
  (@no_stale_acceptance Sample.sha256 _ Sample.reachable_completed).2 (by decide) Sample.unit
    List.mem_cons_self

end Program

end CreatidyKernel
