import CreatidyKernel.Core.Resolution

set_option relaxedAutoImplicit false
set_option autoImplicit false

/-!
# What an amendment withdraws

An amendment withdraws the live Attempts whose unit, inputs or authority the new specification
takes away, and repeats this until none is left. One round is enough: what a round of withdrawal
changes are statuses of Attempts, and no live Attempt decides which units are satisfied or
cancelled, so the inputs of the others stay as they are. The comment in the code expects
cascades; there are none.

## Main definitions

* `Keeps`, `Program.Survives` — what a live Attempt must still have.

## Main results

* `Program.invalidated_spec` — the loop tests exactly this.
* `Program.keeps_congr` — withdrawal does not change it for the others.
* `Program.withdraw_rounds` — the loop ends after at most one withdrawal.
* `Program.amendment_withdrawal` — the Attempts that survive an amendment.
* `Program.noop_keeps_stale` — an amendment that changes nothing withdraws nothing.
-/

namespace CreatidyKernel

open Checked

namespace Program

section

variable [Sha256]

/-- What a live Attempt must have under a specification to go on: its unit with the
fingerprint the pinned specification gave it and not cancelled, the inputs it was given, and an
actor who is allowed the next action. -/
structure Keeps (d : Ledger) (states : List WorkUnitState) (a : Attempt) : Prop where
  unit : a.spec.workUnitId ∈ d.spec.unitIds
  intent : ∃ source fingerprint, Cites d.specHistory a.spec.pin source ∧
    source.fingerprint a.spec.workUnitId = .ok fingerprint ∧
    d.spec.fingerprint a.spec.workUnitId = .ok fingerprint
  wanted : ∃ s, stateById states a.spec.workUnitId = some s ∧ s.status ≠ .cancelled
  inputs : ∃ unit ∈ d.spec.workUnits, unit.workUnitId = a.spec.workUnitId ∧
    ∃ inputs, CreatidyKernel.resolvedInputs d.spec unit (stateById states)
        (index TrustedSatisfaction.referenceId d.satisfactions) = .ok (some inputs) ∧
      SameSubject a.spec.effectiveInputs.toList inputs
  action : requiredAction a ∈ d.spec.authority.allowedActions
  actor : a.actorId = d.spec.authority.ownerId ∨ a.actorId ∈ d.spec.authority.delegatedActorIds

/-- What a live Attempt must have under the specification and the projection of a Program. -/
abbrev Survives (p : Program) (a : Attempt) : Prop := Keeps p.toLedger p.workUnitStates a

/-! ## One round -/

variable {p q : Program} {d : Ledger} {order : ℕ} {states : List WorkUnitState} {a : Attempt}

/-- The projection knows every unit, and the satisfactions it cites are recorded. -/
theorem projected_total (hp : project d.spec d.attempts d.satisfactions d.cancellations =
      .ok states) (hids : (d.satisfactions.map TrustedSatisfaction.referenceId).Nodup)
    {n : Name} (hn : n ∈ d.spec.unitIds) : ∃ s, stateById states n = some s ∧
      ∀ f, s.phase = .satisfied f →
        (index TrustedSatisfaction.referenceId d.satisfactions f).isSome := by
  obtain ⟨hmap, hfix⟩ := project_fixedPoint hp
  have hnd : (states.map WorkUnitState.workUnitId).Nodup := hmap ▸ d.spec.workUnits.nodup_keys
  obtain ⟨s, hs, rfl⟩ := List.mem_map.1 (hmap ▸ hn)
  refine ⟨s, (index_eq_some_iff hnd).2 ⟨hs, rfl⟩, fun f hf => ?_⟩
  obtain ⟨item, hitem, he⟩ := projectUnit_satisfied (hfix s hs) hf
  rw [(index_eq_some_iff hids).2 ⟨hitem, he⟩]
  rfl

/-- The test of the loop raises nothing, and passes exactly the Attempts that keep what they
need. -/
theorem invalidated_spec (hr : d.Recorded order)
    (hp : project d.spec d.attempts d.satisfactions d.cancellations = .ok states)
    (ha : a ∈ d.attempts) :
    ∃ b, invalidated d states a = .ok b ∧ (b = false ↔ Keeps d states a) := by
  obtain ⟨source, hcite, hsource⟩ := hr.attempts.pinned a ha
  have hfind := hr.history.find?_pin.2 hcite
  by_cases hu : a.spec.workUnitId ∈ d.spec.unitIds
  · obtain ⟨unit, hunit⟩ := ProgramSpec.exists_workUnit hu
    obtain ⟨hum, huid⟩ := ProgramSpec.workUnit_eq_ok.1 hunit
    obtain ⟨before, hbefore⟩ := source.fingerprint_total hsource
    obtain ⟨now, hnow⟩ := d.spec.fingerprint_total hu
    obtain ⟨s, hs, -⟩ := projected_total hp hr.satisfactions.ids hu
    obtain ⟨inputs, hinputs⟩ := resolvedInputs_total d.spec unit fun n hn =>
      projected_total hp hr.satisfactions.ids (ProgramSpec.mem_unitIds_of_dependency hum hn)
    have hkeeps : Keeps d states a ↔ before = now ∧ s.status ≠ .cancelled ∧
        (∃ resolved, inputs = some resolved ∧
          SameSubject a.spec.effectiveInputs.toList resolved) ∧
        requiredAction a ∈ d.spec.authority.allowedActions ∧
        (a.actorId = d.spec.authority.ownerId ∨
          a.actorId ∈ d.spec.authority.delegatedActorIds) := by
      constructor
      · rintro ⟨-, ⟨source', fp, hcite', hfp, hfp'⟩, ⟨s', hs', hst⟩,
          ⟨unit', hum', huid', resolved, hres, hsub⟩, haction, hactor⟩
        obtain rfl : source' = source :=
          Option.some.inj ((hr.history.find?_pin.2 hcite').symm.trans hfind)
        obtain rfl : s' = s := Option.some.inj (hs'.symm.trans hs)
        obtain rfl : unit' = unit := d.spec.workUnits.eq_of_key_eq hum' hum (huid'.trans huid.symm)
        refine ⟨?_, hst, ⟨resolved, Except.ok.inj (hinputs.symm.trans hres), hsub⟩, haction,
          hactor⟩
        exact (Except.ok.inj (hbefore.symm.trans hfp)).trans
          (Except.ok.inj (hfp'.symm.trans hnow))
      · rintro ⟨rfl, hst, ⟨resolved, rfl, hsub⟩, haction, hactor⟩
        exact ⟨hu, ⟨source, before, hcite, hbefore, hnow⟩, ⟨s, hs, hst⟩,
          ⟨unit, hum, huid, resolved, hinputs, hsub⟩, haction, hactor⟩
    have hstate : subscript (stateById states) a.spec.workUnitId = .ok s := subscript_eq_ok.2 hs
    rw [hkeeps, invalidated, hunit, hfind]
    simp only [hinputs, hbefore, hnow, hstate, ok_bind]
    cases inputs with
    | none => exact ⟨true, rfl, by simp⟩
    | some resolved =>
      by_cases hc : before ≠ now ∨ ¬SameSubject a.spec.effectiveInputs.toList resolved ∨
          requiredAction a ∉ d.spec.authority.allowedActions ∨
          (a.actorId ≠ d.spec.authority.ownerId ∧ a.actorId ∉ d.spec.authority.delegatedActorIds)
      · refine ⟨true, if_pos hc, ?_⟩
        simp only [Bool.true_eq_false, false_iff, Option.some.injEq, exists_eq_left']
        tauto
      · refine ⟨decide (s.status = .cancelled), if_neg hc, ?_⟩
        simp only [decide_eq_false_iff_not, Option.some.injEq, exists_eq_left']
        tauto
  · refine ⟨true, ?_, ⟨by rintro ⟨⟩, fun h => absurd h.unit hu⟩⟩
    cases hunit : d.spec.workUnit a.spec.workUnitId with
    | error e => simp [invalidated, hunit]
    | ok unit =>
      obtain ⟨hum, huid⟩ := ProgramSpec.workUnit_eq_ok.1 hunit
      exact absurd (ProgramSpec.mem_unitIds.2 ⟨unit, hum, huid⟩) hu

/-- A round finds the live Attempts that lost what they need. -/
theorem invalidAttempts_spec (hr : d.Recorded order)
    (hp : project d.spec d.attempts d.satisfactions d.cancellations = .ok states) :
    ∃ invalid, invalidAttempts d states = .ok invalid ∧
      ∀ a ∈ d.attempts, a.attemptId ∈ invalid ↔ a.Live ∧ ¬Keeps d states a := by
  have htest : ∀ a ∈ d.attempts, ∃ b,
      (if a.Live then invalidated d states a else .ok false) = .ok b ∧
        (b = true ↔ a.Live ∧ ¬Keeps d states a) := by
    intro a ha
    by_cases hl : a.Live
    · obtain ⟨b, hb, hiff⟩ := invalidated_spec hr hp ha
      refine ⟨b, by rw [if_pos hl, hb], ?_⟩
      rw [← hiff]
      simp [hl]
    · exact ⟨false, if_neg hl, by simp [hl]⟩
  obtain ⟨l, hl⟩ := exists_filterM_eq_ok fun a ha =>
    let ⟨b, hb, _⟩ := htest a ha
    ⟨b, hb⟩
  refine ⟨l.map Attempt.attemptId, by rw [invalidAttempts, hl]; rfl, fun a ha => ?_⟩
  obtain ⟨b, hb, hiff⟩ := htest a ha
  have hmem : a ∈ l ↔ a.Live ∧ ¬Keeps d states a := by
    rw [(filterM_eq_ok hl).2, hb, ← hiff]
    simp [ha]
  rw [← hmem, List.mem_map]
  constructor
  · rintro ⟨a', ha', he⟩
    have ha'' := (((filterM_eq_ok hl).2 a').1 ha').1
    rwa [← List.inj_on_of_nodup_map hr.attempts.ids ha'' ha he]
  · exact fun ha => ⟨a, ha, rfl⟩

/-! ## The loop -/

/-- What an Attempt keeps depends on what is settled of the units. -/
theorem keeps_congr {d' : Ledger} {states' : List WorkUnitState} (hspec : d'.spec = d.spec)
    (hhistory : d'.specHistory = d.specHistory) (hsat : d'.satisfactions = d.satisfactions)
    (hsettled : ∀ n, (stateById states n).map WorkUnitState.settled =
      (stateById states' n).map WorkUnitState.settled)
    (h : Keeps d states a) : Keeps d' states' a := by
  obtain ⟨hunit, hintent, ⟨s, hs, hst⟩, ⟨unit, hum, huid, inputs, hinputs, hsub⟩, haction,
    hactor⟩ := h
  rw [resolvedInputs_settled d.spec unit _ fun n _ => hsettled n] at hinputs
  refine ⟨hspec ▸ hunit, by rwa [hspec, hhistory], ?_, ?_, hspec ▸ haction, hspec ▸ hactor⟩
  · have hmap := hsettled a.spec.workUnitId
    rw [hs, Option.map_some, eq_comm, Option.map_eq_some_iff] at hmap
    obtain ⟨s', hs', he⟩ := hmap
    refine ⟨s', hs', ?_⟩
    rwa [ne_eq, WorkUnitState.status_eq_cancelled, ← WorkUnitState.settled_eq_cancelled, he,
      WorkUnitState.settled_eq_cancelled, ← WorkUnitState.status_eq_cancelled]
  · rw [hspec, hsat]
    exact ⟨unit, hum, huid, inputs, hinputs, hsub⟩

omit [Sha256] in
/-- Cancelling nothing changes nothing. -/
theorem cancelLive_nil (actorId : Name) (revision : ℕ) (reason : Name) (d : Ledger) :
    cancelLive actorId revision [] reason d = d := by
  have hnil : liveIds d.attempts [] = [] := by simp [liveIds]
  have hattempts : withdrawn d.attempts [] = d.attempts := by
    simp [withdrawn, hnil]
  have hids : (SortedSet.ofList ([] : List Name)).toList = [] := by decide
  rw [cancelLive, hattempts, hnil, hids, List.map_nil, List.append_nil]

/-- The reason the withdrawals of an amendment are recorded with. -/
def withdrawalReason : Name :=
  ⟨"amendment withdrew Attempt subject or operational authority", Nonblank.withdrawn⟩

/-- The loop ends after at most one withdrawal, of the Attempts the first round finds: another
round finds none, however long the loop may run. -/
theorem withdraw_rounds (actorId : Name) {revision : ℕ} (hr : d.Recorded (revision + 1)) :
    ∃ states invalid, project d.spec d.attempts d.satisfactions d.cancellations = .ok states ∧
      (∀ a ∈ d.attempts, a.attemptId ∈ invalid ↔ a.Live ∧ ¬Keeps d states a) ∧
      (∀ fuel, (d.attempts.filter fun a => a.Live).length < fuel →
        withdraw actorId revision fuel d =
          .ok (cancelLive actorId revision invalid withdrawalReason d)) ∧
      ∃ states', project d.spec (withdrawn d.attempts invalid) d.satisfactions d.cancellations =
          .ok states' ∧
        invalidAttempts (cancelLive actorId revision invalid withdrawalReason d) states' =
          .ok [] := by
  obtain ⟨states, hp⟩ := hr.exists_project
  obtain ⟨invalid, hi, hiff⟩ := invalidAttempts_spec hr hp
  have hr' := hr.cancelLive actorId withdrawalReason invalid
  set d' := cancelLive actorId revision invalid withdrawalReason d with hd'
  obtain ⟨states', hp'⟩ := hr'.exists_project
  obtain ⟨invalid', hi', hiff'⟩ := invalidAttempts_spec hr' hp'
  have hsettled := project_settled (map_spec_withdrawn d.attempts invalid) hp hp'
  -- what is still live was found to keep what it needs, and still does
  have hnil : invalid' = [] := by
    rw [List.eq_nil_iff_forall_not_mem]
    intro id hid
    obtain ⟨a, ha, rfl, hl⟩ := exists_of_mem_invalidAttempts hi' hid
    obtain ⟨hmem, hnot⟩ := live_of_mem_withdrawn hr.attempts.ids ha hl
    have hkeeps : Keeps d states a := by
      by_contra hn
      exact hnot ((hiff a hmem).2 ⟨hl, hn⟩)
    exact ((hiff' a ha).1 hid).2 (keeps_congr (d := d) rfl rfl rfl hsettled hkeeps)
  rw [hnil] at hi'
  refine ⟨states, invalid, hp, hiff, fun fuel hfuel => ?_, states', hp', hi'⟩
  cases fuel with
  | zero => exact absurd hfuel (Nat.not_lt_zero _)
  | succ fuel =>
    rw [withdraw, hp, ok_bind, hi, ok_bind]
    by_cases hempty : invalid = []
    · rw [if_pos hempty, hempty, cancelLive_nil]
      rfl
    · rw [if_neg hempty]
      obtain ⟨id, hid⟩ := List.exists_mem_of_ne_nil _ hempty
      obtain ⟨a, ha, -, hl⟩ := exists_of_mem_invalidAttempts hi hid
      have hpos : 0 < (d.attempts.filter fun a => a.Live).length :=
        List.length_pos_of_mem (List.mem_filter.2 ⟨ha, decide_eq_true hl⟩)
      obtain ⟨fuel, rfl⟩ : ∃ k, fuel = k + 1 := ⟨fuel - 1, by omega⟩
      show withdraw actorId revision (fuel + 1) d' = .ok d'
      rw [withdraw, hp', ok_bind, hi', ok_bind, if_pos rfl]
      rfl

/-! ## The Attempts after the amendment -/

/-- The unit of a live Attempt that keeps what it needs is satisfied, or active with it. -/
theorem phase_of_survives (h : p.Coherent) (ha : a ∈ p.attempts) (hl : a.Live)
    (hs : p.Survives a) : ∃ s ∈ p.workUnitStates, s.workUnitId = a.spec.workUnitId ∧
      (s.phase = .active a.attemptId ∨ s.status = .satisfied) := by
  have hd : p.status ≠ .draft := fun hd => by
    rw [(h.ledger.draft hd).1] at ha
    cases ha
  obtain ⟨s, hstate, hwanted⟩ := hs.wanted
  obtain ⟨unit, hu, huid, inputs, hinputs, hsub⟩ := hs.inputs
  obtain ⟨hsm, hsid⟩ := index_eq_some hstate
  refine ⟨s, hsm, hsid, ?_⟩
  obtain ⟨v, fp, hv, hvid, -, ⟨-, heq⟩ | ⟨-, inputs', matching, hinputs', -, heq⟩⟩ :=
    projectUnit_inv ((project_fixedPoint (h.projected hd)).2 s hsm)
  · rw [heq] at hwanted
    exact absurd rfl hwanted
  · obtain rfl : v = unit :=
      p.spec.workUnits.eq_of_key_eq hv hu (hvid.trans (hsid.trans huid.symm))
    obtain rfl := Except.ok.inj (hinputs.symm.trans hinputs')
    rw [heq]
    cases matching.argmax TrustedSatisfaction.recordOrder with
    | some latest => exact .inr rfl
    | none =>
      refine .inl ?_
      obtain ⟨b, hb⟩ : ∃ b, liveAttempt p.attempts s.workUnitId = some b := by
        refine Option.isSome_iff_exists.1 (List.find?_isSome.2 ⟨a, ha, ?_⟩)
        exact decide_eq_true ⟨hsid.symm, hl⟩
      have hb' := List.find?_some hb
      rw [decide_eq_true_iff] at hb'
      -- the unit has one live Attempt
      have hba : b = a := by
        by_contra hne
        have hsym : Std.Symm fun a b : Attempt =>
            a.Live → b.Live → a.spec.workUnitId ≠ b.spec.workUnitId :=
          ⟨fun _ _ hxy hy hx he => hxy hx hy he.symm⟩
        exact h.ledger.live.distinct.forall (List.mem_of_find?_eq_some hb) ha hne hb'.2 hl
          (hb'.1.trans hsid)
      simp only [openPhase, hb, hba, if_pos hsub]

/-- The guards of an amendment that is accepted: it changes nothing, or the loop withdraws from
the ledger with the new specification. -/
theorem apply_amendProgramSpec {revision : ℕ} {actorId : Name} {amendment : SpecAmendment}
    (h : p.apply ⟨revision, actorId, .amendProgramSpec amendment⟩ = .ok q) :
    (p.spec.amend amendment = .ok p.spec ∧ q = p) ∨
      ∃ spec d, p.spec.amend amendment = .ok spec ∧ spec ≠ p.spec ∧
        withdraw actorId p.revision ((p.attempts.filter fun a => a.Live).length + 1)
          { p.toLedger with spec, specHistory := p.specHistory ++ [spec] } = .ok d ∧
        p.assemble d = .ok q := by
  obtain ⟨r, hg, h⟩ := bind_eq_ok.1 h
  simp only [guards, amendProgramSpec, bind_eq_ok, check_eq_ok] at hg
  obtain ⟨_, -, _, -, _, -, spec, hspec, hg⟩ := hg
  split_ifs at hg with hsame
  · obtain rfl := pure_eq_ok.1 hg
    exact .inl ⟨hsame ▸ hspec, (pure_eq_ok.1 h).symm⟩
  · obtain ⟨d, hw, hg⟩ := bind_eq_ok.1 hg
    obtain rfl := pure_eq_ok.1 hg
    exact .inr ⟨spec, d, hspec, hsame, hw, h⟩

/-- In every reachable Program and for every amendment: if it changes the specification, the
withdrawal loop ends, with the same ledger however long it may run. An accepted amendment that
changes nothing leaves the Program as it is. After any other, the live Attempts are exactly the
ones that keep what they need, and their units are satisfied or active with them; every other
live Attempt is cancelled, with one recorded cancellation; and nothing else happens to the
Attempts. -/
theorem amendment_withdrawal (hp : p.Reachable) (actorId : Name) (amendment : SpecAmendment) :
    (∀ spec, p.spec.amend amendment = .ok spec → spec ≠ p.spec → ∃ d states,
      (∀ fuel, (p.attempts.filter fun a => a.Live).length < fuel →
        withdraw actorId p.revision fuel
          { p.toLedger with spec, specHistory := p.specHistory ++ [spec] } = .ok d) ∧
      project d.spec d.attempts d.satisfactions d.cancellations = .ok states ∧
      invalidAttempts d states = .ok []) ∧
    ∀ revision q, p.apply ⟨revision, actorId, .amendProgramSpec amendment⟩ = .ok q →
      (p.spec.amend amendment = .ok p.spec ∧ q = p) ∨
      (p.spec.amend amendment = .ok q.spec ∧ q.spec ≠ p.spec ∧
        q.attempts.map Attempt.attemptId = p.attempts.map Attempt.attemptId ∧
        (∀ a ∈ p.attempts, ¬a.Live ∨ q.Survives a → a ∈ q.attempts) ∧
        ∀ a ∈ p.attempts, a.Live →
          ((∃ a' ∈ q.attempts, a'.attemptId = a.attemptId ∧ a'.Live) ↔ q.Survives a) ∧
          (q.Survives a → ∃ s ∈ q.workUnitStates, s.workUnitId = a.spec.workUnitId ∧
            (s.phase = .active a.attemptId ∨ s.status = .satisfied)) ∧
          (¬q.Survives a → a.withStatus .cancelled ∈ q.attempts ∧
            ∃! c, c ∈ q.attemptCancellations ∧ c.attemptId = a.attemptId)) := by
  have h := hp.coherent
  refine ⟨fun spec hspec hne => ?_, fun revision q hq => ?_⟩
  · obtain ⟨-, invalid, -, -, hw, states', hp', hi'⟩ :=
      withdraw_rounds actorId (amended_recorded h hspec hne)
    exact ⟨_, states', hw, hp', hi'⟩
  · have hqc := apply_coherent h hq
    rcases apply_amendProgramSpec hq with hsame | ⟨spec, d, hspec, hne, hw, hassemble⟩
    · exact .inl hsame
    · obtain ⟨states, invalid, hp₀, hiff, hrounds, states', hp', -⟩ :=
        withdraw_rounds actorId (amended_recorded h hspec hne)
      obtain rfl := Except.ok.inj ((hrounds _ (Nat.lt_succ_self _)).symm.trans hw)
      obtain ⟨projected, rfl, -, hprojected⟩ := assemble_eq_ok hassemble
      set q := p.successor _ projected with hqdef
      have hsettled := project_settled (map_spec_withdrawn p.attempts invalid) hp₀ hp'
      have hsurvives : ∀ a ∈ p.attempts, q.Survives a ↔ Keeps
          { p.toLedger with spec, specHistory := p.specHistory ++ [spec] } states a := by
        intro a ha
        have hd : p.status ≠ .draft := fun hd => by
          rw [(h.ledger.draft hd).1] at ha
          cases ha
        have hstates : projected = states' := Except.ok.inj ((hprojected hd).symm.trans hp')
        rw [← hstates] at hsettled
        exact ⟨keeps_congr rfl rfl rfl fun n => (hsettled n).symm, keeps_congr rfl rfl rfl hsettled⟩
      have hlisted : ∀ a ∈ p.attempts,
          a.attemptId ∈ liveIds p.attempts invalid ↔ a.Live ∧ ¬q.Survives a := by
        intro a ha
        rw [attemptId_mem_liveIds h.ledger.attempts.ids ha, hiff a ha, hsurvives a ha]
        tauto
      have hmem : ∀ a ∈ p.attempts, (if a.attemptId ∈ liveIds p.attempts invalid then
          a.withStatus .cancelled else a) ∈ q.attempts := fun a ha => List.mem_map_of_mem ha
      have hkept : ∀ a ∈ p.attempts, ¬a.Live ∨ q.Survives a → a ∈ q.attempts := by
        intro a ha hor
        have ha' := hmem a ha
        rwa [if_neg (by rw [hlisted a ha]; tauto)] at ha'
      refine .inr ⟨hspec, hne, ?_, hkept, fun a ha hl => ⟨⟨?_, fun hs => ?_⟩, fun hs => ?_,
        fun hs => ?_⟩⟩
      · have hspecs := congrArg (List.map AttemptSpec.attemptId)
          (map_spec_withdrawn p.attempts invalid)
        rwa [List.map_map, List.map_map] at hspecs
      · rintro ⟨a', ha', hid, hl'⟩
        obtain ⟨hmem', hnot⟩ := live_of_mem_withdrawn h.ledger.attempts.ids ha' hl'
        obtain rfl := List.inj_on_of_nodup_map h.ledger.attempts.ids hmem' ha hid
        by_contra hs
        exact hnot ((hiff a' hmem').2 ⟨hl, mt (hsurvives a' hmem').2 hs⟩)
      · exact ⟨a, hkept a ha (.inr hs), rfl, hl⟩
      · exact phase_of_survives hqc (hkept a ha (.inr hs)) hl hs
      · have ha' := hmem a ha
        rw [if_pos ((hlisted a ha).2 ⟨hl, hs⟩)] at ha'
        have hrecorded := (hqc.ledger.withdrawals.exact a.attemptId).2 ⟨_, ha', rfl, rfl⟩
        obtain ⟨c, hc, hid⟩ := List.mem_map.1 hrecorded
        refine ⟨ha', c, ⟨hc, hid⟩, fun c' ⟨hc', hid'⟩ => ?_⟩
        exact List.inj_on_of_nodup_map hqc.ledger.withdrawals.ids hc' hc (hid'.trans hid.symm)

end

end Program

/-! ### Amendments of the sample Program -/

namespace Sample

/-- The amendment of the admission limit. -/
def limit (maxAttempts : ℕ) : SpecAmendment where
  expectedRevision := 1
  objective := none
  workUnits := none
  initialInputs := none
  budget := some ⟨maxAttempts, 1⟩
  authority := none
  reason := ⟨"another try", by decide⟩
  acceptanceCriteria := none
  policyReferences := none
  expectedRevisionPos := Nat.one_pos
  replaces := by simp
  inputNames := SpecAmendment.kept_inputs
  criteriaNodup := SpecAmendment.kept_criteria
  policiesNodup := SpecAmendment.kept_policies

/-- The owner amends the limit while a live Attempt holds a replaced input. -/
def amendLimit (maxAttempts : ℕ) : DomainCommand :=
  ⟨10, ⟨"owner", Nonblank.owner⟩, .amendProgramSpec (limit maxAttempts)⟩

end Sample

/-- A higher limit is a new specification, so exactly the Attempts that keep their inputs stay
live. -/
theorem Program.amendment_withdrawal_sample :
    ∃ p q, @Reachable Sample.sha256 p ∧ @apply Sample.sha256 p (Sample.amendLimit 4) = .ok q ∧
      ∀ a ∈ p.attempts, a.Live →
        ((∃ a' ∈ q.attempts, a'.attemptId = a.attemptId ∧ a'.Live) ↔
          @Survives Sample.sha256 q a) := by
  have hrun : (Sample.chain Sample.untilReplaced >>= fun p => do
      let q ← @apply Sample.sha256 p (Sample.amendLimit 4)
      return decide (q.revision = p.revision)) = .ok false := by
    decide +kernel
  obtain ⟨p, hp, h⟩ := bind_eq_ok.1 hrun
  obtain ⟨q, hq, h⟩ := bind_eq_ok.1 h
  have hreach := Sample.reachable_chain hp
  refine ⟨p, q, hreach, hq, fun a ha hl => ?_⟩
  rcases (@amendment_withdrawal Sample.sha256 p hreach _ _).2 _ _ hq with ⟨-, rfl⟩ | hchanged
  · exact absurd (of_decide_eq_false (pure_eq_ok.1 h)) (by simp)
  · exact (hchanged.2.2.2.2 a ha hl).1

/-- The limit that already holds is not a new specification: the Attempt whose inputs were
replaced stays live, and its unit is neither active with it nor satisfied. -/
theorem Program.noop_keeps_stale :
    ∃ p q, @Reachable Sample.sha256 p ∧ @apply Sample.sha256 p (Sample.amendLimit 3) = .ok q ∧
      ∃ a ∈ p.attempts, a.Live ∧ a ∈ q.attempts ∧ ¬@Survives Sample.sha256 q a ∧
        ∀ s ∈ q.workUnitStates, s.workUnitId = a.spec.workUnitId → s.phase = .ready := by
  have hrun : (Sample.chain Sample.untilReplaced >>= fun p => do
      let q ← @apply Sample.sha256 p (Sample.amendLimit 3)
      let a ← q.attempt Sample.reviewing.attemptId
      let s ← q.state Sample.consuming.workUnitId
      let inputs ← q.resolvedInputs Sample.consuming.workUnitId
      return decide (q = p ∧ a.Live ∧ a.spec.workUnitId = Sample.consuming.workUnitId ∧
        s.phase = .ready ∧ ¬SameSubject a.spec.effectiveInputs.toList inputs)) = .ok true := by
    decide +kernel
  obtain ⟨p, hp, h⟩ := bind_eq_ok.1 hrun
  obtain ⟨q, hq, h⟩ := bind_eq_ok.1 h
  obtain ⟨a, ha, h⟩ := bind_eq_ok.1 h
  obtain ⟨s, hs, h⟩ := bind_eq_ok.1 h
  obtain ⟨inputs, hi, h⟩ := bind_eq_ok.1 h
  obtain ⟨rfl, hl, hunit, hphase, hsub⟩ := of_decide_eq_true (pure_eq_ok.1 h)
  have hreach := Sample.reachable_chain hp
  have hcoherent := @Reachable.coherent Sample.sha256 _ hreach
  have hmem := ((@Coherent.attempt_eq_ok Sample.sha256 _ hcoherent _ _).1 ha).1
  obtain ⟨hsm, hsid⟩ := (@Coherent.state_eq_ok Sample.sha256 _ hcoherent _ _).1 hs
  refine ⟨q, q, hreach, hq, a, hmem, hl, hmem, fun hsurvives => ?_, fun t ht he => ?_⟩
  · obtain ⟨unit, hu, huid, resolved, hr, hsame⟩ := @Keeps.inputs Sample.sha256 _ _ _ hsurvives
    rw [hunit] at huid
    simp only [resolvedInputs, ProgramSpec.workUnit_eq_ok.2 ⟨hu, huid⟩, ok_bind, hr,
      pure_eq_ok] at hi
    exact hsub (hi ▸ hsame)
  · rw [List.inj_on_of_nodup_map (@Coherent.nodup_workUnitId Sample.sha256 _ hcoherent) ht hsm
      (he.trans (hunit.trans hsid.symm)), hphase]

end CreatidyKernel
