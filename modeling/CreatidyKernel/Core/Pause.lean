import CreatidyKernel.Core.AppendOnly

set_option relaxedAutoImplicit false
set_option autoImplicit false

/-!
# How long a pause lasts

A pause is carried in the status of the Program only. The status is derived again after every
command, and completion overwrites it: a paused Program that completes and is then reopened is
active, although no one resumed it. Until then nothing but a resumption ends the pause.

## Main definitions

* `Program.OnHold` — paused, or a terminal status reached from there.
* `Program.Disturbs` — the command records a satisfaction or changes the specification.
* `Program.Held` — what follows a Program by commands other than a resumption, none of which
  disturbs a completed Program.

## Main results

* `project_satisfied` — transitions of Attempts do not reopen satisfied units.
* `Program.apply_onHold` — one command keeps the hold.
* `Program.pause_persists` — after a pause nothing is prepared or started.
* `Sample.pause_lost` — the run in which the pause is lost.
-/

namespace CreatidyKernel

open Checked

/-! ## Attempts do not reopen units -/

section

variable [Sha256] {spec : ProgramSpec} {attempts attempts' : List Attempt}
  {satisfactions : List TrustedSatisfaction} {cancellations : List WorkUnitCancellation}

/-- When every unit is satisfied, transitions of Attempts leave every unit satisfied. -/
theorem project_satisfied (h : attempts'.map Attempt.spec = attempts.map Attempt.spec)
    {states states' : List WorkUnitState}
    (hs : project spec attempts satisfactions cancellations = .ok states)
    (hs' : project spec attempts' satisfactions cancellations = .ok states')
    (hall : ∀ s ∈ states, s.status = .satisfied) : ∀ s ∈ states', s.status = .satisfied := by
  intro s' hsm'
  have hnd' : (states'.map WorkUnitState.workUnitId).Nodup :=
    (project_fixedPoint hs').1 ▸ spec.workUnits.nodup_keys
  have hself : stateById states' s'.workUnitId = some s' := (index_eq_some_iff hnd').2 ⟨hsm', rfl⟩
  have hsettled := project_settled h hs hs' s'.workUnitId
  rw [hself, Option.map_some, Option.map_eq_some_iff] at hsettled
  obtain ⟨s, hsm, he⟩ := hsettled
  rw [WorkUnitState.status_eq_satisfied_iff, ← he, ← WorkUnitState.status_eq_satisfied_iff]
  exact hall s (index_eq_some hsm).1

namespace Program

variable {p q : Program} {c : DomainCommand}

/-! ## The status a command decides -/

theorem withdraw_status {actorId : Name} {revision fuel : ℕ} {d d' : Ledger}
    (h : withdraw actorId revision fuel d = .ok d') : d'.status = d.status := by
  induction fuel generalizing d with
  | zero => exact Except.ok.inj h ▸ rfl
  | succ fuel ih =>
    rw [withdraw] at h
    obtain ⟨projected, -, h⟩ := bind_eq_ok.1 h
    obtain ⟨invalid, -, h⟩ := bind_eq_ok.1 h
    split_ifs at h
    · rw [pure_eq_ok.1 h]
    · exact (ih h).trans rfl

/-- The status a command decides: four commands switch it, from the statuses they require; the
others keep it. -/
def StatusRule (p : Program) (d : Ledger) : Request → Prop
  | .activateProgram => p.status = .draft ∧ d.status = .active
  | .pauseProgram => p.status = .active ∧ d.status = .paused
  | .resumeProgram => p.status = .paused ∧ d.status = .active
  | .cancelProgram => p.status ≠ .completed ∧ d.status = .cancelled
  | .cancelWorkUnit _ _ => p.status ≠ .completed ∧ d.status = p.status
  | .prepareAttempt _ => p.status = .active ∧ d.status = p.status
  | .startAttempt _ => p.status = .active ∧ d.status = p.status
  | _ => d.status = p.status

theorem Decided.status {actorId : Name} {request : Request} {d : Ledger}
    (h : Decided p actorId request d) : p.StatusRule d request := by
  cases h with
  | activateProgram hs | pauseProgram hs | resumeProgram hs => exact ⟨hs, rfl⟩
  | cancelProgram hs => exact ⟨by rcases hs with h | h | h <;> simp [h], rfl⟩
  | cancelWorkUnit hs => exact ⟨by rcases hs with h | h <;> simp [h], rfl⟩
  | prepareAttempt _ _ hs | startAttempt _ hs => exact ⟨hs, rfl⟩
  | finishAttempt | failAttempt | cancelAttempt | satisfyWorkUnit => exact rfl
  | amendProgramSpec _ _ _ hw => exact (withdraw_status hw).trans rfl

/-! ## The hold -/

/-- The Program is paused, or ended in a terminal status. -/
def OnHold (p : Program) : Prop :=
  p.status = .paused ∨ p.status = .completed ∨ p.status = .cancelled

/-- The command records a satisfaction or changes the specification: what can leave a unit
unsatisfied that was satisfied. -/
def Disturbs (p : Program) (c : DomainCommand) : Prop :=
  match c.request with
  | .satisfyWorkUnit _ => True
  | .amendProgramSpec amendment => p.spec.amend amendment ≠ .ok p.spec
  | _ => False

omit [Sha256] in
/-- A paused ledger stays paused or completes. -/
theorem nextStatus_paused {d : Ledger} (h : d.status = .paused) (states : List WorkUnitState) :
    nextStatus d states = .paused ∨ nextStatus d states = .completed := by
  by_cases hall : ∀ s ∈ states, s.status = .satisfied
  · exact .inr (by simp [nextStatus, programStatus, h, if_pos hall])
  · exact .inl (by simp [nextStatus, programStatus, h, if_neg hall])

/-- The ledger of a command that does not disturb a completed Program has the same facts. -/
theorem Decided.facts_of_completed (hs : p.status = .completed) (hd : ¬p.Disturbs c) {d : Ledger}
    (h : Decided p c.actorId c.request d) :
    d.status = .completed ∧ d.spec = p.spec ∧ d.satisfactions = p.satisfactions ∧
      d.cancellations = p.cancellations ∧
      d.attempts.map Attempt.spec = p.attempts.map Attempt.spec := by
  obtain ⟨revision, actor, request⟩ := c
  cases h with
  | activateProgram h | pauseProgram h | resumeProgram h => rw [hs] at h; cases h
  | cancelProgram h => rw [hs] at h; simp at h
  | cancelWorkUnit h => rw [hs] at h; simp at h
  | prepareAttempt _ _ h | startAttempt _ h => rw [hs] at h; cases h
  | finishAttempt | failAttempt => exact ⟨hs, rfl, rfl, rfl, map_spec_replaceStatus _ _ _⟩
  | cancelAttempt => exact ⟨hs, rfl, rfl, rfl, map_spec_withdrawn _ _⟩
  | satisfyWorkUnit => exact absurd trivial hd
  | amendProgramSpec _ hspec hne =>
    refine absurd (fun he => hne ?_) hd
    exact Except.ok.inj (hspec.symm.trans he)

/-- A command other than a resumption keeps the hold, unless it disturbs a completed Program. -/
theorem apply_onHold (hp : p.Coherent) (hh : p.OnHold) (hc : c.request ≠ .resumeProgram)
    (hd : p.status = .completed → ¬p.Disturbs c) (h : p.apply c = .ok q) : q.OnHold := by
  have hq := apply_coherent hp h
  rcases apply_eq_ok h with ⟨-, rfl⟩ | ⟨d, states, hg, rfl⟩
  · exact hh
  have hdec := guards_decided hg
  show nextStatus d states = .paused ∨ nextStatus d states = .completed ∨
    nextStatus d states = .cancelled
  by_cases hs : p.status = .completed
  · -- every unit was satisfied, and the facts of the units are the same
    obtain ⟨hstatus, hspec, hsat, hcan, hatt⟩ := hdec.facts_of_completed hs (hd hs)
    have hnext := hq.projected (by
      show nextStatus d states ≠ .draft
      rw [ne_eq, (nextStatus_cases d states).1, hstatus]
      nofun)
    have hproj := hp.projected (by rw [hs]; nofun)
    change project d.spec d.attempts d.satisfactions d.cancellations = .ok states at hnext
    rw [hspec, hsat, hcan] at hnext
    have hall := project_satisfied hatt hproj hnext (hp.completed hs)
    refine .inr (.inl ?_)
    simpa [nextStatus, programStatus, hstatus] using hall
  · have hstatus := hdec.status
    have hkept : d.status = .paused ∨ d.status = .cancelled := by
      have hps : p.status = .paused ∨ p.status = .cancelled := by
        rcases hh with h | h | h
        · exact .inl h
        · exact absurd h hs
        · exact .inr h
      cases hr : c.request <;> rw [hr] at hstatus <;>
        simp only [StatusRule] at hstatus <;> rcases hps with hps | hps <;>
        simp_all
    rcases hkept with hk | hk
    · exact (nextStatus_paused hk states).imp_right .inl
    · exact .inr (.inr (by simp [nextStatus, hk]))

/-! ## Main result -/

/-- What follows a Program by accepted commands other than a resumption, none of which disturbs
a completed Program. -/
inductive Held (p : Program) : Program → Prop
  | refl : Held p p
  | step {q r : Program} (hq : Held p q) {c : DomainCommand} (hc : c.request ≠ .resumeProgram)
      (hd : q.status = .completed → ¬q.Disturbs c) (h : q.apply c = .ok r) : Held p r

theorem Held.onHold (hp : p.Reachable) (hh : p.OnHold) (h : Held p q) :
    q.Reachable ∧ q.OnHold := by
  induction h with
  | refl => exact ⟨hp, hh⟩
  | step hq hc hd h ih =>
    exact ⟨ih.1.step _ h, apply_onHold ih.1.coherent ih.2 hc hd h⟩

/-- After an accepted pause, no Attempt is prepared or started until a resumption, in every run
in which no command records a satisfaction in a completed Program or changes its
specification. -/
theorem pause_persists (hp : p.Reachable) (hc : c.request = .pauseProgram)
    (h : p.apply c = .ok q) {r : Program} (hr : Held q r) {next : DomainCommand}
    (hn : (∃ a, next.request = .prepareAttempt a) ∨ ∃ a, next.request = .startAttempt a) :
    ∀ r', r.apply next ≠ .ok r' := by
  have hq : q.OnHold := by
    rcases apply_eq_ok h with ⟨hg, -⟩ | ⟨d, states, hg, rfl⟩
    · have hidle := (guards_eq_none_iff hg).1 rfl
      obtain ⟨a, ha, -⟩ := hidle
      rw [hc] at ha
      cases ha
    · have hstatus := (guards_decided hg).status
      rw [hc] at hstatus
      exact (nextStatus_paused hstatus.2 states).imp_right .inl
  obtain ⟨-, hhold⟩ := hr.onHold (hp.step c h) hq
  intro r' hr'
  have hactive : r.status = .active := by
    rcases apply_eq_ok hr' with ⟨hg, -⟩ | ⟨d, states, hg, -⟩
    · obtain ⟨a, ha, -⟩ := (guards_eq_none_iff hg).1 rfl
      rcases hn with ⟨a', ha'⟩ | ⟨a', ha'⟩ <;> rw [ha'] at ha <;> cases ha
    · have hstatus := (guards_decided hg).status
      rcases hn with ⟨a', ha'⟩ | ⟨a', ha'⟩ <;> rw [ha'] at hstatus <;> exact hstatus.1
  rcases hhold with h | h | h <;> rw [hactive] at h <;> cases h

end Program

end

/-! ### A pause that is lost -/

namespace Sample

/-- The sample specification, where pausing is allowed. -/
def pausable : ProgramSpec :=
  { spec with
    authority := { spec.authority with
      allowedActions := .ofList [.activateProgram, .pauseProgram, .prepareAttempt, .startAttempt,
        .finishAttempt] (by decide) }
    valid := SpecArgs.check_eq_ok.1 (by decide) }

/-- A second unit. -/
def review : WorkUnit :=
  { unit with
    workUnitId := ⟨"review", Nonblank.review⟩
    obligation := ⟨"review the kernel", by decide⟩ }

/-- The amendment that adds the second unit. -/
def extend : SpecAmendment where
  expectedRevision := 1
  objective := none
  workUnits := some [unit, review]
  initialInputs := none
  budget := none
  authority := none
  reason := ⟨"review first", by decide⟩
  acceptanceCriteria := none
  policyReferences := none
  expectedRevisionPos := Nat.one_pos
  replaces := by simp
  inputNames := nofun
  criteriaNodup := nofun
  policiesNodup := nofun

/-- The Attempt for the second unit. -/
def reviewed : AttemptSpec :=
  { attempt with
    attemptId := ⟨"a2", Nonblank.a2⟩
    workUnitId := review.workUnitId
    specRevision := 2
    specRevisionPos := by decide }

/-- The owner builds the first unit and pauses. -/
def untilPause : List DomainCommand :=
  [activate, ⟨1, ⟨"owner", Nonblank.owner⟩, .prepareAttempt attempt⟩,
    ⟨2, ⟨"owner", Nonblank.owner⟩, .startAttempt attempt.attemptId⟩,
    ⟨3, ⟨"owner", Nonblank.owner⟩, .finishAttempt attempt.attemptId⟩,
    ⟨4, ⟨"owner", Nonblank.owner⟩, .pauseProgram⟩]

/-- The paused Program completes, is amended, and prepares an Attempt. -/
def afterPause : List DomainCommand :=
  [⟨5, ⟨"judge", Nonblank.judge⟩, .satisfyWorkUnit satisfaction⟩,
    ⟨6, ⟨"owner", Nonblank.owner⟩, .amendProgramSpec extend⟩,
    ⟨7, ⟨"owner", Nonblank.owner⟩, .prepareAttempt reviewed⟩]

end Sample

/-- The paused sample Program prepares nothing. -/
theorem Program.pause_persists_sample :
    ∃ p q, @Reachable Sample.sha256 p ∧
      @apply Sample.sha256 p ⟨1, ⟨"owner", by decide⟩, .pauseProgram⟩ = .ok q ∧
      ∀ r, @apply Sample.sha256 q ⟨2, ⟨"owner", by decide⟩, .prepareAttempt Sample.attempt⟩ ≠
        .ok r := by
  obtain ⟨new, hnew⟩ : ∃ new, create Sample.pausable = .ok new := ⟨_, rfl⟩
  have hrun : ∃ q, (create Sample.pausable >>= fun p => @run Sample.sha256 p
      [Sample.activate, ⟨1, ⟨"owner", by decide⟩, .pauseProgram⟩]) = .ok q := ⟨_, rfl⟩
  obtain ⟨q', h⟩ := hrun
  rw [hnew, ok_bind] at h
  obtain ⟨p, hp, h⟩ := bind_eq_ok.1 h
  obtain ⟨q, hq, -⟩ := bind_eq_ok.1 h
  have hreach : @Reachable Sample.sha256 p :=
    @Reachable.step Sample.sha256 _ _ (@Reachable.create Sample.sha256 _ _ hnew) _ hp
  exact ⟨p, q, hreach, hq, @pause_persists Sample.sha256 _ _ _ hreach rfl hq _
    (@Held.refl Sample.sha256 q) ⟨2, ⟨"owner", by decide⟩, .prepareAttempt Sample.attempt⟩
    (.inl ⟨_, rfl⟩)⟩

/-- A paused Program completes and is reopened by an amendment: every command of the run is
accepted, the one that prepares an Attempt included, and no one resumed the Program. -/
theorem Program.pause_lost :
    (Sample.untilPause.getLast?.map DomainCommand.request = some .pauseProgram ∧
      (create Sample.pausable >>= fun p => @run Sample.sha256 p Sample.untilPause).map
        (fun p => p.status) = .ok .paused) ∧
    (∀ c ∈ Sample.afterPause, c.request ≠ .resumeProgram) ∧
    Sample.afterPause.getLast?.map DomainCommand.request =
      some (.prepareAttempt Sample.reviewed) ∧
    (create Sample.pausable >>= fun p =>
      @run Sample.sha256 p (Sample.untilPause ++ Sample.afterPause)).map
        (fun p => p.status) = .ok .active := by
  refine ⟨⟨rfl, ?_⟩, by simp [Sample.afterPause], rfl, ?_⟩
  · decide +kernel
  · decide +kernel

end CreatidyKernel
