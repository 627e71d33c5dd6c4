import CreatidyKernel.Core.Closure

set_option relaxedAutoImplicit false
set_option autoImplicit false

/-!
# What a command keeps

A command never changes which Program it is, never takes the revision back, and never alters
the snapshot of an Attempt; only `PrepareAttempt` adds one, under an identifier of its own.

## Main definitions

* `Program.Decided` — the rule by which each command decides a ledger.

## Main results

* `Program.guards_decided` — the guards decide a ledger by the rule of their command.
* `Program.apply_programId`, `Program.apply_revision`, `Program.apply_specs` — what one accepted
  command keeps.
* `Program.apply_prepared` — a prepared Attempt is new and belongs to the Program.
-/

namespace CreatidyKernel

open Checked

/-- The Attempt a request prepares. -/
def Request.prepared : Request → Option AttemptSpec
  | .prepareAttempt attempt => some attempt
  | _ => none

/-- All specifications of a history are of one Program. -/
theorem HistoryCoherent.programId [Sha256] {spec s : ProgramSpec} {history : List ProgramSpec}
    (h : HistoryCoherent spec history) (hs : s ∈ history) : s.programId = spec.programId := by
  have htrans : IsTrans ProgramSpec fun a b => a.programId = b.programId :=
    ⟨fun _ _ _ => Eq.trans⟩
  have hpair : history.Pairwise fun a b => a.programId = b.programId :=
    List.isChain_iff_pairwise.1 (h.chain.imp fun _ _ hab => hab.2.2.symm)
  have hsymm : Std.Symm fun a b : ProgramSpec => a.programId = b.programId :=
    ⟨fun _ _ => Eq.symm⟩
  have hall : ∀ x ∈ history, ∀ y ∈ history, x.programId = y.programId := fun x hx y hy =>
    List.Pairwise.forall_of_forall (R := fun a b : ProgramSpec => a.programId = b.programId)
      (fun _ _ => rfl) hpair hx hy
  exact hall s hs spec h.mem

namespace Program

@[simp] theorem map_spec_replaceStatus (attempts : List Attempt) (id : Name) (status : AttemptStatus) :
    (replaceStatus attempts id status).map Attempt.spec = attempts.map Attempt.spec := by
  rw [replaceStatus, List.map_map]
  refine List.map_congr_left fun a _ => ?_
  by_cases h : a.attemptId = id <;> simp [h]

@[simp] theorem map_spec_withdrawn (attempts : List Attempt) (ids : List Name) :
    (withdrawn attempts ids).map Attempt.spec = attempts.map Attempt.spec := by
  rw [withdrawn, List.map_map]
  refine List.map_congr_left fun a _ => ?_
  by_cases h : a.attemptId ∈ liveIds attempts ids <;> simp [h]

section

variable [Sha256] {p q : Program}

theorem map_spec_withdraw {actorId : Name} {revision fuel : ℕ} {d d' : Ledger}
    (h : withdraw actorId revision fuel d = .ok d') :
    d'.attempts.map Attempt.spec = d.attempts.map Attempt.spec := by
  induction fuel generalizing d with
  | zero => exact Except.ok.inj h ▸ rfl
  | succ fuel ih =>
    rw [withdraw] at h
    obtain ⟨projected, -, h⟩ := bind_eq_ok.1 h
    obtain ⟨invalid, -, h⟩ := bind_eq_ok.1 h
    split_ifs at h
    · rw [pure_eq_ok.1 h]
    · exact (ih h).trans (map_spec_withdrawn _ _)

/-- What the guards of a command found when they decided a ledger. -/
inductive Decided (p : Program) (actorId : Name) : Request → Ledger → Prop
  | activateProgram (hs : p.status = .draft) :
      Decided p actorId .activateProgram { p.toLedger with status := .active }
  | pauseProgram (hs : p.status = .active) :
      Decided p actorId .pauseProgram { p.toLedger with status := .paused }
  | resumeProgram (hs : p.status = .paused) :
      Decided p actorId .resumeProgram { p.toLedger with status := .active }
  | cancelProgram (hs : p.status = .draft ∨ p.status = .active ∨ p.status = .paused)
      (reason : Name) : Decided p actorId .cancelProgram
        { cancelLive actorId p.revision (p.attempts.map Attempt.attemptId) reason p.toLedger with
          status := .cancelled }
  | cancelWorkUnit {workUnitId reason : Name} (hs : p.status = .active ∨ p.status = .paused)
      (cancellation : WorkUnitCancellation) (ids : List Name) (message : Name) :
      Decided p actorId (.cancelWorkUnit workUnitId reason)
        (cancelLive actorId p.revision ids message
          { p.toLedger with cancellations := p.cancellations ++ [cancellation] })
  | prepareAttempt {requested : AttemptSpec} (hprogram : requested.programId = p.programId)
      (hpin : requested.pin = (p.spec.revision, p.spec.digest)) (hs : p.status = .active)
      (hnew : ∀ a ∈ p.attempts, a.attemptId ≠ requested.attemptId) :
      Decided p actorId (.prepareAttempt requested)
        { p.toLedger with attempts := p.attempts ++ [⟨requested, .prepared, actorId⟩] }
  | startAttempt {attemptId : Name} {current : Attempt} (hc : p.attempt attemptId = .ok current)
      (hs : p.status = .active) (hprepared : current.status = .prepared) :
      Decided p actorId (.startAttempt attemptId)
        { p.toLedger with attempts := replaceStatus p.attempts attemptId .executing }
  | finishAttempt {attemptId : Name} {current : Attempt} (hc : p.attempt attemptId = .ok current)
      (hs : p.Open) (hexecuting : current.status = .executing) :
      Decided p actorId (.finishAttempt attemptId)
        { p.toLedger with attempts := replaceStatus p.attempts attemptId .finished }
  | failAttempt {attemptId : Name} {current : Attempt} (hc : p.attempt attemptId = .ok current)
      (hs : p.Open) (hlive : current.Live) : Decided p actorId (.failAttempt attemptId)
        { p.toLedger with attempts := replaceStatus p.attempts attemptId .failed }
  | cancelAttempt {attemptId : Name} {current : Attempt} (hc : p.attempt attemptId = .ok current)
      (hs : p.Open) (hlive : current.Live) (reason : Name) :
      Decided p actorId (.cancelAttempt attemptId)
        (cancelLive actorId p.revision [attemptId] reason p.toLedger)
  | satisfyWorkUnit {fact : TrustedSatisfaction} (hs : p.Open) (hissuer : fact.issuerId = actorId)
      (hprogram : fact.programId = p.programId)
      (hnew : ∀ s ∈ p.satisfactions, s.referenceId ≠ fact.referenceId) :
      Decided p actorId (.satisfyWorkUnit fact)
        { p.toLedger with
          satisfactions := p.satisfactions ++ [fact.recordAt (p.revision + 1)] }
  | amendProgramSpec {amendment : SpecAmendment} {spec : ProgramSpec} {fuel : ℕ} {d : Ledger}
      (hs : p.status ≠ .cancelled) (hspec : p.spec.amend amendment = .ok spec)
      (hne : spec ≠ p.spec)
      (hw : withdraw actorId p.revision fuel
        { p.toLedger with spec, specHistory := p.specHistory ++ [spec] } = .ok d) :
      Decided p actorId (.amendProgramSpec amendment) d

/-- The guards decide a ledger by the rule of their command. -/
theorem guards_decided {c : DomainCommand} {d : Ledger} (h : p.guards c = .ok (some d)) :
    Decided p c.actorId c.request d := by
  simp only [guards, bind_eq_ok, check_eq_ok] at h
  obtain ⟨_, -, _, -, h⟩ := h
  cases hc : c.request with
  | amendProgramSpec amendment =>
    simp only [hc, amendProgramSpec, bind_eq_ok, check_eq_ok] at h
    obtain ⟨_, hs, spec, hspec, h⟩ := h
    split_ifs at h with hne
    · simp at h
    · obtain ⟨d', hd, h⟩ := bind_eq_ok.1 h
      obtain rfl := Option.some.inj (pure_eq_ok.1 h)
      exact .amendProgramSpec hs hspec hne hd
  | prepareAttempt attempt =>
    simp only [hc, map_eq_ok, Option.some.injEq, exists_eq_right, prepareAttempt, bind_eq_ok,
      check_eq_ok, pure_eq_ok] at h
    obtain ⟨_, hid, _, hpin, _, -, _, hs, _, -, _, -, _, hnew, _, -, _, -, _, -, _, -, _, -, _, -,
      rfl⟩ := h
    exact .prepareAttempt hid hpin hs hnew
  | activateProgram | pauseProgram | resumeProgram =>
    simp only [hc, map_eq_ok, Option.some.injEq, exists_eq_right, activateProgram, pauseProgram,
      resumeProgram, switchStatus, bind_eq_ok, check_eq_ok, pure_eq_ok] at h
    obtain ⟨_, hs, rfl⟩ := h
    constructor
    exact hs
  | cancelProgram =>
    simp only [hc, map_eq_ok, Option.some.injEq, exists_eq_right, cancelProgram, bind_eq_ok,
      check_eq_ok, pure_eq_ok] at h
    obtain ⟨_, hs, rfl⟩ := h
    exact .cancelProgram hs _
  | cancelWorkUnit workUnitId reason =>
    simp only [hc, map_eq_ok, Option.some.injEq, exists_eq_right, cancelWorkUnit, bind_eq_ok,
      check_eq_ok, pure_eq_ok] at h
    obtain ⟨_, hs, _, -, _, -, _, -, _, -, _, -, _, -, rfl⟩ := h
    exact .cancelWorkUnit hs _ _ _
  | startAttempt attemptId =>
    simp only [hc, map_eq_ok, Option.some.injEq, exists_eq_right, startAttempt, bind_eq_ok,
      check_eq_ok, pure_eq_ok] at h
    obtain ⟨_, hcur, _, -, _, ⟨hs, hprep, -⟩, rfl⟩ := h
    exact .startAttempt hcur hs hprep
  | finishAttempt attemptId =>
    simp only [hc, map_eq_ok, Option.some.injEq, exists_eq_right, finishAttempt, bind_eq_ok,
      check_eq_ok, pure_eq_ok] at h
    obtain ⟨_, hcur, _, ⟨hs, hexec⟩, rfl⟩ := h
    exact .finishAttempt hcur hs hexec
  | failAttempt attemptId =>
    simp only [hc, map_eq_ok, Option.some.injEq, exists_eq_right, failAttempt, checkLive,
      bind_eq_ok, check_eq_ok, pure_eq_ok] at h
    obtain ⟨_, ⟨_, hcur, hs, hl⟩, rfl⟩ := h
    exact .failAttempt hcur hs hl
  | cancelAttempt attemptId =>
    simp only [hc, map_eq_ok, Option.some.injEq, exists_eq_right, cancelAttempt, checkLive,
      bind_eq_ok, check_eq_ok, pure_eq_ok] at h
    obtain ⟨_, ⟨_, hcur, hs, hl⟩, rfl⟩ := h
    exact .cancelAttempt hcur hs hl _
  | satisfyWorkUnit satisfaction =>
    simp only [hc, map_eq_ok, Option.some.injEq, exists_eq_right, satisfyWorkUnit, bind_eq_ok,
      check_eq_ok] at h
    obtain ⟨_, hs, _, hissuer, _, hprogram, h⟩ := h
    split at h
    · cases h
    · simp only [bind_eq_ok, check_eq_ok, pure_eq_ok] at h
      obtain ⟨_, -, _, -, _, -, _, ⟨-, hnew⟩, _, -, _, -, _, -, _, -, _, -, rfl⟩ := h
      exact .satisfyWorkUnit hs hissuer hprogram hnew

/-- The snapshots of the Attempts after the guards of a command. -/
theorem guards_specs {c : DomainCommand} {d : Ledger} (h : p.guards c = .ok (some d)) :
    d.attempts.map Attempt.spec = p.attempts.map Attempt.spec ++ c.request.prepared.toList := by
  have hd := guards_decided h
  cases hc : c.request <;> rw [hc] at hd <;> cases hd
  case amendProgramSpec hw =>
    have hspecs := map_spec_withdraw hw
    simpa [Request.prepared] using hspecs
  all_goals simp [Request.prepared, cancelLive]

/-- A command with no ledger to decide is an amendment that changes nothing. -/
theorem guards_none {c : DomainCommand} (h : p.guards c = .ok none) :
    c.request.prepared = none := by
  simp only [guards, bind_eq_ok, check_eq_ok] at h
  obtain ⟨_, -, _, -, h⟩ := h
  cases hc : c.request with
  | prepareAttempt attempt => simp [hc, map_eq_ok] at h
  | _ => rfl

/-- An accepted command is a no-op amendment, or decides a ledger the next Program has. -/
theorem apply_eq_ok {c : DomainCommand} (h : p.apply c = .ok q) :
    (p.guards c = .ok none ∧ q = p) ∨
      ∃ d states, p.guards c = .ok (some d) ∧ q = p.successor d states := by
  obtain ⟨r, hg, h⟩ := bind_eq_ok.1 h
  cases r with
  | none => exact .inl ⟨hg, (pure_eq_ok.1 h).symm⟩
  | some d =>
    obtain ⟨states, hq, -⟩ := assemble_eq_ok h
    exact .inr ⟨d, states, hg, hq⟩

/-- The snapshots of the Attempts after a command. -/
theorem apply_specs {c : DomainCommand} (h : p.apply c = .ok q) :
    q.attempts.map Attempt.spec = p.attempts.map Attempt.spec ++ c.request.prepared.toList := by
  rcases apply_eq_ok h with ⟨hg, rfl⟩ | ⟨d, states, hg, rfl⟩
  · simp [guards_none hg]
  · rw [show (p.successor d states).attempts = d.attempts from rfl]
    exact guards_specs hg

/-- The revision does not go back. -/
theorem apply_revision {c : DomainCommand} (h : p.apply c = .ok q) : p.revision ≤ q.revision := by
  rcases apply_eq_ok h with ⟨-, rfl⟩ | ⟨d, states, -, rfl⟩
  · exact le_rfl
  · exact Nat.le_succ _

/-- A command keeps the identity of the Program. -/
theorem apply_programId (hp : p.Coherent) {c : DomainCommand} (h : p.apply c = .ok q) :
    q.programId = p.programId := by
  have hq := apply_coherent hp h
  rcases apply_eq_ok h with ⟨-, rfl⟩ | ⟨d, states, hg, rfl⟩
  · rfl
  · have hsub := (guards_coherent hp hg).2
    exact (hq.ledger.history.programId (hsub hp.ledger.history.mem)).symm

/-- A prepared Attempt is new and belongs to the Program. -/
theorem apply_prepared {c : DomainCommand} {attempt : AttemptSpec} (h : p.apply c = .ok q)
    (hc : c.request = .prepareAttempt attempt) :
    attempt.programId = p.programId ∧ ∀ a ∈ p.attempts, a.attemptId ≠ attempt.attemptId := by
  rcases apply_eq_ok h with ⟨hg, -⟩ | ⟨d, states, hg, -⟩
  · simpa [hc, Request.prepared] using guards_none hg
  · have hd := guards_decided hg
    rw [hc] at hd
    cases hd with
    | prepareAttempt hid hpin hs hnew => exact ⟨hid, hnew⟩

end

end Program

end CreatidyKernel
