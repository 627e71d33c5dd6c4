import Mathlib.Logic.Relation
import CreatidyKernel.Store.WorkCalls

set_option relaxedAutoImplicit false
set_option autoImplicit false

/-!
# What the calls of the store write

Every call is a sequence of writes, each of one record or of the rows of one command or
operation. A `Write` says what was written and which checks were made before it, so that an
invariant of the writes is an invariant of every run.

## Main definitions

* `Store.Write` — one write, with a condition on the reservations and on the receipts.
* `Store.Asks` — the reservations a call asks for.

## Main results

* `Store.reserve_spec`, `Store.configureBudget_spec`, `Store.recordSettlementBasis_spec`,
  `Store.finalizeArtifact_spec`, `Store.recordRetainedBytes_spec` — what the transactions write.
* `Store.next_writes` — a call is a sequence of writes.
* `Store.run_of_writes` — an invariant of the writes holds after every run.
-/

namespace CreatidyKernel

open Checked Codec

namespace Store

variable [Sha256]

/-! ## Specifications of the transactions -/

section

variable {s s' : Store} {cut : Cut} {programId : Name}

/-- A reservation is either on record already or is checked and appended. -/
theorem reserve_spec {attemptId operationId : String} {category : WorkKind} {retainedBytes : ℕ}
    (h : s.reserve cut programId attemptId operationId category retainedBytes = .ok s') :
    ∃ binding, s.workBinding programId = .ok (some binding) ∧
      ((s.reservation operationId = some ⟨programId, binding.project, attemptId, operationId,
          category, retainedBytes⟩ ∧ s' = s) ∨
        (s.reservation operationId = none ∧
          s.checkReservation cut binding ⟨programId, binding.project, attemptId, operationId,
            category, retainedBytes⟩ = .ok () ∧
          s' = { s with reservations := s.reservations ++
            [⟨programId, binding.project, attemptId, operationId, category, retainedBytes⟩] })) := by
  obtain ⟨binding, hb, h⟩ := bind_eq_ok.1 h
  cases binding with
  | none => cases h
  | some binding =>
    obtain ⟨known, -, h⟩ := bind_eq_ok.1 h
    obtain ⟨-, -, h⟩ := bind_eq_ok.1 h
    refine ⟨binding, hb, ?_⟩
    cases hp : s.reservation operationId with
    | some prior =>
      simp only [hp, check_bind_eq_ok, pure_eq_ok] at h
      exact .inl ⟨congrArg some h.1, h.2.symm⟩
    | none =>
      simp only [hp] at h
      obtain ⟨⟨⟩, hc, h⟩ := bind_eq_ok.1 h
      obtain ⟨rows, hrows, h⟩ := bind_eq_ok.1 h
      have hnew : Rows.insertOnce Reservation.operation conflict s.reservations
          ⟨programId, binding.project, attemptId, operationId, category, retainedBytes⟩ = _ :=
        Rows.insertOnce_of_none hp
      rw [hnew] at hrows
      cases hrows
      exact .inr ⟨rfl, hc, (pure_eq_ok.1 h).symm⟩

/-- The envelope of a Program is written once; a later specification gets the same one. -/
theorem configureBudget_spec {projectId : Name} {project task : WorkBudgetPolicy}
    {projection : DeadlineProjection}
    (h : s.configureBudget programId projectId project task projection = .ok s') :
    ∃ existing head projects, s.workBinding programId = .ok existing ∧
      s.loadHead programId = .ok head ∧ (existing = none → head.attempts = []) ∧
      Rows.insertOnce ProjectRecord.project conflict s.projects ⟨projectId, project⟩
        = .ok projects ∧
      ((∃ bindings, Rows.insertOnce Binding.program conflict s.bindings
            ⟨programId, projectId, task, projection, head.spec.digest⟩ = .ok bindings ∧
          s' = { s with projects, bindings }) ∨
        (∃ binding revisions, existing = some binding ∧ binding.program = programId ∧
          binding.project = projectId ∧ binding.policy = task ∧
          binding.projection = projection ∧
          Rows.insertOnce Binding.revisionKey conflict s.revisions
            ⟨programId, projectId, task, projection, head.spec.digest⟩ = .ok revisions ∧
          s' = { s with projects, revisions })) := by
  obtain ⟨existing, he, h⟩ := bind_eq_ok.1 h
  obtain ⟨head, hh, h⟩ := bind_eq_ok.1 h
  obtain ⟨hattempts, h⟩ := check_bind_eq_ok.1 h
  obtain ⟨projects, hp, h⟩ := bind_eq_ok.1 h
  refine ⟨existing, head, projects, he, hh, hattempts, hp, ?_⟩
  cases existing with
  | none =>
    obtain ⟨bindings, hb, h⟩ := bind_eq_ok.1 h
    exact .inl ⟨bindings, hb, (pure_eq_ok.1 h).symm⟩
  | some existing =>
    cases ho : Rows.find Binding.program s.bindings programId with
    | none =>
      simp only [ho] at h
      obtain ⟨bindings, hb, h⟩ := bind_eq_ok.1 h
      exact .inl ⟨bindings, hb, (pure_eq_ok.1 h).symm⟩
    | some original =>
      simp only [ho] at h
      by_cases hd : original.specDigest = head.spec.digest
      · rw [if_pos hd] at h
        obtain ⟨bindings, hb, h⟩ := bind_eq_ok.1 h
        exact .inl ⟨bindings, hb, (pure_eq_ok.1 h).symm⟩
      · rw [if_neg hd] at h
        obtain ⟨⟨h₁, h₂, h₃, h₄⟩, h⟩ := check_bind_eq_ok.1 h
        obtain ⟨revisions, hr, h⟩ := bind_eq_ok.1 h
        exact .inr ⟨existing, revisions, rfl, h₁, h₂, h₃, h₄, hr, (pure_eq_ok.1 h).symm⟩

/-- A qualified settlement is of the subject at hand, once for each of its identities. -/
theorem recordSettlementBasis_spec {r : Reservation} {evidence : String}
    {basis : SettlementBasis} (h : s.recordSettlementBasis r evidence basis = .ok s') :
    ¬r.category.CountOnly ∧ ∃ subject, s.settlementSubject r = .ok subject ∧
      (s' = s ∨
        (Rows.find OwnershipSettlement.key s.ownershipSettlements (subject.identity basis) = none ∧
          s' = { s with ownershipSettlements :=
            s.ownershipSettlements ++ [⟨subject, basis, evidence⟩] })) := by
  obtain ⟨hk, h⟩ := check_bind_eq_ok.1 h
  obtain ⟨subject, hs, h⟩ := bind_eq_ok.1 h
  refine ⟨hk, subject, hs, ?_⟩
  by_cases hf : Rows.find OwnershipSettlement.key s.ownershipSettlements
      (subject.identity basis) = none
  · rw [if_pos hf] at h
    exact .inr ⟨hf, (pure_eq_ok.1 h).symm⟩
  · rw [if_neg hf] at h
    exact .inl (pure_eq_ok.1 h).symm

/-- An artifact within the budget of its owner is stored under its name once. -/
theorem finalizeArtifact_spec {operationId name : String} {data : Bytes}
    (h : s.finalizeArtifact operationId name data = .ok s') :
    s.checkOwnedArtifactBudget operationId (bytesDigest data) data.length = .ok () ∧
      (∀ a ∈ s.artifacts, a.digest = bytesDigest data → a.size = data.length) ∧
      ∃ rows, Rows.insertOnce ArtifactReference.key immutableArtifact s.artifacts
          ⟨operationId, name, bytesDigest data, data.length⟩ = .ok rows ∧
        s' = { s with artifacts := rows } := by
  rw [finalizeArtifact] at h
  obtain ⟨_, -, h⟩ := bind_eq_ok.1 h
  obtain ⟨_, -, h⟩ := bind_eq_ok.1 h
  obtain ⟨⟨⟩, hb, h⟩ := bind_eq_ok.1 h
  obtain ⟨hd, h⟩ := check_bind_eq_ok.1 h
  obtain ⟨rows, hr, h⟩ := bind_eq_ok.1 h
  exact ⟨hb, hd, rows, hr, (pure_eq_ok.1 h).symm⟩

omit [Sha256] in
/-- A byte record is within its reservation. -/
theorem recordRetainedBytes_spec {operationId : String} {retainedBytes : ℕ}
    (h : s.recordRetainedBytes operationId retainedBytes = .ok ((), s')) :
    ∃ r rows, s.reservation operationId = some r ∧ retainedBytes ≤ r.retainedBytes ∧
      Rows.insertOnce RetainedRecord.operation conflict s.retained ⟨operationId, retainedBytes⟩
        = .ok rows ∧ s' = { s with retained := rows } := by
  obtain ⟨⟨r, hr, hle⟩, h⟩ := check_bind_eq_ok.1 h
  obtain ⟨rows, hrows, h⟩ := bind_eq_ok.1 h
  exact ⟨r, rows, hr, hle, hrows, (congrArg Prod.snd (pure_eq_ok.1 h)).symm⟩

end

/-! ## Writes -/

/-- The effect a claim admits its Attempt with. -/
def ClaimRequest.intent (q : ClaimRequest) : Intent :=
  ⟨"runtime:" ++ q.attempt.attemptId.val, "runtime:" ++ q.attempt.attemptId.val,
    attemptRequest q.attempt⟩

/-- What a granted claim went through: the resources were free, no retained workspace was in the
way, and its Attempt was admitted. -/
structure Granted (t : Store) (cut : Cut) (q : ClaimRequest) (r : ClaimRecord) (s : Store) :
    Prop where
  fresh : Rows.find ClaimRecord.command t.claims q.commandKey = none
  authority : t.checkWorkAuthority cut q.attempt.programId = .ok ()
  free : t.checkFree q.attempt q.resources = .ok ()
  workspace : ∃ w, workspaces q.resources = [w] ∧ q.attempt.workspaceReference = some w.key ∧
    t.checkRetainedWorkspaceWork cut w none = .ok ()
  admitted : ∃ p, t.admitDecision cut q.attempt.programId q.commandKey.val q.command
    (some q.intent) q.snapshot.length = .ok (p, s)
  record : ∃ expiresAt, r = ⟨q.commandKey, q.expectedRevision, q.leaseSeconds,
    q.attempt.programId, q.attempt.attemptId, q.attempt.digest, q.claimant,
    (t.claims.map ClaimRecord.generation).foldr max 0 + 1, q.mode, q.profile, q.resources,
    q.workspaceSubject, expiresAt⟩

/-- One write: of a record, or of the rows of one command or operation. `R` is a condition on the
new reservations and `U` one on the receipts. -/
inductive Write (R : Store → Reservation → Prop) (U : Store → String → UsageObservation → Prop) :
    Store → Store → Prop
  | created {s s' : Store} {spec : ProgramSpec} {commandKey : String} {p : Program}
      (h : s.create spec commandKey = .ok (p, s')) : Write R U s s'
  /-- A command, checked before the work it is coupled to was written. -/
  | recorded {s t : Store} {cut : Cut} {programId : Name} {commandKey : String}
      {c : DomainCommand} {current next : Program} {aggregates : Aggregates}
      (hs : s = { t with
        reservations := s.reservations, settlements := s.settlements,
        ownershipSettlements := s.ownershipSettlements, unbound := s.unbound })
      (hk : Nonblank commandKey)
      (hn : Rows.find AdmissionRow.commandKey s.aggregates.admissions commandKey = none)
      (hc : t.loadHead programId = .ok current)
      (ho : t.checkOwnershipCommand cut programId c.request = .ok ())
      (ha : current.apply c = .ok next)
      (hr : s.aggregates.record programId commandKey c next = .ok aggregates) :
      Write R U s { s with aggregates }
  | intended {s : Store} {operationId effectKey : String} {request : EffectRequest}
      {allowExisting : Bool} {journal : Journal}
      (h : s.journal.insertIntent operationId effectKey request allowExisting = .ok journal) :
      Write R U s { s with journal }
  /-- A fence; a reserved operation was checked before its retry was reserved. -/
  | fenced {s t : Store} {cut : Cut} {operationId : String} {now leaseSeconds : ℤ} {fence : ℕ}
      {journal : Journal} (hs : s = { t with reservations := s.reservations })
      (hd : t.reservation operationId = none ∨ t.checkWorkDispatch cut operationId = .ok ())
      (h : s.journal.claim operationId now leaseSeconds = .ok (fence, journal)) :
      Write R U s { s with journal }
  /-- An answer of the transport or of the remote domain. -/
  | reported {s : Store} (c : Journal.Call)
      (hi : ∀ operationId effectKey request, c ≠ .intent operationId effectKey request)
      (hc : ∀ operationId now leaseSeconds, c ≠ .claim operationId now leaseSeconds) :
      Write R U s { s with journal := s.journal.next c }
  | configured {s s' : Store} {programId projectId : Name} {project task : WorkBudgetPolicy}
      {projection : DeadlineProjection}
      (h : s.configureBudget programId projectId project task projection = .ok s') :
      Write R U s s'
  | revoked {s : Store} (programId : Name) :
      Write R U s { s with revoked := s.revoked ++ [programId] }
  | reserved {s : Store} {cut : Cut} {binding : Binding} {r : Reservation}
      (hb : s.workBinding r.program = .ok (some binding)) (hp : r.project = binding.project)
      (hn : s.reservation r.operation = none)
      (hc : s.checkReservation cut binding r = .ok ()) (hR : R s r) :
      Write R U s { s with reservations := s.reservations ++ [r] }
  | settled {s : Store} (operationId evidence : String) :
      Write R U s (s.settleOperation operationId evidence)
  | qualified {s s' : Store} {r : Reservation} {evidence : String} {basis : SettlementBasis}
      (hr : r ∈ s.reservations) (h : s.recordSettlementBasis r evidence basis = .ok s') :
      Write R U s s'
  | retained {s s' : Store} {operationId : String} {retainedBytes : ℕ}
      (h : s.recordRetainedBytes operationId retainedBytes = .ok ((), s')) : Write R U s s'
  | used {s s' : Store} {operationId : String} {o : UsageObservation} (hU : U s operationId o)
      (h : s.recordUsage operationId o = .ok ((), s')) : Write R U s s'
  | finalized {s s' : Store} {operationId name : String} {data : Bytes}
      (h : s.finalizeArtifact operationId name data = .ok s') : Write R U s s'
  /-- A claim, with the snapshot of its workspace. -/
  | claimed {t s s' : Store} {cut : Cut} {q : ClaimRequest} {r : ClaimRecord}
      (hg : Granted t cut q r s)
      (h : { s with claims := s.claims ++ [r] }.finalizeArtifact q.intent.operationId
        "ownership-baseline" q.snapshot = .ok s') : Write R U s s'
  | renewed {s : Store} {cut : Cut} {claim : WorkClaim} {r : RenewalRecord}
      (hr : r.claim = claim.commandKey) (h : s.checkWorkClaim cut claim {} = .ok ()) :
      Write R U s { s with renewals := s.renewals ++ [r] }
  | proved {s : Store} (proofs : List ProofRecord) : Write R U s { s with proofs }
  | released {s : Store} (claim : WorkClaim) :
      Write R U s { s with releases := s.releases ++ [claim.commandKey] }
  | quarantined {s : Store} (claim : WorkClaim) :
      Write R U s { s with quarantined := s.quarantined ++ [claim.commandKey] }
  | dispatched {s s' : Store} {programId attemptId : Name} {operationId : String}
      (h : s.bindWorkDispatch programId attemptId operationId = .ok s') : Write R U s s'
  | unbound {s : Store} (operationId : String) :
      Write R U s { s with unbound := s.unbound ++ [operationId] }

/-- A sequence of writes. -/
abbrev Writes (R : Store → Reservation → Prop) (U : Store → String → UsageObservation → Prop) :
    Store → Store → Prop :=
  Relation.ReflTransGen (Write R U)

/-! ## The reservations a call asks for -/

/-- The reservation of some bytes for an operation of an Attempt. -/
def Asked (programId : Name) (attemptId operationId : String) (n : ℕ) (r : Reservation) : Prop :=
  r.program = programId ∧ r.attempt = attemptId ∧ r.operation = operationId ∧ r.retainedBytes = n

/-- The reservations a new Attempt may take. -/
def PreparedAsk (programId : Name) (attempt : AttemptSpec) (intent : Option Intent) (n : ℕ)
    (r : Reservation) : Prop :=
  Asked programId attempt.attemptId.val ("remediation:" ++ attempt.attemptId.val) 0 r ∨
    Asked programId attempt.attemptId.val
      (intent.elim ("runtime:" ++ attempt.attemptId.val) Intent.operationId) n r

/-- The reservations a call asks for. -/
def Asks (s : Store) : Call → Reservation → Prop
  | .admitCommand _ programId _ c intent, r =>
    ∃ attempt, c.request = .prepareAttempt attempt ∧ PreparedAsk programId attempt intent 0 r
  | .reserveWork _ programId attemptId operationId _ n, r =>
    Asked programId attemptId operationId n r
  | .retryWork _ operationId, r => ∃ x ∈ s.reservation operationId, Asked x.program x.attempt
      (s.workRetry operationId) 0 r
  | .budgetedIntent _ programId attemptId _ intent n, r =>
    Asked programId attemptId intent.operationId n r
  | .claimWork _ q, r =>
    PreparedAsk q.attempt.programId q.attempt (some q.intent) q.snapshot.length r
  | .authorizeClaimPublication _ claim _ intent, r =>
    Asked claim.attempt.programId claim.attempt.attemptId.val intent.operationId 0 r
  | .claimOperation _ operationId _ _ _, r => ∃ x ∈ s.reservation operationId,
      ∃ o ∈ s.journal.find operationId, Asked x.program x.attempt (retryKey o) 0 r
  | _, _ => False

/-! ## The writes of the calls -/

section

variable {R : Store → Reservation → Prop} {U : Store → String → UsageObservation → Prop}
variable {s s' : Store} {cut : Cut} {programId : Name}

theorem reserve_writes {attemptId operationId : String} {category : WorkKind} {n : ℕ}
    (hR : ∀ r : Reservation, Asked programId attemptId operationId n r → R s r)
    (h : s.reserve cut programId attemptId operationId category n = .ok s') :
    Writes R U s s' := by
  obtain ⟨binding, hb, ⟨-, rfl⟩ | ⟨hn, hc, rfl⟩⟩ := reserve_spec h
  · exact .refl
  · exact .single (.reserved hb rfl hn hc (hR _ ⟨rfl, rfl, rfl, rfl⟩))

/-- A reservation changes no other table. -/
theorem reserve_frame {attemptId operationId : String} {category : WorkKind} {n : ℕ}
    (h : s.reserve cut programId attemptId operationId category n = .ok s') :
    s' = { s with reservations := s'.reservations } := by
  obtain ⟨_, -, ⟨-, rfl⟩ | ⟨-, -, rfl⟩⟩ := reserve_spec h <;> rfl

theorem recordCompletion_writes {r : Reservation} {evidence : String} (hr : r ∈ s.reservations)
    (h : s.recordCompletion r evidence = .ok s') : Writes R U s s' := by
  refine .tail (.single (.settled r.operation evidence)) (.qualified ?_ h)
  unfold settleOperation
  split <;> exact hr

omit [Sha256] in
/-- Settling an operation changes only its settlement. -/
theorem settleOperation_frame (operationId evidence : String) :
    s.settleOperation operationId evidence =
      { s with settlements := (s.settleOperation operationId evidence).settlements } := by
  unfold settleOperation
  split <;> rfl

theorem recordSettlementBasis_frame {r : Reservation} {evidence : String}
    {basis : SettlementBasis} (h : s.recordSettlementBasis r evidence basis = .ok s') :
    s' = { s with ownershipSettlements := s'.ownershipSettlements } := by
  obtain ⟨-, -, -, rfl | ⟨-, rfl⟩⟩ := recordSettlementBasis_spec h <;> rfl

theorem recordCompletion_frame {r : Reservation} {evidence : String}
    (h : s.recordCompletion r evidence = .ok s') :
    s' = { s with
      settlements := s'.settlements, ownershipSettlements := s'.ownershipSettlements } := by
  have h' := recordSettlementBasis_frame h
  rw [settleOperation_frame] at h'
  rw [h']

theorem reservePrepared_writes {attempt : AttemptSpec} {intent : Option Intent} {n : ℕ}
    (hR : ∀ (t : Store) r, t = { s with reservations := t.reservations } →
      PreparedAsk programId attempt intent n r → R t r)
    (h : s.reservePrepared cut programId attempt intent n = .ok s') :
    Writes R U s s' ∧
      s' = { s with reservations := s'.reservations, unbound := s'.unbound } := by
  obtain ⟨binding, -, h⟩ := bind_eq_ok.1 h
  cases binding with
  | none =>
    cases intent with
    | none =>
      cases pure_eq_ok.1 h
      exact ⟨.refl, rfl⟩
    | some intent =>
      by_cases hu : intent.operationId ∈ s.unbound
      · simp only [hu, if_true, pure_eq_ok] at h
        subst h
        exact ⟨.refl, rfl⟩
      · simp only [hu, if_false, pure_eq_ok] at h
        subst h
        exact ⟨.single (.unbound _), rfl⟩
  | some binding =>
    obtain ⟨t, ht, h⟩ := bind_eq_ok.1 h
    have htw : Writes R U s t ∧ t = { s with reservations := t.reservations } := by
      rw [reserveRemediation] at ht
      by_cases hr : attempt.remediationOf = none
      · rw [if_pos hr] at ht
        cases ht
        exact ⟨.refl, rfl⟩
      · rw [if_neg hr] at ht
        exact ⟨reserve_writes (fun r hr => hR _ r rfl (.inl hr)) ht, reserve_frame ht⟩
    refine ⟨htw.1.trans (reserve_writes (fun r hr => hR _ r htw.2 (.inr hr)) h), ?_⟩
    rw [reserve_frame h, htw.2]

theorem completeAccepted_writes {fact : TrustedSatisfaction}
    (h : s.completeAccepted cut programId fact = .ok s') :
    Writes R U s s' ∧ s' = { s with
      settlements := s'.settlements, ownershipSettlements := s'.ownershipSettlements } := by
  obtain ⟨binding, -, h⟩ := bind_eq_ok.1 h
  cases binding with
  | none =>
    cases pure_eq_ok.1 h
    exact ⟨.refl, rfl⟩
  | some binding =>
    obtain ⟨_, -, h⟩ := bind_eq_ok.1 h
    cases hf : s.reservations.filter fun r => r.program = programId ∧
        r.attempt = fact.sourceAttemptId.val ∧ r.category = .attempt with
    | nil =>
      rw [hf] at h
      cases h
    | cons r rest =>
      rw [hf] at h
      cases rest with
      | cons r' rest => cases h
      | nil =>
        have hr : r ∈ s.reservations := List.mem_of_mem_filter (hf ▸ List.mem_singleton_self r)
        exact ⟨recordCompletion_writes hr h, recordCompletion_frame h⟩

/-- The work a command is coupled to is written before the command. -/
theorem coupleWork_writes {request : Request} {intent : Option Intent} {n : ℕ}
    (hR : ∀ (t : Store) r attempt, t = { s with reservations := t.reservations } →
      request = .prepareAttempt attempt → PreparedAsk programId attempt intent n r → R t r)
    (h : s.coupleWork cut programId request intent n = .ok s') :
    Writes R U s s' ∧ s' = { s with
      reservations := s'.reservations, settlements := s'.settlements,
      ownershipSettlements := s'.ownershipSettlements, unbound := s'.unbound } := by
  cases request with
  | prepareAttempt attempt =>
    obtain ⟨hw, hf⟩ := reservePrepared_writes (fun t r ht ha => hR t r attempt ht rfl ha) h
    exact ⟨hw, by rw [hf]⟩
  | satisfyWorkUnit fact =>
    obtain ⟨hw, hf⟩ := completeAccepted_writes h
    exact ⟨hw, by rw [hf]⟩
  | activateProgram | pauseProgram | resumeProgram | cancelProgram | cancelWorkUnit
  | startAttempt | finishAttempt | failAttempt | cancelAttempt | amendProgramSpec =>
    cases h
    exact ⟨.refl, rfl⟩

theorem bindWorkDispatch_frame {attemptId : Name} {operationId : String}
    (h : s.bindWorkDispatch programId attemptId operationId = .ok s') :
    s' = { s with dispatchBindings := s'.dispatchBindings } := by
  obtain ⟨_, -, h⟩ := bind_eq_ok.1 h
  obtain ⟨_, -, h⟩ := bind_eq_ok.1 h
  obtain ⟨_, -, h⟩ := bind_eq_ok.1 h
  obtain ⟨_, -, h⟩ := bind_eq_ok.1 h
  cases pure_eq_ok.1 h
  rfl

theorem admitIntent_writes {request : Request} {intent : Option Intent}
    (h : s.admitIntent programId request intent = .ok s') :
    Writes R U s s' ∧
      s' = { s with journal := s'.journal, dispatchBindings := s'.dispatchBindings } := by
  cases intent with
  | none =>
    cases pure_eq_ok.1 h
    exact ⟨.refl, rfl⟩
  | some intent =>
    obtain ⟨journal, hj, h⟩ := bind_eq_ok.1 h
    have hw : Writes R U s { s with journal } := .single (.intended hj)
    cases hp : preparedAttempt request with
    | none =>
      simp only [hp, pure_eq_ok] at h
      subst h
      exact ⟨hw, rfl⟩
    | some attempt =>
      simp only [hp] at h
      obtain ⟨binding, -, h⟩ := bind_eq_ok.1 h
      cases binding with
      | none =>
        cases pure_eq_ok.1 h
        exact ⟨hw, rfl⟩
      | some binding => exact ⟨hw.tail (.dispatched h), by rw [bindWorkDispatch_frame h]⟩

/-- A decision is a duplicate, or the work of a command, the command and its effect. -/
theorem admitDecision_spec {commandKey : String} {c : DomainCommand} {intent : Option Intent}
    {n : ℕ} {p : Program}
    (h : s.admitDecision cut programId commandKey c intent n = .ok (p, s')) :
    s' = s ∨ ∃ current t aggregates, Nonblank commandKey ∧
      Rows.find AdmissionRow.commandKey s.aggregates.admissions commandKey = none ∧
      s.loadHead programId = .ok current ∧
      s.checkOwnershipCommand cut programId c.request = .ok () ∧ current.apply c = .ok p ∧
      s.coupleWork cut programId c.request intent n = .ok t ∧
      t.aggregates.record programId commandKey c p = .ok aggregates ∧
      { t with aggregates }.admitIntent programId c.request intent = .ok s' := by
  obtain ⟨⟨⟩, hk, h⟩ := bind_eq_ok.1 h
  obtain ⟨duplicate, hn, h⟩ := bind_eq_ok.1 h
  cases duplicate with
  | some duplicate =>
    obtain ⟨_, -, h⟩ := bind_eq_ok.1 h
    exact .inl (congrArg Prod.snd (pure_eq_ok.1 h)).symm
  | none =>
    obtain ⟨current, hc, h⟩ := bind_eq_ok.1 h
    obtain ⟨⟨⟩, ho, h⟩ := bind_eq_ok.1 h
    obtain ⟨next, ha, h⟩ := bind_eq_ok.1 h
    obtain ⟨t, ht, h⟩ := bind_eq_ok.1 h
    obtain ⟨aggregates, hr, h⟩ := bind_eq_ok.1 h
    obtain ⟨u, hi, h⟩ := bind_eq_ok.1 h
    cases pure_eq_ok.1 h
    exact .inr ⟨current, t, aggregates, check_eq_ok.1 hk, Aggregates.duplicateResult_eq_none.1 hn,
      hc, ho, ha, ht, hr, hi⟩

theorem admitDecision_writes {commandKey : String} {c : DomainCommand} {intent : Option Intent}
    {n : ℕ} {p : Program}
    (hR : ∀ (t : Store) r attempt, t = { s with reservations := t.reservations } →
      c.request = .prepareAttempt attempt → PreparedAsk programId attempt intent n r → R t r)
    (h : s.admitDecision cut programId commandKey c intent n = .ok (p, s')) :
    Writes R U s s' := by
  obtain rfl | ⟨current, t, aggregates, hk, hn, hc, ho, ha, ht, hr, hi⟩ := admitDecision_spec h
  · exact .refl
  · obtain ⟨hw, hf⟩ := coupleWork_writes hR ht
    have hn' : Rows.find AdmissionRow.commandKey t.aggregates.admissions commandKey = none := by
      rw [hf]
      exact hn
    exact (hw.tail (.recorded hf hk hn' hc ho ha hr)).trans (admitIntent_writes hi).1

/-- A decision leaves the tables of ownership, of artifacts and of envelopes alone. -/
theorem admitDecision_frame {commandKey : String} {c : DomainCommand} {intent : Option Intent}
    {n : ℕ} {p : Program}
    (h : s.admitDecision cut programId commandKey c intent n = .ok (p, s')) :
    s' = { s with
      aggregates := s'.aggregates, journal := s'.journal, reservations := s'.reservations,
      settlements := s'.settlements, ownershipSettlements := s'.ownershipSettlements,
      unbound := s'.unbound, dispatchBindings := s'.dispatchBindings } := by
  obtain rfl | ⟨current, t, aggregates, -, -, -, -, -, ht, -, hi⟩ := admitDecision_spec h
  · rfl
  · have hf := (coupleWork_writes (R := fun _ _ => True) (U := fun _ _ _ => True)
      (fun _ _ _ _ _ _ => trivial) ht).2
    have hi' := (admitIntent_writes (R := fun _ _ => True) (U := fun _ _ _ => True) hi).2
    rw [hi', hf]

theorem create_writes {spec : ProgramSpec} {commandKey : String} {p : Program}
    (h : s.create spec commandKey = .ok (p, s')) : Writes R U s s' := .single (.created h)

theorem publishRecord_writes {r : InertRecord} (h : s.publishRecord r = .ok s') :
    Writes R U s s' := by
  obtain ⟨_, -, h⟩ := bind_eq_ok.1 h
  obtain ⟨journal, hj, h⟩ := bind_eq_ok.1 h
  have hw : Writes R U s { s with journal } := .single (.intended hj)
  cases hr : r.raw with
  | none =>
    simp only [hr, pure_eq_ok] at h
    subst h
    exact hw
  | some raw =>
    simp only [hr] at h
    exact hw.tail (.finalized h)

theorem publishRecords_writes {records : List InertRecord}
    (h : records.foldlM publishRecord s = .ok s') : Writes R U s s' := by
  induction records generalizing s with
  | nil =>
    cases h
    exact .refl
  | cons r records ih =>
    obtain ⟨t, ht, h⟩ := bind_eq_ok.1 h
    exact (publishRecord_writes ht).trans (ih h)

theorem acceptProgram_writes {spec : ProgramSpec} {commandKey : String}
    {amendment : Option ApprovedAmendment} {p : Program}
    (h : s.acceptProgram cut spec commandKey amendment = .ok (p, s')) : Writes R U s s' := by
  unfold acceptProgram at h
  by_cases hn : s.aggregates.head spec.programId = none
  · rw [if_pos hn] at h
    obtain ⟨-, h⟩ := check_bind_eq_ok.1 h
    exact create_writes h
  · rw [if_neg hn] at h
    obtain ⟨current, -, h⟩ := bind_eq_ok.1 h
    by_cases hs : current.spec = spec
    · simp only [hs, if_true, pure_eq_ok, Prod.mk.injEq] at h
      obtain ⟨-, rfl⟩ := h
      exact .refl
    · rw [if_neg hs] at h
      cases amendment with
      | none => cases h
      | some amendment => exact admitDecision_writes (fun _ _ _ _ hp => by cases hp) h

theorem acceptWorkBudget_writes {approval : Except Failure Unit} {spec : ProgramSpec}
    {commandKey : String} {projectId : Name} {project task : WorkBudgetPolicy}
    {projection : DeadlineProjection} {amendment : Option ApprovedAmendment}
    {records : List InertRecord} {p : Program}
    (h : s.acceptWorkBudget cut approval spec commandKey projectId project task projection
      amendment records = .ok (p, s')) : Writes R U s s' := by
  obtain ⟨_, -, h⟩ := bind_eq_ok.1 h
  obtain ⟨_, -, h⟩ := bind_eq_ok.1 h
  obtain ⟨-, h⟩ := check_bind_eq_ok.1 h
  obtain ⟨-, h⟩ := check_bind_eq_ok.1 h
  obtain ⟨-, h⟩ := check_bind_eq_ok.1 h
  obtain ⟨_, -, h⟩ := bind_eq_ok.1 h
  obtain ⟨⟨p', t⟩, ht, h⟩ := bind_eq_ok.1 h
  obtain ⟨-, h⟩ := check_bind_eq_ok.1 h
  obtain ⟨u, hu, h⟩ := bind_eq_ok.1 h
  obtain ⟨v, hv, h⟩ := bind_eq_ok.1 h
  cases pure_eq_ok.1 h
  exact ((acceptProgram_writes ht).tail (.configured hu)).trans (publishRecords_writes hv)

theorem revoke_writes : Writes R U s (s.revoke programId) := by
  unfold revoke
  split
  · exact .refl
  · exact .single (.revoked programId)

theorem revokeWorkBudget_writes {evidence : String} {expectedRevision : Option ℕ}
    (h : s.revokeWorkBudget programId evidence expectedRevision = .ok ((), s')) :
    Writes R U s s' := by
  obtain ⟨_, -, h⟩ := bind_eq_ok.1 h
  obtain ⟨_, -, h⟩ := bind_eq_ok.1 h
  cases pure_eq_ok.1 h
  exact revoke_writes

theorem stopOrdinaryProgram_writes {commandKey : String} {actor : Name} {evidence : String}
    {expectedRevision : Option ℕ} {p : Program}
    (h : s.stopOrdinaryProgram cut programId commandKey actor evidence expectedRevision
      = .ok (p, s')) : Writes R U s s' := by
  obtain ⟨_, -, h⟩ := bind_eq_ok.1 h
  obtain ⟨_, -, h⟩ := bind_eq_ok.1 h
  obtain ⟨head, -, h⟩ := bind_eq_ok.1 h
  obtain ⟨-, h⟩ := check_bind_eq_ok.1 h
  obtain ⟨⟨p', t⟩, ht, h⟩ := bind_eq_ok.1 h
  cases pure_eq_ok.1 h
  refine .trans ?_ revoke_writes
  unfold cancelOpen at ht
  split at ht
  · cases ht
    exact .refl
  · exact admitDecision_writes (fun _ _ _ _ hp => by cases hp) ht

theorem budgetedIntent_writes {attemptId : String} {category : WorkKind} {intent : Intent}
    {n : ℕ} {o : Operation}
    (hR : ∀ r : Reservation, Asked programId attemptId intent.operationId n r → R s r)
    (h : s.budgetedIntent cut programId attemptId category intent n = .ok (o, s')) :
    Writes R U s s' := by
  obtain ⟨_, -, h⟩ := bind_eq_ok.1 h
  obtain ⟨t, ht, h⟩ := bind_eq_ok.1 h
  obtain ⟨journal, hj, h⟩ := bind_eq_ok.1 h
  have hw : Writes R U s { t with journal } := (reserve_writes hR ht).tail (.intended hj)
  split at h
  · obtain ⟨_, -, h⟩ := bind_eq_ok.1 h
    obtain ⟨_, -, h⟩ := bind_eq_ok.1 h
    obtain ⟨u, hu, h⟩ := bind_eq_ok.1 h
    obtain ⟨_, -, h⟩ := bind_eq_ok.1 h
    obtain ⟨_, -, h⟩ := bind_eq_ok.1 h
    cases pure_eq_ok.1 h
    exact hw.tail (.dispatched hu)
  · obtain ⟨_, -, h⟩ := bind_eq_ok.1 h
    cases pure_eq_ok.1 h
    exact hw

theorem recordWorkCompletion_writes {operationId evidence : String}
    (h : s.recordWorkCompletion operationId evidence = .ok ((), s')) : Writes R U s s' := by
  obtain ⟨_, -, h⟩ := bind_eq_ok.1 h
  obtain ⟨r, hr, h⟩ := bind_eq_ok.1 h
  obtain ⟨t, ht, h⟩ := bind_eq_ok.1 h
  cases pure_eq_ok.1 h
  exact recordCompletion_writes (Rows.mem_of_find (lookup_eq_ok.1 hr)).1 ht

theorem recordWorkSettlement_writes {operationId evidence : String} {expectedFence : Option ℕ}
    (h : s.recordWorkSettlement cut operationId evidence expectedFence = .ok ((), s')) :
    Writes R U s s' := by
  obtain ⟨_, -, h⟩ := bind_eq_ok.1 h
  obtain ⟨r, hr, h⟩ := bind_eq_ok.1 h
  obtain ⟨_, -, h⟩ := bind_eq_ok.1 h
  obtain ⟨_, -, h⟩ := bind_eq_ok.1 h
  obtain ⟨_, -, h⟩ := bind_eq_ok.1 h
  obtain ⟨-, h⟩ := check_bind_eq_ok.1 h
  obtain ⟨t, ht, h⟩ := bind_eq_ok.1 h
  cases pure_eq_ok.1 h
  exact .tail (.single (.qualified (Rows.mem_of_find (lookup_eq_ok.1 hr)).1 ht))
    (.settled operationId evidence)

/-- A claim is on record already, or is granted and stored with its snapshot. -/
theorem claimWork_spec {q : ClaimRequest} {claim : WorkClaim}
    (h : s.claimWork cut q = .ok (claim, s')) :
    s' = s ∨ ∃ t r, Granted s cut q r t ∧
      { t with claims := t.claims ++ [r] }.finalizeArtifact q.intent.operationId
        "ownership-baseline" q.snapshot = .ok s' := by
  obtain ⟨found, hfound, h⟩ := bind_eq_ok.1 h
  cases found with
  | some found => exact .inl (congrArg Prod.snd (pure_eq_ok.1 h)).symm
  | none =>
    have hfresh : Rows.find ClaimRecord.command s.claims q.commandKey = none := by
      unfold findWorkClaim at hfound
      cases hf : Rows.find ClaimRecord.command s.claims q.commandKey with
      | none => rfl
      | some r =>
        simp only [hf] at hfound
        obtain ⟨_, -, hfound⟩ := bind_eq_ok.1 hfound
        obtain ⟨-, hfound⟩ := check_bind_eq_ok.1 hfound
        cases hfound
    obtain ⟨-, h⟩ := check_bind_eq_ok.1 h
    obtain ⟨_, -, h⟩ := bind_eq_ok.1 h
    obtain ⟨_, -, h⟩ := bind_eq_ok.1 h
    obtain ⟨_, -, h⟩ := bind_eq_ok.1 h
    obtain ⟨_, -, h⟩ := bind_eq_ok.1 h
    obtain ⟨-, h⟩ := check_bind_eq_ok.1 h
    -- the transaction proper, `grantClaim`
    obtain ⟨-, h⟩ := check_bind_eq_ok.1 h
    obtain ⟨⟨⟩, hauthority, h⟩ := bind_eq_ok.1 h
    cases hw : workspaces q.resources with
    | nil =>
      rw [hw] at h
      cases h
    | cons w rest =>
      rw [hw] at h
      cases rest with
      | cons w' rest => cases h
      | nil =>
        obtain ⟨hkey, h⟩ := check_bind_eq_ok.1 h
        obtain ⟨⟨⟩, hfree, h⟩ := bind_eq_ok.1 h
        obtain ⟨⟨⟩, hretained, h⟩ := bind_eq_ok.1 h
        obtain ⟨now, -, h⟩ := bind_eq_ok.1 h
        obtain ⟨binding, -, h⟩ := bind_eq_ok.1 h
        cases binding with
        | none => cases h
        | some binding =>
          obtain ⟨⟨p, t⟩, ht, h⟩ := bind_eq_ok.1 h
          obtain ⟨claims, hclaims, h⟩ := bind_eq_ok.1 h
          obtain ⟨u, hu, h⟩ := bind_eq_ok.1 h
          obtain ⟨_, -, h⟩ := bind_eq_ok.1 h
          cases pure_eq_ok.1 h
          have hc : t.claims = s.claims := by rw [admitDecision_frame ht]
          rw [hc] at hclaims
          have hclaims' := hclaims.symm.trans (Rows.insertOnce_of_none hfresh)
          cases hclaims'
          refine .inr ⟨t, _, ⟨hfresh, hauthority, hfree, ⟨w, hw, hkey, hretained⟩, ⟨p, ht⟩,
            ⟨min binding.projection.wallDeadline (now + q.leaseSeconds), rfl⟩⟩, ?_⟩
          rw [hc]
          exact hu

theorem claimWork_writes {q : ClaimRequest} {claim : WorkClaim}
    (hR : ∀ (t : Store) r, t = { s with reservations := t.reservations } →
      PreparedAsk q.attempt.programId q.attempt (some q.intent) q.snapshot.length r → R t r)
    (h : s.claimWork cut q = .ok (claim, s')) : Writes R U s s' := by
  obtain rfl | ⟨t, r, hg, hf⟩ := claimWork_spec h
  · exact .refl
  · obtain ⟨p, hp⟩ := hg.admitted
    refine .tail (admitDecision_writes ?_ hp) (.claimed hg hf)
    intro u x attempt hu ha hask
    cases ha
    exact hR u x hu hask

theorem renewWorkClaim_writes {commandKey : String} {claim : WorkClaim} {leaseSeconds n : ℕ}
    (h : s.renewWorkClaim cut commandKey claim leaseSeconds = .ok (n, s')) : Writes R U s s' := by
  obtain ⟨-, h⟩ := check_bind_eq_ok.1 h
  cases hp : Rows.find RenewalRecord.command s.renewals commandKey with
  | some previous =>
    simp only [hp] at h
    obtain ⟨-, h⟩ := check_bind_eq_ok.1 h
    obtain ⟨_, -, h⟩ := bind_eq_ok.1 h
    cases pure_eq_ok.1 h
    exact .refl
  | none =>
    simp only [hp] at h
    obtain ⟨⟨⟩, hc, h⟩ := bind_eq_ok.1 h
    obtain ⟨now, -, h⟩ := bind_eq_ok.1 h
    obtain ⟨binding, -, h⟩ := bind_eq_ok.1 h
    cases binding with
    | none => cases h
    | some binding =>
      obtain ⟨rows, hr, h⟩ := bind_eq_ok.1 h
      cases pure_eq_ok.1 h
      obtain ⟨-, rfl⟩ | ⟨hs, -⟩ := Rows.insertOnce_eq_ok.1 hr
      · exact .single (.renewed rfl hc)
      · cases hp.symm.trans hs

theorem recordClaimProof_writes {claim : WorkClaim} {stage : ProofStage} {source reference : Name}
    {workerReport : Bool}
    (h : s.recordClaimProof cut claim stage source reference workerReport = .ok ((), s')) :
    Writes R U s s' := by
  obtain ⟨-, h⟩ := check_bind_eq_ok.1 h
  obtain ⟨_, -, h⟩ := bind_eq_ok.1 h
  obtain ⟨-, h⟩ := check_bind_eq_ok.1 h
  obtain ⟨proofs, -, h⟩ := bind_eq_ok.1 h
  cases pure_eq_ok.1 h
  have hw : Writes R U s { s with proofs } := .single (.proved proofs)
  by_cases hs : stage = .start
  · rw [if_pos hs]
    exact hw
  · rw [if_neg hs]
    exact hw.tail (.settled _ _)

theorem releaseClaimResources_writes {claim : WorkClaim} {owner : Name} {evidence : String}
    {snapshot : Option Bytes}
    (h : s.releaseClaimResources cut claim owner evidence snapshot = .ok ((), s')) :
    Writes R U s s' := by
  obtain ⟨-, h⟩ := check_bind_eq_ok.1 h
  obtain ⟨_, -, h⟩ := bind_eq_ok.1 h
  obtain ⟨_, -, h⟩ := bind_eq_ok.1 h
  obtain ⟨-, h⟩ := check_bind_eq_ok.1 h
  obtain ⟨_, -, h⟩ := bind_eq_ok.1 h
  obtain ⟨t, ht, h⟩ := bind_eq_ok.1 h
  cases pure_eq_ok.1 h
  refine .tail ?_ (.released claim)
  cases snapshot with
  | none =>
    cases ht
    exact .refl
  | some snapshot => exact .single (.finalized ht)

theorem quarantineWorkClaim_writes {claim : WorkClaim} {owner : Option Name} {evidence : String}
    (h : s.quarantineWorkClaim cut claim owner evidence = .ok ((), s')) : Writes R U s s' := by
  obtain ⟨-, h⟩ := check_bind_eq_ok.1 h
  obtain ⟨_, -, h⟩ := bind_eq_ok.1 h
  obtain ⟨_, -, h⟩ := bind_eq_ok.1 h
  cases pure_eq_ok.1 h
  exact .single (.quarantined claim)

theorem authorizeClaimPublication_writes {claim : WorkClaim} {owner : Name} {intent : Intent}
    {o : Operation}
    (hR : ∀ r : Reservation, Asked claim.attempt.programId claim.attempt.attemptId.val
      intent.operationId 0 r → R s r)
    (h : s.authorizeClaimPublication cut claim owner intent = .ok (o, s')) : Writes R U s s' := by
  obtain ⟨_, -, h⟩ := bind_eq_ok.1 h
  obtain ⟨_, -, h⟩ := bind_eq_ok.1 h
  obtain ⟨-, h⟩ := check_bind_eq_ok.1 h
  obtain ⟨_, -, h⟩ := bind_eq_ok.1 h
  obtain ⟨t, ht, h⟩ := bind_eq_ok.1 h
  obtain ⟨journal, hj, h⟩ := bind_eq_ok.1 h
  obtain ⟨u, hu, h⟩ := bind_eq_ok.1 h
  obtain ⟨_, -, h⟩ := bind_eq_ok.1 h
  obtain ⟨_, -, h⟩ := bind_eq_ok.1 h
  cases pure_eq_ok.1 h
  exact ((reserve_writes hR ht).tail (.intended hj)).tail (.dispatched hu)

theorem reserveRetry_writes {r : Reservation} {o : Operation}
    (hR : ∀ x : Reservation, Asked r.program r.attempt (retryKey o) 0 x → R s x)
    (h : s.reserveRetry cut r o = .ok s') :
    Writes R U s s' ∧ s' = { s with reservations := s'.reservations } := by
  unfold reserveRetry at h
  split at h
  · cases h
    exact ⟨.refl, rfl⟩
  · exact ⟨reserve_writes hR h, reserve_frame h⟩

theorem claimOperation_writes {operationId : String} {now leaseSeconds : ℤ}
    {ownership : Option WorkClaim} {fence : ℕ}
    (hR : ∀ r : Reservation, s.Asks (.claimOperation cut operationId now leaseSeconds ownership) r →
      R s r)
    (h : s.claimOperation cut operationId now leaseSeconds ownership = .ok (fence, s')) :
    Writes R U s s' := by
  obtain ⟨-, h⟩ := check_bind_eq_ok.1 h
  obtain ⟨o, ho, h⟩ := bind_eq_ok.1 h
  cases hr : s.reservation operationId with
  | none =>
    simp only [hr] at h
    obtain ⟨-, h⟩ := check_bind_eq_ok.1 h
    obtain ⟨-, h⟩ := check_bind_eq_ok.1 h
    obtain ⟨⟨_, journal⟩, hj, h⟩ := bind_eq_ok.1 h
    cases pure_eq_ok.1 h
    exact .single (@Write.fenced _ _ _ _ s cut _ _ _ _ _ rfl (.inl hr) hj)
  | some r =>
    simp only [hr] at h
    obtain ⟨_, -, h⟩ := bind_eq_ok.1 h
    obtain ⟨⟨⟩, hd, h⟩ := bind_eq_ok.1 h
    obtain ⟨t, ht, h⟩ := bind_eq_ok.1 h
    obtain ⟨⟨_, journal⟩, hj, h⟩ := bind_eq_ok.1 h
    cases pure_eq_ok.1 h
    obtain ⟨-, -, ho⟩ := bind_eq_ok.1 ho
    obtain ⟨hw, hf⟩ := reserveRetry_writes (U := U)
      (fun x hx => hR x ⟨r, hr, o, lookup_eq_ok.1 ho, hx⟩) ht
    refine hw.tail (.fenced (t := s) ?_ (.inr hd) hj)
    rw [hf]

theorem journalCall_writes (c : Journal.Call) : Writes R U s (s.journalCall c) := by
  cases c with
  | claim operationId now leaseSeconds => exact .refl
  | intent operationId effectKey request =>
    show Writes R U s { s with
      journal := Runs.settle s.journal (s.journal.intent operationId effectKey request) }
    refine Runs.settle_of (P := fun journal => Writes R U s { s with journal }) .refl ?_
    intro o journal h
    obtain ⟨_, -, h⟩ := bind_eq_ok.1 h
    obtain ⟨_, -, h⟩ := bind_eq_ok.1 h
    obtain ⟨j, hj, h⟩ := bind_eq_ok.1 h
    obtain ⟨_, -, h⟩ := bind_eq_ok.1 h
    cases pure_eq_ok.1 h
    exact .single (.intended hj)
  | recordTransport operationId fence succeeded =>
    exact .single (.reported (.recordTransport operationId fence succeeded) nofun nofun)
  | observe operationId fence observationId kind reference =>
    exact .single (.reported (.observe operationId fence observationId kind reference) nofun nofun)
  | reconcile operationId fence outcome now evidence reference matchedDigest authoritative =>
    exact .single (.reported (.reconcile operationId fence outcome now evidence reference
      matchedDigest authoritative) nofun nofun)

/-! ## What a write leaves alone -/

theorem create_frame {spec : ProgramSpec} {commandKey : String} {p : Program}
    (h : s.create spec commandKey = .ok (p, s')) : s' = { s with aggregates := s'.aggregates } := by
  obtain ⟨⟨p', aggregates⟩, -, h⟩ := bind_eq_ok.1 h
  cases pure_eq_ok.1 h
  rfl

theorem configureBudget_frame {projectId : Name} {project task : WorkBudgetPolicy}
    {projection : DeadlineProjection}
    (h : s.configureBudget programId projectId project task projection = .ok s') :
    s' = { s with projects := s'.projects, bindings := s'.bindings, revisions := s'.revisions } := by
  obtain ⟨_, _, _, -, -, -, -, ⟨_, -, rfl⟩ | ⟨_, _, -, -, -, -, -, -, rfl⟩⟩ := configureBudget_spec h
    <;> rfl

omit [Sha256] in
theorem writeUsage_frame {u : UsageRecord} (h : s.writeUsage u = .ok s') :
    s' = { s with usage := s'.usage } := by
  obtain ⟨rows, -, h⟩ := bind_eq_ok.1 h
  cases pure_eq_ok.1 h
  rfl

theorem recordUsage_frame {operationId : String} {o : UsageObservation}
    (h : s.recordUsage operationId o = .ok ((), s')) : s' = { s with usage := s'.usage } := by
  obtain ⟨-, h⟩ := check_bind_eq_ok.1 h
  cases hf : Rows.find usageKey s.usage (usageKey ⟨operationId, o⟩) with
  | some _ =>
    simp only [hf] at h
    obtain ⟨t, ht, h⟩ := bind_eq_ok.1 h
    cases pure_eq_ok.1 h
    exact writeUsage_frame ht
  | none =>
    simp only [hf] at h
    obtain ⟨-, h⟩ := check_bind_eq_ok.1 h
    obtain ⟨-, h⟩ := check_bind_eq_ok.1 h
    obtain ⟨t, ht, h⟩ := bind_eq_ok.1 h
    cases pure_eq_ok.1 h
    exact writeUsage_frame ht

theorem finalizeArtifact_frame {operationId name : String} {data : Bytes}
    (h : s.finalizeArtifact operationId name data = .ok s') :
    s' = { s with artifacts := s'.artifacts } := by
  obtain ⟨-, -, _, -, rfl⟩ := finalizeArtifact_spec h
  rfl

omit [Sha256] in
theorem recordRetainedBytes_frame {operationId : String} {n : ℕ}
    (h : s.recordRetainedBytes operationId n = .ok ((), s')) :
    s' = { s with retained := s'.retained } := by
  obtain ⟨_, _, -, -, -, rfl⟩ := recordRetainedBytes_spec h
  rfl

/-- Only a recorded receipt changes the receipts. -/
theorem Write.usage_or (h : Write R U s s') : s'.usage = s.usage ∨
    ∃ operationId o, U s operationId o ∧ s.recordUsage operationId o = .ok ((), s') := by
  cases h with
  | used hU h => exact .inr ⟨_, _, hU, h⟩
  | created h => exact .inl (by rw [create_frame h])
  | configured h => exact .inl (by rw [configureBudget_frame h])
  | settled operationId evidence => exact .inl (by rw [settleOperation_frame])
  | qualified _ h => exact .inl (by rw [recordSettlementBasis_frame h])
  | retained h => exact .inl (by rw [recordRetainedBytes_frame h])
  | finalized h => exact .inl (by rw [finalizeArtifact_frame h])
  | claimed _ h => exact .inl (by rw [finalizeArtifact_frame h])
  | dispatched h => exact .inl (by rw [bindWorkDispatch_frame h])
  | recorded | intended | fenced | reported | revoked | reserved | renewed | proved | released
  | quarantined | unbound => exact .inl rfl

/-- Only a checked reservation changes the reservations. -/
theorem Write.reservations_or (h : Write R U s s') : s'.reservations = s.reservations ∨
    ∃ cut binding r, s.workBinding r.program = .ok (some binding) ∧ r.project = binding.project ∧
      s.reservation r.operation = none ∧ s.checkReservation cut binding r = .ok () ∧ R s r ∧
      s' = { s with reservations := s.reservations ++ [r] } := by
  cases h with
  | reserved hb hp hn hc hR => exact .inr ⟨_, _, _, hb, hp, hn, hc, hR, rfl⟩
  | created h => exact .inl (by rw [create_frame h])
  | configured h => exact .inl (by rw [configureBudget_frame h])
  | settled operationId evidence => exact .inl (by rw [settleOperation_frame])
  | qualified _ h => exact .inl (by rw [recordSettlementBasis_frame h])
  | retained h => exact .inl (by rw [recordRetainedBytes_frame h])
  | finalized h => exact .inl (by rw [finalizeArtifact_frame h])
  | claimed _ h => exact .inl (by rw [finalizeArtifact_frame h])
  | dispatched h => exact .inl (by rw [bindWorkDispatch_frame h])
  | used _ h => exact .inl (by rw [recordUsage_frame h])
  | recorded | intended | fenced | reported | revoked | renewed | proved | released
  | quarantined | unbound => exact .inl rfl

/-- Only a configuration changes the envelopes. -/
theorem Write.envelopes_or (h : Write R U s s') :
    (s'.projects = s.projects ∧ s'.bindings = s.bindings ∧ s'.revisions = s.revisions) ∨
      ∃ programId projectId project task projection,
        s.configureBudget programId projectId project task projection = .ok s' := by
  cases h with
  | configured h => exact .inr ⟨_, _, _, _, _, h⟩
  | created h =>
    rw [create_frame h]
    exact .inl ⟨rfl, rfl, rfl⟩
  | settled operationId evidence =>
    rw [settleOperation_frame]
    exact .inl ⟨rfl, rfl, rfl⟩
  | qualified _ h =>
    rw [recordSettlementBasis_frame h]
    exact .inl ⟨rfl, rfl, rfl⟩
  | retained h =>
    rw [recordRetainedBytes_frame h]
    exact .inl ⟨rfl, rfl, rfl⟩
  | used _ h =>
    rw [recordUsage_frame h]
    exact .inl ⟨rfl, rfl, rfl⟩
  | finalized h | claimed _ h =>
    rw [finalizeArtifact_frame h]
    exact .inl ⟨rfl, rfl, rfl⟩
  | dispatched h =>
    rw [bindWorkDispatch_frame h]
    exact .inl ⟨rfl, rfl, rfl⟩
  | recorded | intended | fenced | reported | reserved | revoked | renewed | proved | released
  | quarantined | unbound => exact .inl ⟨rfl, rfl, rfl⟩

/-- Only a creation or a command changes the aggregates. -/
theorem Write.aggregates_or (h : Write R U s s') : s'.aggregates = s.aggregates ∨
    (∃ spec commandKey p, s.create spec commandKey = .ok (p, s')) ∨
    ∃ programId commandKey c current next aggregates, Nonblank commandKey ∧
      Rows.find AdmissionRow.commandKey s.aggregates.admissions commandKey = none ∧
      s.loadHead programId = .ok current ∧ current.apply c = .ok next ∧
      s.aggregates.record programId commandKey c next = .ok aggregates ∧
      s' = { s with aggregates } := by
  cases h with
  | created h => exact .inr (.inl ⟨_, _, _, h⟩)
  | recorded hs hk hn hc ho ha hr =>
    refine .inr (.inr ⟨_, _, _, _, _, _, hk, hn, ?_, ha, hr, rfl⟩)
    rw [hs]
    exact hc
  | configured h => exact .inl (by rw [configureBudget_frame h])
  | settled operationId evidence => exact .inl (by rw [settleOperation_frame])
  | qualified _ h => exact .inl (by rw [recordSettlementBasis_frame h])
  | retained h => exact .inl (by rw [recordRetainedBytes_frame h])
  | used _ h => exact .inl (by rw [recordUsage_frame h])
  | finalized h | claimed _ h => exact .inl (by rw [finalizeArtifact_frame h])
  | dispatched h => exact .inl (by rw [bindWorkDispatch_frame h])
  | intended | fenced | reported | revoked | reserved | renewed | proved | released
  | quarantined | unbound => exact .inl rfl

/-- Settlements are only added. -/
theorem Write.settlements_subset (h : Write R U s s') : s.settlements ⊆ s'.settlements := by
  cases h with
  | settled operationId evidence =>
    unfold settleOperation
    split
    · exact List.Subset.refl _
    · exact List.subset_append_left _ _
  | created h => rw [create_frame h]; exact List.Subset.refl _
  | configured h => rw [configureBudget_frame h]; exact List.Subset.refl _
  | qualified _ h => rw [recordSettlementBasis_frame h]; exact List.Subset.refl _
  | retained h => rw [recordRetainedBytes_frame h]; exact List.Subset.refl _
  | used _ h => rw [recordUsage_frame h]; exact List.Subset.refl _
  | finalized h | claimed _ h => rw [finalizeArtifact_frame h]; exact List.Subset.refl _
  | dispatched h => rw [bindWorkDispatch_frame h]; exact List.Subset.refl _
  | recorded | intended | fenced | reported | reserved | revoked | renewed | proved | released
  | quarantined | unbound => exact List.Subset.refl _

/-! ## Runs -/

/-- A call is a sequence of writes. -/
theorem next_writes {c : Call}
    (hR : ∀ (t : Store) r, t = { s with reservations := t.reservations } → s.Asks c r → R t r)
    (hU : ∀ operationId o, c = .recordUsage operationId o → U s operationId o) :
    Writes R U s (s.next c) := by
  cases c with
  | create spec commandKey => exact Runs.settle_of .refl fun _ _ h => create_writes h
  | admitCommand cut programId commandKey c intent =>
    refine Runs.settle_of .refl fun _ _ h => ?_
    obtain ⟨_, -, h⟩ := bind_eq_ok.1 h
    exact admitDecision_writes (fun t r attempt ht ha hp => hR t r ht ⟨attempt, ha, hp⟩) h
  | configureWorkBudget programId projectId project task projection =>
    refine Runs.settle_of .refl fun _ _ h => ?_
    obtain ⟨-, h⟩ := check_bind_eq_ok.1 h
    obtain ⟨t, ht, h⟩ := bind_eq_ok.1 h
    cases pure_eq_ok.1 h
    exact .single (.configured ht)
  | acceptWorkBudget => exact Runs.settle_of .refl fun _ _ h => acceptWorkBudget_writes h
  | revokeWorkBudget => exact Runs.settle_of .refl fun _ _ h => revokeWorkBudget_writes h
  | stopOrdinaryProgram => exact Runs.settle_of .refl fun _ _ h => stopOrdinaryProgram_writes h
  | reserveWork cut programId attemptId operationId category n =>
    refine Runs.settle_of .refl fun _ _ h => ?_
    obtain ⟨t, ht, h⟩ := bind_eq_ok.1 h
    cases pure_eq_ok.1 h
    exact reserve_writes (fun r hr => hR s r rfl hr) ht
  | retryWork cut operationId =>
    refine Runs.settle_of .refl fun _ _ h => ?_
    obtain ⟨x, hx, h⟩ := bind_eq_ok.1 h
    obtain ⟨t, ht, h⟩ := bind_eq_ok.1 h
    cases pure_eq_ok.1 h
    exact reserve_writes (fun r hr => hR s r rfl ⟨x, lookup_eq_ok.1 hx, hr⟩) ht
  | budgetedIntent cut programId attemptId category intent n =>
    exact Runs.settle_of .refl fun _ _ h =>
      budgetedIntent_writes (fun r hr => hR s r rfl hr) h
  | recordWorkCompletion => exact Runs.settle_of .refl fun _ _ h => recordWorkCompletion_writes h
  | recordWorkSettlement => exact Runs.settle_of .refl fun _ _ h => recordWorkSettlement_writes h
  | recordRetainedBytes => exact Runs.settle_of .refl fun _ _ h => .single (.retained h)
  | recordUsage operationId o =>
    exact Runs.settle_of .refl fun _ _ h => .single (.used (hU operationId o rfl) h)
  | finalizeArtifact operationId name data =>
    refine Runs.settle_of .refl fun _ _ h => ?_
    obtain ⟨t, ht, h⟩ := map_eq_ok.1 h
    cases h
    exact .single (.finalized ht)
  | claimWork cut q =>
    exact Runs.settle_of .refl fun _ _ h => claimWork_writes (fun t r ht hp => hR t r ht hp) h
  | renewWorkClaim => exact Runs.settle_of .refl fun _ _ h => renewWorkClaim_writes h
  | recordClaimProof => exact Runs.settle_of .refl fun _ _ h => recordClaimProof_writes h
  | releaseClaimResources => exact Runs.settle_of .refl fun _ _ h => releaseClaimResources_writes h
  | quarantineWorkClaim => exact Runs.settle_of .refl fun _ _ h => quarantineWorkClaim_writes h
  | authorizeClaimPublication cut claim owner intent =>
    exact Runs.settle_of .refl fun _ _ h =>
      authorizeClaimPublication_writes (fun r hr => hR s r rfl hr) h
  | claimOperation cut operationId now leaseSeconds ownership =>
    exact Runs.settle_of .refl fun _ _ h => claimOperation_writes (fun r hr => hR s r rfl hr) h
  | journal c => exact journalCall_writes c

/-- What every write preserves is preserved by a sequence of writes. -/
theorem invariant_of_writes {P : Store → Prop} (hP : ∀ s s', P s → Write R U s s' → P s')
    (hs : P s) (hw : Writes R U s s') : P s' := by
  induction hw with
  | refl => exact hs
  | tail _ hw ih => exact hP _ _ ih hw

/-- An invariant of the writes holds after every run. -/
theorem run_of_writes {P : Store → Prop}
    (hP : ∀ s s', P s → Write (fun _ _ => True) (fun _ _ _ => True) s s' → P s') (hs : P s)
    (calls : List Call) : P (Runs.run next s calls) :=
  Runs.run_invariant (fun _ _ hs => invariant_of_writes hP hs
    (next_writes (fun _ _ _ _ => trivial) (fun _ _ _ => trivial))) hs calls

/-- An invariant of the writes, in the runs whose calls all ask for what the writes need. -/
theorem run_of_writes_of {P : Store → Prop} {A : Store → Call → Prop}
    (hR : ∀ s c (t : Store) r, A s c → t = { s with reservations := t.reservations } →
      s.Asks c r → R t r)
    (hU : ∀ s operationId o, A s (.recordUsage operationId o) → U s operationId o)
    (hP : ∀ s s', P s → Write R U s s' → P s') (hs : P s) {calls : List Call}
    (hA : Runs.Meets next A s calls) : P (Runs.run next s calls) := by
  refine Runs.run_invariant_of (fun s c hs hA => invariant_of_writes hP hs (next_writes ?_ ?_)) hs hA
  · exact fun t r ht ha => hR s c t r hA ht ha
  · rintro operationId o rfl
    exact hU s operationId o hA

end

end Store

end CreatidyKernel
