import CreatidyKernel.Core.AppendOnly
import CreatidyKernel.Store.HistorySafety
import CreatidyKernel.Store.JournalSafety

set_option relaxedAutoImplicit false
set_option autoImplicit false

/-!
# Dispatch follows the life of an Attempt

A reserved operation gets a fence only while its Attempt is pinned to the current specification
and in the state its kind of work needs. Attempts end once and specifications only go forward, so
that an Attempt that ended or was superseded gets no further delivery, whatever happens later.

## Main definitions

* `Store.Ready` — the state of the Attempt of a reservation permits a delivery.
* `Store.Dead` — an Attempt ended, or its specification was superseded.
* `Store.DispatchFollows` — what the store guarantees of deliveries.

## Main results

* `Store.claimOperation_ready` — a fence is issued for a ready reservation only.
* `Store.Dead.next` — no call revives an Attempt.
* `Store.dispatch_follows` — the guarantee, for every run.
-/

namespace CreatidyKernel

open Checked

/-! ## Attempts that ended -/

namespace Program

variable [Sha256]

/-- The Attempt is pinned to the current specification. -/
def Pinned (p : Program) (a : Attempt) : Prop := a.spec.pin = (p.spec.revision, p.spec.digest)

/-- A specification of the history that is not the current one is never current again. -/
theorem pin_run {p q : Program} (hp : p.Coherent) (hq : q.Coherent)
    (hhistory : p.specHistory <+: q.specHistory) {h : ProgramSpec} (hmem : h ∈ p.specHistory)
    (hpin : (h.revision, h.digest) = (q.spec.revision, q.spec.digest)) : h = p.spec := by
  have hp := hp.ledger.history
  have hq := hq.ledger.history
  obtain ⟨later, hlater⟩ := hhistory
  have hlast := hq.last
  rw [← hlater] at hlast
  obtain rfl : h = q.spec :=
    List.inj_on_of_nodup_map hq.nodup_pin (by rw [← hlater]; exact List.mem_append.2 (.inl hmem))
      hq.mem hpin
  rcases List.eq_nil_or_concat later with rfl | ⟨later, s, rfl⟩
  · rw [List.append_nil, hp.last] at hlast
    exact (Option.some.inj hlast).symm
  · -- the current specification stands twice in a history of increasing revisions
    rw [List.concat_eq_append, ← List.append_assoc, List.getLast?_concat] at hlast
    obtain rfl := Option.some.inj hlast
    have hpairwise := hq.pairwise
    rw [← hlater] at hpairwise
    exact absurd ((List.pairwise_append.1 hpairwise).2.2 _ hmem _ (by simp)) (lt_irrefl _)

/-- An Attempt that is neither prepared nor executing never is again, and one that is not pinned
to the current specification is pinned to none that follows. -/
theorem dead_run {p q : Program} (hp : p.Reachable) {commands : List DomainCommand}
    (h : p.run commands = .ok q) {a : Attempt} (ha : a ∈ p.attempts)
    (hdead : ¬a.Live ∨ ¬p.Pinned a) :
    ∃ b ∈ q.attempts, b.attemptId = a.attemptId ∧ (¬b.Live ∨ ¬q.Pinned b) := by
  have hext := run_extends hp h
  obtain ⟨i, hi⟩ := List.getElem?_of_mem ha
  obtain ⟨b, hb, hcont⟩ := hext.attempts.kept i a hi
  refine ⟨b, List.mem_of_getElem? hb, congrArg AttemptSpec.attemptId hcont.spec, ?_⟩
  rcases hdead with hlive | hpin
  · left
    intro hb
    have hstatus := AttemptStatus.eq_of_terminal hcont.status hlive
    unfold Attempt.Live at hb
    rw [hstatus] at hb
    exact hlive hb
  · right
    intro hb
    obtain ⟨spec, ⟨hmem, hcite⟩, -⟩ := hp.coherent.ledger.attempts.pinned a ha
    unfold Pinned at hb
    rw [hcont.spec, ← hcite] at hb
    have hcurrent := pin_run hp.coherent (hp.run h).coherent hext.specHistory hmem hb
    refine hpin ?_
    unfold Pinned
    rw [← hcite, hcurrent]

end Program

namespace Store

variable [Sha256] {s s' : Store}

/-! ## Deliveries -/

/-- No delivery is recorded. -/
def Undelivered (s s' : Store) : Prop := s'.journal.deliveries = s.journal.deliveries

theorem insertIntent_undelivered {operationId effectKey : String} {request : EffectRequest}
    {allow : Bool} {journal : Journal}
    (h : s.journal.insertIntent operationId effectKey request allow = .ok journal) :
    journal.deliveries = s.journal.deliveries := by
  rcases Journal.insertIntent_cases h with ⟨rfl, -⟩ | ⟨-, rfl⟩ <;> rfl

theorem admitDecision_undelivered {cut : Cut} {programId : Name} {commandKey : String}
    {c : DomainCommand} {intent : Option Intent} {n : ℕ} {p : Program}
    (h : s.admitDecision cut programId commandKey c intent n = .ok (p, s')) :
    Undelivered s s' := by
  obtain rfl | ⟨current, t, aggregates, -, -, -, -, -, ht, -, hi⟩ := admitDecision_spec h
  · rfl
  · have hf := (coupleWork_writes (R := fun _ _ => True) (U := fun _ _ _ => True)
      (fun _ _ _ _ _ _ => trivial) ht).2
    have ht : t.journal = s.journal := by rw [hf]
    unfold Undelivered
    rw [← ht]
    cases intent with
    | none =>
      cases pure_eq_ok.1 hi
      rfl
    | some intent =>
      obtain ⟨journal, hj, hi⟩ := bind_eq_ok.1 hi
      have hquiet : journal.deliveries = t.journal.deliveries :=
        insertIntent_undelivered (s := t) hj
      cases hp : preparedAttempt c.request with
      | none =>
        simp only [hp, pure_eq_ok] at hi
        rw [← hi]
        exact hquiet
      | some attempt =>
        simp only [hp] at hi
        obtain ⟨binding, -, hi⟩ := bind_eq_ok.1 hi
        cases binding with
        | none =>
          cases pure_eq_ok.1 hi
          exact hquiet
        | some binding =>
          rw [bindWorkDispatch_frame hi]
          exact hquiet

theorem publishRecords_undelivered {records : List InertRecord}
    (h : records.foldlM publishRecord s = .ok s') : Undelivered s s' := by
  induction records generalizing s with
  | nil =>
    cases h
    rfl
  | cons r records ih =>
    obtain ⟨t, ht, h⟩ := bind_eq_ok.1 h
    refine (ih h).trans ?_
    obtain ⟨_, -, ht⟩ := bind_eq_ok.1 ht
    obtain ⟨journal, hj, ht⟩ := bind_eq_ok.1 ht
    cases hr : r.raw with
    | none =>
      simp only [hr, pure_eq_ok] at ht
      rw [← ht]
      exact insertIntent_undelivered hj
    | some raw =>
      simp only [hr] at ht
      rw [finalizeArtifact_frame ht]
      exact insertIntent_undelivered hj

theorem acceptWorkBudget_undelivered {cut : Cut} {approval : Except Failure Unit}
    {spec : ProgramSpec} {commandKey : String} {projectId : Name} {project task : WorkBudgetPolicy}
    {projection : DeadlineProjection} {amendment : Option ApprovedAmendment}
    {records : List InertRecord} {p : Program}
    (h : s.acceptWorkBudget cut approval spec commandKey projectId project task projection
      amendment records = .ok (p, s')) : Undelivered s s' := by
  obtain ⟨_, -, h⟩ := bind_eq_ok.1 h
  obtain ⟨_, -, h⟩ := bind_eq_ok.1 h
  obtain ⟨-, h⟩ := check_bind_eq_ok.1 h
  obtain ⟨-, h⟩ := check_bind_eq_ok.1 h
  obtain ⟨-, h⟩ := check_bind_eq_ok.1 h
  obtain ⟨_, -, h⟩ := bind_eq_ok.1 h
  obtain ⟨⟨p', t⟩, ht, h⟩ := bind_eq_ok.1 h
  obtain ⟨-, h⟩ := check_bind_eq_ok.1 h
  obtain ⟨u, hu, h⟩ := bind_eq_ok.1 h
  obtain ⟨v, hv, h⟩ := bind_eq_ok.1 h
  cases pure_eq_ok.1 h
  have haccept : Undelivered s t := by
    unfold acceptProgram at ht
    split at ht
    · obtain ⟨-, ht⟩ := check_bind_eq_ok.1 ht
      rw [create_frame ht]
      rfl
    · obtain ⟨current, -, ht⟩ := bind_eq_ok.1 ht
      split at ht
      · cases pure_eq_ok.1 ht
        rfl
      · cases amendment with
        | none => cases ht
        | some amendment => exact admitDecision_undelivered ht
  have hconfigure : Undelivered t u := by
    rw [configureBudget_frame hu]
    rfl
  exact (publishRecords_undelivered hv).trans (hconfigure.trans haccept)

theorem reserve_undelivered {cut : Cut} {programId : Name} {attemptId operationId : String}
    {category : WorkKind} {n : ℕ}
    (h : s.reserve cut programId attemptId operationId category n = .ok s') : Undelivered s s' := by
  rw [reserve_frame h]
  rfl

theorem budgetedIntent_undelivered {cut : Cut} {programId : Name} {attemptId : String}
    {category : WorkKind} {intent : Intent} {n : ℕ} {o : Operation}
    (h : s.budgetedIntent cut programId attemptId category intent n = .ok (o, s')) :
    Undelivered s s' := by
  obtain ⟨_, -, h⟩ := bind_eq_ok.1 h
  obtain ⟨t, ht, h⟩ := bind_eq_ok.1 h
  obtain ⟨journal, hj, h⟩ := bind_eq_ok.1 h
  have hquiet : journal.deliveries = s.journal.deliveries :=
    (insertIntent_undelivered hj).trans (reserve_undelivered ht)
  split at h
  · obtain ⟨_, -, h⟩ := bind_eq_ok.1 h
    obtain ⟨_, -, h⟩ := bind_eq_ok.1 h
    obtain ⟨u, hu, h⟩ := bind_eq_ok.1 h
    obtain ⟨_, -, h⟩ := bind_eq_ok.1 h
    obtain ⟨_, -, h⟩ := bind_eq_ok.1 h
    cases pure_eq_ok.1 h
    rw [bindWorkDispatch_frame hu]
    exact hquiet
  · obtain ⟨_, -, h⟩ := bind_eq_ok.1 h
    cases pure_eq_ok.1 h
    exact hquiet

theorem authorizeClaimPublication_undelivered {cut : Cut} {claim : WorkClaim} {owner : Name}
    {intent : Intent} {o : Operation}
    (h : s.authorizeClaimPublication cut claim owner intent = .ok (o, s')) : Undelivered s s' := by
  obtain ⟨_, -, h⟩ := bind_eq_ok.1 h
  obtain ⟨_, -, h⟩ := bind_eq_ok.1 h
  obtain ⟨-, h⟩ := check_bind_eq_ok.1 h
  obtain ⟨_, -, h⟩ := bind_eq_ok.1 h
  obtain ⟨t, ht, h⟩ := bind_eq_ok.1 h
  obtain ⟨journal, hj, h⟩ := bind_eq_ok.1 h
  obtain ⟨u, hu, h⟩ := bind_eq_ok.1 h
  obtain ⟨_, -, h⟩ := bind_eq_ok.1 h
  obtain ⟨_, -, h⟩ := bind_eq_ok.1 h
  cases pure_eq_ok.1 h
  rw [bindWorkDispatch_frame hu]
  exact (insertIntent_undelivered hj).trans (reserve_undelivered ht)

theorem claimWork_undelivered {cut : Cut} {q : ClaimRequest} {claim : WorkClaim}
    (h : s.claimWork cut q = .ok (claim, s')) : Undelivered s s' := by
  obtain rfl | ⟨t, r, hg, hf⟩ := claimWork_spec h
  · rfl
  · obtain ⟨p, hp⟩ := hg.admitted
    have hquiet := admitDecision_undelivered hp
    rw [finalizeArtifact_frame hf]
    exact hquiet

theorem recordClaimProof_undelivered {cut : Cut} {claim : WorkClaim} {stage : ProofStage}
    {source reference : Name} {workerReport : Bool}
    (h : s.recordClaimProof cut claim stage source reference workerReport = .ok ((), s')) :
    Undelivered s s' := by
  obtain ⟨-, h⟩ := check_bind_eq_ok.1 h
  obtain ⟨_, -, h⟩ := bind_eq_ok.1 h
  obtain ⟨-, h⟩ := check_bind_eq_ok.1 h
  obtain ⟨proofs, -, h⟩ := bind_eq_ok.1 h
  cases pure_eq_ok.1 h
  split
  · rfl
  · rw [settleOperation_frame]
    rfl

theorem renewWorkClaim_undelivered {cut : Cut} {commandKey : String} {claim : WorkClaim}
    {leaseSeconds n : ℕ} (h : s.renewWorkClaim cut commandKey claim leaseSeconds = .ok (n, s')) :
    Undelivered s s' := by
  obtain ⟨-, h⟩ := check_bind_eq_ok.1 h
  cases hp : Rows.find RenewalRecord.command s.renewals commandKey with
  | some previous =>
    simp only [hp] at h
    obtain ⟨-, h⟩ := check_bind_eq_ok.1 h
    obtain ⟨_, -, h⟩ := bind_eq_ok.1 h
    cases pure_eq_ok.1 h
    rfl
  | none =>
    simp only [hp] at h
    obtain ⟨_, -, h⟩ := bind_eq_ok.1 h
    obtain ⟨_, -, h⟩ := bind_eq_ok.1 h
    obtain ⟨binding, -, h⟩ := bind_eq_ok.1 h
    cases binding with
    | none => cases h
    | some binding =>
      obtain ⟨rows, -, h⟩ := bind_eq_ok.1 h
      cases pure_eq_ok.1 h
      rfl

theorem releaseClaimResources_undelivered {cut : Cut} {claim : WorkClaim} {owner : Name}
    {evidence : String} {snapshot : Option Bytes}
    (h : s.releaseClaimResources cut claim owner evidence snapshot = .ok ((), s')) :
    Undelivered s s' := by
  obtain ⟨-, h⟩ := check_bind_eq_ok.1 h
  obtain ⟨_, -, h⟩ := bind_eq_ok.1 h
  obtain ⟨_, -, h⟩ := bind_eq_ok.1 h
  obtain ⟨-, h⟩ := check_bind_eq_ok.1 h
  obtain ⟨_, -, h⟩ := bind_eq_ok.1 h
  obtain ⟨t, ht, h⟩ := bind_eq_ok.1 h
  cases pure_eq_ok.1 h
  cases snapshot with
  | none =>
    cases ht
    rfl
  | some snapshot =>
    have hframe := finalizeArtifact_frame ht
    rw [hframe]
    rfl

/-- A journal call that takes no fence records no delivery. -/
theorem journalCall_undelivered (c : Journal.Call) : Undelivered s (s.journalCall c) := by
  cases c with
  | claim operationId now leaseSeconds => rfl
  | intent operationId effectKey request =>
    refine Runs.settle_of (P := fun j => j.deliveries = s.journal.deliveries)
      (r := s.journal.intent operationId effectKey request) rfl fun o j h => ?_
    rcases Journal.intent_cases h with rfl | ⟨-, rfl⟩ <;> rfl
  | recordTransport operationId fence succeeded =>
    refine Runs.settle_of (P := fun j => j.deliveries = s.journal.deliveries)
      (r := s.journal.recordTransport operationId fence succeeded) rfl fun o j h => ?_
    obtain ⟨transports, rfl⟩ := Journal.recordTransport_cases h
    rfl
  | observe operationId fence observationId kind reference =>
    refine Runs.settle_of (P := fun j => j.deliveries = s.journal.deliveries)
      (r := s.journal.observe operationId fence observationId kind reference) rfl fun o j h => ?_
    rcases Journal.observe_cases h with rfl | ⟨o, -, -, -, -, -, -, rfl⟩ <;> rfl
  | reconcile operationId fence outcome now evidence reference matchedDigest authoritative =>
    refine Runs.settle_of (P := fun j => j.deliveries = s.journal.deliveries)
      (r := s.journal.reconcile operationId fence outcome now evidence reference matchedDigest
        authoritative) rfl fun o j h => ?_
    obtain ⟨o, -, -, -, -, -, -, -, rfl⟩ := Journal.reconcile_cases h
    rfl

/-- Only a claim of an operation records a delivery. -/
theorem next_undelivered {c : Call}
    (hc : ∀ cut operationId now leaseSeconds ownership,
      c ≠ .claimOperation cut operationId now leaseSeconds ownership) :
    Undelivered s (s.next c) := by
  cases c with
  | create spec commandKey =>
    exact Runs.settle_of rfl fun _ _ h => by rw [create_frame h]; rfl
  | admitCommand cut programId commandKey c intent =>
    refine Runs.settle_of rfl fun _ _ h => ?_
    obtain ⟨_, -, h⟩ := bind_eq_ok.1 h
    exact admitDecision_undelivered h
  | configureWorkBudget programId projectId project task projection =>
    refine Runs.settle_of rfl fun _ _ h => ?_
    obtain ⟨-, h⟩ := check_bind_eq_ok.1 h
    obtain ⟨t, ht, h⟩ := bind_eq_ok.1 h
    cases pure_eq_ok.1 h
    rw [configureBudget_frame ht]
    rfl
  | acceptWorkBudget => exact Runs.settle_of rfl fun _ _ h => acceptWorkBudget_undelivered h
  | revokeWorkBudget programId evidence expectedRevision =>
    refine Runs.settle_of rfl fun _ _ h => ?_
    obtain ⟨_, -, h⟩ := bind_eq_ok.1 h
    obtain ⟨_, -, h⟩ := bind_eq_ok.1 h
    cases pure_eq_ok.1 h
    unfold revoke
    split <;> rfl
  | stopOrdinaryProgram cut programId commandKey actor evidence expectedRevision =>
    refine Runs.settle_of rfl fun _ _ h => ?_
    obtain ⟨_, -, h⟩ := bind_eq_ok.1 h
    obtain ⟨_, -, h⟩ := bind_eq_ok.1 h
    obtain ⟨head, -, h⟩ := bind_eq_ok.1 h
    obtain ⟨-, h⟩ := check_bind_eq_ok.1 h
    obtain ⟨⟨p', t⟩, ht, h⟩ := bind_eq_ok.1 h
    cases pure_eq_ok.1 h
    have hcancel : Undelivered s t := by
      unfold cancelOpen at ht
      split at ht
      · cases ht
        rfl
      · exact admitDecision_undelivered ht
    unfold revoke
    split
    · exact hcancel
    · exact hcancel
  | reserveWork cut programId attemptId operationId category n =>
    refine Runs.settle_of rfl fun _ _ h => ?_
    obtain ⟨t, ht, h⟩ := bind_eq_ok.1 h
    cases pure_eq_ok.1 h
    exact reserve_undelivered ht
  | retryWork cut operationId =>
    refine Runs.settle_of rfl fun _ _ h => ?_
    obtain ⟨x, -, h⟩ := bind_eq_ok.1 h
    obtain ⟨t, ht, h⟩ := bind_eq_ok.1 h
    cases pure_eq_ok.1 h
    exact reserve_undelivered ht
  | budgetedIntent => exact Runs.settle_of rfl fun _ _ h => budgetedIntent_undelivered h
  | recordWorkCompletion operationId evidence =>
    refine Runs.settle_of rfl fun _ _ h => ?_
    obtain ⟨_, -, h⟩ := bind_eq_ok.1 h
    obtain ⟨r, -, h⟩ := bind_eq_ok.1 h
    obtain ⟨t, ht, h⟩ := bind_eq_ok.1 h
    cases pure_eq_ok.1 h
    rw [recordCompletion_frame ht]
    rfl
  | recordWorkSettlement cut operationId evidence expectedFence =>
    refine Runs.settle_of rfl fun _ _ h => ?_
    obtain ⟨_, -, h⟩ := bind_eq_ok.1 h
    obtain ⟨r, -, h⟩ := bind_eq_ok.1 h
    obtain ⟨_, -, h⟩ := bind_eq_ok.1 h
    obtain ⟨_, -, h⟩ := bind_eq_ok.1 h
    obtain ⟨_, -, h⟩ := bind_eq_ok.1 h
    obtain ⟨-, h⟩ := check_bind_eq_ok.1 h
    obtain ⟨t, ht, h⟩ := bind_eq_ok.1 h
    cases pure_eq_ok.1 h
    rw [settleOperation_frame, recordSettlementBasis_frame ht]
    rfl
  | recordRetainedBytes operationId n =>
    exact Runs.settle_of rfl fun _ _ h => by rw [recordRetainedBytes_frame h]; rfl
  | recordUsage operationId o =>
    exact Runs.settle_of rfl fun _ _ h => by rw [recordUsage_frame h]; rfl
  | finalizeArtifact operationId name data =>
    refine Runs.settle_of rfl fun _ _ h => ?_
    obtain ⟨t, ht, h⟩ := map_eq_ok.1 h
    cases h
    rw [finalizeArtifact_frame ht]
    rfl
  | claimWork => exact Runs.settle_of rfl fun _ _ h => claimWork_undelivered h
  | renewWorkClaim => exact Runs.settle_of rfl fun _ _ h => renewWorkClaim_undelivered h
  | recordClaimProof => exact Runs.settle_of rfl fun _ _ h => recordClaimProof_undelivered h
  | releaseClaimResources =>
    exact Runs.settle_of rfl fun _ _ h => releaseClaimResources_undelivered h
  | quarantineWorkClaim cut claim owner evidence =>
    refine Runs.settle_of rfl fun _ _ h => ?_
    obtain ⟨_, -, h⟩ := bind_eq_ok.1 h
    obtain ⟨_, -, h⟩ := bind_eq_ok.1 h
    obtain ⟨_, -, h⟩ := bind_eq_ok.1 h
    cases pure_eq_ok.1 h
    rfl
  | authorizeClaimPublication =>
    exact Runs.settle_of rfl fun _ _ h => authorizeClaimPublication_undelivered h
  | claimOperation cut operationId now leaseSeconds ownership => exact absurd rfl (hc _ _ _ _ _)
  | journal c => exact journalCall_undelivered c

/-! ## Fences -/

/-- The state of the Attempt of a reservation, and of its unit, permits a delivery. -/
def Ready (s : Store) (r : Reservation) : Prop :=
  ∃ head attempt state, s.loadHead r.program = .ok head ∧ attempt ∈ head.attempts ∧
    attempt.attemptId.val = r.attempt ∧ head.Pinned attempt ∧
    head.state attempt.spec.workUnitId = .ok state ∧ Permitted head attempt state r.category

theorem checkWorkDispatch_ready {cut : Cut} {operationId : String}
    (h : s.checkWorkDispatch cut operationId = .ok ()) {r : Reservation}
    (hr : s.reservation operationId = some r) : s.Ready r := by
  obtain ⟨r', hr', h⟩ := bind_eq_ok.1 h
  obtain rfl : r' = r := Option.some.inj ((lookup_eq_ok.1 hr').symm.trans hr)
  obtain ⟨_, -, h⟩ := bind_eq_ok.1 h
  obtain ⟨_, -, h⟩ := bind_eq_ok.1 h
  obtain ⟨head, hhead, h⟩ := bind_eq_ok.1 h
  obtain ⟨attempt, hattempt, h⟩ := bind_eq_ok.1 h
  obtain ⟨_, -, h⟩ := bind_eq_ok.1 h
  obtain ⟨-, h⟩ := check_bind_eq_ok.1 h
  obtain ⟨hpin, h⟩ := check_bind_eq_ok.1 h
  obtain ⟨operation, -, h⟩ := bind_eq_ok.1 h
  obtain ⟨_, -, h⟩ := bind_eq_ok.1 h
  obtain ⟨state, hstate, h⟩ := bind_eq_ok.1 h
  obtain ⟨claim, -, h⟩ := bind_eq_ok.1 h
  obtain ⟨_, -, h⟩ := bind_eq_ok.1 h
  obtain ⟨_, -, h⟩ := bind_eq_ok.1 h
  obtain ⟨-, h⟩ := check_bind_eq_ok.1 h
  obtain ⟨hpermitted, -⟩ := check_bind_eq_ok.1 h
  have hfind := lookup_eq_ok.1 hattempt
  exact ⟨head, attempt, state, hhead, List.mem_of_find?_eq_some hfind,
    by simpa using List.find?_some hfind, hpin, hstate, hpermitted⟩

/-- A fence may be issued: the reservation is ready, and an operation without one is not the
runtime operation of an Attempt. -/
def Deliverable (s : Store) (operationId : String) : Prop :=
  match s.reservation operationId with
  | some r => s.Ready r
  | none => ¬"runtime:".toList <+: operationId.toList ∧ operationId ∉ s.unbound

/-- A fence is issued to a ready reservation, or to an operation of no Attempt. -/
theorem claimOperation_ready {cut : Cut} {operationId : String} {now leaseSeconds : ℤ}
    {ownership : Option WorkClaim} {fence : ℕ}
    (h : s.claimOperation cut operationId now leaseSeconds ownership = .ok (fence, s')) :
    s.Deliverable operationId ∧ ∃ d : Delivery, d.operationId = operationId ∧
      s'.journal.deliveries = s.journal.deliveries ++ [d] := by
  obtain ⟨-, h⟩ := check_bind_eq_ok.1 h
  obtain ⟨o, ho, h⟩ := bind_eq_ok.1 h
  unfold Deliverable
  cases hr : s.reservation operationId with
  | none =>
    simp only [hr] at h
    obtain ⟨-, h⟩ := check_bind_eq_ok.1 h
    obtain ⟨hplain, h⟩ := check_bind_eq_ok.1 h
    obtain ⟨⟨_, journal⟩, hj, h⟩ := bind_eq_ok.1 h
    cases pure_eq_ok.1 h
    obtain ⟨o, -, -, -, -, -, rfl⟩ := Journal.claim_cases hj
    exact ⟨hplain, _, rfl, rfl⟩
  | some r =>
    simp only [hr] at h
    obtain ⟨_, -, h⟩ := bind_eq_ok.1 h
    obtain ⟨⟨⟩, hd, h⟩ := bind_eq_ok.1 h
    obtain ⟨t, ht, h⟩ := bind_eq_ok.1 h
    obtain ⟨⟨_, journal⟩, hj, h⟩ := bind_eq_ok.1 h
    cases pure_eq_ok.1 h
    obtain ⟨o', -, -, -, -, -, rfl⟩ := Journal.claim_cases hj
    have hquiet : t.journal = s.journal := by
      rw [(reserveRetry_writes (R := fun _ _ => True) (U := fun _ _ _ => True)
        (fun _ _ => trivial) ht).2]
    exact ⟨checkWorkDispatch_ready hd hr, _, rfl, by rw [← hquiet]⟩

/-- A call issues a fence for an operation: one more delivery of it is on record. -/
def Issues (s : Store) (c : Option Call) (operationId : String) : Prop :=
  (s.nextOrReopen c).journal.attempts operationId ≠ s.journal.attempts operationId

/-- The step: whatever the call, a fence is issued to a deliverable operation. -/
theorem next_deliverable {c : Option Call} {operationId : String} (h : s.Issues c operationId) :
    s.Deliverable operationId := by
  have hsame : ∀ s' : Store, Undelivered s s' →
      s'.journal.attempts operationId = s.journal.attempts operationId := by
    intro s' hs'
    unfold Journal.attempts Journal.trail
    rw [hs']
  cases c with
  | none =>
    refine absurd (hsame s.reopen ?_) h
    unfold reopen
    exact Runs.settle_of rfl fun _ _ hr => by obtain ⟨_, -, h⟩ := map_eq_ok.1 hr; cases h; rfl
  | some c =>
    by_cases hc : ∃ cut operationId now leaseSeconds ownership,
        c = .claimOperation cut operationId now leaseSeconds ownership
    · obtain ⟨cut, operationId', now, leaseSeconds, ownership, rfl⟩ := hc
      cases hclaim : s.claimOperation cut operationId' now leaseSeconds ownership with
      | error e =>
        refine absurd (hsame _ ?_) h
        show (Runs.settle s _).journal.deliveries = _
        rw [hclaim]
        rfl
      | ok result =>
        obtain ⟨fence, s'⟩ := result
        have hnext : s.nextOrReopen (some (.claimOperation cut operationId' now leaseSeconds
            ownership)) = s' := by
          show Runs.settle s _ = _
          rw [hclaim]
          rfl
        obtain ⟨hready, d, hd, hdeliveries⟩ := claimOperation_ready hclaim
        by_cases he : operationId' = operationId
        · subst he
          exact hready
        · refine absurd ?_ h
          have hne : ¬d.operationId = operationId := by rwa [hd]
          rw [hnext]
          unfold Journal.attempts Journal.trail
          rw [hdeliveries, List.filter_append, List.filter_cons_of_neg (by simpa using hne),
            List.filter_nil, List.append_nil]
    · refine absurd (hsame _ (next_undelivered ?_)) h
      rintro cut operationId now leaseSeconds ownership rfl
      exact hc ⟨_, _, _, _, _, rfl⟩

/-- The step for a reserved operation. -/
theorem next_ready {c : Option Call} {operationId : String} (h : s.Issues c operationId)
    {r : Reservation} (hr : s.reservation operationId = some r) : s.Ready r := by
  have hready := next_deliverable h
  unfold Deliverable at hready
  rwa [hr] at hready

/-! ## Runs -/

/-- An Attempt ended, or its specification was superseded. -/
def Dead (s : Store) (programId attemptId : Name) : Prop :=
  ∃ head attempt, s.loadHead programId = .ok head ∧ attempt ∈ head.attempts ∧
    attempt.attemptId = attemptId ∧ (¬attempt.Live ∨ ¬head.Pinned attempt)

/-- The operation is the runtime operation of an Attempt: it holds the capacity of the Attempt
itself. -/
def RuntimeOf (s : Store) (programId attemptId : Name) (operationId : String) : Prop :=
  ∃ r, s.reservation operationId = some r ∧ r.program = programId ∧ r.attempt = attemptId.val ∧
    r.category = .attempt

theorem head_reachable (h : s.aggregates.Agreeing) {programId : Name} {p : Program}
    (hp : s.loadHead programId = .ok p) : p.Reachable := by
  obtain ⟨-, rows, ht, -⟩ := h.told hp
  exact ht.reachable

/-- No later state revives an Attempt. -/
theorem Dead.continues (h : s.aggregates.Agreeing) (hs : Continues s s')
    {programId attemptId : Name} (hd : s.Dead programId attemptId) :
    s'.Dead programId attemptId := by
  obtain ⟨head, attempt, hhead, hmem, rfl, hdead⟩ := hd
  obtain ⟨commands, head', hhead', hrun⟩ := hs programId head hhead
  obtain ⟨attempt', hmem', hid, hdead'⟩ :=
    Program.dead_run (head_reachable h hhead) hrun hmem hdead
  exact ⟨head', attempt', hhead', hmem', hid, hdead'⟩

/-- The runtime operation of a dead Attempt is not ready. -/
theorem Dead.not_ready (h : s.aggregates.Agreeing) {programId attemptId : Name}
    (hd : s.Dead programId attemptId) {r : Reservation} (hprogram : r.program = programId)
    (hattempt : r.attempt = attemptId.val) (hcategory : r.category = .attempt) : ¬s.Ready r := by
  rintro ⟨head, attempt, state, hhead, hmem, hid, hpin, -, hpermitted⟩
  obtain ⟨head', attempt', hhead', hmem', rfl, hdead⟩ := hd
  subst hprogram
  obtain rfl : head = head' := Except.ok.inj (hhead.symm.trans hhead')
  have hids := (head_reachable h hhead).coherent.ledger.attempts.ids
  obtain rfl : attempt = attempt' :=
    List.inj_on_of_nodup_map hids hmem hmem' (Subtype.ext (hid.trans hattempt))
  rw [hcategory] at hpermitted
  rcases hdead with hlive | hpinned
  · exact hlive hpermitted.2.1
  · exact hpinned hpin

/-- What the store guarantees of the deliveries of a run. -/
structure DispatchFollows (calls : List (Option Call)) : Prop where
  /-- A fence for a reserved operation is issued while its Attempt is ready for it. -/
  ready : ∀ before c after, calls = before ++ c :: after → ∀ operationId,
    (Runs.run nextOrReopen empty before).Issues c operationId →
    ∀ r, (Runs.run nextOrReopen empty before).reservation operationId = some r →
      (Runs.run nextOrReopen empty before).Ready r
  /-- The operation an Attempt was prepared with in a Program without an envelope gets none, and
  no operation with the name of a runtime operation gets one without a reservation. -/
  unreserved : ∀ before c after, calls = before ++ c :: after → ∀ operationId,
    (Runs.run nextOrReopen empty before).Issues c operationId →
    (Runs.run nextOrReopen empty before).reservation operationId = none →
      ¬"runtime:".toList <+: operationId.toList ∧
        operationId ∉ (Runs.run nextOrReopen empty before).unbound
  /-- The runtime operation of an Attempt that ended or was superseded gets no further fence. -/
  dead : ∀ before between c after, calls = before ++ between ++ c :: after →
    ∀ programId attemptId,
      (Runs.run nextOrReopen empty before).Dead programId attemptId →
      ∀ operationId, (Runs.run nextOrReopen empty (before ++ between)).RuntimeOf
        programId attemptId operationId →
      ¬(Runs.run nextOrReopen empty (before ++ between)).Issues c operationId

/-- **Dispatch** follows the life of the Attempt, in every run. -/
theorem dispatch_follows (calls : List (Option Call)) : DispatchFollows calls := by
  refine ⟨fun before c after _ operationId hissues r hr => next_ready hissues hr,
    fun before c after _ operationId hissues hr => ?_, ?_⟩
  · have hplain := next_deliverable hissues
    unfold Deliverable at hplain
    rwa [hr] at hplain
  rintro before between c after - programId attemptId hdead operationId
    ⟨r, hr, hprogram, hattempt, hcategory⟩ hissues
  have hagree := agreeing_run before
  have hlater : (Runs.run nextOrReopen empty (before ++ between)).Dead programId
      attemptId := by
    rw [Runs.run_append]
    exact hdead.continues hagree (continues_run hagree between)
  exact hlater.not_ready (agreeing_run _) hprogram hattempt hcategory (next_ready hissues hr)

end Store

end CreatidyKernel
