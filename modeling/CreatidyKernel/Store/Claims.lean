import CreatidyKernel.Core.Lineage
import CreatidyKernel.Store.DispatchSafety

set_option relaxedAutoImplicit false
set_option autoImplicit false

/-!
# Claims of work

An Attempt has at most one claim, the generations of the claims increase, and two claims that are
not released are of different work and own no conflicting resources, after every sequence of calls
and of reopenings of the database.

## Main definitions

* `Store.Exclusive` — two claims do not compete.
* `Store.ClaimInv` — the invariant of the claims.

## Main results

* `Store.next_unclaimed` — only `claim_work` takes a claim.
* `Store.invariant_of_unclaimed` — the writes of a call that takes none.
* `Store.claimInv_run` — the invariant holds after every run.
* `Store.claims_exclusive` — what it says of the claims that are read.
-/

namespace CreatidyKernel

open Checked Runs

/-- Conflicts are mutual. -/
theorem ResourceScope.Conflicts.symm {a b : ResourceScope} (h : a.Conflicts b) : b.Conflicts a := by
  obtain ⟨hkind, hkey | ⟨hworkspace, hwithin⟩⟩ := h
  · exact ⟨hkind.symm, .inl hkey.symm⟩
  · exact ⟨hkind.symm, .inr ⟨hkind ▸ hworkspace, hwithin.symm⟩⟩

namespace Store

variable [Sha256] {s s' : Store} {cut : Cut}

/-! ## Calls that take no claim -/

/-- A decision takes no claim. -/
theorem admitDecision_claims {programId : Name} {commandKey : String} {c : DomainCommand}
    {intent : Option Intent} {n : ℕ} {p : Program}
    (h : s.admitDecision cut programId commandKey c intent n = .ok (p, s')) :
    s'.claims = s.claims := by
  rw [admitDecision_frame h]

theorem publishRecords_claims {records : List InertRecord}
    (h : records.foldlM publishRecord s = .ok s') : s'.claims = s.claims := by
  induction records generalizing s with
  | nil =>
    cases h
    rfl
  | cons r records ih =>
    obtain ⟨t, ht, h⟩ := bind_eq_ok.1 h
    refine (ih h).trans ?_
    obtain ⟨_, -, ht⟩ := bind_eq_ok.1 ht
    obtain ⟨journal, -, ht⟩ := bind_eq_ok.1 ht
    cases hr : r.raw with
    | none =>
      simp only [hr, pure_eq_ok] at ht
      rw [← ht]
    | some raw =>
      simp only [hr] at ht
      rw [finalizeArtifact_frame ht]

theorem acceptWorkBudget_claims {approval : Except Failure Unit} {spec : ProgramSpec}
    {commandKey : String} {projectId : Name} {project task : WorkBudgetPolicy}
    {projection : DeadlineProjection} {amendment : Option ApprovedAmendment}
    {records : List InertRecord} {p : Program}
    (h : s.acceptWorkBudget cut approval spec commandKey projectId project task projection
      amendment records = .ok (p, s')) : s'.claims = s.claims := by
  obtain ⟨_, -, h⟩ := bind_eq_ok.1 h
  obtain ⟨_, -, h⟩ := bind_eq_ok.1 h
  obtain ⟨-, h⟩ := check_bind_eq_ok.1 h
  obtain ⟨-, h⟩ := check_bind_eq_ok.1 h
  obtain ⟨-, h⟩ := check_bind_eq_ok.1 h
  obtain ⟨_, -, h⟩ := bind_eq_ok.1 h
  obtain ⟨⟨p', t⟩, ht, h⟩ := bind_eq_ok.1 h
  obtain ⟨-, h⟩ := check_bind_eq_ok.1 h
  obtain ⟨u, hu, h⟩ := bind_eq_ok.1 h
  obtain ⟨v, hv, h⟩ := bind_eq_ok.1 h
  cases pure_eq_ok.1 h
  have haccept : t.claims = s.claims := by
    unfold acceptProgram at ht
    split at ht
    · obtain ⟨-, ht⟩ := check_bind_eq_ok.1 ht
      rw [create_frame ht]
    · obtain ⟨current, -, ht⟩ := bind_eq_ok.1 ht
      split at ht
      · cases pure_eq_ok.1 ht
        rfl
      · cases amendment with
        | none => cases ht
        | some amendment => exact admitDecision_claims ht
  have hconfigure : u.claims = t.claims := by rw [configureBudget_frame hu]
  exact (publishRecords_claims hv).trans (hconfigure.trans haccept)

theorem budgetedIntent_claims {programId : Name} {attemptId : String} {category : WorkKind}
    {intent : Intent} {n : ℕ} {o : Operation}
    (h : s.budgetedIntent cut programId attemptId category intent n = .ok (o, s')) :
    s'.claims = s.claims := by
  obtain ⟨_, -, h⟩ := bind_eq_ok.1 h
  obtain ⟨t, ht, h⟩ := bind_eq_ok.1 h
  obtain ⟨journal, -, h⟩ := bind_eq_ok.1 h
  have hreserve : t.claims = s.claims := by rw [reserve_frame ht]
  split at h
  · obtain ⟨_, -, h⟩ := bind_eq_ok.1 h
    obtain ⟨_, -, h⟩ := bind_eq_ok.1 h
    obtain ⟨u, hu, h⟩ := bind_eq_ok.1 h
    obtain ⟨_, -, h⟩ := bind_eq_ok.1 h
    obtain ⟨_, -, h⟩ := bind_eq_ok.1 h
    cases pure_eq_ok.1 h
    rw [bindWorkDispatch_frame hu]
    exact hreserve
  · obtain ⟨_, -, h⟩ := bind_eq_ok.1 h
    cases pure_eq_ok.1 h
    exact hreserve

theorem authorizeClaimPublication_claims {claim : WorkClaim} {owner : Name} {intent : Intent}
    {o : Operation} (h : s.authorizeClaimPublication cut claim owner intent = .ok (o, s')) :
    s'.claims = s.claims := by
  obtain ⟨_, -, h⟩ := bind_eq_ok.1 h
  obtain ⟨_, -, h⟩ := bind_eq_ok.1 h
  obtain ⟨-, h⟩ := check_bind_eq_ok.1 h
  obtain ⟨_, -, h⟩ := bind_eq_ok.1 h
  obtain ⟨t, ht, h⟩ := bind_eq_ok.1 h
  obtain ⟨journal, -, h⟩ := bind_eq_ok.1 h
  obtain ⟨u, hu, h⟩ := bind_eq_ok.1 h
  obtain ⟨_, -, h⟩ := bind_eq_ok.1 h
  obtain ⟨_, -, h⟩ := bind_eq_ok.1 h
  cases pure_eq_ok.1 h
  have hreserve : t.claims = s.claims := by rw [reserve_frame ht]
  rw [bindWorkDispatch_frame hu]
  exact hreserve

theorem renewWorkClaim_claims {commandKey : String} {claim : WorkClaim} {leaseSeconds n : ℕ}
    (h : s.renewWorkClaim cut commandKey claim leaseSeconds = .ok (n, s')) :
    s'.claims = s.claims := by
  obtain ⟨-, h⟩ := check_bind_eq_ok.1 h
  cases hp : Rows.find RenewalRecord.command s.renewals commandKey with
  | some previous =>
    simp only [hp] at h
    obtain ⟨-, h⟩ := check_bind_eq_ok.1 h
    obtain ⟨_, -, h⟩ := bind_eq_ok.1 h
    cases pure_eq_ok.1 h
    rfl
  | none =>
    simp only [hp] at h
    obtain ⟨_, -, h⟩ := bind_eq_ok.1 h
    obtain ⟨_, -, h⟩ := bind_eq_ok.1 h
    obtain ⟨binding, -, h⟩ := bind_eq_ok.1 h
    cases binding with
    | none => cases h
    | some binding =>
      obtain ⟨rows, -, h⟩ := bind_eq_ok.1 h
      cases pure_eq_ok.1 h
      rfl

theorem claimOperation_claims {operationId : String} {now leaseSeconds : ℤ}
    {ownership : Option WorkClaim} {fence : ℕ}
    (h : s.claimOperation cut operationId now leaseSeconds ownership = .ok (fence, s')) :
    s'.claims = s.claims := by
  obtain ⟨-, h⟩ := check_bind_eq_ok.1 h
  obtain ⟨operation, -, h⟩ := bind_eq_ok.1 h
  cases hr : s.reservation operationId with
  | none =>
    simp only [hr] at h
    obtain ⟨-, h⟩ := check_bind_eq_ok.1 h
    obtain ⟨-, h⟩ := check_bind_eq_ok.1 h
    obtain ⟨⟨fence', journal⟩, -, h⟩ := bind_eq_ok.1 h
    cases pure_eq_ok.1 h
    rfl
  | some r =>
    simp only [hr] at h
    obtain ⟨now', -, h⟩ := bind_eq_ok.1 h
    obtain ⟨_, -, h⟩ := bind_eq_ok.1 h
    obtain ⟨t, ht, h⟩ := bind_eq_ok.1 h
    obtain ⟨⟨fence', journal⟩, -, h⟩ := bind_eq_ok.1 h
    cases pure_eq_ok.1 h
    show t.claims = s.claims
    unfold reserveRetry at ht
    split at ht
    · cases ht
      rfl
    · rw [reserve_frame ht]

/-- Only `claim_work` takes a claim. -/
theorem next_unclaimed {c : Call} (hc : ∀ cut q, c ≠ .claimWork cut q) :
    (s.next c).claims = s.claims := by
  have settle {α : Type} {r : Except Failure (α × Store)}
      (h : ∀ a s', r = .ok (a, s') → s'.claims = s.claims) : (settle s r).claims = s.claims :=
    settle_of (P := fun t : Store => t.claims = s.claims) rfl h
  cases c with
  | create spec commandKey => exact settle fun _ _ h => by rw [create_frame h]
  | admitCommand cut programId commandKey c intent =>
    refine settle fun _ _ h => ?_
    obtain ⟨_, -, h⟩ := bind_eq_ok.1 h
    exact admitDecision_claims h
  | configureWorkBudget programId projectId project task projection =>
    refine settle fun _ _ h => ?_
    obtain ⟨-, h⟩ := check_bind_eq_ok.1 h
    obtain ⟨t, ht, h⟩ := bind_eq_ok.1 h
    cases pure_eq_ok.1 h
    rw [configureBudget_frame ht]
  | acceptWorkBudget => exact settle fun _ _ h => acceptWorkBudget_claims h
  | revokeWorkBudget programId evidence expectedRevision =>
    refine settle fun _ _ h => ?_
    obtain ⟨_, -, h⟩ := bind_eq_ok.1 h
    obtain ⟨_, -, h⟩ := bind_eq_ok.1 h
    cases pure_eq_ok.1 h
    unfold revoke
    split <;> rfl
  | stopOrdinaryProgram cut programId commandKey actor evidence expectedRevision =>
    refine settle fun _ _ h => ?_
    obtain ⟨_, -, h⟩ := bind_eq_ok.1 h
    obtain ⟨_, -, h⟩ := bind_eq_ok.1 h
    obtain ⟨head, -, h⟩ := bind_eq_ok.1 h
    obtain ⟨-, h⟩ := check_bind_eq_ok.1 h
    obtain ⟨⟨p', t⟩, ht, h⟩ := bind_eq_ok.1 h
    cases pure_eq_ok.1 h
    have hcancel : t.claims = s.claims := by
      unfold cancelOpen at ht
      split at ht
      · cases ht
        rfl
      · exact admitDecision_claims ht
    unfold revoke
    split <;> exact hcancel
  | reserveWork cut programId attemptId operationId category n =>
    refine settle fun _ _ h => ?_
    obtain ⟨t, ht, h⟩ := bind_eq_ok.1 h
    cases pure_eq_ok.1 h
    rw [reserve_frame ht]
  | retryWork cut operationId =>
    refine settle fun _ _ h => ?_
    obtain ⟨x, -, h⟩ := bind_eq_ok.1 h
    obtain ⟨t, ht, h⟩ := bind_eq_ok.1 h
    cases pure_eq_ok.1 h
    rw [reserve_frame ht]
  | budgetedIntent => exact settle fun _ _ h => budgetedIntent_claims h
  | recordWorkCompletion operationId evidence =>
    refine settle fun _ _ h => ?_
    obtain ⟨_, -, h⟩ := bind_eq_ok.1 h
    obtain ⟨r, -, h⟩ := bind_eq_ok.1 h
    obtain ⟨t, ht, h⟩ := bind_eq_ok.1 h
    cases pure_eq_ok.1 h
    rw [recordCompletion_frame ht]
  | recordWorkSettlement cut operationId evidence expectedFence =>
    refine settle fun _ _ h => ?_
    obtain ⟨_, -, h⟩ := bind_eq_ok.1 h
    obtain ⟨r, -, h⟩ := bind_eq_ok.1 h
    obtain ⟨_, -, h⟩ := bind_eq_ok.1 h
    obtain ⟨_, -, h⟩ := bind_eq_ok.1 h
    obtain ⟨_, -, h⟩ := bind_eq_ok.1 h
    obtain ⟨-, h⟩ := check_bind_eq_ok.1 h
    obtain ⟨t, ht, h⟩ := bind_eq_ok.1 h
    cases pure_eq_ok.1 h
    rw [settleOperation_frame, recordSettlementBasis_frame ht]
  | recordRetainedBytes operationId n =>
    exact settle fun _ _ h => by rw [recordRetainedBytes_frame h]
  | recordUsage operationId o => exact settle fun _ _ h => by rw [recordUsage_frame h]
  | finalizeArtifact operationId name data =>
    refine settle fun _ _ h => ?_
    obtain ⟨t, ht, h⟩ := map_eq_ok.1 h
    cases h
    rw [finalizeArtifact_frame ht]
  | claimWork cut q => exact absurd rfl (hc cut q)
  | renewWorkClaim => exact settle fun _ _ h => renewWorkClaim_claims h
  | recordClaimProof cut claim stage source reference workerReport =>
    refine settle fun _ _ h => ?_
    obtain ⟨-, h⟩ := check_bind_eq_ok.1 h
    obtain ⟨_, -, h⟩ := bind_eq_ok.1 h
    obtain ⟨-, h⟩ := check_bind_eq_ok.1 h
    obtain ⟨proofs, -, h⟩ := bind_eq_ok.1 h
    cases pure_eq_ok.1 h
    split
    · rfl
    · rw [settleOperation_frame]
  | releaseClaimResources cut claim owner evidence snapshot =>
    refine settle fun _ _ h => ?_
    obtain ⟨-, h⟩ := check_bind_eq_ok.1 h
    obtain ⟨_, -, h⟩ := bind_eq_ok.1 h
    obtain ⟨_, -, h⟩ := bind_eq_ok.1 h
    obtain ⟨-, h⟩ := check_bind_eq_ok.1 h
    obtain ⟨_, -, h⟩ := bind_eq_ok.1 h
    obtain ⟨t, ht, h⟩ := bind_eq_ok.1 h
    cases pure_eq_ok.1 h
    cases snapshot with
    | none =>
      cases ht
      rfl
    | some snapshot => rw [finalizeArtifact_frame ht]
  | quarantineWorkClaim cut claim owner evidence =>
    refine settle fun _ _ h => ?_
    obtain ⟨_, -, h⟩ := bind_eq_ok.1 h
    obtain ⟨_, -, h⟩ := bind_eq_ok.1 h
    obtain ⟨_, -, h⟩ := bind_eq_ok.1 h
    cases pure_eq_ok.1 h
    rfl
  | authorizeClaimPublication => exact settle fun _ _ h => authorizeClaimPublication_claims h
  | claimOperation => exact settle fun _ _ h => claimOperation_claims h
  | journal c =>
    show (s.journalCall c).claims = s.claims
    cases c <;> rfl

/-! ## The decision of a claim -/

/-- A decision under a new key records its command. -/
theorem admitDecision_head (hagree : s.aggregates.Agreeing) {programId : Name}
    {commandKey : String} {c : DomainCommand} {intent : Option Intent} {n : ℕ} {p : Program}
    (hn : Rows.find AdmissionRow.commandKey s.aggregates.admissions commandKey = none)
    (h : s.admitDecision cut programId commandKey c intent n = .ok (p, s')) :
    ∃ current, s.loadHead programId = .ok current ∧ current.apply c = .ok p ∧
      s.checkOwnershipCommand cut programId c.request = .ok () ∧
      s'.aggregates.Agreeing ∧ s'.loadHead programId = .ok p ∧
      ∃ t, s.coupleWork cut programId c.request intent n = .ok t ∧
        s'.reservations = t.reservations := by
  obtain ⟨⟨⟩, hk, h⟩ := bind_eq_ok.1 h
  obtain ⟨duplicate, hd, h⟩ := bind_eq_ok.1 h
  rw [Aggregates.duplicateResult_eq_none.2 hn] at hd
  obtain rfl := Except.ok.inj hd
  obtain ⟨current, hc, h⟩ := bind_eq_ok.1 h
  obtain ⟨⟨⟩, ho, h⟩ := bind_eq_ok.1 h
  obtain ⟨next, ha, h⟩ := bind_eq_ok.1 h
  obtain ⟨t, ht, h⟩ := bind_eq_ok.1 h
  obtain ⟨aggregates, hr, h⟩ := bind_eq_ok.1 h
  obtain ⟨u, hi, h⟩ := bind_eq_ok.1 h
  obtain ⟨rfl, rfl⟩ := Prod.mk.inj (pure_eq_ok.1 h)
  have hframe := (coupleWork_writes (R := fun _ _ => True) (U := fun _ _ _ => True)
    (fun _ _ _ _ _ _ => trivial) ht).2
  have hframe' := (admitIntent_writes (R := fun _ _ => True) (U := fun _ _ _ => True) hi).2
  have hta : t.aggregates = s.aggregates := by rw [hframe]
  rw [hta] at hr
  obtain ⟨hagree', hload, -⟩ := hagree.record (check_eq_ok.1 hk) hn hc ha hr
  have hua : u.aggregates = aggregates := by rw [hframe']
  refine ⟨current, hc, ha, ho, hua ▸ hagree', ?_, t, ht, by rw [hframe']⟩
  show u.aggregates.loadHead programId = .ok next
  rw [hua]
  exact hload

/-- A claim that is granted has a new key among the commands as well. -/
theorem claimWork_cases {q : ClaimRequest} {claim : WorkClaim}
    (h : s.claimWork cut q = .ok (claim, s')) :
    s' = s ∨ ∃ t r, Granted s cut q r t ∧
      Rows.find AdmissionRow.commandKey s.aggregates.admissions q.commandKey.val = none ∧
      { t with claims := t.claims ++ [r] }.finalizeArtifact q.intent.operationId
        "ownership-baseline" q.snapshot = .ok s' := by
  rcases claimWork_spec h with rfl | ⟨t, r, hg, hf⟩
  · exact .inl rfl
  · refine .inr ⟨t, r, hg, ?_, hf⟩
    obtain ⟨found, hfound, h⟩ := bind_eq_ok.1 h
    unfold findWorkClaim at hfound
    rw [hg.fresh] at hfound
    obtain rfl := Except.ok.inj hfound
    obtain ⟨-, h⟩ := check_bind_eq_ok.1 h
    obtain ⟨_, -, h⟩ := bind_eq_ok.1 h
    obtain ⟨_, -, h⟩ := bind_eq_ok.1 h
    obtain ⟨_, -, h⟩ := bind_eq_ok.1 h
    obtain ⟨_, -, h⟩ := bind_eq_ok.1 h
    obtain ⟨-, h⟩ := check_bind_eq_ok.1 h
    exact (check_bind_eq_ok.1 h).1

/-! ## Reading a claim -/

/-- A claim that is read is read the same later. -/
theorem decodeWorkClaim_continues (hagree : s'.aggregates.Agreeing) (hc : Continues s s')
    {r : ClaimRecord} {claim : WorkClaim} (h : s.decodeWorkClaim r = .ok claim) :
    s'.decodeWorkClaim r = .ok claim := by
  obtain ⟨head, hhead, h⟩ := bind_eq_ok.1 h
  obtain ⟨attempt, hattempt, h⟩ := bind_eq_ok.1 h
  obtain ⟨hdigest, h⟩ := check_bind_eq_ok.1 h
  obtain rfl := pure_eq_ok.1 h
  obtain ⟨commands, q, hq, hrun⟩ := hc _ _ hhead
  have hfind := lookup_eq_ok.1 hattempt
  have hmem : attempt.spec ∈ q.specs :=
    (Program.run_specs hrun).subset (List.mem_map_of_mem (List.mem_of_find?_eq_some hfind))
  obtain ⟨b, hb, hspec⟩ := List.mem_map.1 hmem
  have hattemptId : attempt.attemptId = r.attempt := by simpa using List.find?_some hfind
  have hid : b.attemptId = r.attempt := by
    rw [Attempt.attemptId, hspec]
    exact hattemptId
  refine bind_of_ok hq (bind_of_ok
    ((head_reachable hagree hq).coherent.attempt_eq_ok.2 ⟨hb, hid⟩) ?_)
  rw [hspec]
  exact bind_of_ok (check_of hdigest) rfl

/-- The Attempt of a claim that is read is on record in the head of its Program. -/
theorem decodeWorkClaim_attempt (hagree : s.aggregates.Agreeing) {r : ClaimRecord}
    {claim : WorkClaim} (h : s.decodeWorkClaim r = .ok claim) {p : Program}
    (hp : s.loadHead r.program = .ok p) :
    claim.attempt ∈ p.specs ∧ claim.attempt.attemptId = r.attempt := by
  obtain ⟨head, hhead, h⟩ := bind_eq_ok.1 h
  obtain rfl := Except.ok.inj (hhead.symm.trans hp)
  obtain ⟨attempt, hattempt, h⟩ := bind_eq_ok.1 h
  obtain ⟨-, h⟩ := check_bind_eq_ok.1 h
  obtain rfl := pure_eq_ok.1 h
  obtain ⟨hmem, hid⟩ := (head_reachable hagree hp).coherent.attempt_eq_ok.1 hattempt
  exact ⟨List.mem_map_of_mem hmem, hid⟩

/-! ## The invariant -/

/-- Two claims, unless one is released, are of different work and own no conflicting resources. -/
def Exclusive (s : Store) (r r' : ClaimRecord) : Prop :=
  r.command ∉ s.releases → r'.command ∉ s.releases → ∀ claim claim',
    s.decodeWorkClaim r = .ok claim → s.decodeWorkClaim r' = .ok claim' →
      ¬(claim.attempt.programId = claim'.attempt.programId ∧
        claim.attempt.workUnitId = claim'.attempt.workUnitId) ∧
      ∀ a ∈ claim.resources, ∀ b ∈ claim'.resources, ¬a.Conflicts b

/-- The invariant of the claims. -/
structure ClaimInv (s : Store) : Prop where
  attempts : (s.claims.map fun r => (r.program, r.attempt)).Nodup
  generations : s.claims.Pairwise fun r r' => r.generation < r'.generation
  decoded : ∀ r ∈ s.claims, ∃ claim, s.decodeWorkClaim r = .ok claim
  exclusive : s.claims.Pairwise s.Exclusive

/-- Two claims stay exclusive while no claim is taken. -/
theorem Exclusive.continues (hagree : s'.aggregates.Agreeing) (hc : Continues s s')
    (hreleases : s.releases ⊆ s'.releases) {r r' : ClaimRecord}
    (hr : ∃ claim, s.decodeWorkClaim r = .ok claim)
    (hr' : ∃ claim, s.decodeWorkClaim r' = .ok claim) (h : s.Exclusive r r') :
    s'.Exclusive r r' := by
  intro hn hn' claim claim' hclaim hclaim'
  obtain ⟨claim₀, h₀⟩ := hr
  obtain ⟨claim₁, h₁⟩ := hr'
  obtain rfl := Except.ok.inj ((decodeWorkClaim_continues hagree hc h₀).symm.trans hclaim)
  obtain rfl := Except.ok.inj ((decodeWorkClaim_continues hagree hc h₁).symm.trans hclaim')
  exact h (fun hm => hn (hreleases hm)) (fun hm => hn' (hreleases hm)) _ _ h₀ h₁

theorem ClaimInv.continues (h : ClaimInv s) (hagree : s'.aggregates.Agreeing)
    (hc : Continues s s') (hclaims : s'.claims = s.claims)
    (hreleases : s.releases ⊆ s'.releases) : ClaimInv s' := by
  refine ⟨hclaims ▸ h.attempts, hclaims ▸ h.generations, ?_, ?_⟩
  · rw [hclaims]
    intro r hr
    obtain ⟨claim, hclaim⟩ := h.decoded r hr
    exact ⟨claim, decodeWorkClaim_continues hagree hc hclaim⟩
  · rw [hclaims]
    exact h.exclusive.imp_of_mem fun hr hr' hex =>
      hex.continues hagree hc hreleases (h.decoded _ hr) (h.decoded _ hr')

omit [Sha256] in
/-- A number above all of a list. -/
theorem lt_foldr_max {l : List ℕ} {n : ℕ} (h : n ∈ l) : n < l.foldr max 0 + 1 := by
  induction l with
  | nil => cases h
  | cons m l ih =>
    rw [List.foldr_cons]
    rcases List.mem_cons.1 h with rfl | h
    · exact Nat.lt_succ_of_le (le_max_left _ _)
    · exact (ih h).trans_le (Nat.succ_le_succ (le_max_right _ _))

/-- Releases are only added. -/
theorem Write.releases_subset {R : Store → Reservation → Prop}
    {U : Store → String → UsageObservation → Prop} (h : Write R U s s') :
    s.releases ⊆ s'.releases := by
  cases h with
  | released claim => exact List.subset_append_left _ _
  | settled operationId evidence => rw [settleOperation_frame]; exact List.Subset.refl _
  | created h => rw [create_frame h]; exact List.Subset.refl _
  | configured h => rw [configureBudget_frame h]; exact List.Subset.refl _
  | qualified _ h => rw [recordSettlementBasis_frame h]; exact List.Subset.refl _
  | retained h => rw [recordRetainedBytes_frame h]; exact List.Subset.refl _
  | used _ h => rw [recordUsage_frame h]; exact List.Subset.refl _
  | finalized h | claimed _ h => rw [finalizeArtifact_frame h]; exact List.Subset.refl _
  | dispatched h => rw [bindWorkDispatch_frame h]; exact List.Subset.refl _
  | recorded | intended | fenced | reported | reserved | revoked | renewed | proved
  | quarantined | unbound => exact List.Subset.refl _

theorem next_releases (c : Call) : s.releases ⊆ (s.next c).releases :=
  invariant_of_writes (P := fun t : Store => s.releases ⊆ t.releases)
    (R := fun _ _ => True) (U := fun _ _ _ => True) (fun _ _ h hw => List.Subset.trans h hw.releases_subset)
    (List.Subset.refl _) (next_writes (fun _ _ _ _ => trivial) fun _ _ _ => trivial)

/-- One write adds claims at most. -/
theorem Write.claims_prefix {R : Store → Reservation → Prop}
    {U : Store → String → UsageObservation → Prop} (h : Write R U s s') :
    s.claims <+: s'.claims := by
  cases h with
  | claimed _ h => rw [finalizeArtifact_frame h]; exact List.prefix_append _ _
  | settled operationId evidence => rw [settleOperation_frame]
  | created h => rw [create_frame h]
  | configured h => rw [configureBudget_frame h]
  | qualified _ h => rw [recordSettlementBasis_frame h]
  | retained h => rw [recordRetainedBytes_frame h]
  | used _ h => rw [recordUsage_frame h]
  | finalized h => rw [finalizeArtifact_frame h]
  | dispatched h => rw [bindWorkDispatch_frame h]
  | recorded | intended | fenced | reported | reserved | revoked | renewed | proved | released
  | quarantined | unbound => exact List.prefix_refl _

/-- An invariant of the writes that take no claim holds after a sequence of writes that took
none. -/
theorem invariant_of_unclaimed {R : Store → Reservation → Prop}
    {U : Store → String → UsageObservation → Prop} {P : Store → Prop}
    (hP : ∀ s s', P s → ClaimInv s → Write R U s s' → s'.claims = s.claims → P s') (hs : P s)
    (hagree : s.aggregates.Agreeing) (h : ClaimInv s) (hw : Writes R U s s')
    (hclaims : s'.claims = s.claims) : P s' ∧ ClaimInv s' := by
  have hgoal : s.claims <+: s'.claims ∧ s'.aggregates.Agreeing ∧
      (s'.claims = s.claims → P s' ∧ ClaimInv s') := by
    clear hclaims
    induction hw with
    | refl => exact ⟨List.prefix_refl _, hagree, fun _ => ⟨hs, h⟩⟩
    | @tail t u _ hw ih =>
      obtain ⟨hgrown, hagree, ih⟩ := ih
      have hstep := hw.claims_prefix
      obtain ⟨hagree', hc⟩ := agreeing_write hagree hw
      refine ⟨hgrown.trans hstep, hagree', fun hclaims => ?_⟩
      have hsame : t.claims = s.claims :=
        (hgrown.eq_of_length_le (hclaims ▸ hstep.length_le)).symm
      obtain ⟨hp, ht⟩ := ih hsame
      have hu : u.claims = t.claims := hclaims.trans hsame.symm
      exact ⟨hP t u hp ht hw hu, ht.continues hagree' hc hu hw.releases_subset⟩
  exact hgoal.2.2 hclaims

/-- A granted claim is of a new Attempt, above every generation, and competes with no claim that
is not released. -/
theorem ClaimInv.grant {t : Store} (h : ClaimInv s) (hagree : s.aggregates.Agreeing)
    (hagree' : s'.aggregates.Agreeing) (hc : Continues s s') {q : ClaimRequest} {r : ClaimRecord}
    (hg : Granted s cut q r t)
    (hn : Rows.find AdmissionRow.commandKey s.aggregates.admissions q.commandKey.val = none)
    (hclaims : s'.claims = s.claims ++ [r]) (hreleases : s'.releases = s.releases)
    (haggregates : s'.aggregates = t.aggregates) : ClaimInv s' := by
  obtain ⟨p, hp⟩ := hg.admitted
  obtain ⟨current, hcurrent, happly, -, -, hload, -⟩ := admitDecision_head hagree hn hp
  have hload' : s'.loadHead q.attempt.programId = .ok p := by
    show s'.aggregates.loadHead _ = _
    rw [haggregates]
    exact hload
  obtain ⟨hspecs, -, -⟩ := Program.prepared_of_apply happly rfl
  obtain ⟨-, hnew⟩ := Program.apply_prepared happly rfl
  obtain ⟨expiresAt, hrecord⟩ := hg.record
  have hprogram : r.program = q.attempt.programId := by rw [hrecord]
  have hattempt : r.attempt = q.attempt.attemptId := by rw [hrecord]
  have hdigest : r.attemptDigest = q.attempt.digest := by rw [hrecord]
  -- the record is read as a claim of the new Attempt
  have hmem : q.attempt ∈ p.specs := by
    rw [hspecs]
    exact List.mem_append_right _ (List.mem_singleton_self _)
  obtain ⟨b, hb, hspec⟩ := List.mem_map.1 hmem
  have hdecode : ∃ claim, s'.decodeWorkClaim r = .ok claim ∧ claim.attempt = q.attempt ∧
      claim.resources = q.resources := by
    refine ⟨⟨r.command, r.claimant, q.attempt, r.generation, r.mode, r.profile, r.resources,
      r.workspaceSubject, r.expiresAt⟩, ?_, rfl, by rw [hrecord]⟩
    unfold decodeWorkClaim
    rw [hprogram]
    refine bind_of_ok hload' (bind_of_ok
      ((head_reachable hagree' hload').coherent.attempt_eq_ok.2 ⟨hb, ?_⟩) ?_)
    · rw [Attempt.attemptId, hspec, hattempt]
    · rw [hspec]
      exact bind_of_ok (check_of hdigest) rfl
  obtain ⟨claim, hclaim, hof, hresources⟩ := hdecode
  have hfree := forM_eq_ok.1 hg.free
  refine ⟨?_, ?_, ?_, ?_⟩
  · rw [hclaims, List.map_append, List.map_singleton]
    refine List.nodup_append'.2 ⟨h.attempts, List.nodup_singleton _, ?_⟩
    rw [List.disjoint_singleton]
    intro hm
    obtain ⟨r', hr', heq⟩ := List.mem_map.1 hm
    obtain ⟨claim', hclaim'⟩ := h.decoded r' hr'
    have hid : r'.program = q.attempt.programId := (congrArg Prod.fst heq).trans hprogram
    obtain ⟨hold, hattempt'⟩ := decodeWorkClaim_attempt hagree hclaim' (hid ▸ hcurrent)
    obtain ⟨a, ha, haspec⟩ := List.mem_map.1 hold
    refine hnew a ha ?_
    rw [Attempt.attemptId, haspec, hattempt', ← hattempt]
    exact congrArg Prod.snd heq
  · rw [hclaims]
    refine List.pairwise_append.2 ⟨h.generations, List.pairwise_singleton _ _, fun r' hr' x hx => ?_⟩
    obtain rfl := List.mem_singleton.1 hx
    rw [hrecord]
    exact lt_foldr_max (List.mem_map_of_mem hr')
  · rw [hclaims]
    intro r' hr'
    rcases List.mem_append.1 hr' with hr' | hr'
    · obtain ⟨claim', hclaim'⟩ := h.decoded r' hr'
      exact ⟨claim', decodeWorkClaim_continues hagree' hc hclaim'⟩
    · obtain rfl := List.mem_singleton.1 hr'
      exact ⟨claim, hclaim⟩
  · rw [hclaims]
    refine List.pairwise_append.2 ⟨h.exclusive.imp_of_mem fun hr hr' hex =>
      hex.continues hagree' hc (hreleases ▸ List.Subset.refl _) (h.decoded _ hr) (h.decoded _ hr'),
      List.pairwise_singleton _ _, fun r' hr' x hx => ?_⟩
    obtain rfl := List.mem_singleton.1 hx
    intro hn' _ claim' claim'' hclaim' hclaim''
    obtain rfl := Except.ok.inj (hclaim.symm.trans hclaim'')
    -- the guard of the decision read the other claim before
    have hchecked := hfree r' hr'
    rw [if_neg (hreleases ▸ hn')] at hchecked
    obtain ⟨other, hother, hchecked⟩ := bind_eq_ok.1 hchecked
    obtain ⟨hwork, hchecked⟩ := check_bind_eq_ok.1 hchecked
    have hconflict := check_eq_ok.1 hchecked
    obtain rfl := Except.ok.inj ((decodeWorkClaim_continues hagree' hc hother).symm.trans hclaim')
    refine ⟨fun hsame => hwork (hof ▸ hsame), fun a ha b hb hab => ?_⟩
    exact hconflict b (hresources ▸ hb) a ha hab.symm

/-- The step: every call and every reopening keeps the invariant. -/
theorem ClaimInv.next (h : ClaimInv s) (hagree : s.aggregates.Agreeing) (c : Option Call) :
    ClaimInv (s.nextOrReopen c) := by
  obtain ⟨hagree', hc⟩ := agreeing_next hagree c
  cases c with
  | none =>
    refine h.continues hagree' hc ?_ ?_
    · exact settle_of (P := fun t : Store => t.claims = s.claims) rfl fun n t hr => by
        obtain ⟨r, -, hr⟩ := map_eq_ok.1 hr
        cases hr
        rfl
    · refine settle_of (P := fun t : Store => s.releases ⊆ t.releases) (List.Subset.refl _)
        fun n t hr => ?_
      obtain ⟨r, -, hr⟩ := map_eq_ok.1 hr
      cases hr
      exact List.Subset.refl _
  | some c =>
    by_cases hclaim : ∃ cut q, c = .claimWork cut q
    · obtain ⟨cut, q, rfl⟩ := hclaim
      cases hwork : s.claimWork cut q with
      | error e =>
        have hnext : s.nextOrReopen (some (.claimWork cut q)) = s := by
          show settle s _ = _
          rw [hwork, settle_error]
        rwa [hnext]
      | ok result =>
        obtain ⟨claim, s'⟩ := result
        have hnext : s.nextOrReopen (some (.claimWork cut q)) = s' := by
          show settle s _ = _
          rw [hwork, settle_ok]
        rw [hnext] at hagree' hc ⊢
        rcases claimWork_cases hwork with rfl | ⟨t, r, hg, hn, hf⟩
        · exact h
        · obtain ⟨p, hp⟩ := hg.admitted
          have hframe := finalizeArtifact_frame hf
          refine h.grant hagree hagree' hc hg hn ?_ ?_ ?_
          · rw [hframe]
            show t.claims ++ [r] = _
            rw [admitDecision_claims hp]
          · rw [hframe]
            show t.releases = _
            rw [admitDecision_frame hp]
          · rw [hframe]
    · refine h.continues hagree' hc (next_unclaimed ?_) (next_releases c)
      rintro cut q rfl
      exact hclaim ⟨cut, q, rfl⟩

/-- The claim of an Attempt can always be read. -/
theorem ClaimInv.attemptWorkClaim (h : ClaimInv s) (programId : Name) (attemptId : String) :
    ∃ claim, s.attemptWorkClaim programId attemptId = .ok claim := by
  unfold Store.attemptWorkClaim
  have hnodup : ((s.claims.filter fun r => r.program = programId ∧ r.attempt.val = attemptId).map
      fun r => (r.program, r.attempt)).Nodup :=
    h.attempts.sublist (List.filter_sublist.map _)
  have hof : ∀ r ∈ s.claims.filter fun r => r.program = programId ∧ r.attempt.val = attemptId,
      r ∈ s.claims ∧ r.program = programId ∧ r.attempt.val = attemptId := fun r hr => by
    obtain ⟨hmem, hid⟩ := List.mem_filter.1 hr
    exact ⟨hmem, of_decide_eq_true hid⟩
  revert hnodup hof
  generalize s.claims.filter _ = rows
  intro hnodup hof
  match rows with
  | [] => exact ⟨none, rfl⟩
  | [r] =>
    obtain ⟨claim, hclaim⟩ := h.decoded r (hof r (List.mem_singleton_self _)).1
    exact ⟨some claim, by show some <$> _ = _; rw [hclaim]; rfl⟩
  | r :: r' :: rest =>
    refine absurd ?_ (List.nodup_cons.1 hnodup).1
    obtain ⟨-, hp, ha⟩ := hof r (by simp)
    obtain ⟨-, hp', ha'⟩ := hof r' (by simp)
    have hsame : (r.program, r.attempt) = (r'.program, r'.attempt) :=
      Prod.ext (hp.trans hp'.symm) (Subtype.ext (ha.trans ha'.symm))
    show (r.program, r.attempt) ∈ _
    rw [hsame]
    exact List.mem_cons_self

end Store

end CreatidyKernel
