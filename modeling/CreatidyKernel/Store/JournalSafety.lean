import Mathlib.Tactic
import CreatidyKernel.Store.Journal

set_option relaxedAutoImplicit false
set_option autoImplicit false

/-!
# Safety of the operation journal

However the calls of the journal interleave, an operation keeps its identity, its fences are
issued one after another, each only after the previous lease ended and the last lookup at the
previous fence permits a retry, and what the remote domain accepted is recorded once and for
good.

The argument has three parts. One inversion lemma for each transaction says everything it can
do. `Journal.Coherent` relates each operation row to its trail of append-only rows, and every
call preserves it. `Operation.Evolves` says how one row may change, and every call respects it.

## Main definitions

* `Operation.Traced`, `Journal.Coherent` — the invariant.
* `Operation.Evolves` — the changes a row can undergo.
* `Journal.Safe` — what holds of the journal after a run.

## Main results

* `Journal.next_coherent`, `Journal.next_evolves` — the step lemmas.
* `Journal.journal_safe` — every run is safe.
-/

namespace CreatidyKernel

open Checked Runs

namespace Journal

variable [Sha256]

/-! ## What a transaction does -/

omit [Sha256] in
theorem operation_eq_ok {j : Journal} {operationId : String} {o : Operation}
    (h : j.operation operationId = .ok o) : j.find operationId = some o := by
  exact lookup_eq_ok.1 (check_bind_eq_ok.1 h).2

omit [Sha256] in
theorem mem_of_find {j : Journal} {operationId : String} {o : Operation}
    (h : j.find operationId = some o) : o ∈ j.operations ∧ o.operationId = operationId :=
  Rows.mem_of_find h

/-- The row a fresh intent inserts. -/
def freshOperation (operationId effectKey : String) (request : EffectRequest) : Operation :=
  ⟨operationId, effectKey, request.json, Sha256.hexdigest request.json, 0, none, .intent, none, none⟩

/-- An intent finds its own row or inserts a row under a fresh id and effect key. -/
theorem insertIntent_cases {j j' : Journal} {operationId effectKey : String}
    {request : EffectRequest} {allow : Bool}
    (h : j.insertIntent operationId effectKey request allow = .ok j') :
    (j' = j ∧ ∃ o ∈ j.operations, o.operationId = operationId ∧ o.effectKey = effectKey ∧
        o.requestDigest = Sha256.hexdigest request.json) ∨
      ((∀ o ∈ j.operations, o.operationId ≠ operationId ∧ o.effectKey ≠ effectKey) ∧
        j' = { j with
          operations := j.operations ++ [freshOperation operationId effectKey request]
          outbox := j.outbox ++ [operationId] }) := by
  rw [insertIntent] at h
  split at h
  · next hnone =>
    refine .inr ⟨fun o ho => ?_, (Except.ok.inj h).symm⟩
    have := (List.filter_eq_nil_iff.1 hnone) o ho
    simpa [not_or] using this
  · next hsome =>
    obtain ⟨-, h⟩ := check_bind_eq_ok.1 h
    obtain ⟨⟨-, hsame⟩, h⟩ := check_bind_eq_ok.1 h
    obtain ⟨o, ho⟩ := List.exists_mem_of_ne_nil _ hsome
    exact .inl ⟨(pure_eq_ok.1 h).symm, o, List.mem_of_mem_filter ho, hsame o ho⟩

theorem intent_cases {j j' : Journal} {operationId effectKey : String} {request : EffectRequest}
    {o : Operation} (h : j.intent operationId effectKey request = .ok (o, j')) :
    j' = j ∨
      ((∀ o ∈ j.operations, o.operationId ≠ operationId ∧ o.effectKey ≠ effectKey) ∧
        j' = { j with
          operations := j.operations ++ [freshOperation operationId effectKey request]
          outbox := j.outbox ++ [operationId] }) := by
  obtain ⟨-, h⟩ := check_bind_eq_ok.1 h
  obtain ⟨-, h⟩ := check_bind_eq_ok.1 h
  obtain ⟨k, hk, h⟩ := bind_eq_ok.1 h
  obtain ⟨_, -, h⟩ := bind_eq_ok.1 h
  obtain ⟨-, rfl⟩ := Prod.mk.inj (pure_eq_ok.1 h)
  exact (insertIntent_cases hk).imp And.left id

/-- The row after a claim at a time. -/
def claimed (o : Operation) (until_ : ℤ) : Operation :=
  { o with
    fence := o.fence + 1, leaseUntil := some until_, status := .dispatched, retryProof := none }

omit [Sha256] in
/-- A claim issues the next fence of an operation without an outcome, whose lease is over and
whose delivery, if any, was reconciled. -/
theorem claim_cases {j j' : Journal} {operationId : String} {now leaseSeconds : ℤ} {n : ℕ}
    (h : j.claim operationId now leaseSeconds = .ok (n, j')) :
    ∃ o, j.find operationId = some o ∧ n = o.fence + 1 ∧ (∀ until_ ∈ o.leaseUntil, until_ ≤ now) ∧
      ¬o.status.Outcome ∧ (j.attempts operationId = 0 ∨ o.retryProof ≠ none) ∧
      j' = { j with
        operations := Rows.update Operation.operationId j.operations
          (claimed o (now + leaseSeconds))
        deliveries := j.deliveries ++ [⟨operationId, o.fence + 1, now, now + leaseSeconds⟩] } := by
  obtain ⟨-, h⟩ := check_bind_eq_ok.1 h
  obtain ⟨o, ho, h⟩ := bind_eq_ok.1 h
  obtain ⟨-, h⟩ := check_bind_eq_ok.1 h
  obtain ⟨-, h⟩ := check_bind_eq_ok.1 h
  obtain ⟨hlease, h⟩ := check_bind_eq_ok.1 h
  obtain ⟨hstatus, h⟩ := check_bind_eq_ok.1 h
  obtain ⟨hproof, h⟩ := check_bind_eq_ok.1 h
  obtain ⟨rfl, rfl⟩ := Prod.mk.inj (pure_eq_ok.1 h)
  exact ⟨o, operation_eq_ok ho, rfl, hlease, hstatus, hproof, rfl⟩

omit [Sha256] in
/-- A transport report touches only the transports. -/
theorem recordTransport_cases {j j' : Journal} {operationId : String} {fence : ℕ}
    {succeeded : Bool} {u : Unit} (h : j.recordTransport operationId fence succeeded = .ok (u, j')) :
    ∃ transports, j' = { j with transports := transports } := by
  obtain ⟨o, -, h⟩ := bind_eq_ok.1 h
  obtain ⟨-, h⟩ := check_bind_eq_ok.1 h
  split at h
  · obtain ⟨-, h⟩ := check_bind_eq_ok.1 h
    exact ⟨j.transports, (Prod.mk.inj (pure_eq_ok.1 h)).2.symm⟩
  · exact ⟨_, (Prod.mk.inj (pure_eq_ok.1 h)).2.symm⟩

/-- The row after an observation. -/
def observed (o : Operation) (kind : ObservationKind) (reference : Option String) : Operation :=
  { o with
    status := nextStatus o kind
    acceptedReference := o.acceptedReference.or (if kind = .accepted then reference else none) }

omit [Sha256] in
/-- An observation is a replay, or an allowed progress of an operation at its current fence that
is not reconciled. -/
theorem observe_cases {j j' : Journal} {operationId : String} {fence : ℕ} {observationId : String}
    {kind : ObservationKind} {reference : Option String} {o' : Operation}
    (h : j.observe operationId fence observationId kind reference = .ok (o', j')) :
    j' = j ∨ ∃ o, j.find operationId = some o ∧ o.fence = fence ∧ j.attempts operationId ≠ 0 ∧
      o.retryProof = none ∧ (kind = .accepted → reference ≠ none) ∧
      checkProgress o kind reference = .ok () ∧
      j' = { j with
        operations := Rows.update Operation.operationId j.operations (observed o kind reference)
        observations := j.observations ++
          [⟨observationId, operationId, fence, kind, reference⟩] } := by
  obtain ⟨-, h⟩ := check_bind_eq_ok.1 h
  obtain ⟨href, h⟩ := check_bind_eq_ok.1 h
  obtain ⟨o, ho, h⟩ := bind_eq_ok.1 h
  obtain ⟨hfence, h⟩ := check_bind_eq_ok.1 h
  obtain ⟨hproof, h⟩ := check_bind_eq_ok.1 h
  split at h
  · obtain ⟨-, h⟩ := check_bind_eq_ok.1 h
    exact .inl (Prod.mk.inj (pure_eq_ok.1 h)).2.symm
  · obtain ⟨_, hprogress, h⟩ := bind_eq_ok.1 h
    refine .inr ⟨o, operation_eq_ok ho, hfence.1, hfence.2, hproof, fun hk hn => ?_, hprogress,
      (Prod.mk.inj (pure_eq_ok.1 h)).2.symm⟩
    obtain ⟨r, hr, -⟩ := href (.inl hk)
    rw [hn] at hr
    exact absurd hr (by simp)

/-- The row after a reconciliation. -/
def reconciled (o : Operation) (outcome : Outcome) (reference : Option String) : Operation :=
  { o with
    status := if outcome = .found then .accepted else .unknown
    acceptedReference := o.acceptedReference.or (if outcome = .found then reference else none)
    retryProof := outcome.proof
    leaseUntil := none }

end Journal

/-- The reconciliation permits a retry of the operation: the remote domain knows nothing of it,
on authority, or guarantees that the same request has no second effect. -/
def Reconciliation.Permits (r : Reconciliation) (o : Operation) : Prop :=
  (r.outcome = .absent ∧ r.authoritativeAbsence = true) ∨
    (r.outcome = .idempotent ∧ r.matchedDigest = some o.requestDigest.val)

namespace Journal

/-- A reconciliation is of a delivered, unsettled operation at its current fence and after its
lease; its evidence fits its outcome. -/
theorem reconcile_cases {j j' : Journal} {operationId : String} {fence : ℕ} {outcome : Outcome}
    {now : ℤ} {evidence : String} {reference matchedDigest : Option String}
    {authoritativeAbsence : Bool} {o' : Operation}
    (h : j.reconcile operationId fence outcome now evidence reference matchedDigest
      authoritativeAbsence = .ok (o', j')) :
    ∃ o, j.find operationId = some o ∧ o.fence = fence ∧ j.attempts operationId ≠ 0 ∧
      (o.status = .dispatched ∨ o.status = .unknown) ∧ (∀ until_ ∈ o.leaseUntil, until_ ≤ now) ∧
      (outcome = .found → reference ≠ none ∧
        (o.acceptedReference = none ∨ o.acceptedReference = reference)) ∧
      (∀ p, outcome.proof = some p →
        Reconciliation.Permits ⟨operationId, fence, outcome, reference, evidence, matchedDigest,
          authoritativeAbsence⟩ o) ∧
      j' = { j with
        operations := Rows.update Operation.operationId j.operations
          (reconciled o outcome reference)
        reconciliations := j.reconciliations ++ [⟨operationId, fence, outcome, reference, evidence,
          matchedDigest, authoritativeAbsence⟩] } := by
  obtain ⟨-, h⟩ := check_bind_eq_ok.1 h
  obtain ⟨o, ho, h⟩ := bind_eq_ok.1 h
  obtain ⟨hfence, h⟩ := check_bind_eq_ok.1 h
  obtain ⟨hlease, h⟩ := check_bind_eq_ok.1 h
  obtain ⟨hdigest, h⟩ := check_bind_eq_ok.1 h
  obtain ⟨habsent, h⟩ := check_bind_eq_ok.1 h
  obtain ⟨hfound, h⟩ := check_bind_eq_ok.1 h
  obtain ⟨-, h⟩ := check_bind_eq_ok.1 h
  refine ⟨o, operation_eq_ok ho, hfence.1, hfence.2.1, hfence.2.2, hlease, fun hf => ⟨?_, (hfound hf).2⟩,
    fun p hp => ?_, (Prod.mk.inj (pure_eq_ok.1 h)).2.symm⟩
  · rintro rfl
    obtain ⟨r, hr, -⟩ := (hfound hf).1
    exact absurd hr (by simp)
  · cases outcome with
    | absent => exact .inl ⟨rfl, habsent rfl⟩
    | idempotent => exact .inr ⟨rfl, hdigest (.inr rfl)⟩
    | found => cases hp
    | unknown => cases hp

end Journal

/-! ## The invariant -/

/-- An operation row agrees with what the append-only tables say about it. -/
structure Operation.Traced (o : Operation) (t : Journal.Trail) : Prop where
  /-- The fences were issued as 1, 2, 3, …, the last being the row's. -/
  fences : t.deliveries.map Delivery.fence = List.range' 1 o.fence
  accepted : o.acceptedReference ≠ none ↔ o.status.Accepted
  undelivered : o.fence = 0 → o.retryProof = none
  /-- A retry proof is that of the last reconciliation at the current fence. -/
  proof : ∀ p, o.retryProof = some p →
    o.leaseUntil = none ∧ ∃ r, t.latest o.fence = some r ∧ r.Permits o
  reconciled : ∀ r ∈ t.reconciliations, r.fence ≤ o.fence
  /-- Every acceptance on record names the accepted reference. -/
  observed : ∀ x ∈ t.observations, x.kind = .accepted →
    ∃ r, o.acceptedReference = some r ∧ x.reference = some r
  found : ∀ x ∈ t.reconciliations, x.outcome = .found →
    ∃ r, o.acceptedReference = some r ∧ x.reference = some r

/-- The tables of a journal agree. -/
structure Journal.Coherent [Sha256] (j : Journal) : Prop where
  ids : (j.operations.map Operation.operationId).Nodup
  effects : (j.operations.map Operation.effectKey).Nodup
  digests : ∀ o ∈ j.operations, o.requestDigest = Sha256.hexdigest o.requestJson
  uncited : ∀ operationId, j.find operationId = none → j.trail operationId = ⟨[], [], []⟩
  traced : ∀ o ∈ j.operations, o.Traced (j.trail o.operationId)

namespace Journal

variable [Sha256]

theorem empty_coherent : empty.Coherent :=
  ⟨List.nodup_nil, List.nodup_nil, fun _ h => absurd h (List.not_mem_nil), fun _ _ => rfl,
    fun _ h => absurd h (List.not_mem_nil)⟩

/-- A fresh intent keeps the tables in agreement. -/
theorem Coherent.insert {j : Journal} (hj : j.Coherent) {operationId effectKey : String}
    {request : EffectRequest}
    (hfresh : ∀ o ∈ j.operations, o.operationId ≠ operationId ∧ o.effectKey ≠ effectKey) :
    Coherent { j with
      operations := j.operations ++ [freshOperation operationId effectKey request]
      outbox := j.outbox ++ [operationId] } := by
  have hnone : j.find operationId = none :=
    Rows.find_eq_none_iff.2 fun o ho => (hfresh o ho).1
  refine ⟨?_, ?_, ?_, fun i hi => hj.uncited i ?_, ?_⟩
  · rw [List.map_append]
    refine hj.ids.append (List.nodup_singleton _) (List.disjoint_singleton.2 fun hmem => ?_)
    obtain ⟨o, ho, hid⟩ := List.mem_map.1 hmem
    exact (hfresh o ho).1 hid
  · rw [List.map_append]
    refine hj.effects.append (List.nodup_singleton _) (List.disjoint_singleton.2 fun hmem => ?_)
    obtain ⟨o, ho, hid⟩ := List.mem_map.1 hmem
    exact (hfresh o ho).2 hid
  · intro o ho
    rcases List.mem_append.1 ho with ho | ho
    · exact hj.digests o ho
    · rw [List.mem_singleton.1 ho]
      rfl
  · have h := Rows.find_eq_none_iff.1 hi
    exact Rows.find_eq_none_iff.2 fun o ho => h o (List.mem_append_left _ ho)
  · intro o ho
    rcases List.mem_append.1 ho with ho | ho
    · exact hj.traced o ho
    · -- nothing is on record about a fresh id
      rw [List.mem_singleton.1 ho]
      have htrail : Journal.trail { j with
          operations := j.operations ++ [freshOperation operationId effectKey request]
          outbox := j.outbox ++ [operationId] } operationId = ⟨[], [], []⟩ :=
        hj.uncited operationId hnone
      show (freshOperation operationId effectKey request).Traced (Journal.trail _ operationId)
      rw [htrail]
      refine ⟨rfl, ?_, fun _ => rfl, fun p hp => absurd hp (by simp [freshOperation]), by simp,
        by simp, by simp⟩
      simp [freshOperation, OperationStatus.Accepted]

/-- Replacing one row keeps the tables in agreement when the new row has the identity of the old
one, agrees with its own trail, and no other trail changed. -/
theorem Coherent.update {j j' : Journal} (hj : j.Coherent) {o : Operation}
    (ho : o ∈ j.operations) (o' : Operation) (hid : o'.operationId = o.operationId)
    (heffect : o'.effectKey = o.effectKey) (hjson : o'.requestJson = o.requestJson)
    (hdigest : o'.requestDigest = o.requestDigest)
    (hops : j'.operations = Rows.update Operation.operationId j.operations o')
    (htrail : ∀ i, i ≠ o.operationId → j'.trail i = j.trail i)
    (htraced : o'.Traced (j'.trail o.operationId)) : j'.Coherent := by
  have hold : ∃ r ∈ j.operations, Operation.operationId r = Operation.operationId o' :=
    ⟨o, ho, hid.symm⟩
  refine ⟨?_, ?_, ?_, fun i hi => ?_, ?_⟩
  · rw [hops, Rows.map_key_update]
    exact hj.ids
  · rw [hops, Rows.map_column_update hj.ids ho hid.symm heffect.symm]
    exact hj.effects
  · intro x hx
    rw [hops] at hx
    rcases (Rows.mem_update hold).1 hx with rfl | ⟨hx, -⟩
    · rw [hdigest, hjson]
      exact hj.digests o ho
    · exact hj.digests x hx
  · rw [find, hops, Rows.find_update] at hi
    by_cases hio : i = o'.operationId
    · rw [if_pos hio, hio, hid] at hi
      rw [Rows.find_of_mem hj.ids ho] at hi
      cases hi
    · rw [if_neg hio] at hi
      rw [htrail i (by rwa [hid] at hio)]
      exact hj.uncited i hi
  · intro x hx
    rw [hops] at hx
    rcases (Rows.mem_update hold).1 hx with rfl | ⟨hx, hne⟩
    · rw [hid]
      exact htraced
    · rw [htrail _ (by rwa [hid] at hne)]
      exact hj.traced x hx

/-! ## The step lemmas -/

omit [Sha256] in
/-- What `checkProgress` establishes. -/
theorem checkProgress_eq_ok {o : Operation} {kind : ObservationKind} {reference : Option String}
    (h : checkProgress o kind reference = .ok ()) :
    (o.status ≠ .terminal ∧ o.status ≠ .rejected) ∧
      (kind = .rejected → ¬o.status.Accepted) ∧
      (kind = .running ∨ kind = .waiting ∨ kind = .terminal → o.acceptedReference ≠ none) ∧
      (kind = .accepted → o.acceptedReference = none ∨ o.acceptedReference = reference) := by
  obtain ⟨⟨hfinal, hregress⟩, h⟩ := check_bind_eq_ok.1 h
  obtain ⟨hexecution, h⟩ := check_bind_eq_ok.1 h
  obtain ⟨-, h⟩ := check_bind_eq_ok.1 h
  obtain ⟨haccepted, -⟩ := check_bind_eq_ok.1 h
  rw [not_or] at hfinal
  refine ⟨hfinal, fun hk ha => ?_, hexecution, haccepted⟩
  rcases ha with ha | ha | ha | ha
  · exact hregress ⟨.inl ha, hk⟩
  · exact hregress ⟨.inr (.inl ha), hk⟩
  · exact hregress ⟨.inr (.inr ha), hk⟩
  · exact hfinal.1 ha

omit [Sha256] in
/-- The status written by an allowed observation is accepted exactly when a reference is on the
row. -/
theorem observed_accepted {o : Operation} {t : Trail} (ho : o.Traced t) {kind : ObservationKind}
    {reference : Option String} (href : kind = .accepted → reference ≠ none)
    (h : checkProgress o kind reference = .ok ()) :
    (observed o kind reference).acceptedReference ≠ none ↔
      (observed o kind reference).status.Accepted := by
  obtain ⟨⟨hterminal, hrejected⟩, hregress, hexecution, -⟩ := checkProgress_eq_ok h
  cases kind with
  | accepted =>
    have := href rfl
    cases hr : o.acceptedReference <;>
      simp [observed, nextStatus, ObservationKind.status, OperationStatus.Accepted, hr, this]
  | rejected =>
    have := mt ho.accepted.1 (hregress rfl)
    simp [observed, nextStatus, ObservationKind.status, OperationStatus.Accepted] at this ⊢
    exact this
  | running =>
    have := hexecution (.inl rfl)
    simpa [observed, nextStatus, ObservationKind.status, OperationStatus.Accepted] using this
  | waiting =>
    have := hexecution (.inr (.inl rfl))
    simpa [observed, nextStatus, ObservationKind.status, OperationStatus.Accepted] using this
  | terminal =>
    have := hexecution (.inr (.inr rfl))
    simpa [observed, nextStatus, ObservationKind.status, OperationStatus.Accepted] using this
  | unknown =>
    -- domain progress is kept, and nothing else carries a reference
    have := ho.accepted
    cases hs : o.status <;>
      simp_all [observed, nextStatus, ObservationKind.status, OperationStatus.Accepted]

omit [Sha256] in
theorem trail_deliveries (j : Journal) (d : Delivery) (operations : List Operation) (i : String) :
    Journal.trail { j with operations := operations, deliveries := j.deliveries ++ [d] } i =
      if i = d.operationId then { j.trail i with deliveries := (j.trail i).deliveries ++ [d] }
      else j.trail i := by
  by_cases h : i = d.operationId
  · simp [trail, h]
  · simp [trail, h, Ne.symm h]

omit [Sha256] in
theorem trail_observations (j : Journal) (x : Observation) (operations : List Operation)
    (i : String) :
    Journal.trail { j with operations := operations, observations := j.observations ++ [x] } i =
      if i = x.operationId then { j.trail i with observations := (j.trail i).observations ++ [x] }
      else j.trail i := by
  by_cases h : i = x.operationId
  · simp [trail, h]
  · simp [trail, h, Ne.symm h]

omit [Sha256] in
theorem trail_reconciliations (j : Journal) (r : Reconciliation) (operations : List Operation)
    (i : String) :
    Journal.trail { j with operations := operations, reconciliations := j.reconciliations ++ [r] } i =
      if i = r.operationId then
        { j.trail i with reconciliations := (j.trail i).reconciliations ++ [r] }
      else j.trail i := by
  by_cases h : i = r.operationId
  · simp [trail, h]
  · simp [trail, h, Ne.symm h]

omit [Sha256] in
/-- A claim extends the fences by the next one. -/
theorem Traced.claimed {o : Operation} {t : Trail} (ho : o.Traced t)
    (hout : ¬o.status.Outcome) (id : String) (now until_ : ℤ) :
    (claimed o until_).Traced
      { t with deliveries := t.deliveries ++ [⟨id, o.fence + 1, now, until_⟩] } where
  fences := by
    rw [List.map_append, ho.fences]
    show _ = List.range' 1 (o.fence + 1)
    rw [List.range'_1_concat, Nat.add_comm 1]
    rfl
  accepted := by
    have hnone : ¬o.acceptedReference ≠ none := fun h => hout (.inl (ho.accepted.1 h))
    simpa [Journal.claimed, OperationStatus.Accepted] using hnone
  undelivered := fun h => absurd h (Nat.succ_ne_zero _)
  proof := fun p hp => absurd hp (by simp [Journal.claimed])
  reconciled := fun r hr => (ho.reconciled r hr).trans (Nat.le_succ _)
  observed := ho.observed
  found := ho.found

omit [Sha256] in
/-- An allowed observation agrees with the trail it extends. -/
theorem Traced.observed {o : Operation} {t : Trail} (ho : o.Traced t) {x : Observation}
    (hproof : o.retryProof = none) (href : x.kind = .accepted → x.reference ≠ none)
    (h : checkProgress o x.kind x.reference = .ok ()) :
    (observed o x.kind x.reference).Traced { t with observations := t.observations ++ [x] } where
  fences := ho.fences
  accepted := observed_accepted ho href h
  undelivered := fun _ => hproof
  proof := fun p hp => absurd (hproof.symm.trans hp) (by simp)
  reconciled := ho.reconciled
  observed := by
    intro y hy hk
    rcases List.mem_append.1 hy with hy | hy
    · obtain ⟨r, hr, hyr⟩ := ho.observed y hy hk
      exact ⟨r, by simp [Journal.observed, hr], hyr⟩
    · obtain rfl := List.mem_singleton.1 hy
      obtain ⟨r, hr⟩ := Option.ne_none_iff_exists'.1 (href hk)
      refine ⟨r, ?_, hr⟩
      rcases (checkProgress_eq_ok h).2.2.2 hk with hnone | hsame
      · simp [Journal.observed, hnone, hk, hr]
      · simp [Journal.observed, hsame, hr]
  found := by
    intro y hy hk
    obtain ⟨r, hr, hyr⟩ := ho.found y hy hk
    exact ⟨r, by simp [Journal.observed, hr], hyr⟩

omit [Sha256] in
/-- A reconciliation agrees with the trail it extends. -/
theorem Traced.reconciled {o : Operation} {t : Trail} (ho : o.Traced t) {x : Reconciliation}
    (hfence : o.fence = x.fence) (hpos : o.fence ≠ 0)
    (hstatus : o.status = .dispatched ∨ o.status = .unknown)
    (hfound : x.outcome = .found → x.reference ≠ none)
    (hpermits : ∀ p, x.outcome.proof = some p → x.Permits o) :
    (reconciled o x.outcome x.reference).Traced
      { t with reconciliations := t.reconciliations ++ [x] } := by
  -- an unsettled operation carries no reference
  have hnone : o.acceptedReference = none := by
    by_contra h
    have := ho.accepted.1 h
    rcases hstatus with hs | hs <;> simp [hs, OperationStatus.Accepted] at this
  refine ⟨ho.fences, ?_, fun h => absurd h hpos, fun p hp => ⟨rfl, x, ?_, hpermits p hp⟩, ?_, ?_, ?_⟩
  · by_cases h : x.outcome = .found
    · simp [Journal.reconciled, hnone, h, hfound h, OperationStatus.Accepted]
    · simp [Journal.reconciled, hnone, h, OperationStatus.Accepted]
  · simp [Trail.latest, Journal.reconciled, hfence]
  · intro r hr
    rcases List.mem_append.1 hr with hr | hr
    · exact ho.reconciled r hr
    · rw [List.mem_singleton.1 hr]
      exact hfence.ge
  · intro y hy hk
    obtain ⟨r, hr, -⟩ := ho.observed y hy hk
    rw [hnone] at hr
    cases hr
  · intro y hy hk
    rcases List.mem_append.1 hy with hy | hy
    · obtain ⟨r, hr, -⟩ := ho.found y hy hk
      rw [hnone] at hr
      cases hr
    · obtain rfl := List.mem_singleton.1 hy
      obtain ⟨r, hr⟩ := Option.ne_none_iff_exists'.1 (hfound hk)
      exact ⟨r, by simp [Journal.reconciled, hnone, hk, hr], hr⟩

omit [Sha256] in
theorem attempts_eq {o : Operation} {j : Journal} {operationId : String}
    (ho : o.Traced (j.trail operationId)) : j.attempts operationId = o.fence := by
  rw [attempts, ← List.length_map Delivery.fence, ho.fences, List.length_range']

/-- Every call keeps the tables in agreement. -/
theorem next_coherent (j : Journal) (c : Call) (hj : j.Coherent) : (j.next c).Coherent := by
  cases c with
  | intent operationId effectKey request =>
    refine settle_of hj fun o j' h => ?_
    rcases intent_cases h with rfl | ⟨hfresh, rfl⟩
    · exact hj
    · exact hj.insert hfresh
  | claim operationId now leaseSeconds =>
    refine settle_of hj fun n j' h => ?_
    obtain ⟨o, ho, -, -, hout, -, rfl⟩ := claim_cases h
    obtain ⟨hmem, rfl⟩ := mem_of_find ho
    refine hj.update hmem (claimed o _) rfl rfl rfl rfl rfl (fun i hi => ?_) ?_
    · rw [trail_deliveries, if_neg hi]
    · rw [trail_deliveries, if_pos rfl]
      exact Traced.claimed (hj.traced o hmem) hout _ _ _
  | recordTransport operationId fence succeeded =>
    refine settle_of hj fun u j' h => ?_
    obtain ⟨transports, rfl⟩ := recordTransport_cases h
    exact ⟨hj.ids, hj.effects, hj.digests, hj.uncited, hj.traced⟩
  | observe operationId fence observationId kind reference =>
    refine settle_of hj fun o' j' h => ?_
    rcases observe_cases h with rfl | ⟨o, ho, -, -, hproof, href, hprogress, rfl⟩
    · exact hj
    · obtain ⟨hmem, rfl⟩ := mem_of_find ho
      refine hj.update hmem (observed o _ _) rfl rfl rfl rfl rfl (fun i hi => ?_) ?_
      · rw [trail_observations, if_neg hi]
      · rw [trail_observations, if_pos rfl]
        exact Traced.observed
          (x := ⟨observationId, o.operationId, fence, kind, reference⟩)
          (hj.traced o hmem) hproof href hprogress
  | reconcile operationId fence outcome now evidence reference matchedDigest authoritative =>
    refine settle_of hj fun o' j' h => ?_
    obtain ⟨o, ho, hfence, hattempts, hstatus, -, hfound, hpermits, rfl⟩ := reconcile_cases h
    obtain ⟨hmem, rfl⟩ := mem_of_find ho
    have htraced := hj.traced o hmem
    rw [attempts_eq htraced] at hattempts
    refine hj.update hmem (reconciled o _ _) rfl rfl rfl rfl rfl (fun i hi => ?_) ?_
    · rw [trail_reconciliations, if_neg hi]
    · rw [trail_reconciliations, if_pos rfl]
      exact Traced.reconciled
        (x := ⟨o.operationId, fence, outcome, reference, evidence, matchedDigest, authoritative⟩)
        htraced hfence hattempts hstatus (fun hf => (hfound hf).1) hpermits

/-- The journal of every run agrees with itself. -/
theorem run_coherent (calls : List Call) : (run next empty calls).Coherent :=
  run_invariant next_coherent empty_coherent calls

end Journal

/-! ## How a row may change -/

/-- The changes an operation row can undergo. -/
structure Operation.Evolves (o o' : Operation) : Prop where
  operationId : o'.operationId = o.operationId
  effectKey : o'.effectKey = o.effectKey
  requestJson : o'.requestJson = o.requestJson
  requestDigest : o'.requestDigest = o.requestDigest
  fence : o.fence ≤ o'.fence
  reference : ∀ r, o.acceptedReference = some r → o'.acceptedReference = some r
  /-- An outcome stays one, and no further fence is issued. -/
  outcome : o.status.Outcome → o'.status.Outcome ∧ o'.fence = o.fence

namespace Operation.Evolves

theorem refl (o : Operation) : o.Evolves o :=
  ⟨rfl, rfl, rfl, rfl, le_rfl, fun _ h => h, fun h => ⟨h, rfl⟩⟩

theorem trans {o o' o'' : Operation} (h : o.Evolves o') (h' : o'.Evolves o'') : o.Evolves o'' where
  operationId := h'.operationId.trans h.operationId
  effectKey := h'.effectKey.trans h.effectKey
  requestJson := h'.requestJson.trans h.requestJson
  requestDigest := h'.requestDigest.trans h.requestDigest
  fence := h.fence.trans h'.fence
  reference := fun r hr => h'.reference r (h.reference r hr)
  outcome := fun ho =>
    ⟨(h'.outcome (h.outcome ho).1).1, (h'.outcome (h.outcome ho).1).2.trans (h.outcome ho).2⟩

end Operation.Evolves

namespace Journal

/-- Every row of the first journal is in the second one, evolved. -/
def Evolves (j j' : Journal) : Prop :=
  ∀ o ∈ j.operations, ∃ o' ∈ j'.operations, o.Evolves o'

theorem Evolves.refl (j : Journal) : j.Evolves j := fun o ho => ⟨o, ho, .refl o⟩

theorem Evolves.trans (j j' j'' : Journal) (h : j.Evolves j') (h' : j'.Evolves j'') :
    j.Evolves j'' := by
  intro o ho
  obtain ⟨o', ho', hoo'⟩ := h o ho
  obtain ⟨o'', ho'', hoo''⟩ := h' o' ho'
  exact ⟨o'', ho'', hoo'.trans hoo''⟩

/-- Replacing a row by an evolved one. -/
theorem Evolves.update {j j' : Journal} (hn : (j.operations.map Operation.operationId).Nodup)
    {o o' : Operation} (ho : o ∈ j.operations) (hoo' : o.Evolves o')
    (hops : j'.operations = Rows.update Operation.operationId j.operations o') : j.Evolves j' := by
  have hold : ∃ r ∈ j.operations, Operation.operationId r = Operation.operationId o' :=
    ⟨o, ho, hoo'.operationId.symm⟩
  intro x hx
  rw [hops]
  by_cases h : x.operationId = o'.operationId
  · have hxo : x = o := List.inj_on_of_nodup_map hn hx ho (h.trans hoo'.operationId)
    exact ⟨o', (Rows.mem_update hold).2 (.inl rfl), hxo ▸ hoo'⟩
  · exact ⟨x, (Rows.mem_update hold).2 (.inr ⟨hx, h⟩), .refl x⟩

theorem claimed_evolves {o : Operation} (hout : ¬o.status.Outcome) (until_ : ℤ) :
    o.Evolves (claimed o until_) :=
  ⟨rfl, rfl, rfl, rfl, Nat.le_succ _, fun _ h => h, fun h => absurd h hout⟩

theorem observed_evolves {o : Operation} {kind : ObservationKind} {reference : Option String}
    (h : checkProgress o kind reference = .ok ()) : o.Evolves (observed o kind reference) := by
  obtain ⟨⟨hterminal, hrejected⟩, hregress, -, -⟩ := checkProgress_eq_ok h
  refine ⟨rfl, rfl, rfl, rfl, le_rfl, fun r hr => by simp [observed, hr], fun ho => ⟨?_, rfl⟩⟩
  have haccepted : o.status.Accepted := ho.resolve_right hrejected
  cases kind with
  | rejected => exact absurd haccepted (hregress rfl)
  | unknown =>
    -- an unknown answer leaves domain progress in place
    have : nextStatus o .unknown = o.status := by
      rcases haccepted with hs | hs | hs | hs
      · simp [nextStatus, hs]
      · simp [nextStatus, hs]
      · simp [nextStatus, hs]
      · exact absurd hs hterminal
    show OperationStatus.Outcome (nextStatus o .unknown)
    rw [this]
    exact ho
  | _ => simp [observed, nextStatus, ObservationKind.status, OperationStatus.Outcome,
      OperationStatus.Accepted]

theorem reconciled_evolves {o : Operation} {outcome : Outcome} {reference : Option String}
    (hstatus : o.status = .dispatched ∨ o.status = .unknown) :
    o.Evolves (reconciled o outcome reference) := by
  refine ⟨rfl, rfl, rfl, rfl, le_rfl, fun r hr => by simp [reconciled, hr], fun ho => ?_⟩
  rcases hstatus with hs | hs <;>
    simp [hs, OperationStatus.Outcome, OperationStatus.Accepted] at ho

variable [Sha256]

/-- Every call only evolves the rows there are. -/
theorem next_evolves (j : Journal) (c : Call) (hj : j.Coherent) : j.Evolves (j.next c) := by
  cases c with
  | intent operationId effectKey request =>
    refine settle_of (.refl j) fun o j' h => ?_
    rcases intent_cases h with rfl | ⟨-, rfl⟩
    · exact .refl j'
    · exact fun x hx => ⟨x, List.mem_append_left _ hx, .refl x⟩
  | claim operationId now leaseSeconds =>
    refine settle_of (.refl j) fun n j' h => ?_
    obtain ⟨o, ho, -, -, hout, -, rfl⟩ := claim_cases h
    exact .update hj.ids (mem_of_find ho).1 (claimed_evolves hout _) rfl
  | recordTransport operationId fence succeeded =>
    refine settle_of (.refl j) fun u j' h => ?_
    obtain ⟨transports, rfl⟩ := recordTransport_cases h
    exact fun x hx => ⟨x, hx, .refl x⟩
  | observe operationId fence observationId kind reference =>
    refine settle_of (.refl j) fun o' j' h => ?_
    rcases observe_cases h with rfl | ⟨o, ho, -, -, -, -, hprogress, rfl⟩
    · exact .refl j'
    · exact .update hj.ids (mem_of_find ho).1 (observed_evolves hprogress) rfl
  | reconcile operationId fence outcome now evidence reference matchedDigest authoritative =>
    refine settle_of (.refl j) fun o' j' h => ?_
    obtain ⟨o, ho, -, -, hstatus, -, -, -, rfl⟩ := reconcile_cases h
    exact .update hj.ids (mem_of_find ho).1 (reconciled_evolves hstatus) rfl

/-- A run only evolves the rows there are. -/
theorem run_evolves (j : Journal) (hj : j.Coherent) (calls : List Call) :
    j.Evolves (run next j calls) :=
  run_relation Evolves.refl Evolves.trans next_coherent next_evolves hj calls

/-! ## Leases along a run -/

/-- The call is a committed reconciliation of the operation at the fence, made at or after a
time. -/
def ReconciledFrom (operationId : String) (fence : ℕ) (time : ℤ) (j : Journal) (c : Call) : Prop :=
  ∃ outcome now evidence reference matchedDigest authoritative r,
    c = .reconcile operationId fence outcome now evidence reference matchedDigest authoritative ∧
      time ≤ now ∧
      j.reconcile operationId fence outcome now evidence reference matchedDigest authoritative =
        .ok r

/-- The row holds the lease of its last delivery, or the calls before reconciled that fence once
the lease was over. -/
def Leased (calls : List Call) (j : Journal) (o : Operation) : Prop :=
  o.fence ≠ 0 → ∃ d ∈ (j.trail o.operationId).deliveries, d.fence = o.fence ∧
    (o.leaseUntil = some d.leaseUntil ∨
      (o.leaseUntil = none ∧
        Occurs next (ReconciledFrom o.operationId o.fence d.leaseUntil) empty calls))

/-- Every row accounts for its lease. -/
def Accounted (calls : List Call) (j : Journal) : Prop := ∀ o ∈ j.operations, Leased calls j o

/-- A call that leaves a row and its deliveries in place leaves the account of its lease. -/
theorem Leased.mono {calls : List Call} {c : Call} {j j' : Journal} {o o' : Operation}
    (h : Leased calls j o) (hid : o'.operationId = o.operationId) (hfence : o'.fence = o.fence)
    (hlease : o'.leaseUntil = o.leaseUntil)
    (htrail : (j'.trail o.operationId).deliveries = (j.trail o.operationId).deliveries) :
    Leased (calls ++ [c]) j' o' := by
  intro hpos
  rw [hfence] at hpos ⊢
  obtain ⟨d, hd, hdf, hlast⟩ := h hpos
  rw [hid, hlease, htrail]
  exact ⟨d, hd, hdf, hlast.imp id (And.imp id fun hocc => occurs_concat.2 (.inl hocc))⟩

/-- An update of one row: the new row accounts for its lease, the others are as before. -/
theorem Leased.update {calls : List Call} {c : Call} {j j' : Journal}
    (h : Accounted calls j) {o : Operation} (ho : o ∈ j.operations) (o' : Operation)
    (hid : o'.operationId = o.operationId)
    (hops : j'.operations = Rows.update Operation.operationId j.operations o')
    (htrail : ∀ i, i ≠ o.operationId → j'.trail i = j.trail i)
    (ho' : Leased (calls ++ [c]) j' o') : Accounted (calls ++ [c]) j' := by
  intro x hx
  rw [hops] at hx
  rcases (Rows.mem_update ⟨o, ho, hid.symm⟩).1 hx with rfl | ⟨hx, hne⟩
  · exact ho'
  · exact (h x hx).mono rfl rfl rfl (by rw [htrail _ (hid ▸ hne)])

/-- Along every run each row accounts for its lease. -/
theorem run_accounted (calls : List Call) : Accounted calls (run next empty calls) := by
  refine run_induction (P := Accounted) (s := empty)
    (fun o ho => absurd ho List.not_mem_nil) (fun calls c ih => ?_) calls
  have hj := run_coherent calls
  revert ih hj
  generalize hrun : run next empty calls = j
  intro ih hj
  -- a call that changes nothing about leases
  have hsame : Accounted (calls ++ [c]) j :=
    fun o ho => (ih o ho).mono rfl rfl rfl rfl
  cases c with
  | intent operationId effectKey request =>
    refine settle_of hsame fun o j' h => ?_
    rcases intent_cases h with rfl | ⟨-, rfl⟩
    · exact hsame
    · intro x hx
      rcases List.mem_append.1 hx with hx | hx
      · exact (ih x hx).mono rfl rfl rfl rfl
      · rw [List.mem_singleton.1 hx]
        exact fun hpos => absurd rfl hpos
  | claim operationId now leaseSeconds =>
    refine settle_of hsame fun n j' h => ?_
    obtain ⟨o, ho, -, -, -, -, rfl⟩ := claim_cases h
    obtain ⟨hmem, rfl⟩ := mem_of_find ho
    refine Leased.update ih hmem (claimed o _) rfl rfl (fun i hi => ?_) fun _ => ?_
    · rw [trail_deliveries, if_neg hi]
    · refine ⟨⟨o.operationId, o.fence + 1, now, now + leaseSeconds⟩, ?_, rfl, .inl rfl⟩
      have htrail := trail_deliveries j ⟨o.operationId, o.fence + 1, now, now + leaseSeconds⟩
        (Rows.update Operation.operationId j.operations (claimed o (now + leaseSeconds)))
        o.operationId
      rw [if_pos rfl] at htrail
      show _ ∈ Trail.deliveries (Journal.trail _ o.operationId)
      rw [htrail]
      exact List.mem_append_right _ (List.mem_singleton_self _)
  | recordTransport operationId fence succeeded =>
    refine settle_of hsame fun u j' h => ?_
    obtain ⟨transports, rfl⟩ := recordTransport_cases h
    exact fun x hx => (ih x hx).mono rfl rfl rfl rfl
  | observe operationId fence observationId kind reference =>
    refine settle_of hsame fun o' j' h => ?_
    rcases observe_cases h with rfl | ⟨o, ho, -, -, -, -, -, rfl⟩
    · exact hsame
    · obtain ⟨hmem, rfl⟩ := mem_of_find ho
      refine Leased.update ih hmem (observed o _ _) rfl rfl (fun i hi => ?_)
        ((ih o hmem).mono rfl rfl rfl ?_)
      · rw [trail_observations, if_neg hi]
      · rw [trail_observations, if_pos rfl]
  | reconcile operationId fence outcome now evidence reference matchedDigest authoritative =>
    refine settle_of hsame fun o' j' h => ?_
    obtain ⟨o, ho, hfence, -, -, hlease, -, -, rfl⟩ := reconcile_cases h
    obtain ⟨hmem, rfl⟩ := mem_of_find ho
    refine Leased.update ih hmem (reconciled o _ _) rfl rfl (fun i hi => ?_) fun hpos => ?_
    · rw [trail_reconciliations, if_neg hi]
    · obtain ⟨d, hd, hdf, hlast⟩ := ih o hmem hpos
      refine ⟨d, ?_, hdf, .inr ⟨rfl, ?_⟩⟩
      · rw [trail_reconciliations]
        split <;> exact hd
      · -- the lease was over at this reconciliation, or at an earlier one
        rcases hlast with hheld | ⟨-, hocc⟩
        · subst hrun hfence
          exact occurs_concat.2 (.inr ⟨outcome, now, evidence, reference, matchedDigest,
            authoritative, _, rfl, hlease _ hheld, h⟩)
        · exact occurs_concat.2 (.inl hocc)

/-! ## Safety -/

/-- What holds of the journal after a run. -/
structure Safe (calls : List Call) : Prop where
  /-- Operation ids and effect keys are unique, and the digest is that of the request. -/
  identity : ((run next empty calls).operations.map Operation.operationId).Nodup ∧
    ((run next empty calls).operations.map Operation.effectKey).Nodup ∧
    ∀ o ∈ (run next empty calls).operations, o.requestDigest = Sha256.hexdigest o.requestJson
  /-- Whatever calls follow, every row keeps its identity, its request and its accepted reference. -/
  permanent : ∀ o ∈ (run next empty calls).operations, ∀ calls',
    ∃ o' ∈ (run next (run next empty calls) calls').operations, o.Evolves o'
  /-- The fences of an operation were issued as 1, 2, 3, …. -/
  fences : ∀ o ∈ (run next empty calls).operations,
    ((run next empty calls).trail o.operationId).deliveries.map Delivery.fence =
      List.range' 1 o.fence
  /-- An accepted reference is on the row exactly in the accepted statuses, and every acceptance
  on record names it. -/
  acceptance : ∀ o ∈ (run next empty calls).operations,
    (o.acceptedReference ≠ none ↔ o.status.Accepted) ∧
    (∀ x ∈ (run next empty calls).observations, x.operationId = o.operationId →
      x.kind = .accepted → x.reference ≠ none ∧ x.reference = o.acceptedReference) ∧
    ∀ x ∈ (run next empty calls).reconciliations, x.operationId = o.operationId →
      x.outcome = .found → x.reference ≠ none ∧ x.reference = o.acceptedReference
  /-- After a domain outcome every claim raises, whatever calls come between. -/
  settled : ∀ o ∈ (run next empty calls).operations, o.status.Outcome →
    ∀ calls' now leaseSeconds r,
      (run next (run next empty calls) calls').claim o.operationId now leaseSeconds ≠ .ok r
  /-- A further fence is issued only after the lease of the previous one was over, as a lookup
  found at a time past its end, and when the last lookup at the previous fence permits a retry.
  When the times of the calls do not go back, the claim itself is made past the end. -/
  retries : ∀ operationId now leaseSeconds fence j',
    (run next empty calls).claim operationId now leaseSeconds = .ok (fence + 1, j') → fence ≠ 0 →
      ∃ o r d, (run next empty calls).find operationId = some o ∧ o.fence = fence ∧
        ((run next empty calls).trail operationId).latest fence = some r ∧ r.Permits o ∧
        d ∈ ((run next empty calls).trail operationId).deliveries ∧ d.fence = fence ∧
        Occurs next (ReconciledFrom operationId fence d.leaseUntil) empty calls ∧
        ((calls.filterMap Call.now? ++ [now]).Pairwise (· ≤ ·) → d.leaseUntil ≤ now)

/-- An operation with an outcome cannot be claimed. -/
theorem claim_of_outcome {j : Journal} (hj : j.Coherent) {o : Operation} (ho : o ∈ j.operations)
    (hout : o.status.Outcome) (now leaseSeconds : ℤ) (r : ℕ × Journal) :
    j.claim o.operationId now leaseSeconds ≠ .ok r := by
  obtain ⟨n, j'⟩ := r
  intro h
  obtain ⟨x, hx, -, -, hno, -⟩ := claim_cases h
  have hxo : x = o := Option.some.inj (hx.symm.trans (Rows.find_of_mem hj.ids ho))
  exact hno (hxo ▸ hout)

/-- A time carried by a call of a run does not exceed the next time when times do not go back. -/
theorem le_of_occurs {operationId : String} {fence : ℕ} {time now : ℤ} {calls : List Call}
    (h : Occurs next (ReconciledFrom operationId fence time) empty calls)
    (hmono : (calls.filterMap Call.now? ++ [now]).Pairwise (· ≤ ·)) : time ≤ now := by
  obtain ⟨before, c, after, rfl, _, t, _, _, _, _, _, rfl, hle, -⟩ := h
  refine hle.trans ((List.pairwise_append.1 hmono).2.2 t ?_ now (List.mem_singleton_self _))
  exact List.mem_filterMap.2 ⟨_, List.mem_append_right _ (List.mem_cons_self), rfl⟩

/-- Every run of the journal is safe. -/
theorem journal_safe (calls : List Call) : Safe calls := by
  have hj := run_coherent calls
  refine ⟨⟨hj.ids, hj.effects, hj.digests⟩, fun o ho calls' => run_evolves _ hj calls' o ho,
    fun o ho => (hj.traced o ho).fences, fun o ho => ⟨(hj.traced o ho).accepted, ?_, ?_⟩,
    fun o ho hout calls' now leaseSeconds r => ?_, fun operationId now leaseSeconds fence j' h hpos => ?_⟩
  · intro x hx hid hk
    obtain ⟨r, hr, hxr⟩ := (hj.traced o ho).observed x
      (List.mem_filter.2 ⟨hx, by simpa using hid⟩) hk
    exact ⟨by simp [hxr], hxr.trans hr.symm⟩
  · intro x hx hid hk
    obtain ⟨r, hr, hxr⟩ := (hj.traced o ho).found x
      (List.mem_filter.2 ⟨hx, by simpa using hid⟩) hk
    exact ⟨by simp [hxr], hxr.trans hr.symm⟩
  · obtain ⟨o', ho', hevolves⟩ := run_evolves _ hj calls' o ho
    rw [← hevolves.operationId]
    exact claim_of_outcome (run_invariant next_coherent hj calls') ho' (hevolves.outcome hout).1
      now leaseSeconds r
  · obtain ⟨o, ho, hn, hlease, -, hproof, -⟩ := claim_cases h
    obtain ⟨hmem, rfl⟩ := mem_of_find ho
    obtain rfl : fence = o.fence := Nat.succ.inj hn
    have htraced := hj.traced o hmem
    rw [attempts_eq htraced] at hproof
    obtain ⟨p, hp⟩ := Option.ne_none_iff_exists'.1 (hproof.resolve_left hpos)
    obtain ⟨hreleased, r, hr, hpermits⟩ := htraced.proof p hp
    obtain ⟨d, hd, hdf, hlast⟩ := run_accounted calls o hmem hpos
    have hocc := (hlast.resolve_left (by simp [hreleased])).2
    exact ⟨o, r, d, ho, rfl, hr, hpermits, hd, hdf, hocc, le_of_occurs hocc⟩

end Journal

end CreatidyKernel
