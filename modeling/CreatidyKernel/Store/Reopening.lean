import CreatidyKernel.Core.Closure
import CreatidyKernel.Store.JournalSafety

set_option relaxedAutoImplicit false
set_option autoImplicit false

/-!
# Opening the store again

Opening a store validates the operation rows against their receipts, and the rows under the
store's own names for ownership records against the record types it knows. The first check
passes on every journal the calls can write. The second one is about a namespace that nothing
reserves: an intent under such a name leaves a journal that cannot be opened again.

## Main definitions

* `Journal.validateOperation`, `Journal.validateOperationRecords` — the check of the rows.
* `Journal.validateOwnershipRecord`, `Journal.validateOwnershipRecords` — the check of the
  ownership names.
* `Journal.reopen` — both checks, in the order of the constructor of the store.
* `Journal.Receipted` — the invariant: every row has the receipts its columns claim.

## Main results

* `Journal.Coherent.validateOperation` — the invariants imply every condition of the check.
* `Journal.next_receipted` — every call keeps the receipts.
* `Journal.reopens` — the journal of every run passes the first check, and both if no intent
  used a name of ownership records.
* `Journal.reopen_refused` — the run whose journal cannot be opened again.
-/

namespace CreatidyKernel

open Checked Runs

/-! ## The check of the operation rows -/

/-- `value == 1`. -/
def EqualsOne : Json → Prop
  | .int n => n = 1
  | .bool b => b = true
  | .float f => f.val = ['1', '.', '0']
  | _ => False

instance : DecidablePred EqualsOne := fun v => match v with
  | .int n => inferInstanceAs (Decidable (n = 1))
  | .bool b => inferInstanceAs (Decidable (b = true))
  | .float f => inferInstanceAs (Decidable (f.val = _))
  | .null | .str _ | .arr _ | .obj _ => isFalse nofun

/-- The value is a dictionary. -/
def Json.IsObject : Json → Prop
  | .obj _ => True
  | _ => False

instance : DecidablePred Json.IsObject := fun v => match v with
  | .obj _ => isTrue trivial
  | .null | .bool _ | .int _ | .float _ | .str _ | .arr _ => isFalse nofun

/-- The text of a retry proof is that of the outcome it stands for. -/
def RetryProof.outcome : RetryProof → Outcome
  | .absent => .absent
  | .idempotent => .idempotent

/-- The statuses that report an execution. -/
def OperationStatus.Execution (s : OperationStatus) : Prop :=
  s = .running ∨ s = .waiting ∨ s = .terminal

instance (s : OperationStatus) : Decidable s.Execution := inferInstanceAs (Decidable (_ ∨ _ ∨ _))

namespace Journal

/-- A durable receipt names a reference: an acceptance observed, or an effect found. -/
def AcceptedBy (t : Trail) (reference : Option String) : Prop :=
  reference ≠ none ∧
    ((∃ x ∈ t.observations, x.kind = .accepted ∧ x.reference = reference) ∨
      ∃ r ∈ t.reconciliations, r.outcome = .found ∧ r.reference = reference)

instance (t : Trail) (reference : Option String) : Decidable (AcceptedBy t reference) :=
  inferInstanceAs (Decidable (_ ∧ (_ ∨ _)))

variable [Sha256]

/-- The stored request is a versioned dictionary in canonical form, and has its digest. -/
def validateRequest (o : Operation) : Except Failure Unit :=
  let failure : Failure := ⟨.corruptHistory, "operation request is not canonical or digest-valid"⟩
  match loads o.requestJson with
  | some (.obj envelope) =>
    check (SortedSet.ofList (envelope.map Prod.fst) = SortedSet.ofList ["version", "request"] ∧
      (∃ v ∈ envelope.lookup "version", EqualsOne v) ∧
      (∃ v ∈ envelope.lookup "request", v.IsObject) ∧
      dumps (.obj envelope) = o.requestJson ∧
      Sha256.hexdigest o.requestJson = o.requestDigest) failure
  | _ => .error failure

/-- The checks on one row of `operations`. -/
def validateOperation (j : Journal) (o : Operation) : Except Failure Unit := do
  validateRequest o
  let t := j.trail o.operationId
  check (o.operationId ∈ j.outbox) ⟨.corruptHistory, "operation is missing its outbox entry"⟩
  check (o.fence = t.deliveries.length ∧
      (t.deliveries ≠ [] → (t.deliveries.map Delivery.fence).max? = some o.fence))
    ⟨.corruptHistory, "operation fence differs from durable delivery attempts"⟩
  check (o.status = .intent ↔ t.deliveries = []) ⟨.corruptHistory,
    "operation intent and attempts disagree"⟩
  check (o.acceptedReference ≠ none ↔ AcceptedBy t o.acceptedReference) ⟨.corruptHistory,
    "domain acceptance has no matching durable receipt"⟩
  check (o.status.Accepted → AcceptedBy t o.acceptedReference) ⟨.corruptHistory,
    "operation advanced without domain acceptance"⟩
  check (o.status = .rejected ∨ o.status.Execution →
      ∃ x ∈ t.observations, x.kind.status = o.status) ⟨.corruptHistory,
    "operation status has no matching durable observation"⟩
  check (∀ p ∈ o.retryProof, ∃ r ∈ t.reconciliations, r.fence = o.fence ∧ r.outcome = p.outcome)
    ⟨.corruptHistory, "retry proof has no matching reconciliation"⟩

/-- `_validate_operation_records`, on a journal without artifacts. -/
def validateOperationRecords (j : Journal) : Except Failure Unit :=
  j.operations.forM j.validateOperation

end Journal

/-! ## The check of the ownership names -/

/-- `json.loads(request_json)["request"]`, when it is a dictionary. -/
def Operation.record (o : Operation) : Option (List (String × Json)) :=
  match loads o.requestJson with
  | some (.obj envelope) =>
    match envelope.lookup "request" with
    | some (.obj fields) => some fields
    | _ => none
  | _ => none

/-- The start of the names of ownership records. -/
def ownershipNames : String := "work-budget:v1:ownership-"

/-- The fields of each type of ownership record. -/
def ownershipFields : String → Option (List String)
  | "ownership-claim" => some ["command", "input", "program", "attempt", "attempt_digest",
      "claimant", "generation", "mode", "profile", "resources", "workspace_subject", "expires_at"]
  | "ownership-renew" => some ["claim", "claimant", "generation", "lease_seconds", "expires_at"]
  | "ownership-proof" => some ["claim", "proof"]
  | "ownership-observation" => some ["claim", "subject", "attribution", "order"]
  | "ownership-reconcile" => some ["claim", "subject", "owner", "evidence"]
  | "ownership-prepared" => some ["claim", "subject", "owner", "attempt_digest", "prepared_digest"]
  | "ownership-candidate" => some ["claim", "subject"]
  | "ownership-release" => some ["claim", "evidence"]
  | "ownership-unknown" => some ["claim", "evidence"]
  | "ownership-workspace" => some ["program", "attempt", "attempt_digest", "workspace_reference",
      "command", "operation", "effect_key", "request_digest", "reservation", "root", "parent"]
  | "ownership-publication" => some ["claim", "claim_digest", "claimant", "generation",
      "attempt_digest", "owner", "subject", "acceptance", "operation", "effect_key",
      "request_digest"]
  | "ownership-settlement" => some ["operation", "program", "attempt", "category",
      "attempt_digest", "workspace_reference", "effect_key", "request_digest", "fence", "basis",
      "evidence"]
  | _ => none

namespace Journal

/-- What is left to check of an ownership record of a known type with its fields: the claim, the
Program and the artifacts it cites. -/
abbrev SubjectCheck := Journal → Operation → List (String × Json) → Except Failure Unit

/-- The checks on one ownership record. -/
def validateOwnershipRecord (subject : SubjectCheck) (j : Journal) (o : Operation) :
    Except Failure Unit := do
  let unsupported : Failure := ⟨.corruptHistory, "unsupported ownership record type/version"⟩
  match o.record with
  | none => .error unsupported
  | some record =>
    match record.lookup "type" with
    | some (.str kind) =>
      match ownershipFields kind with
      | none => .error unsupported
      | some fields =>
        check (record.lookup "kind" = some (.str "work-budget-record")) unsupported
        let allowed := fields ++ ["kind", "type"]
        let names := SortedSet.ofList (record.map Prod.fst)
        check (names = SortedSet.ofList allowed ∨ (kind = "ownership-release" ∧
            names = SortedSet.ofList (allowed ++ ["subject", "owner"]))) ⟨.corruptHistory,
          "unsupported ownership record fields"⟩
        subject j o record
    | _ => .error unsupported

/-- `operations`: the rows whose id starts with a text, in the order of the ids. -/
def operationsFrom (j : Journal) (start : String) : List Operation :=
  (SortedBy.sortBy Operation.operationId j.operations).filter fun o =>
    start.toList.isPrefixOf o.operationId.toList

/-- `_validate_ownership_records`. -/
def validateOwnershipRecords (subject : SubjectCheck) (j : Journal) : Except Failure Unit :=
  (j.operationsFrom ownershipNames).forM (validateOwnershipRecord subject j)

/-- What the constructor of the store checks of its journal. -/
def reopen [Sha256] (subject : SubjectCheck) (j : Journal) : Except Failure Unit := do
  j.validateOperationRecords
  j.validateOwnershipRecords subject

/-! ## The receipts of a row -/

end Journal

/-- The columns of a row are backed by receipts on record. -/
structure Operation.Receipted (o : Operation) (t : Journal.Trail) : Prop where
  started : o.status = .intent ↔ o.fence = 0
  accepted : o.acceptedReference ≠ none → Journal.AcceptedBy t o.acceptedReference
  reported : o.status = .rejected ∨ o.status.Execution →
    ∃ x ∈ t.observations, x.kind.status = o.status
  retried : ∀ p ∈ o.retryProof, ∃ r ∈ t.reconciliations, r.fence = o.fence ∧ r.outcome = p.outcome

/-- Every row has a canonical request, an outbox entry and its receipts. -/
structure Journal.Receipted (j : Journal) : Prop where
  requests : ∀ o ∈ j.operations, ∃ request : EffectRequest, o.requestJson = request.json
  outbox : ∀ o ∈ j.operations, o.operationId ∈ j.outbox
  receipts : ∀ o ∈ j.operations, o.Receipted (j.trail o.operationId)

namespace Journal

/-- More receipts accept at least as much. -/
theorem AcceptedBy.mono {t t' : Trail} {reference : Option String} (h : AcceptedBy t reference)
    (ho : t.observations ⊆ t'.observations) (hr : t.reconciliations ⊆ t'.reconciliations) :
    AcceptedBy t' reference := by
  refine ⟨h.1, ?_⟩
  rcases h.2 with ⟨x, hx, hk⟩ | ⟨r, hmem, hk⟩
  · exact .inl ⟨x, ho hx, hk⟩
  · exact .inr ⟨r, hr hmem, hk⟩

theorem empty_receipted : empty.Receipted :=
  ⟨fun _ h => absurd h List.not_mem_nil, fun _ h => absurd h List.not_mem_nil,
    fun _ h => absurd h List.not_mem_nil⟩

/-- Replacing one row keeps the receipts when the new row has its own. -/
theorem Receipted.update [Sha256] {j j' : Journal} (hj : j.Receipted) {o : Operation}
    (ho : o ∈ j.operations) (o' : Operation) (hid : o'.operationId = o.operationId)
    (hjson : o'.requestJson = o.requestJson)
    (hops : j'.operations = Rows.update Operation.operationId j.operations o')
    (houtbox : j'.outbox = j.outbox) (htrail : ∀ i, i ≠ o.operationId → j'.trail i = j.trail i)
    (hreceipted : o'.Receipted (j'.trail o.operationId)) : j'.Receipted := by
  have hold : ∃ r ∈ j.operations, Operation.operationId r = Operation.operationId o' :=
    ⟨o, ho, hid.symm⟩
  refine ⟨fun x hx => ?_, fun x hx => ?_, fun x hx => ?_⟩ <;> rw [hops] at hx <;>
    rcases (Rows.mem_update hold).1 hx with rfl | ⟨hx, hne⟩
  · obtain ⟨request, hr⟩ := hj.requests o ho
    exact ⟨request, hjson.trans hr⟩
  · exact hj.requests x hx
  · rw [houtbox, hid]
    exact hj.outbox o ho
  · rw [houtbox]
    exact hj.outbox x hx
  · rw [hid]
    exact hreceipted
  · rw [htrail _ (by rwa [hid] at hne)]
    exact hj.receipts x hx

/-! ## The step lemmas -/

/-- A fresh intent has nothing to show yet. -/
theorem Receipted.insert [Sha256] {j : Journal} (hj : j.Receipted)
    (operationId effectKey : String) (request : EffectRequest) :
    Receipted { j with
      operations := j.operations ++ [freshOperation operationId effectKey request]
      outbox := j.outbox ++ [operationId] } := by
  refine ⟨fun o ho => ?_, fun o ho => ?_, fun o ho => ?_⟩ <;>
    rcases List.mem_append.1 ho with ho | ho
  · exact hj.requests o ho
  · obtain rfl := List.mem_singleton.1 ho
    exact ⟨request, rfl⟩
  · exact List.mem_append_left _ (hj.outbox o ho)
  · obtain rfl := List.mem_singleton.1 ho
    exact List.mem_append_right _ (List.mem_singleton_self _)
  · exact hj.receipts o ho
  · obtain rfl := List.mem_singleton.1 ho
    refine ⟨by simp [freshOperation], fun h => absurd rfl h, fun h => ?_, fun p hp => by cases hp⟩
    simp [freshOperation, OperationStatus.Execution] at h

/-- A claimed row is no intent and reports nothing. -/
theorem Receipted.claimed {o : Operation} {t t' : Trail} (ho : o.Receipted t) (until_ : ℤ)
    (hx : t'.observations = t.observations) (hr : t'.reconciliations = t.reconciliations) :
    (claimed o until_).Receipted t' where
  started := by simp [Journal.claimed]
  accepted := fun h => (ho.accepted h).mono (by rw [hx]; exact List.Subset.refl _)
    (by rw [hr]; exact List.Subset.refl _)
  reported := fun h => by simp [Journal.claimed, OperationStatus.Execution] at h
  retried := fun p hp => by cases hp

/-- The observation itself is the receipt of the status it writes. -/
theorem Receipted.observed {o : Operation} {t : Trail} (ho : o.Receipted t) (hpos : o.fence ≠ 0)
    (x : Observation) :
    (observed o x.kind x.reference).Receipted { t with observations := t.observations ++ [x] } := by
  have hstatus : (Journal.observed o x.kind x.reference).status = x.kind.status ∨
      ((o.status = .accepted ∨ o.status = .running ∨ o.status = .waiting) ∧
        (Journal.observed o x.kind x.reference).status = o.status) := by
    simp only [Journal.observed, nextStatus]
    split
    · exact .inl rfl
    · next h =>
      rw [not_or, not_not, not_not] at h
      exact .inr ⟨h.2, rfl⟩
  refine ⟨⟨fun h => ?_, fun h => absurd h hpos⟩, fun h => ?_, fun h => ?_, ho.retried⟩
  · rcases hstatus with hs | ⟨hold, hs⟩ <;> rw [h] at hs
    · cases hk : x.kind <;> rw [hk] at hs <;> cases hs
    · rw [← hs] at hold
      simp at hold
  · cases hr : o.acceptedReference with
    | some r =>
      have hsome : (Journal.observed o x.kind x.reference).acceptedReference = some r := by
        simp [Journal.observed, hr]
      rw [hsome, ← hr]
      exact (ho.accepted (by simp [hr])).mono (List.subset_append_left _ _) (List.Subset.refl _)
    | none =>
      -- the row had no reference, so the observation brings it
      by_cases hk : x.kind = .accepted
      · have href : (Journal.observed o x.kind x.reference).acceptedReference = x.reference := by
          simp [Journal.observed, hr, hk]
        rw [href] at h ⊢
        exact ⟨h, .inl ⟨x, by simp, hk, rfl⟩⟩
      · simp [Journal.observed, hr, hk] at h
  · rcases hstatus with hs | ⟨-, hs⟩
    · exact ⟨x, by simp, hs.symm⟩
    · rw [hs] at h ⊢
      obtain ⟨y, hy, hk⟩ := ho.reported h
      exact ⟨y, List.mem_append_left _ hy, hk⟩

/-- A reconciliation that finds the effect is the receipt of the reference it names. -/
theorem Receipted.reconciled {o : Operation} {t : Trail} (ho : o.Receipted t) (hpos : o.fence ≠ 0)
    (x : Reconciliation) (hfence : o.fence = x.fence) :
    (reconciled o x.outcome x.reference).Receipted
      { t with reconciliations := t.reconciliations ++ [x] } := by
  have hstatus : (Journal.reconciled o x.outcome x.reference).status = .accepted ∨
      (Journal.reconciled o x.outcome x.reference).status = .unknown := by
    simp only [Journal.reconciled]
    split
    exacts [.inl rfl, .inr rfl]
  refine ⟨⟨fun h => ?_, fun h => absurd h hpos⟩, fun h => ?_, fun h => ?_, fun p hp => ?_⟩
  · rcases hstatus with hs | hs <;> rw [h] at hs <;> cases hs
  · cases hr : o.acceptedReference with
    | some r =>
      have hsome : (Journal.reconciled o x.outcome x.reference).acceptedReference = some r := by
        simp [Journal.reconciled, hr]
      rw [hsome, ← hr]
      exact (ho.accepted (by simp [hr])).mono (List.Subset.refl _) (List.subset_append_left _ _)
    | none =>
      by_cases hk : x.outcome = .found
      · have href : (Journal.reconciled o x.outcome x.reference).acceptedReference =
            x.reference := by
          simp [Journal.reconciled, hr, hk]
        rw [href] at h ⊢
        exact ⟨h, .inr ⟨x, by simp, hk, rfl⟩⟩
      · simp [Journal.reconciled, hr, hk] at h
  · rcases hstatus with hs | hs <;> rw [hs] at h <;> simp [OperationStatus.Execution] at h
  · refine ⟨x, by simp, hfence.symm, ?_⟩
    change x.outcome.proof = some p at hp
    cases hk : x.outcome <;> rw [hk] at hp <;> cases hp <;> rfl

variable [Sha256]

/-- Every call keeps the receipts. -/
theorem next_receipted (j : Journal) (c : Call) (hc : j.Coherent) (hj : j.Receipted) :
    (j.next c).Receipted := by
  cases c with
  | intent operationId effectKey request =>
    refine settle_of hj fun o j' h => ?_
    rcases intent_cases h with rfl | ⟨-, rfl⟩
    · exact hj
    · exact hj.insert operationId effectKey request
  | claim operationId now leaseSeconds =>
    refine settle_of hj fun n j' h => ?_
    obtain ⟨o, ho, -, -, -, -, rfl⟩ := claim_cases h
    obtain ⟨hmem, rfl⟩ := mem_of_find ho
    refine hj.update hmem (claimed o _) rfl rfl rfl rfl (fun i hi => ?_) ?_
    · rw [trail_deliveries, if_neg hi]
    · rw [trail_deliveries, if_pos rfl]
      exact Receipted.claimed (hj.receipts o hmem) _ rfl rfl
  | recordTransport operationId fence succeeded =>
    refine settle_of hj fun u j' h => ?_
    obtain ⟨transports, rfl⟩ := recordTransport_cases h
    exact ⟨hj.requests, hj.outbox, hj.receipts⟩
  | observe operationId fence observationId kind reference =>
    refine settle_of hj fun o' j' h => ?_
    rcases observe_cases h with rfl | ⟨o, ho, -, hattempts, -, -, -, rfl⟩
    · exact hj
    · obtain ⟨hmem, rfl⟩ := mem_of_find ho
      rw [attempts_eq (hc.traced o hmem)] at hattempts
      refine hj.update hmem (observed o _ _) rfl rfl rfl rfl (fun i hi => ?_) ?_
      · rw [trail_observations, if_neg hi]
      · rw [trail_observations, if_pos rfl]
        exact Receipted.observed (hj.receipts o hmem) hattempts
          ⟨observationId, o.operationId, fence, kind, reference⟩
  | reconcile operationId fence outcome now evidence reference matchedDigest authoritative =>
    refine settle_of hj fun o' j' h => ?_
    obtain ⟨o, ho, hfence, hattempts, -, -, -, -, rfl⟩ := reconcile_cases h
    obtain ⟨hmem, rfl⟩ := mem_of_find ho
    rw [attempts_eq (hc.traced o hmem)] at hattempts
    refine hj.update hmem (reconciled o _ _) rfl rfl rfl rfl (fun i hi => ?_) ?_
    · rw [trail_reconciliations, if_neg hi]
    · rw [trail_reconciliations, if_pos rfl]
      exact Receipted.reconciled (hj.receipts o hmem) hattempts
        ⟨o.operationId, fence, outcome, reference, evidence, matchedDigest, authoritative⟩ hfence

/-- The journal of every run has its receipts. -/
theorem run_receipted (calls : List Call) : (run next empty calls).Receipted :=
  (run_invariant (P := fun j => j.Coherent ∧ j.Receipted)
    (fun j c h => ⟨next_coherent j c h.1, next_receipted j c h.1 h.2⟩)
    ⟨empty_coherent, empty_receipted⟩ calls).2

/-! ## Every row passes -/

omit [Sha256] in
/-- The stored text of a request is read back. -/
theorem loads_request (request : EffectRequest) :
    loads request.json = some (.obj [("request", .obj request.fields), ("version", .int 1)]) :=
  loads_dumps ((Json.wf_obj _).2 ⟨by simp only [List.map]; decide, by simp [request.wf]⟩)

theorem validateRequest_of {o : Operation} {request : EffectRequest}
    (hj : o.requestJson = request.json) (hd : o.requestDigest = Sha256.hexdigest o.requestJson) :
    validateRequest o = .ok () := by
  have hnames : SortedSet.ofList ["request", "version"] = SortedSet.ofList ["version", "request"] :=
    SortedBy.ext_mem fun k => by
      simpa only [SortedSet.mem_ofList] using (List.Perm.swap "version" "request" []).mem_iff
  have hcanonical : dumps (.obj [("request", .obj request.fields), ("version", .int 1)]) =
      o.requestJson := by rw [hj, EffectRequest.json]
  have hload : loads o.requestJson = some (.obj [("request", .obj request.fields),
      ("version", .int 1)]) := by rw [hj, loads_request]
  unfold validateRequest
  simp only [hload, hcanonical, hd]
  refine check_of ⟨hnames, ⟨.int 1, rfl, rfl⟩, ⟨.obj request.fields, rfl, trivial⟩, trivial, trivial⟩

/-- A row that agrees with its trail and has its receipts passes every check. -/
theorem validateOperation_of {j : Journal} (hc : j.Coherent) (hj : j.Receipted) {o : Operation}
    (ho : o ∈ j.operations) : j.validateOperation o = .ok () := by
  have ht := hc.traced o ho
  have hr := hj.receipts o ho
  obtain ⟨request, hjson⟩ := hj.requests o ho
  have hlength : (j.trail o.operationId).deliveries.length = o.fence := by
    rw [← List.length_map Delivery.fence, ht.fences, List.length_range']
  have hnil : (j.trail o.operationId).deliveries = [] ↔ o.fence = 0 := by
    rw [← hlength, List.length_eq_zero_iff]
  have hmax : (j.trail o.operationId).deliveries ≠ [] →
      ((j.trail o.operationId).deliveries.map Delivery.fence).max? = some o.fence := by
    intro hne
    have hpos : o.fence ≠ 0 := fun h => hne (hnil.2 h)
    rw [ht.fences, List.max?_eq_some_iff]
    refine ⟨List.mem_range'_1.2 (by omega), fun b hb => ?_⟩
    have := (List.mem_range'_1.1 hb).2
    omega
  rw [validateOperation, validateRequest_of hjson (hc.digests o ho), ok_bind]
  rw [check_of (hj.outbox o ho), ok_bind, check_of ⟨hlength.symm, hmax⟩, ok_bind,
    check_of (hr.started.trans hnil.symm), ok_bind,
    check_of ⟨hr.accepted, fun h => h.1⟩, ok_bind,
    check_of fun h => hr.accepted (ht.accepted.2 h), ok_bind, check_of hr.reported, ok_bind]
  exact check_of hr.retried

/-- Every journal the calls can write passes the check of its rows. -/
theorem run_validated (calls : List Call) :
    (run next empty calls).validateOperationRecords = .ok () :=
  forM_eq_ok.2 fun _ ho => validateOperation_of (run_coherent calls) (run_receipted calls) ho

/-! ## The ownership names -/

/-- The call is an intent under a name of ownership records. -/
def Call.TakesOwnershipName : Call → Prop
  | .intent operationId _ _ => ownershipNames.toList.isPrefixOf operationId.toList = true
  | _ => False

/-- No row of the journal has a name of ownership records. -/
def Unowned (j : Journal) : Prop :=
  ∀ o ∈ j.operations, ¬ownershipNames.toList.isPrefixOf o.operationId.toList = true

/-- The ids of a journal are those of the intents. -/
theorem next_unowned (j : Journal) (c : Call) (hc : ¬c.TakesOwnershipName) (hj : j.Unowned) :
    (j.next c).Unowned := by
  have hids : ∀ j' : Journal, j'.operations.map Operation.operationId =
      j.operations.map Operation.operationId → j'.Unowned := by
    intro j' h o ho
    obtain ⟨o', ho', he⟩ := List.mem_map.1 (h ▸ List.mem_map_of_mem ho)
    exact he ▸ hj o' ho'
  cases c with
  | intent operationId effectKey request =>
    refine settle_of hj fun o j' h => ?_
    rcases intent_cases h with rfl | ⟨-, rfl⟩
    · exact hj
    · intro o ho
      rcases List.mem_append.1 ho with ho | ho
      · exact hj o ho
      · obtain rfl := List.mem_singleton.1 ho
        exact hc
  | claim operationId now leaseSeconds =>
    refine settle_of hj fun n j' h => ?_
    obtain ⟨o, -, -, -, -, -, rfl⟩ := claim_cases h
    exact hids _ Rows.map_key_update
  | recordTransport operationId fence succeeded =>
    refine settle_of hj fun u j' h => ?_
    obtain ⟨transports, rfl⟩ := recordTransport_cases h
    exact hj
  | observe operationId fence observationId kind reference =>
    refine settle_of hj fun o' j' h => ?_
    rcases observe_cases h with rfl | ⟨o, -, -, -, -, -, -, rfl⟩
    · exact hj
    · exact hids _ Rows.map_key_update
  | reconcile operationId fence outcome now evidence reference matchedDigest authoritative =>
    refine settle_of hj fun o' j' h => ?_
    obtain ⟨o, -, -, -, -, -, -, -, rfl⟩ := reconcile_cases h
    exact hids _ Rows.map_key_update

theorem run_unowned {calls : List Call} (hc : ∀ c ∈ calls, ¬c.TakesOwnershipName) :
    (run next empty calls).Unowned := by
  refine run_induction (P := fun calls (j : Journal) =>
      (∀ c ∈ calls, ¬c.TakesOwnershipName) → j.Unowned)
    (fun _ _ ho => absurd ho List.not_mem_nil) (fun calls c ih hc => ?_) calls hc
  exact next_unowned _ c (hc c (List.mem_append_right _ (List.mem_singleton_self _)))
    (ih fun d hd => hc d (List.mem_append_left _ hd))

/-- Every journal the calls can write passes the check of its rows, and the store opens again
if no intent used a name of ownership records. -/
theorem reopens (calls : List Call) :
    (run next empty calls).validateOperationRecords = .ok () ∧
      ((∀ c ∈ calls, ¬c.TakesOwnershipName) →
        ∀ subject, (run next empty calls).reopen subject = .ok ()) := by
  refine ⟨run_validated calls, fun hc subject => ?_⟩
  rw [reopen, run_validated, ok_bind, validateOwnershipRecords]
  have hnone : (run next empty calls).operationsFrom ownershipNames = [] := by
    refine List.filter_eq_nil_iff.2 fun o ho => ?_
    exact run_unowned hc o ((SortedBy.perm_sortBy _).subset ho)
  rw [hnone]
  rfl

/-- An empty request under a name of ownership records. -/
def stray (operationId : String) : Call := .intent operationId operationId ⟨[], by simp⟩

/-- The journal of one empty request. -/
def strayJournal (operationId : String) : Journal :=
  { empty with
    operations := [freshOperation operationId operationId ⟨[], by simp⟩]
    outbox := [operationId] }

theorem run_stray {operationId : String} (hid : Nonblank operationId) :
    run next empty [stray operationId] = strayJournal operationId := by
  have hinsert : empty.insertIntent operationId operationId ⟨[], by simp⟩ true =
      .ok (strayJournal operationId) := rfl
  have hread : (strayJournal operationId).operation operationId =
      .ok (freshOperation operationId operationId ⟨[], by simp⟩) := by
    rw [operation, validateCommandKey, check_of hid, ok_bind, lookup_eq_ok]
    exact Rows.find_singleton.trans (if_pos rfl)
  simp only [stray, run_cons, run_nil, next, intent, validateCommandKey, check_of hid, ok_bind,
    hinsert, hread]
  rfl

/-- An empty request under a name of ownership records leaves a journal whose rows pass, and
that is refused when the store is opened again. -/
theorem reopen_stray {operationId : String} (hid : Nonblank operationId)
    (hname : ownershipNames.toList.isPrefixOf operationId.toList = true) (subject : SubjectCheck) :
    (run next empty [stray operationId]).reopen subject =
      .error ⟨.corruptHistory, "unsupported ownership record type/version"⟩ := by
  have hrows : (run next empty [stray operationId]).operationsFrom ownershipNames =
      [freshOperation operationId operationId ⟨[], by simp⟩] := by
    rw [run_stray hid]
    exact List.filter_eq_self.2 fun o ho => by rw [List.mem_singleton.1 ho]; exact hname
  have hrecord : (freshOperation operationId operationId ⟨[], by simp⟩).record = some [] := by
    simp only [Operation.record, freshOperation, loads_request]
    rfl
  have hrefused : validateOwnershipRecord subject (run next empty [stray operationId])
      (freshOperation operationId operationId ⟨[], by simp⟩) =
      .error ⟨.corruptHistory, "unsupported ownership record type/version"⟩ := by
    unfold validateOwnershipRecord
    rw [hrecord]
    rfl
  rw [reopen, run_validated, ok_bind, validateOwnershipRecords, hrows]
  show (validateOwnershipRecord subject _ _ >>= fun _ => _) = _
  rw [hrefused]
  rfl

end Journal

/-- The store of one intent under a name of ownership records does not open again. -/
theorem Journal.reopen_refused :
    @reopen Sample.sha256 (fun _ _ _ => .ok ())
      (run (@next Sample.sha256) empty [stray "work-budget:v1:ownership-note"]) =
      .error ⟨.corruptHistory, "unsupported ownership record type/version"⟩ :=
  @reopen_stray Sample.sha256 _ (by decide) (by decide) _

/-- The store of one intent under another name opens again. -/
theorem Journal.reopens_note :
    @reopen Sample.sha256 (fun _ _ _ => .ok ())
      (run (@next Sample.sha256) empty [stray "note"]) = .ok () := by
  refine (@reopens Sample.sha256 [stray "note"]).2 (fun c hc => ?_) _
  obtain rfl := List.mem_singleton.1 hc
  show ¬ownershipNames.toList.isPrefixOf "note".toList = true
  decide

end CreatidyKernel
