import CreatidyKernel.Store.HistorySafety
import CreatidyKernel.Store.JournalSafety

set_option relaxedAutoImplicit false
set_option autoImplicit false

/-!
# Evidence stays on record

The request of an operation and the reference of an artifact are written once. Whatever is called
later, they are read back as they were.

## Main definitions

* `Journal.request` — the recorded request of an operation.
* `Store.Keeps` — the second store holds the requests and artifacts of the first.

## Main results

* `Store.keeps_next` — every call and every reopening keeps what is on record.
* `Store.keeps_run` — so does a run.
-/

namespace CreatidyKernel

open Checked Runs

namespace Journal

/-- The recorded request of an operation. -/
def request (j : Journal) (operationId : String) : Option String :=
  (j.find operationId).map Operation.requestJson

/-- The second journal holds the requests of the first. -/
def Keeps (j j' : Journal) : Prop :=
  ∀ operationId text, j.request operationId = some text → j'.request operationId = some text

theorem Keeps.refl (j : Journal) : j.Keeps j := fun _ _ h => h

/-- A new row hides no other. -/
theorem Keeps.append {j j' : Journal} {o : Operation} (h : j'.operations = j.operations ++ [o]) :
    j.Keeps j' := by
  intro operationId text ht
  obtain ⟨x, hx, rfl⟩ := Option.map_eq_some_iff.1 ht
  rw [request, find, h, Rows.find_append_of_some hx]
  rfl

/-- A row is replaced by one with the same request. -/
theorem Keeps.update {j j' : Journal} {o o' : Operation} (ho : j.find o.operationId = some o)
    (h : j'.operations = Rows.update Operation.operationId j.operations o')
    (hid : o'.operationId = o.operationId) (hrequest : o'.requestJson = o.requestJson) :
    j.Keeps j' := by
  intro operationId text ht
  obtain ⟨x, hx, rfl⟩ := Option.map_eq_some_iff.1 ht
  rw [request, find, h, Rows.find_update, hid]
  by_cases hk : operationId = o.operationId
  · subst hk
    obtain rfl : o = x := Option.some.inj (ho.symm.trans hx)
    rw [find] at hx
    rw [if_pos rfl, hx]
    exact congrArg some hrequest
  · rw [find] at hx
    rw [if_neg hk, hx]
    rfl

variable [Sha256]

theorem keeps_insertIntent {j j' : Journal} {operationId effectKey : String}
    {request : EffectRequest} {allow : Bool}
    (h : j.insertIntent operationId effectKey request allow = .ok j') : j.Keeps j' := by
  rcases insertIntent_cases h with ⟨rfl, -⟩ | ⟨-, rfl⟩
  · exact .refl _
  · exact .append rfl

omit [Sha256] in
theorem keeps_claim {j j' : Journal} {operationId : String} {now leaseSeconds : ℤ} {n : ℕ}
    (h : j.claim operationId now leaseSeconds = .ok (n, j')) : j.Keeps j' := by
  obtain ⟨o, ho, -, -, -, -, rfl⟩ := claim_cases h
  obtain rfl := (mem_of_find ho).2
  exact .update ho rfl rfl rfl

/-- No call changes the request of an operation. -/
theorem keeps_next (j : Journal) (c : Call) : j.Keeps (j.next c) := by
  cases c with
  | intent operationId effectKey request =>
    refine settle_of (.refl j) fun o j' h => ?_
    rcases intent_cases h with rfl | ⟨-, rfl⟩
    · exact .refl _
    · exact .append rfl
  | claim operationId now leaseSeconds => exact settle_of (.refl j) fun n j' h => keeps_claim h
  | recordTransport operationId fence succeeded =>
    refine settle_of (.refl j) fun u j' h => ?_
    obtain ⟨transports, rfl⟩ := recordTransport_cases h
    exact .refl j
  | observe operationId fence observationId kind reference =>
    refine settle_of (.refl j) fun o' j' h => ?_
    rcases observe_cases h with rfl | ⟨o, ho, -, -, -, -, -, rfl⟩
    · exact .refl _
    · obtain rfl := (mem_of_find ho).2
      exact .update ho rfl rfl rfl
  | reconcile operationId fence outcome now evidence reference matchedDigest authoritative =>
    refine settle_of (.refl j) fun o' j' h => ?_
    obtain ⟨o, ho, -, -, -, -, -, -, rfl⟩ := reconcile_cases h
    obtain rfl := (mem_of_find ho).2
    exact .update ho rfl rfl rfl

end Journal

namespace Store

variable [Sha256] {R : Store → Reservation → Prop} {U : Store → String → UsageObservation → Prop}
  {s s' s'' : Store}

/-- The second store holds the requests and the artifacts of the first. -/
structure Keeps (s s' : Store) : Prop where
  requests : s.journal.Keeps s'.journal
  artifacts : ∀ key row, Rows.find ArtifactReference.key s.artifacts key = some row →
    Rows.find ArtifactReference.key s'.artifacts key = some row

namespace Keeps

omit [Sha256]

theorem refl (s : Store) : Keeps s s := ⟨.refl _, fun _ _ h => h⟩

theorem trans (h : Keeps s s') (h' : Keeps s' s'') : Keeps s s'' :=
  ⟨fun id text ht => h'.requests id text (h.requests id text ht),
    fun key row hr => h'.artifacts key row (h.artifacts key row hr)⟩

/-- Leaving the artifacts alone. -/
theorem of_journal (h : s.journal.Keeps s'.journal) (ha : s'.artifacts = s.artifacts) :
    Keeps s s' := ⟨h, fun key row hr => by rw [ha]; exact hr⟩

/-- Leaving both alone. -/
theorem of_eq (hj : s'.journal = s.journal) (ha : s'.artifacts = s.artifacts) : Keeps s s' :=
  .of_journal (by rw [hj]; exact .refl _) ha

end Keeps

theorem keeps_finalizeArtifact {operationId name : String} {data : Bytes}
    (h : s.finalizeArtifact operationId name data = .ok s') : Keeps s s' := by
  obtain ⟨-, -, rows, hrows, rfl⟩ := finalizeArtifact_spec h
  refine ⟨.refl _, fun key row hr => ?_⟩
  rcases Rows.insertOnce_eq_ok.1 hrows with ⟨-, rfl⟩ | ⟨-, rfl⟩
  · exact Rows.find_append_of_some hr _
  · exact hr

/-- A write keeps what is on record. -/
theorem keeps_write (h : Write R U s s') : Keeps s s' := by
  cases h with
  | intended h => exact .of_journal (Journal.keeps_insertIntent h) rfl
  | fenced _ _ h => exact .of_journal (Journal.keeps_claim h) rfl
  | reported c => exact .of_journal (Journal.keeps_next _ c) rfl
  | finalized h => exact keeps_finalizeArtifact h
  | claimed _ h =>
    have hkeeps := keeps_finalizeArtifact h
    exact ⟨hkeeps.requests, hkeeps.artifacts⟩
  | created h => rw [create_frame h]; exact .of_eq rfl rfl
  | configured h => rw [configureBudget_frame h]; exact .of_eq rfl rfl
  | settled operationId evidence => rw [settleOperation_frame]; exact .of_eq rfl rfl
  | qualified _ h => rw [recordSettlementBasis_frame h]; exact .of_eq rfl rfl
  | retained h => rw [recordRetainedBytes_frame h]; exact .of_eq rfl rfl
  | used _ h => rw [recordUsage_frame h]; exact .of_eq rfl rfl
  | dispatched h => rw [bindWorkDispatch_frame h]; exact .of_eq rfl rfl
  | recorded | revoked | reserved | renewed | proved | released | quarantined | unbound =>
    exact .of_eq rfl rfl

theorem keeps_writes (h : Writes R U s s') : Keeps s s' := by
  induction h with
  | refl => exact .refl s
  | tail _ h ih => exact ih.trans (keeps_write h)

/-- The step: every call and every reopening keeps what is on record. -/
theorem keeps_next (s : Store) (c : Option Call) : Keeps s (s.nextOrReopen c) := by
  cases c with
  | none =>
    refine settle_of (.refl s) fun n t h => ?_
    obtain ⟨r, -, h⟩ := map_eq_ok.1 h
    cases h
    exact .of_eq rfl rfl
  | some c =>
    have hw : Writes (fun _ _ => True) (fun _ _ _ => True) s (s.next c) :=
      next_writes (fun _ _ _ _ => trivial) fun _ _ _ => trivial
    exact keeps_writes hw

/-- A run keeps what is on record. -/
theorem keeps_run (s : Store) (calls : List (Option Call)) :
    Keeps s (Runs.run nextOrReopen s calls) := by
  induction calls generalizing s with
  | nil => exact .refl s
  | cons c calls ih => exact (keeps_next s c).trans (ih _)

end Store

end CreatidyKernel
