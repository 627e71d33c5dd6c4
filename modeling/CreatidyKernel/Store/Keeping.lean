import CreatidyKernel.Store.HistorySafety

set_option relaxedAutoImplicit false
set_option autoImplicit false

/-!
# What stays on record

Work records are written once. A row that is on record stays there, in its place and with its
content, whatever calls follow and however often the database is closed and opened again.

## Main definitions

* `Store.Kept` — the tables of a store are beginnings of the tables of another.

## Main results

* `Store.Write.kept`, `Store.kept_next` — one write and one call add rows at most.
* `Store.records_kept` — a run adds rows at most, and what a key names it names ever after.
-/

namespace CreatidyKernel

open Checked Runs

namespace Rows

variable {ρ κ ε : Type} [DecidableEq ρ] [DecidableEq κ] {key : ρ → κ} {failure : ε}

/-- Inserting a row keeps the rows before it. -/
theorem insertOnce_kept {rows rows' : List ρ} {row : ρ}
    (h : insertOnce key failure rows row = .ok rows') : rows <+: rows' := by
  rcases insertOnce_eq_ok.1 h with ⟨-, rfl⟩ | ⟨-, rfl⟩
  · exact List.prefix_append _ _
  · exact List.prefix_refl _

omit [DecidableEq ρ] in
/-- What a key names stays when rows are added. -/
theorem find_of_kept {rows rows' : List ρ} {k : κ} {r : ρ} (h : rows <+: rows')
    (hr : find key rows k = some r) : find key rows' k = some r := by
  obtain ⟨more, rfl⟩ := h
  exact find_append_of_some hr more

end Rows

namespace Store

variable [Sha256] {s s' : Store}

/-- Every table of work records is a beginning of the one in the other store. -/
structure Kept (s s' : Store) : Prop where
  projects : s.projects <+: s'.projects
  bindings : s.bindings <+: s'.bindings
  revisions : s.revisions <+: s'.revisions
  revoked : s.revoked <+: s'.revoked
  reservations : s.reservations <+: s'.reservations
  settlements : s.settlements <+: s'.settlements
  ownershipSettlements : s.ownershipSettlements <+: s'.ownershipSettlements
  retained : s.retained <+: s'.retained
  usage : s.usage <+: s'.usage
  claims : s.claims <+: s'.claims
  releases : s.releases <+: s'.releases
  quarantined : s.quarantined <+: s'.quarantined
  renewals : s.renewals <+: s'.renewals
  dispatchBindings : s.dispatchBindings <+: s'.dispatchBindings
  unbound : s.unbound <+: s'.unbound
  artifacts : s.artifacts <+: s'.artifacts

omit [Sha256] in
theorem Kept.refl (s : Store) : Kept s s := by
  constructor <;> exact List.prefix_refl _

omit [Sha256] in
theorem Kept.trans {s₁ s₂ s₃ : Store} (h : Kept s₁ s₂) (h' : Kept s₂ s₃) : Kept s₁ s₃ where
  projects := h.projects.trans h'.projects
  bindings := h.bindings.trans h'.bindings
  revisions := h.revisions.trans h'.revisions
  revoked := h.revoked.trans h'.revoked
  reservations := h.reservations.trans h'.reservations
  settlements := h.settlements.trans h'.settlements
  ownershipSettlements := h.ownershipSettlements.trans h'.ownershipSettlements
  retained := h.retained.trans h'.retained
  usage := h.usage.trans h'.usage
  claims := h.claims.trans h'.claims
  releases := h.releases.trans h'.releases
  quarantined := h.quarantined.trans h'.quarantined
  renewals := h.renewals.trans h'.renewals
  dispatchBindings := h.dispatchBindings.trans h'.dispatchBindings
  unbound := h.unbound.trans h'.unbound
  artifacts := h.artifacts.trans h'.artifacts

/-! ## Single writes -/

theorem kept_create {spec : ProgramSpec} {commandKey : String} {p : Program}
    (h : s.create spec commandKey = .ok (p, s')) : Kept s s' := by
  rw [create_frame h]
  exact { Kept.refl s with }

/-- An envelope and the policy of its project are written once. -/
theorem kept_configure {programId projectId : Name} {project task : WorkBudgetPolicy}
    {projection : DeadlineProjection}
    (h : s.configureBudget programId projectId project task projection = .ok s') : Kept s s' := by
  obtain ⟨_, _, projects, -, -, -, hp, ⟨bindings, hb, rfl⟩ | ⟨_, revisions, -, -, -, -, -, hr, rfl⟩⟩ :=
    configureBudget_spec h
  · exact { Kept.refl s with
      projects := Rows.insertOnce_kept hp
      bindings := Rows.insertOnce_kept hb }
  · exact { Kept.refl s with
      projects := Rows.insertOnce_kept hp
      revisions := Rows.insertOnce_kept hr }

omit [Sha256] in
theorem kept_settle (operationId evidence : String) :
    Kept s (s.settleOperation operationId evidence) := by
  unfold settleOperation
  split
  · exact .refl s
  · exact { Kept.refl s with settlements := List.prefix_append _ _ }

theorem kept_qualify {r : Reservation} {evidence : String} {basis : SettlementBasis}
    (h : s.recordSettlementBasis r evidence basis = .ok s') : Kept s s' := by
  obtain ⟨-, _, -, rfl | ⟨-, rfl⟩⟩ := recordSettlementBasis_spec h
  · exact .refl s'
  · exact { Kept.refl s with ownershipSettlements := List.prefix_append _ _ }

omit [Sha256] in
theorem kept_retain {operationId : String} {n : ℕ}
    (h : s.recordRetainedBytes operationId n = .ok ((), s')) : Kept s s' := by
  obtain ⟨_, _, -, -, hrows, rfl⟩ := recordRetainedBytes_spec h
  exact { Kept.refl s with retained := Rows.insertOnce_kept hrows }

theorem kept_finalize {operationId name : String} {data : Bytes}
    (h : s.finalizeArtifact operationId name data = .ok s') : Kept s s' := by
  obtain ⟨-, -, _, hrows, rfl⟩ := finalizeArtifact_spec h
  exact { Kept.refl s with artifacts := Rows.insertOnce_kept hrows }

omit [Sha256] in
theorem kept_writeUsage {u : UsageRecord} (h : s.writeUsage u = .ok s') : Kept s s' := by
  obtain ⟨_, hrows, h⟩ := bind_eq_ok.1 h
  cases pure_eq_ok.1 h
  exact { Kept.refl s with usage := Rows.insertOnce_kept hrows }

/-- A receipt is written once, whether it is new or was told before. -/
theorem kept_use {operationId : String} {o : UsageObservation}
    (h : s.recordUsage operationId o = .ok ((), s')) : Kept s s' := by
  obtain ⟨-, h⟩ := check_bind_eq_ok.1 h
  cases hf : Rows.find usageKey s.usage (usageKey ⟨operationId, o⟩) with
  | some _ =>
    simp only [hf] at h
    obtain ⟨t, ht, h⟩ := bind_eq_ok.1 h
    cases pure_eq_ok.1 h
    exact kept_writeUsage ht
  | none =>
    simp only [hf] at h
    obtain ⟨-, h⟩ := check_bind_eq_ok.1 h
    obtain ⟨-, h⟩ := check_bind_eq_ok.1 h
    obtain ⟨t, ht, h⟩ := bind_eq_ok.1 h
    cases pure_eq_ok.1 h
    exact kept_writeUsage ht

theorem kept_dispatch {programId attemptId : Name} {operationId : String}
    (h : s.bindWorkDispatch programId attemptId operationId = .ok s') : Kept s s' := by
  obtain ⟨_, -, h⟩ := bind_eq_ok.1 h
  obtain ⟨_, -, h⟩ := bind_eq_ok.1 h
  obtain ⟨_, -, h⟩ := bind_eq_ok.1 h
  obtain ⟨_, hrows, h⟩ := bind_eq_ok.1 h
  cases pure_eq_ok.1 h
  exact { Kept.refl s with dispatchBindings := Rows.insertOnce_kept hrows }

/-- One write adds rows at most. -/
theorem Write.kept {R : Store → Reservation → Prop} {U : Store → String → UsageObservation → Prop}
    (h : Write R U s s') : Kept s s' := by
  cases h with
  | created h => exact kept_create h
  | configured h => exact kept_configure h
  | revoked programId => exact { Kept.refl s with revoked := List.prefix_append _ _ }
  | reserved => exact { Kept.refl s with reservations := List.prefix_append _ _ }
  | settled operationId evidence => exact kept_settle operationId evidence
  | qualified _ h => exact kept_qualify h
  | retained h => exact kept_retain h
  | used _ h => exact kept_use h
  | finalized h => exact kept_finalize h
  | claimed _ h =>
    refine Kept.trans ?_ (kept_finalize h)
    exact { Kept.refl s with claims := List.prefix_append _ _ }
  | renewed => exact { Kept.refl s with renewals := List.prefix_append _ _ }
  | released claim => exact { Kept.refl s with releases := List.prefix_append _ _ }
  | quarantined claim => exact { Kept.refl s with quarantined := List.prefix_append _ _ }
  | dispatched h => exact kept_dispatch h
  | unbound operationId => exact { Kept.refl s with unbound := List.prefix_append _ _ }
  | recorded | intended | fenced | reported | proved => exact { Kept.refl s with }

/-! ## Runs -/

/-- The step: a call or a reopening adds rows at most. -/
theorem kept_next (c : Option Call) : Kept s (s.nextOrReopen c) := by
  cases c with
  | none =>
    refine settle_of (P := Kept s) (.refl s) fun n t h => ?_
    obtain ⟨r, -, h⟩ := map_eq_ok.1 h
    cases h
    exact { Kept.refl s with }
  | some c =>
    exact invariant_of_writes (P := Kept s) (R := fun _ _ => True) (U := fun _ _ _ => True)
      (fun _ _ h hw => h.trans hw.kept) (.refl s)
      (next_writes (fun _ _ _ _ => trivial) fun _ _ _ => trivial)

/-- After any run of calls and reopenings, from any store, every table of work records is the old
one with rows added at its end. So a project, an envelope, a reservation, a byte record, a claim,
a qualified settlement and an artifact keep the content they were first written with, and what is
revoked, settled, released, quarantined or unbound stays so. -/
theorem records_kept (s : Store) (calls : List (Option Call)) :
    let s' := run nextOrReopen s calls
    Kept s s' ∧
    (∀ n r, s.project n = some r → s'.project n = some r) ∧
    (∀ n b, Rows.find Binding.program s.bindings n = some b →
      Rows.find Binding.program s'.bindings n = some b) ∧
    (∀ o r, s.reservation o = some r → s'.reservation o = some r) ∧
    (∀ o r, Rows.find RetainedRecord.operation s.retained o = some r →
      Rows.find RetainedRecord.operation s'.retained o = some r) ∧
    (∀ n r, Rows.find ClaimRecord.command s.claims n = some r →
      Rows.find ClaimRecord.command s'.claims n = some r) ∧
    (∀ k a, Rows.find ArtifactReference.key s.artifacts k = some a →
      Rows.find ArtifactReference.key s'.artifacts k = some a) ∧
    (∀ o, s.Settled o → s'.Settled o) ∧ s.revoked ⊆ s'.revoked ∧ s.releases ⊆ s'.releases := by
  intro s'
  have h : Kept s s' := run_relation (P := fun _ => True) (R := Kept) Kept.refl
    (fun _ _ _ => Kept.trans) (fun _ _ _ => trivial) (fun _ c _ => kept_next c) trivial calls
  refine ⟨h, fun _ _ => Rows.find_of_kept h.projects, fun _ _ => Rows.find_of_kept h.bindings,
    fun _ _ => Rows.find_of_kept h.reservations, fun _ _ => Rows.find_of_kept h.retained,
    fun _ _ => Rows.find_of_kept h.claims, fun _ _ => Rows.find_of_kept h.artifacts, ?_,
    h.revoked.subset, h.releases.subset⟩
  intro o ho
  obtain ⟨r, hr⟩ := Option.ne_none_iff_exists'.1 ho
  exact Option.ne_none_iff_exists'.2 ⟨r, Rows.find_of_kept h.settlements hr⟩

end Store

end CreatidyKernel
