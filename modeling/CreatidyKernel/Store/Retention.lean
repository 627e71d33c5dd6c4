import CreatidyKernel.Store.Capacity
import CreatidyKernel.Store.Claims
import CreatidyKernel.Store.UsageExport

set_option relaxedAutoImplicit false
set_option autoImplicit false

/-!
# Retained bytes

The store attributes to the work of a Program, and of a project, the bytes the operations hold by
their own account and, under a claim, the bytes of their artifacts. The sum stays within the
policy in every run in which no operation of a claimed Attempt is reserved for fewer bytes than
its artifacts already have.

## Main definitions

* `Store.Claimed`, `Store.attributed`, `Store.retainedTotal` — the accounting.
* `Store.RetentionInv` — the invariant.
* `Store.Covers` — the condition on a call.

## Main results

* `Store.retainedBytesIn_eq` — the accounting is what the store computes.
* `Store.RetentionInv.write`, `Store.RetentionInv.grant` — one write, and a claim.
* `Store.retained_within_budget` — the sums of every run that meets the condition.
* `Store.retained_beyond_budget` — a run that does not.
-/

namespace CreatidyKernel

open Checked Runs

/-! ## Sums -/

/-- A sum grows by at most what one item grows by. -/
theorem sum_map_le_add {α κ : Type} {key : α → κ} {k : κ} {f g : α → ℕ} {e : ℕ} {l : List α}
    (hn : (l.map key).Nodup) (h : ∀ a ∈ l, key a ≠ k → g a ≤ f a)
    (hk : ∀ a ∈ l, key a = k → g a ≤ f a + e) : (l.map g).sum ≤ (l.map f).sum + e := by
  induction l with
  | nil => exact Nat.zero_le _
  | cons a l ih =>
    rw [List.map_cons, List.nodup_cons] at hn
    rw [List.map_cons, List.map_cons, List.sum_cons, List.sum_cons]
    have hrest : ∀ x ∈ l, key x ≠ k → g x ≤ f x := fun x hx => h x (List.mem_cons_of_mem _ hx)
    by_cases ha : key a = k
    · have hle : (l.map g).sum ≤ (l.map f).sum := List.sum_le_sum fun x hx =>
        hrest x hx fun hxk => hn.1 (by rw [ha, ← hxk]; exact List.mem_map_of_mem hx)
      have := hk a List.mem_cons_self ha
      omega
    · have := h a List.mem_cons_self ha
      have := ih hn.2 hrest fun x hx => hk x (List.mem_cons_of_mem _ hx)
      omega

/-- The sum over the distinct items of a list with one more item. -/
theorem sum_dedup_concat {α : Type} [DecidableEq α] (f : α → ℕ) (l : List α) (a : α) :
    ((l ++ [a]).dedup.map f).sum = (l.dedup.map f).sum + if a ∈ l then 0 else f a := by
  rw [((List.perm_append_singleton a l).dedup.map f).sum_eq]
  by_cases ha : a ∈ l
  · rw [List.dedup_cons_of_mem ha, if_pos ha, Nat.add_zero]
  · rw [List.dedup_cons_of_notMem ha, if_neg ha, List.map_cons, List.sum_cons, Nat.add_comm]

namespace Store

variable [Sha256] {s s' : Store} {cut : Cut} {scope : Scope} {identity : Name}

/-! ## The accounting -/

/-- The Attempt of a reservation has a claim. -/
def Claimed (s : Store) (r : Reservation) : Prop :=
  ∃ x ∈ s.claims, x.program = r.program ∧ x.attempt.val = r.attempt

instance (s : Store) (r : Reservation) : Decidable (s.Claimed r) :=
  inferInstanceAs (Decidable (∃ x ∈ s.claims, _))

/-- The bytes attributed to a reservation. -/
def attributed (s : Store) (r : Reservation) : ℕ :=
  if s.Claimed r then max (s.held r) (s.artifactBytes r.operation) else s.held r

/-- The bytes attributed to the work of a scope. -/
def retainedTotal (s : Store) (scope : Scope) (identity : Name) : ℕ :=
  ((inScope s.reservations scope identity).map s.attributed).sum

/-- Whether an Attempt has a claim is read off its records. -/
theorem attemptWorkClaim_ne_none {r : Reservation} {claim : Option WorkClaim}
    (h : s.attemptWorkClaim r.program r.attempt = .ok claim) : claim ≠ none ↔ s.Claimed r := by
  have hof : (∃ x, x ∈ s.claims.filter fun x => x.program = r.program ∧ x.attempt.val = r.attempt) ↔
      s.Claimed r :=
    exists_congr fun x => by rw [List.mem_filter, decide_eq_true_eq]
  rw [← hof]
  unfold attemptWorkClaim at h
  revert h
  generalize s.claims.filter _ = rows
  intro h
  match rows with
  | [] =>
    obtain rfl := Except.ok.inj h
    simp
  | [x] =>
    obtain ⟨claim', -, rfl⟩ := map_eq_ok.1 h
    simp
  | x :: y :: rest => cases h

theorem retainedWorkBytes_eq (h : ClaimInv s) (r : Reservation) :
    s.retainedWorkBytes r = .ok (s.attributed r) := by
  obtain ⟨claim, hclaim⟩ := h.attemptWorkClaim r.program r.attempt
  refine bind_of_ok hclaim ?_
  have hiff := attemptWorkClaim_ne_none hclaim
  unfold attributed
  cases claim with
  | none => rw [if_neg fun hc => hiff.2 hc rfl]; rfl
  | some claim => rw [if_pos (hiff.1 nofun)]; rfl

/-- The accounting is what the store computes. -/
theorem retainedBytesIn_eq (h : ClaimInv s) (scope : Scope) (identity : Name) :
    s.retainedBytesIn scope identity = .ok (s.retainedTotal scope identity) := by
  refine bind_of_ok (a := (inScope s.reservations scope identity).map s.attributed) ?_ rfl
  rw [mapM_eq_ok, List.forall₂_map_right_iff]
  exact List.forall₂_same.2 fun r _ => retainedWorkBytes_eq h r

/-! ## The invariant -/

/-- The bytes attributed to every scope are within its policy, and the retained bytes on record
are of reserved operations. -/
structure RetentionInv (s : Store) : Prop extends EnvelopeInv s where
  kept : ∀ x ∈ s.retained, ∃ r ∈ s.reservations, r.operation = x.operation
  program : ∀ b ∈ s.bindings, s.retainedTotal .program b.program ≤ b.policy.retainedBytes
  project : ∀ p ∈ s.projects, s.retainedTotal .project p.project ≤ p.policy.retainedBytes

omit [Sha256] in
/-- Nothing is attributed to a scope without reservations. -/
theorem retainedTotal_of_nil (h : inScope s.reservations scope identity = []) :
    s.retainedTotal scope identity = 0 := by
  rw [retainedTotal, h]
  rfl

omit [Sha256] in
/-- The attribution of an item that gives up bytes, or that is left alone. -/
theorem retainedTotal_le (hr : s'.reservations = s.reservations)
    (h : ∀ r ∈ s.reservations, s'.attributed r ≤ s.attributed r) :
    s'.retainedTotal scope identity ≤ s.retainedTotal scope identity := by
  unfold retainedTotal
  rw [hr]
  exact List.sum_le_sum fun r hm => h r (List.mem_of_mem_filter hm)

omit [Sha256] in
/-- The attribution is read from the claims, the retained records and the artifacts. -/
theorem attributed_congr (hc : s'.claims = s.claims) (hk : s'.retained = s.retained)
    (ha : s'.artifacts = s.artifacts) (r : Reservation) : s'.attributed r = s.attributed r := by
  have hclaimed : s'.Claimed r ↔ s.Claimed r := by rw [Claimed, Claimed, hc]
  have hheld : s'.held r = s.held r := by rw [held, held, hk]
  have hbytes : s'.artifactBytes r.operation = s.artifactBytes r.operation := by
    rw [artifactBytes, artifactBytes, ha]
  rw [attributed, attributed, hheld, hbytes, if_congr hclaimed rfl rfl]

omit [Sha256] in
/-- A write that keeps the envelopes and the reservations, and attributes no more. -/
theorem RetentionInv.of_le (h : RetentionInv s) (henv : EnvelopeInv s')
    (hp : s'.projects = s.projects) (hb : s'.bindings = s.bindings)
    (hr : s'.reservations = s.reservations)
    (hk : ∀ x ∈ s'.retained, ∃ r ∈ s.reservations, r.operation = x.operation)
    (ha : ∀ r ∈ s.reservations, s'.attributed r ≤ s.attributed r) : RetentionInv s' := by
  refine ⟨henv, hr ▸ hk, fun b hm => ?_, fun p hm => ?_⟩
  · exact (retainedTotal_le hr ha).trans (h.program b (hb ▸ hm))
  · exact (retainedTotal_le hr ha).trans (h.project p (hp ▸ hm))

/-- A configuration: a new scope has no reservations. -/
theorem RetentionInv.configure (h : RetentionInv s) {programId projectId : Name}
    {project task : WorkBudgetPolicy} {projection : DeadlineProjection}
    (hc : s.configureBudget programId projectId project task projection = .ok s') :
    RetentionInv s' := by
  have henv := h.toEnvelopeInv.configure hc
  obtain ⟨existing, head, projects, hexisting, -, -, hp, hrest⟩ := configureBudget_spec hc
  have hproject : ∀ p ∈ projects,
      s.retainedTotal .project p.project ≤ p.policy.retainedBytes := by
    intro p hpm
    obtain ⟨hnone, rfl⟩ | ⟨-, rfl⟩ := Rows.insertOnce_eq_ok.1 hp
    · cases List.mem_append.1 hpm with
      | inl hpm => exact h.project p hpm
      | inr hpm =>
        obtain rfl := List.mem_singleton.1 hpm
        rw [retainedTotal_of_nil (List.filter_eq_nil_iff.2 fun r hr hscope => ?_)]
        · exact Nat.zero_le _
        · obtain ⟨b, hb, -, hbr⟩ := h.reserved r hr
          obtain ⟨p, hp, hpb⟩ := h.owned b hb
          exact Rows.find_eq_none_iff.1 hnone p hp
            (hpb.trans (hbr.trans (of_decide_eq_true hscope)))
    · exact h.project p hpm
  obtain ⟨bindings, hb, rfl⟩ | ⟨binding, revisions, rfl, -, -, -, -, -, rfl⟩ := hrest
  · refine ⟨henv, h.kept, fun b hbm => ?_, hproject⟩
    obtain ⟨hnone, rfl⟩ | ⟨-, rfl⟩ := Rows.insertOnce_eq_ok.1 hb
    · cases List.mem_append.1 hbm with
      | inl hbm => exact h.program b hbm
      | inr hbm =>
        obtain rfl := List.mem_singleton.1 hbm
        refine le_of_eq_of_le (retainedTotal_of_nil (List.filter_eq_nil_iff.2
          fun r hr hscope => ?_)) (Nat.zero_le _)
        obtain ⟨b, hb, hbr, -⟩ := h.reserved r hr
        exact Rows.find_eq_none_iff.1 hnone b hb (hbr.trans (of_decide_eq_true hscope))
    · exact h.program b hbm
  · exact ⟨henv, h.kept, h.program, hproject⟩

/-- A new reservation attributes the bytes it asks for, if the artifacts of its operation do not
already have more of them under a claim. -/
theorem RetentionInv.reserve (h : RetentionInv s) (hclaims : ClaimInv s) {binding : Binding}
    {r : Reservation} (hb : s.workBinding r.program = .ok (some binding))
    (hp : r.project = binding.project) (hn : s.reservation r.operation = none)
    (hc : s.checkReservation cut binding r = .ok ())
    (hcovers : s.Claimed r → s.artifactBytes r.operation ≤ r.retainedBytes)
    (henv : EnvelopeInv { s with reservations := s.reservations ++ [r] }) :
    RetentionInv { s with reservations := s.reservations ++ [r] } := by
  obtain ⟨hprogram, hproject⟩ := h.checked hb hp hc
  -- the operation has no retained record yet, so it holds what it asks for
  have hheld : s.held r = r.retainedBytes := by
    have hnone : Rows.find RetainedRecord.operation s.retained r.operation = none := by
      rw [Rows.find_eq_none_iff]
      intro x hx hxr
      obtain ⟨r', hr', hop⟩ := h.kept x hx
      exact Rows.find_eq_none_iff.1 hn r' hr' (hop.trans hxr)
    rw [held, hnone]
    rfl
  have hattributed : s.attributed r = r.retainedBytes := by
    unfold attributed
    split
    · rename_i hclaimed
      rw [hheld, max_eq_left (hcovers hclaimed)]
    · exact hheld
  have htotal : ∀ scope identity policy, (Reservation.scope r scope = identity →
      s.checkCapacity r.program r.attempt r.category r.retainedBytes scope identity policy =
        .ok ()) → s.retainedTotal scope identity ≤ policy.retainedBytes →
      ({ s with reservations := s.reservations ++ [r] } : Store).retainedTotal scope identity ≤
        policy.retainedBytes := by
    intro scope identity policy hcheck hle
    have hsum : ({ s with reservations := s.reservations ++ [r] } : Store).retainedTotal scope
        identity = s.retainedTotal scope identity +
          ((if Reservation.scope r scope = identity then [r] else []).map s.attributed).sum := by
      show ((inScope (s.reservations ++ [r]) scope identity).map s.attributed).sum = _
      rw [inScope_append, List.map_append, List.sum_append]
      rfl
    rw [hsum]
    split
    · rename_i hs
      obtain ⟨-, hrest⟩ := check_bind_eq_ok.1 (hcheck hs)
      obtain ⟨-, hrest⟩ := check_bind_eq_ok.1 hrest
      rw [retainedBytesIn_eq hclaims] at hrest
      rw [List.map_singleton, List.sum_singleton, hattributed]
      exact check_eq_ok.1 hrest
    · exact hle
  refine ⟨henv, fun x hx => ?_, fun b hbm => ?_, fun p hpm => ?_⟩
  · obtain ⟨r', hr', hop⟩ := h.kept x hx
    exact ⟨r', List.mem_append_left _ hr', hop⟩
  · exact htotal _ _ _ (fun hs => by rw [← hs]; exact hprogram b hbm hs.symm) (h.program b hbm)
  · exact htotal _ _ _ (fun hs => by rw [← hs]; exact hproject p hpm hs.symm) (h.project p hpm)

omit [Sha256] in
/-- A record of retained bytes only gives bytes up. -/
theorem RetentionInv.retain (h : RetentionInv s) {operationId : String} {n : ℕ}
    (hr : s.recordRetainedBytes operationId n = .ok ((), s')) : RetentionInv s' := by
  obtain ⟨x, rows, hx, hle, hrows, rfl⟩ := recordRetainedBytes_spec hr
  obtain ⟨hxm, hxop⟩ := Rows.mem_of_find hx
  refine h.of_le ⟨h.programs, h.projects, h.revised, h.owned, h.operations, h.reserved⟩ rfl rfl rfl
    (fun y hy => ?_) fun r hrm => ?_
  · obtain ⟨-, rfl⟩ | ⟨-, rfl⟩ := Rows.insertOnce_eq_ok.1 hrows
    · rcases List.mem_append.1 hy with hy | hy
      · exact h.kept y hy
      · obtain rfl := List.mem_singleton.1 hy
        exact ⟨x, hxm, hxop⟩
    · exact h.kept y hy
  · have hheld : ({ s with retained := rows } : Store).held r ≤ s.held r := by
      obtain ⟨hnone, rfl⟩ | ⟨-, rfl⟩ := Rows.insertOnce_eq_ok.1 hrows
      · unfold held
        rw [Rows.find_append, Rows.find_singleton]
        cases hf : Rows.find RetainedRecord.operation s.retained r.operation with
        | some y => exact le_rfl
        | none =>
          show Option.elim (if operationId = r.operation then some _ else none) _ _ ≤ _
          split
          · rename_i hop
            -- the reservation of the operation is the one that was read
            obtain rfl : x = r := List.inj_on_of_nodup_map h.operations hxm hrm (hxop.trans hop)
            exact hle
          · exact le_rfl
      · exact le_rfl
    unfold attributed
    show (if s.Claimed r then max _ (s.artifactBytes r.operation) else _) ≤ _
    split
    · exact max_le_max hheld le_rfl
    · exact hheld

/-! ## Artifacts -/

omit [Sha256] in
/-- The bytes of the artifacts of an operation after one more was stored. -/
theorem artifactBytes_insert {a : ArtifactReference} {rows : List ArtifactReference}
    (hrows : Rows.insertOnce ArtifactReference.key immutableArtifact s.artifacts a = .ok rows)
    (hsize : ∀ x ∈ s.artifacts, x.digest = a.digest → x.size = a.size) (operationId : String) :
    ({ s with artifacts := rows } : Store).artifactBytes operationId ≤ s.artifactBytes operationId +
      if a.operationId = operationId ∧
        ¬∃ x ∈ s.artifacts, x.operationId = operationId ∧ x.digest = a.digest then a.size else 0 := by
  obtain ⟨-, rfl⟩ | ⟨-, rfl⟩ := Rows.insertOnce_eq_ok.1 hrows
  · unfold artifactBytes
    show ((((s.artifacts ++ [a]).filter fun x => x.operationId = operationId).map fun x =>
      (x.digest, x.size)).dedup.map Prod.snd).sum ≤ _
    rw [List.filter_append, List.filter_singleton]
    by_cases hop : a.operationId = operationId
    · rw [decide_eq_true hop]
      show (((_ ++ [a]).map _).dedup.map _).sum ≤ _
      rw [List.map_append, List.map_singleton, sum_dedup_concat]
      refine Nat.add_le_add_left ?_ _
      by_cases hpresent : ∃ x ∈ s.artifacts, x.operationId = operationId ∧ x.digest = a.digest
      · obtain ⟨x, hx, hxop, hxd⟩ := hpresent
        have hpair : (x.digest, x.size) = (a.digest, a.size) := by rw [hxd, hsize x hx hxd]
        have hmem : (a.digest, a.size) ∈ (s.artifacts.filter fun x => x.operationId =
            operationId).map fun x => (x.digest, x.size) :=
          hpair ▸ List.mem_map_of_mem (List.mem_filter.2 ⟨hx, decide_eq_true hxop⟩)
        rw [if_pos hmem]
        exact Nat.zero_le _
      · have hnew : a.operationId = operationId ∧ ¬∃ x ∈ s.artifacts, x.operationId = operationId ∧
            x.digest = a.digest := ⟨hop, hpresent⟩
        rw [if_pos hnew]
        split
        · exact Nat.zero_le _
        · exact le_rfl
    · rw [decide_eq_false hop]
      show (((_ ++ []).map _).dedup.map _).sum ≤ _
      rw [List.append_nil]
      exact Nat.le_add_right _ _
  · exact Nat.le_add_right _ _

/-- An artifact is attributed to the work of its operation, if that is claimed. -/
theorem attributed_finalize {operationId name : String} {data : Bytes}
    (h : s.finalizeArtifact operationId name data = .ok s') (r : Reservation) :
    s'.attributed r ≤ if r.operation = operationId ∧ s.Claimed r then
      max (s.attributed r) (s.artifactBytes operationId +
        if ∃ a ∈ s.artifacts, a.operationId = operationId ∧ a.digest = bytesDigest data then 0
        else data.length)
      else s.attributed r := by
  obtain ⟨-, hsize, rows, hrows, rfl⟩ := finalizeArtifact_spec h
  have hbytes := artifactBytes_insert hrows hsize r.operation
  have hattributed : ({ s with artifacts := rows } : Store).attributed r =
      if s.Claimed r then max (s.held r)
        (({ s with artifacts := rows } : Store).artifactBytes r.operation) else s.held r := rfl
  rw [hattributed]
  by_cases hc : s.Claimed r
  · rw [if_pos hc]
    by_cases hop : r.operation = operationId
    · subst hop
      rw [if_pos ⟨rfl, hc⟩, attributed, if_pos hc]
      refine max_le ((le_max_left _ _).trans (le_max_left _ _)) (hbytes.trans ?_)
      refine le_trans (Nat.add_le_add_left ?_ _) (le_max_right _ _)
      by_cases hpresent : ∃ a ∈ s.artifacts, a.operationId = r.operation ∧
          a.digest = bytesDigest data
      · rw [if_neg fun hn => hn.2 hpresent, if_pos hpresent]
      · rw [if_pos ⟨rfl, hpresent⟩, if_neg hpresent]
    · rw [if_neg fun hn => hop hn.1, attributed, if_pos hc]
      refine max_le_max le_rfl (hbytes.trans ?_)
      rw [if_neg fun hn => hop hn.1.symm, Nat.add_zero]
  · rw [if_neg hc, if_neg fun hn => hc hn.2, attributed, if_neg hc]

/-- The policy of a scope that has one. -/
def Governed (s : Store) (identity : Name) (policy : WorkBudgetPolicy) : Scope → Prop
  | .program => ∃ b ∈ s.bindings, b.program = identity ∧ b.policy = policy
  | .project => ∃ p ∈ s.projects, p.project = identity ∧ p.policy = policy

/-- The check of an artifact of claimed work, in a scope of the work. -/
theorem checkOwnedArtifactBudget_scope (hclaims : ClaimInv s) (henv : EnvelopeInv s)
    {operationId : String} {digest : Name} {size : ℕ} {r : Reservation}
    (hr : s.reservation operationId = some r) (hc : s.Claimed r)
    (h : s.checkOwnedArtifactBudget operationId digest size = .ok ()) {policy : WorkBudgetPolicy}
    (hg : s.Governed (Reservation.scope r scope) policy scope) :
    s.retainedTotal scope (Reservation.scope r scope) + (max (s.attributed r)
      (s.artifactBytes operationId +
        if ∃ a ∈ s.artifacts, a.operationId = operationId ∧ a.digest = digest then 0 else size) -
      s.attributed r) ≤ policy.retainedBytes := by
  obtain ⟨claim, hclaim⟩ := hclaims.attemptWorkClaim r.program r.attempt
  unfold checkOwnedArtifactBudget at h
  rw [hr] at h
  simp only [hclaim, ok_bind] at h
  cases claim with
  | none => exact absurd rfl ((attemptWorkClaim_ne_none hclaim).2 hc)
  | some claim =>
    simp only [retainedWorkBytes_eq hclaims, ok_bind] at h
    obtain ⟨binding, hbinding, h⟩ := bind_eq_ok.1 h
    cases binding with
    | none => cases h
    | some binding =>
      obtain ⟨project, hproject, h⟩ := bind_eq_ok.1 h
      obtain ⟨hpm, hpk⟩ := Rows.mem_of_find (lookup_eq_ok.1 hproject)
      have hmem : (scope, Reservation.scope r scope, policy) ∈
          scopes r.program { binding with project := r.project } project := by
        cases scope with
        | program =>
          obtain ⟨b, hbm, hbp, rfl⟩ := hg
          obtain ⟨b', hbm', hbp', -, -, hsame, -⟩ := henv.workBinding hbinding
          obtain rfl : b = b' := List.inj_on_of_nodup_map henv.programs hbm hbm'
            (hbp.trans hbp'.symm)
          rw [hsame]
          exact List.mem_cons_self
        | project =>
          obtain ⟨p, hpm', hpp, rfl⟩ := hg
          obtain rfl : p = project := List.inj_on_of_nodup_map henv.projects hpm' hpm
            (hpp.trans hpk.symm)
          exact List.mem_cons_of_mem _ List.mem_cons_self
      have hcheck := forM_eq_ok.1 h _ hmem
      simp only [retainedBytesIn_eq hclaims, ok_bind, check_eq_ok] at hcheck
      exact hcheck

/-- A stored artifact leaves the scopes it does not count in alone, and stays within the policy of
those it counts in. -/
theorem retainedTotal_finalize (hclaims : ClaimInv s) (henv : EnvelopeInv s)
    {operationId name : String} {data : Bytes}
    (h : s.finalizeArtifact operationId name data = .ok s') :
    (∀ identity, (∀ r, s.reservation operationId = some r → s.Claimed r →
      Reservation.scope r scope ≠ identity) →
      s'.retainedTotal scope identity ≤ s.retainedTotal scope identity) ∧
    ∀ r policy, s.reservation operationId = some r → s.Claimed r →
      s.Governed (Reservation.scope r scope) policy scope →
      s'.retainedTotal scope (Reservation.scope r scope) ≤ policy.retainedBytes := by
  have hreservations : s'.reservations = s.reservations := by rw [finalizeArtifact_frame h]
  have hattributed := attributed_finalize h
  have hfind : ∀ {r : Reservation}, r ∈ s.reservations → r.operation = operationId →
      s.reservation operationId = some r := fun hr hop =>
    hop ▸ Rows.find_of_mem henv.operations hr
  constructor
  · intro identity hother
    unfold retainedTotal
    rw [hreservations]
    refine List.sum_le_sum fun r hr => ?_
    obtain ⟨hrm, hscope⟩ := List.mem_filter.1 hr
    refine (hattributed r).trans (le_of_eq (if_neg fun hn => ?_))
    exact hother r (hfind hrm hn.1) hn.2 (of_decide_eq_true hscope)
  · intro r policy hr hc hg
    have hcheck := checkOwnedArtifactBudget_scope hclaims henv hr hc
      (finalizeArtifact_spec h).1 hg
    refine le_trans ?_ hcheck
    unfold retainedTotal
    rw [hreservations]
    refine sum_map_le_add (k := operationId)
      (henv.operations.sublist (List.filter_sublist.map _)) (fun x hx hop => ?_) fun x hx hop => ?_
    · exact (hattributed x).trans (le_of_eq (if_neg fun hn => hop hn.1))
    · obtain rfl : x = r := Option.some.inj
        ((hfind (List.mem_of_mem_filter hx) hop).symm.trans hr)
      have hle := hattributed x
      rw [if_pos ⟨hop, hc⟩] at hle
      omega

/-! ## One write -/

omit [Sha256] in
theorem RetentionInv.governed (h : RetentionInv s) {policy : WorkBudgetPolicy}
    (hg : s.Governed identity policy scope) :
    s.retainedTotal scope identity ≤ policy.retainedBytes := by
  cases scope with
  | program =>
    obtain ⟨b, hb, rfl, rfl⟩ := hg
    exact h.program b hb
  | project =>
    obtain ⟨p, hp, rfl, rfl⟩ := hg
    exact h.project p hp

omit [Sha256] in
/-- The invariant in terms of the scopes. -/
theorem RetentionInv.of_governed (henv : EnvelopeInv s)
    (hk : ∀ x ∈ s.retained, ∃ r ∈ s.reservations, r.operation = x.operation)
    (h : ∀ scope identity policy, s.Governed identity policy scope →
      s.retainedTotal scope identity ≤ policy.retainedBytes) : RetentionInv s :=
  ⟨henv, hk, fun b hb => h .program _ _ ⟨b, hb, rfl, rfl⟩,
    fun p hp => h .project _ _ ⟨p, hp, rfl, rfl⟩⟩

/-- A stored artifact keeps the invariant. -/
theorem RetentionInv.finalize (h : RetentionInv s) (hclaims : ClaimInv s)
    {operationId name : String} {data : Bytes}
    (hf : s.finalizeArtifact operationId name data = .ok s') : RetentionInv s' := by
  have htotal {scope : Scope} := @retainedTotal_finalize _ s s' scope hclaims h.toEnvelopeInv _ _ _ hf
  have hframe := finalizeArtifact_frame hf
  have henv : EnvelopeInv s' := by
    rw [hframe]
    exact ⟨h.programs, h.projects, h.revised, h.owned, h.operations, h.reserved⟩
  refine .of_governed henv (by rw [hframe]; exact h.kept) fun scope identity policy hg => ?_
  have hg' : s.Governed identity policy scope := by
    rw [hframe] at hg
    exact hg
  by_cases hin : ∃ r, s.reservation operationId = some r ∧ s.Claimed r ∧
      Reservation.scope r scope = identity
  · obtain ⟨r, hr, hc, rfl⟩ := hin
    exact htotal.2 r policy hr hc hg'
  · refine (htotal.1 identity fun r hr hc hscope => ?_).trans (h.governed hg')
    exact hin ⟨r, hr, hc, hscope⟩

/-- A write that takes no claim keeps the invariant, if a new reservation covers the artifacts of
its operation. -/
theorem RetentionInv.write {R : Store → Reservation → Prop}
    {U : Store → String → UsageObservation → Prop} (h : RetentionInv s) (hclaims : ClaimInv s)
    (hw : Write R U s s') (hsame : s'.claims = s.claims)
    (hR : ∀ r, R s r → s.reservation r.operation = none → s.Claimed r →
      s.artifactBytes r.operation ≤ r.retainedBytes) : RetentionInv s' := by
  have henv := h.toEnvelopeInv.write hw
  have hstay (hf : s'.projects = s.projects ∧ s'.bindings = s.bindings ∧
      s'.reservations = s.reservations ∧ s'.retained = s.retained ∧
      s'.artifacts = s.artifacts) : RetentionInv s' := by
    obtain ⟨hp, hb, hr, hk, ha⟩ := hf
    exact h.of_le henv hp hb hr (hk ▸ h.kept) fun r _ => (attributed_congr hsame hk ha r).le
  cases hw with
  | configured hc => exact h.configure hc
  | reserved hb hp hn hc hask => exact h.reserve hclaims hb hp hn hc (hR _ hask hn) henv
  | retained hr => exact h.retain hr
  | finalized hf => exact h.finalize hclaims hf
  | claimed _ hf =>
    have hlength := congrArg List.length hsame
    rw [finalizeArtifact_frame hf] at hlength
    exact absurd hlength (by simp)
  | created hc =>
    exact hstay (by rw [create_frame hc]; exact ⟨rfl, rfl, rfl, rfl, rfl⟩)
  | settled operationId evidence =>
    exact hstay (by rw [settleOperation_frame]; exact ⟨rfl, rfl, rfl, rfl, rfl⟩)
  | qualified _ hq =>
    exact hstay (by rw [recordSettlementBasis_frame hq]; exact ⟨rfl, rfl, rfl, rfl, rfl⟩)
  | used _ hu =>
    exact hstay (by rw [recordUsage_frame hu]; exact ⟨rfl, rfl, rfl, rfl, rfl⟩)
  | dispatched hd =>
    exact hstay (by rw [bindWorkDispatch_frame hd]; exact ⟨rfl, rfl, rfl, rfl, rfl⟩)
  | recorded | intended | fenced | reported | revoked | renewed | proved | released
  | quarantined | unbound => exact hstay ⟨rfl, rfl, rfl, rfl, rfl⟩

/-! ## A claim -/

/-- Preparing an Attempt under an envelope reserves the operation of its effect. -/
theorem reservePrepared_reserved {programId : Name} {attempt : AttemptSpec} {intent : Intent}
    {n : ℕ} {binding : Binding} (hb : s.workBinding programId = .ok (some binding))
    (h : s.reservePrepared cut programId attempt (some intent) n = .ok s') :
    ∃ r, s'.reservation intent.operationId = some r ∧ r.program = programId ∧
      r.attempt = attempt.attemptId.val := by
  obtain ⟨binding', hbinding, h⟩ := bind_eq_ok.1 h
  obtain rfl : some binding = binding' := Except.ok.inj (hb.symm.trans hbinding)
  have hreserve : (s.reserveRemediation cut programId attempt >>= fun t =>
      t.reserve cut programId attempt.attemptId.val intent.operationId .attempt n) = .ok s' := h
  obtain ⟨t, -, hreserve⟩ := bind_eq_ok.1 hreserve
  obtain ⟨binding'', -, ⟨hr, rfl⟩ | ⟨hn, -, rfl⟩⟩ := reserve_spec hreserve
  · exact ⟨_, hr, rfl, rfl⟩
  · refine ⟨⟨programId, binding''.project, attempt.attemptId.val, intent.operationId, .attempt, n⟩,
      ?_, rfl, rfl⟩
    show Rows.find Reservation.operation (t.reservations ++ [_]) _ = _
    have hn' : Rows.find Reservation.operation t.reservations intent.operationId = none := hn
    rw [Rows.find_append, hn', Option.none_or, Rows.find_singleton, if_pos rfl]

/-- The store with the record of a granted claim keeps the invariant once the snapshot is stored:
the check of the snapshot counts all bytes of the claimed work. -/
theorem RetentionInv.grant {t : Store} {r : ClaimRecord} {x : Reservation}
    {operationId name : String} {data : Bytes} (h : RetentionInv t)
    (hclaims : ClaimInv { t with claims := t.claims ++ [r] })
    (hx : t.reservation operationId = some x) (hprogram : x.program = r.program)
    (hattempt : x.attempt = r.attempt.val)
    (hf : { t with claims := t.claims ++ [r] }.finalizeArtifact operationId name data = .ok s') :
    RetentionInv s' := by
  have henv : EnvelopeInv { t with claims := t.claims ++ [r] } :=
    ⟨h.programs, h.projects, h.revised, h.owned, h.operations, h.reserved⟩
  have htotal {scope : Scope} := @retainedTotal_finalize _ _ s' scope hclaims henv _ _ _ hf
  have hframe := finalizeArtifact_frame hf
  have hxm := (Rows.mem_of_find hx).1
  have hclaimed : ({ t with claims := t.claims ++ [r] } : Store).Claimed x :=
    ⟨r, List.mem_append_right _ (List.mem_singleton_self _), hprogram.symm, hattempt.symm⟩
  refine .of_governed (by rw [hframe]; exact
    ⟨h.programs, h.projects, h.revised, h.owned, h.operations, h.reserved⟩)
    (by rw [hframe]; exact h.kept) fun scope identity policy hg => ?_
  have hg' : t.Governed identity policy scope := by
    rw [hframe] at hg
    exact hg
  by_cases hin : Reservation.scope x scope = identity
  · subst hin
    exact htotal.2 x policy hx hclaimed hg'
  · refine (htotal.1 identity fun y hy _ => ?_).trans (le_trans ?_ (h.governed hg'))
    · obtain rfl : x = y := Option.some.inj (hx.symm.trans hy)
      exact hin
    · -- no other reservation of the scope is of the claimed Attempt
      refine List.sum_le_sum fun y hy => ?_
      obtain ⟨hym, hscope⟩ := List.mem_filter.1 hy
      have hsame : ({ t with claims := t.claims ++ [r] } : Store).Claimed y ↔ t.Claimed y := by
        refine ⟨fun ⟨z, hz, hzp, hza⟩ => ?_, fun ⟨z, hz, hzp, hza⟩ =>
          ⟨z, List.mem_append_left _ hz, hzp, hza⟩⟩
        rcases List.mem_append.1 hz with hz | hz
        · exact ⟨z, hz, hzp, hza⟩
        · obtain rfl := List.mem_singleton.1 hz
          refine absurd ((?_ : Reservation.scope x scope = Reservation.scope y scope).trans
            (of_decide_eq_true hscope)) hin
          have hp : x.program = y.program := hprogram.trans hzp
          cases scope with
          | program => exact hp
          | project =>
            obtain ⟨b, hb, hbp, hbj⟩ := h.reserved x hxm
            obtain ⟨b', hb', hbp', hbj'⟩ := h.reserved y hym
            obtain rfl : b = b' := List.inj_on_of_nodup_map h.programs hb hb'
              (hbp.trans (hp.trans hbp'.symm))
            exact hbj.symm.trans hbj'
      exact le_of_eq (if_congr hsame rfl rfl)

/-! ## Runs -/

/-- A reservation the call newly asks for covers the artifacts that its operation already has,
where its Attempt is claimed. -/
def Covers (s : Store) : Option Call → Prop
  | none => True
  | some c => ∀ r, s.Asks c r → s.reservation r.operation = none → s.Claimed r →
    s.artifactBytes r.operation ≤ r.retainedBytes

/-- The writes of a call that take no claim keep the invariant. -/
theorem RetentionInv.writes {U : Store → String → UsageObservation → Prop} (h : RetentionInv s)
    (hagree : s.aggregates.Agreeing) (hclaims : ClaimInv s)
    (hw : Writes (fun t r => s.reservation r.operation = none → t.Claimed r →
      t.artifactBytes r.operation ≤ r.retainedBytes) U s s') (hsame : s'.claims = s.claims) :
    RetentionInv s' := by
  have hP := invariant_of_unclaimed
    (P := fun t : Store => RetentionInv t ∧ s.reservations ⊆ t.reservations)
    (fun t u ht htc hw hu => ?_) ⟨h, List.Subset.refl _⟩ hagree hclaims hw hsame
  · exact hP.1.1
  · refine ⟨ht.1.write htc hw hu fun r hR hn => hR ?_, ?_⟩
    · exact Rows.find_eq_none_iff.2 fun x hx => Rows.find_eq_none_iff.1 hn x (ht.2 hx)
    · rcases hw.reservations_or with hr | ⟨_, _, _, -, -, -, -, -, rfl⟩
      · rw [hr]
        exact ht.2
      · exact List.subset_append_of_subset_left _ ht.2

/-- The step: a call that meets the condition, and every reopening, keeps the invariant. -/
theorem RetentionInv.next (h : RetentionInv s) (hagree : s.aggregates.Agreeing)
    (hclaims : ClaimInv s) {c : Option Call} (hc : s.Covers c) :
    RetentionInv (s.nextOrReopen c) := by
  cases c with
  | none =>
    refine settle_of (P := RetentionInv) h fun n t hr => ?_
    obtain ⟨r, -, hr⟩ := map_eq_ok.1 hr
    cases hr
    exact ⟨⟨h.programs, h.projects, h.revised, h.owned, h.operations, h.reserved⟩, h.kept,
      h.program, h.project⟩
  | some c =>
    have hask : ∀ (t : Store) r, t = { s with reservations := t.reservations } → s.Asks c r →
        s.reservation r.operation = none → t.Claimed r →
          t.artifactBytes r.operation ≤ r.retainedBytes := by
      intro t r ht hr hn hclaimed
      rw [ht] at hclaimed ⊢
      exact hc r hr hn hclaimed
    by_cases hwork : ∃ cut q, c = .claimWork cut q
    · obtain ⟨cut, q, rfl⟩ := hwork
      refine settle_of (P := RetentionInv) h fun claim s' hclaim => ?_
      rcases claimWork_cases hclaim with rfl | ⟨t, r, hg, hn, hf⟩
      · exact h
      · obtain ⟨p, hp⟩ := hg.admitted
        have hw : Writes _ (fun _ _ _ => True) s t :=
          admitDecision_writes (fun u x attempt hu ha hx => hask u x hu (by cases ha; exact hx)) hp
        have ht := h.writes hagree hclaims hw (admitDecision_claims hp)
        obtain ⟨hagree', hcontinues⟩ := agreeing_writes hagree hw
        have hgrant : ClaimInv { t with claims := t.claims ++ [r] } := by
          refine hclaims.grant hagree hagree' hcontinues hg hn ?_ ?_ rfl
          · show t.claims ++ [r] = _
            rw [admitDecision_claims hp]
          · show t.releases = _
            rw [admitDecision_frame hp]
        obtain ⟨-, -, -, -, -, -, t', hcouple, hreservations⟩ := admitDecision_head hagree hn hp
        obtain ⟨binding, hb, hauthority⟩ := bind_eq_ok.1 hg.authority
        cases binding with
        | none => cases hauthority
        | some binding =>
          obtain ⟨x, hx, hprogram, hattempt⟩ := reservePrepared_reserved hb hcouple
          obtain ⟨expiresAt, hrecord⟩ := hg.record
          have hx' : t.reservation q.intent.operationId = some x := by
            rw [reservation, hreservations]
            exact hx
          exact ht.grant hgrant hx' (hprogram.trans (by rw [hrecord]))
            (hattempt.trans (by rw [hrecord])) hf
    · exact h.writes hagree hclaims (next_writes (U := fun _ _ _ => True) hask
        fun _ _ _ => trivial) (next_unclaimed (by rintro cut q rfl; exact hwork ⟨cut, q, rfl⟩))

end Store

end CreatidyKernel

namespace CreatidyKernel

open Checked Runs

namespace Store

/-! ## A run that exceeds the budget -/

namespace Sample

open CreatidyKernel.Sample (spec unit program activate)

attribute [local instance] CreatidyKernel.Sample.sha256

/-- The new Program, activated. -/
def running : Program := { program with
  status := .active
  revision := 1
  workUnitStates := [⟨unit.workUnitId, .ready⟩] }

/-- An Attempt in a workspace. -/
def owned : AttemptSpec := { CreatidyKernel.Sample.attempt with
  workspaceReference := some ⟨"/work", by decide⟩
  specRevisionPos := Nat.one_pos }

def prepare : DomainCommand := ⟨1, ⟨"owner", Nonblank.owner⟩, .prepareAttempt owned⟩

/-- The running Program with the Attempt. -/
def staffed : Program := { running with
  revision := 2
  attempts := [⟨owned, .prepared, ⟨"owner", Nonblank.owner⟩⟩]
  workUnitStates := [⟨unit.workUnitId, .active owned.attemptId⟩] }

/-- The rows of the running Program. -/
def opened : Aggregates := created.commit running
  (Aggregates.commandRow spec.programId 2 "activate" activate running (Aggregates.facts running))

/-- The rows of the Program with the Attempt. -/
def manned : Aggregates := opened.commit staffed
  (Aggregates.commandRow spec.programId 3 "claim" prepare staffed (Aggregates.facts staffed))

/-- Capacity for a few bytes. -/
def tight : WorkBudgetPolicy := { policy with retainedBytes := 3, retainedBytes_pos := by decide }

/-- The envelope of the Program. -/
def envelope : Binding := ⟨spec.programId, project, tight, projection, spec.digest⟩

/-- The Program and its envelope, which is not revoked. -/
structure Standing (s : Store) (p : Program) : Prop where
  heads : s.aggregates.heads.map HeadRow.programId = [spec.programId]
  load : s.loadHead spec.programId = .ok p
  unchanged : p.spec = spec
  alive : p.status ≠ .cancelled
  projects : s.projects = [⟨project, tight⟩]
  bindings : s.bindings = [envelope]
  revisions : s.revisions = []
  revoked : s.revoked = []

namespace Standing

variable {s : Store} {p : Program} (h : Standing s p)

include h

theorem workBinding : s.workBinding spec.programId = .ok (some envelope) := by
  have hfind : Rows.find Binding.program s.bindings spec.programId = some envelope := by
    rw [h.bindings]
    rfl
  unfold Store.workBinding
  rw [hfind, h.revisions]
  exact bind_of_ok h.load rfl

theorem authority : s.checkWorkAuthority cut spec.programId = .ok () :=
  bind_of_ok h.workBinding <| bind_of_ok h.load <|
    bind_of_ok (check_of (congrArg ProgramSpec.digest h.unchanged.symm)) <| bind_of_ok rfl <|
    bind_of_ok (check_of (show 1 < 100 by decide)) <|
    check_of ⟨by rw [h.revoked]; exact List.not_mem_nil, h.alive⟩

end Standing

/-- The snapshot of the workspace, and the log of a tool. -/
def bytes : Bytes := [0, 0]

/-- The running Program under its envelope. -/
def active : Store := { empty with
  aggregates := opened
  projects := [⟨project, tight⟩]
  bindings := [envelope] }

/-- The workspace of the Attempt. -/
def workspace : ResourceScope := ⟨.workspace, ⟨"/work", by decide⟩, fun _ => by decide⟩

/-- The claim of the Attempt. -/
def request : ClaimRequest where
  commandKey := ⟨"claim", by decide⟩
  claimant := ⟨"owner", Nonblank.owner⟩
  expectedRevision := 1
  attempt := owned
  mode := .managed
  profile := ⟨"local", by decide⟩
  resources := [workspace]
  workspaceSubject := bytesDigest bytes
  snapshot := bytes
  leaseSeconds := 50

/-- The reservation of the claimed Attempt. -/
def runtime : Reservation := ⟨spec.programId, project, "a1", "runtime:a1", .attempt, 2⟩

/-- The record of the claim. -/
def claimRecord : ClaimRecord := ⟨request.commandKey, 1, 50, spec.programId, owned.attemptId,
  owned.digest, request.claimant, 1, .managed, request.profile, [workspace],
  request.workspaceSubject, 51⟩

/-- The journal with the operation of the Attempt. -/
def launched : Journal := { Journal.empty with
  operations := [⟨"runtime:a1", "runtime:a1", (attemptRequest owned).json,
    Sha256.hexdigest (attemptRequest owned).json, 0, none, .intent, none, none⟩]
  outbox := ["runtime:a1"] }

/-- The Attempt is prepared. -/
def equipped : Store := { active with
  aggregates := manned
  journal := launched
  reservations := [runtime]
  dispatchBindings := [⟨spec.programId, owned.attemptId, owned.digest, owned.specDigest, 1,
    "runtime:a1", "runtime:a1", Sha256.hexdigest (attemptRequest owned).json⟩] }

/-- The Attempt is claimed. -/
def claimed : Store := { equipped with
  claims := [claimRecord]
  artifacts := [⟨"runtime:a1", "ownership-baseline", bytesDigest bytes, bytes.length⟩] }

/-- The claim of the record. -/
def owner : WorkClaim := ⟨request.commandKey, request.claimant, owned, 1, .managed,
  request.profile, [workspace], request.workspaceSubject, 51⟩

/-- The request of a tool. -/
def toolRequest : EffectRequest where
  fields := []
  wf := Json.wf_nil

/-- The journal with the operation of a tool. -/
def tooled : Journal := { launched with
  operations := launched.operations ++
    [⟨"tool", "tool", toolRequest.json, Sha256.hexdigest toolRequest.json, 0, none, .intent, none,
      none⟩]
  outbox := ["runtime:a1", "tool"] }

/-- A tool has left its log. -/
def logged : Store := { claimed with
  journal := tooled
  artifacts := claimed.artifacts ++ [⟨"tool", "log", bytesDigest bytes, bytes.length⟩] }

/-- The reservation of the tool. -/
def tool : Reservation := ⟨spec.programId, project, "a1", "tool", .tool, 0⟩

/-- The Program is created with its envelope and activated. -/
def opening : List (Option Call) :=
  [some (.create spec "create"),
    some (.configureWorkBudget spec.programId project tight tight projection),
    some (.admitCommand cut spec.programId "activate" activate none)]

/-- The new Program under its envelope. -/
def ready : Store := { empty with
  aggregates := created
  projects := [⟨project, tight⟩]
  bindings := [envelope] }

end Sample

section

attribute [local instance] CreatidyKernel.Sample.sha256

end

end Store

end CreatidyKernel
