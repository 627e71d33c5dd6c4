import CreatidyKernel.Store.Writes

set_option relaxedAutoImplicit false
set_option autoImplicit false

/-!
# Work capacity

The envelope of a Program never changes its project, its policy or its deadlines, and the policy
of a project never changes. The reservations of a Program, and those of all Programs of a
project, stay within the policy.

## Main definitions

* `Store.EnvelopeInv` — the invariant of the envelopes.
* `Store.Within` — the reservations of a scope are within a policy.
* `Store.CapacityInv` — the invariant of the capacity.

## Main results

* `Store.EnvelopeInv.workBinding` — the envelope in force is the original one.
* `Store.capacityInv_run` — the invariant holds after every run.
* `Store.work_within_capacity` — every scope is within its policy, and a reservation on record
  takes no more capacity.
-/

namespace CreatidyKernel

open Checked

/-- Two envelopes of one Program differ at most in the specification. -/
def Binding.Same (a b : Binding) : Prop :=
  a.program = b.program ∧ a.project = b.project ∧ a.policy = b.policy ∧ a.projection = b.projection

theorem Binding.Same.rfl {a : Binding} : a.Same a := ⟨.refl _, .refl _, .refl _, .refl _⟩

namespace Store

/-! ## Envelopes -/

/-- Every Program has one original envelope, a later one differs from it only in its
specification, and every reservation was made under one. -/
structure EnvelopeInv (s : Store) : Prop where
  programs : (s.bindings.map Binding.program).Nodup
  projects : (s.projects.map ProjectRecord.project).Nodup
  revised : ∀ x ∈ s.revisions, ∃ b ∈ s.bindings, b.Same x
  owned : ∀ b ∈ s.bindings, ∃ p ∈ s.projects, p.project = b.project
  operations : (s.reservations.map Reservation.operation).Nodup
  reserved : ∀ r ∈ s.reservations, ∃ b ∈ s.bindings, b.program = r.program ∧ b.project = r.project

variable [Sha256] {s s' : Store} {cut : Cut}
variable {R : Store → Reservation → Prop} {U : Store → String → UsageObservation → Prop}

/-- The envelope in force is the original one, up to its specification. -/
theorem EnvelopeInv.workBinding (h : EnvelopeInv s) {programId : Name} {x : Binding}
    (hx : s.workBinding programId = .ok (some x)) :
    ∃ b ∈ s.bindings, b.program = programId ∧ b.Same x := by
  unfold Store.workBinding at hx
  cases hf : Rows.find Binding.program s.bindings programId with
  | none => simp [hf] at hx
  | some original =>
    simp only [hf] at hx
    obtain ⟨hmem, hp⟩ := Rows.mem_of_find hf
    obtain ⟨head, -, hx⟩ := bind_eq_ok.1 hx
    cases hr : Rows.find Binding.revisionKey s.revisions (programId, head.spec.digest) with
    | none =>
      simp only [hr, Option.getD_none, pure_eq_ok, Option.some.injEq] at hx
      exact ⟨original, hmem, hp, hx ▸ .rfl⟩
    | some revised =>
      simp only [hr, Option.getD_some, pure_eq_ok, Option.some.injEq] at hx
      obtain ⟨hrm, hrk⟩ := Rows.mem_of_find hr
      obtain ⟨b, hb, hsame⟩ := h.revised revised hrm
      exact ⟨b, hb, hsame.1.trans (congrArg Prod.fst hrk), hx ▸ hsame⟩

/-- A configuration adds at most one project and one envelope, of a Program that had none, or a
later envelope that differs from the original one in its specification. -/
theorem EnvelopeInv.configure (h : EnvelopeInv s) {programId projectId : Name}
    {project task : WorkBudgetPolicy} {projection : DeadlineProjection}
    (hc : s.configureBudget programId projectId project task projection = .ok s') :
    EnvelopeInv s' := by
  obtain ⟨existing, head, projects, hexisting, -, -, hp, hrest⟩ := configureBudget_spec hc
  have hprojects : (projects.map ProjectRecord.project).Nodup :=
    Rows.nodup_insertOnce h.projects hp
  have hsub : s.projects ⊆ projects ∧ ∃ p ∈ projects, p.project = projectId := by
    obtain ⟨-, rfl⟩ | ⟨hf, rfl⟩ := Rows.insertOnce_eq_ok.1 hp
    · exact ⟨List.subset_append_left _ _, _, List.mem_append_right _ (List.mem_singleton_self _), rfl⟩
    · exact ⟨List.Subset.refl _, _, (Rows.mem_of_find hf).1, rfl⟩
  have howned : ∀ b ∈ s.bindings, ∃ p ∈ projects, p.project = b.project := fun b hb => by
    obtain ⟨p, hp, hpb⟩ := h.owned b hb
    exact ⟨p, hsub.1 hp, hpb⟩
  obtain ⟨bindings, hb, rfl⟩ | ⟨binding, revisions, rfl, h₁, h₂, h₃, h₄, hr, rfl⟩ := hrest
  · have hnodup := Rows.nodup_insertOnce h.programs hb
    obtain ⟨-, rfl⟩ | ⟨-, rfl⟩ := Rows.insertOnce_eq_ok.1 hb
    · refine ⟨hnodup, hprojects, fun x hx => ?_, fun b hb => ?_, h.operations, fun r hr => ?_⟩
      · obtain ⟨b, hb, hs⟩ := h.revised x hx
        exact ⟨b, List.mem_append_left _ hb, hs⟩
      · cases List.mem_append.1 hb with
        | inl hb => exact howned b hb
        | inr hb =>
          obtain rfl := List.mem_singleton.1 hb
          exact hsub.2
      · obtain ⟨b, hb, hbr⟩ := h.reserved r hr
        exact ⟨b, List.mem_append_left _ hb, hbr⟩
    · exact ⟨h.programs, hprojects, h.revised, howned, h.operations, h.reserved⟩
  · refine ⟨h.programs, hprojects, fun x hx => ?_, howned, h.operations, h.reserved⟩
    obtain ⟨-, rfl⟩ | ⟨-, rfl⟩ := Rows.insertOnce_eq_ok.1 hr
    · cases List.mem_append.1 hx with
      | inl hx => exact h.revised x hx
      | inr hx =>
        obtain rfl := List.mem_singleton.1 hx
        obtain ⟨b, hb, -, hs₁, hs₂, hs₃, hs₄⟩ := h.workBinding hexisting
        exact ⟨b, hb, hs₁.trans h₁, hs₂.trans h₂, hs₃.trans h₃, hs₄.trans h₄⟩
    · exact h.revised x hx

/-- A write keeps the invariant of the envelopes. -/
theorem EnvelopeInv.write (h : EnvelopeInv s) (hw : Write R U s s') : EnvelopeInv s' := by
  rcases hw.envelopes_or with ⟨hp, hb, hv⟩ | ⟨_, _, _, _, _, hc⟩
  · rcases hw.reservations_or with hr | ⟨_, _, r, hbinding, hproject, hn, -, -, rfl⟩
    · exact ⟨hb ▸ h.programs, hp ▸ h.projects, by rw [hb, hv]; exact h.revised,
        by rw [hb, hp]; exact h.owned, hr ▸ h.operations, by rw [hb, hr]; exact h.reserved⟩
    · refine ⟨h.programs, h.projects, h.revised, h.owned,
        Rows.nodup_insertOnce h.operations (@Rows.insertOnce_of_none _ _ _ _ _ _ _ conflict _ hn),
        fun x hx => ?_⟩
      cases List.mem_append.1 hx with
      | inl hx => exact h.reserved x hx
      | inr hx =>
        obtain rfl := List.mem_singleton.1 hx
        obtain ⟨b, hb, hbp, -, hbs, -⟩ := h.workBinding hbinding
        exact ⟨b, hb, hbp, hbs.trans hproject.symm⟩
  · exact h.configure hc

/-! ## Capacity -/

/-- The reservations of a scope are within a policy. -/
def Within (s : Store) (scope : Scope) (identity : Name) (policy : WorkBudgetPolicy) : Prop :=
  (∀ kind, (inScope s.reservations scope identity).countP (fun r => r.category = kind) ≤
    policy.counts kind) ∧
  (s.active (inScope s.reservations scope identity)).length ≤ policy.maxActive

/-- The invariant of the capacity. -/
structure CapacityInv (s : Store) : Prop extends EnvelopeInv s where
  program : ∀ b ∈ s.bindings, s.Within .program b.program b.policy
  project : ∀ p ∈ s.projects, s.Within .project p.project p.policy

omit [Sha256] in
/-- A scope without reservations is within every policy. -/
theorem within_of_nil {scope : Scope} {identity : Name} {policy : WorkBudgetPolicy}
    (h : inScope s.reservations scope identity = []) : s.Within scope identity policy := by
  rw [Within, h]
  exact ⟨fun kind => Nat.zero_le _, Nat.zero_le _⟩

omit [Sha256] in
/-- One more item takes a place only if it is new. -/
theorem length_dedup_concat_le {α : Type} [DecidableEq α] {l : List α} {a : α} {n : ℕ}
    (hl : l.dedup.length ≤ n) (ha : a ∈ l.dedup ∨ l.dedup.length < n) :
    (l ++ [a]).dedup.length ≤ n := by
  have hcard : ∀ l : List α, l.dedup.length = l.toFinset.card := fun l => (List.card_toFinset l).symm
  rw [hcard] at *
  have hins : (l ++ [a]).toFinset = insert a l.toFinset := by
    ext x
    simp
  rw [hins]
  cases ha with
  | inl ha =>
    rw [Finset.insert_eq_of_mem (List.mem_toFinset.2 (List.mem_dedup.1 ha))]
    exact hl
  | inr ha => exact (Finset.card_insert_le _ _).trans ha

omit [Sha256] in
theorem inScope_append (reservations : List Reservation) (r : Reservation) (scope : Scope)
    (identity : Name) : inScope (reservations ++ [r]) scope identity =
      inScope reservations scope identity ++
        if Reservation.scope r scope = identity then [r] else [] := by
  rw [inScope, List.filter_append, List.filter_singleton]
  by_cases h : Reservation.scope r scope = identity <;> simp [inScope, h]

/-- A reservation checked in its scope keeps the scope within its policy; another scope does not
change. -/
theorem Within.append {scope : Scope} {identity : Name} {policy : WorkBudgetPolicy}
    {r : Reservation} (h : s.Within scope identity policy)
    (hc : Reservation.scope r scope = identity → s.checkCapacity r.program r.attempt r.category
      r.retainedBytes scope identity policy = .ok ()) :
    { s with reservations := s.reservations ++ [r] }.Within scope identity policy := by
  show (∀ kind, (inScope (s.reservations ++ [r]) scope identity).countP _ ≤ _) ∧
    (s.active (inScope (s.reservations ++ [r]) scope identity)).length ≤ _
  rw [inScope_append]
  by_cases hs : Reservation.scope r scope = identity
  · obtain ⟨hcount, hrest⟩ := check_bind_eq_ok.1 (hc hs)
    obtain ⟨hactive, -⟩ := check_bind_eq_ok.1 hrest
    rw [if_pos hs]
    constructor
    · intro kind
      rw [List.countP_append, List.countP_singleton]
      by_cases hk : r.category = kind
      · subst hk
        simpa using hcount
      · simpa [hk] using h.1 kind
    · by_cases hocc : ¬r.category.CountOnly ∧ ¬s.Settled r.operation
      · rw [active, List.filter_append, List.filter_singleton, decide_eq_true hocc]
        show (List.map _ (_ ++ [r])).dedup.length ≤ _
        rw [List.map_append]
        exact length_dedup_concat_le h.2 hactive
      · rw [active, List.filter_append, List.filter_singleton, decide_eq_false hocc]
        show (List.map _ (_ ++ [])).dedup.length ≤ _
        rw [List.append_nil]
        exact h.2
  · rw [if_neg hs, List.append_nil]
    exact h

omit [Sha256] in
/-- Settlements free capacity. -/
theorem Within.settle {scope : Scope} {identity : Name} {policy : WorkBudgetPolicy}
    (h : s.Within scope identity policy) (hr : s'.reservations = s.reservations)
    (hs : s.settlements ⊆ s'.settlements) : s'.Within scope identity policy := by
  have hsettled : ∀ operationId, s.Settled operationId → s'.Settled operationId := by
    intro operationId hset hnone
    refine hset (Rows.find_eq_none_iff.2 fun x hx => ?_)
    exact Rows.find_eq_none_iff.1 hnone x (hs hx)
  rw [Within, hr]
  refine ⟨h.1, le_trans ?_ h.2⟩
  rw [active, active, ← List.card_toFinset, ← List.card_toFinset]
  refine Finset.card_le_card fun x hx => ?_
  simp only [List.mem_toFinset, List.mem_map, List.mem_filter, decide_eq_true_eq] at hx ⊢
  obtain ⟨r, ⟨hr, hk, hn⟩, rfl⟩ := hx
  exact ⟨r, ⟨hr, hk, fun hset => hn (hsettled _ hset)⟩, rfl⟩

/-- A configuration keeps the scopes within their policies: a new scope has no reservations. -/
theorem CapacityInv.configure (h : CapacityInv s) {programId projectId : Name}
    {project task : WorkBudgetPolicy} {projection : DeadlineProjection}
    (hc : s.configureBudget programId projectId project task projection = .ok s') :
    CapacityInv s' := by
  have henv := h.toEnvelopeInv.configure hc
  obtain ⟨existing, head, projects, hexisting, -, -, hp, hrest⟩ := configureBudget_spec hc
  -- a project without a record has no envelope, and then no reservations
  have hproject : ∀ p ∈ projects, s.Within .project p.project p.policy := by
    intro p hpm
    obtain ⟨hnone, rfl⟩ | ⟨-, rfl⟩ := Rows.insertOnce_eq_ok.1 hp
    · cases List.mem_append.1 hpm with
      | inl hpm => exact h.project p hpm
      | inr hpm =>
        obtain rfl := List.mem_singleton.1 hpm
        refine within_of_nil (List.filter_eq_nil_iff.2 fun r hr hscope => ?_)
        obtain ⟨b, hb, -, hbr⟩ := h.reserved r hr
        obtain ⟨p, hp, hpb⟩ := h.owned b hb
        exact Rows.find_eq_none_iff.1 hnone p hp
          (hpb.trans (hbr.trans (of_decide_eq_true hscope)))
    · exact h.project p hpm
  obtain ⟨bindings, hb, rfl⟩ | ⟨binding, revisions, rfl, -, -, -, -, -, rfl⟩ := hrest
  · refine ⟨henv, fun b hbm => ?_, hproject⟩
    obtain ⟨hnone, rfl⟩ | ⟨-, rfl⟩ := Rows.insertOnce_eq_ok.1 hb
    · cases List.mem_append.1 hbm with
      | inl hbm => exact h.program b hbm
      | inr hbm =>
        obtain rfl := List.mem_singleton.1 hbm
        refine within_of_nil (List.filter_eq_nil_iff.2 fun r hr hscope => ?_)
        obtain ⟨b, hb, hbr, -⟩ := h.reserved r hr
        exact Rows.find_eq_none_iff.1 hnone b hb (hbr.trans (of_decide_eq_true hscope))
    · exact h.program b hbm
  · exact ⟨henv, h.program, hproject⟩

/-- The capacity checks of a new reservation, at the original envelope and the project. -/
theorem EnvelopeInv.checked (h : EnvelopeInv s) {binding : Binding} {r : Reservation}
    (hb : s.workBinding r.program = .ok (some binding)) (hp : r.project = binding.project)
    (hc : s.checkReservation cut binding r = .ok ()) :
    (∀ b ∈ s.bindings, b.program = r.program → s.checkCapacity r.program r.attempt r.category
      r.retainedBytes .program r.program b.policy = .ok ()) ∧
    ∀ p ∈ s.projects, p.project = r.project → s.checkCapacity r.program r.attempt r.category
      r.retainedBytes .project r.project p.policy = .ok () := by
  obtain ⟨_, -, hc⟩ := bind_eq_ok.1 hc
  obtain ⟨_, -, hc⟩ := bind_eq_ok.1 hc
  obtain ⟨_, -, hc⟩ := bind_eq_ok.1 hc
  obtain ⟨-, hc⟩ := check_bind_eq_ok.1 hc
  obtain ⟨project, hproject, hc⟩ := bind_eq_ok.1 hc
  obtain ⟨⟨⟩, hscopes, -⟩ := bind_eq_ok.1 hc
  obtain ⟨hprojectm, hprojectk⟩ := Rows.mem_of_find (lookup_eq_ok.1 hproject)
  have hchecks := forM_eq_ok.1 hscopes
  constructor
  · intro b hbm hbp
    obtain ⟨b', hbm', hbp', hsame⟩ := h.workBinding hb
    obtain rfl : b = b' := List.inj_on_of_nodup_map h.programs hbm hbm' (hbp.trans hbp'.symm)
    rw [hsame.2.2.1]
    exact hchecks (.program, r.program, binding.policy) (by simp [scopes])
  · intro p hpm hpp
    obtain rfl : p = project := List.inj_on_of_nodup_map h.projects hpm hprojectm
      (hpp.trans (hp.trans hprojectk.symm))
    rw [hp]
    exact hchecks (.project, binding.project, p.policy) (by simp [scopes])

/-- A write keeps the invariant of the capacity. -/
theorem CapacityInv.write (h : CapacityInv s) (hw : Write R U s s') : CapacityInv s' := by
  have henv := h.toEnvelopeInv.write hw
  rcases hw.envelopes_or with ⟨hp, hb, -⟩ | ⟨_, _, _, _, _, hc⟩
  · rcases hw.reservations_or with hr | ⟨cut, binding, r, hbinding, hproject, -, hc, -, rfl⟩
    · refine ⟨henv, fun b hbm => ?_, fun p hpm => ?_⟩
      · exact (h.program b (hb ▸ hbm)).settle hr hw.settlements_subset
      · exact (h.project p (hp ▸ hpm)).settle hr hw.settlements_subset
    · obtain ⟨hprogram, hproject⟩ := h.checked hbinding hproject hc
      refine ⟨henv, fun b hbm => (h.program b hbm).append ?_,
        fun p hpm => (h.project p hpm).append ?_⟩
      · intro hs
        rw [← hs]
        exact hprogram b hbm hs.symm
      · intro hs
        rw [← hs]
        exact hproject p hpm hs.symm
  · exact h.configure hc

end Store

end CreatidyKernel
