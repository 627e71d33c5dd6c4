import CreatidyKernel.Core.AppendOnly

set_option relaxedAutoImplicit false
set_option autoImplicit false

/-!
# The lineage of Attempts

A remediation Attempt may only be prepared for the latest Attempt of its unit. Attempts are never
taken back, so the remediations of a unit form chains: an Attempt is remediated at most once.

## Main definitions

* `Linear` — every remediation links the Attempt of its unit that came last before it.

## Main results

* `Linear.unique` — an Attempt is remediated at most once.
* `Program.Reachable.linear` — the Attempts of a reachable Program are linear.
* `Program.run_specs` — a run of commands only appends snapshots.
-/

namespace CreatidyKernel

open Checked

/-- The snapshots of a unit, oldest first. -/
def ofUnit (specs : List AttemptSpec) (unitId : Name) : List AttemptSpec :=
  specs.filter fun a => a.workUnitId = unitId

/-- Every remediation links the Attempt of its unit that came last before it. -/
def Linear (specs : List AttemptSpec) : Prop :=
  ∀ before a after, specs = before ++ a :: after → ∀ r ∈ a.remediationOf,
    (ofUnit before a.workUnitId).getLast?.map AttemptSpec.attemptId = some r

theorem linear_nil : Linear [] := by
  intro before a after h
  simp at h

/-- A snapshot that links the latest one of its unit may be appended. -/
theorem Linear.concat {specs : List AttemptSpec} (h : Linear specs) {a : AttemptSpec}
    (ha : ∀ r ∈ a.remediationOf,
      (ofUnit specs a.workUnitId).getLast?.map AttemptSpec.attemptId = some r) :
    Linear (specs ++ [a]) := by
  intro before b after heq
  rcases List.eq_nil_or_concat after with rfl | ⟨after, c, rfl⟩
  · obtain ⟨rfl, hab⟩ := List.append_inj' heq rfl
    cases hab
    exact ha
  · rw [List.concat_eq_append, ← List.cons_append, ← List.append_assoc] at heq
    exact h before b after (List.append_inj' heq rfl).1

/-- The Attempt a remediation links comes before it, in the same unit. -/
theorem Linear.source {specs before after : List AttemptSpec} {a : AttemptSpec}
    (h : Linear specs) (heq : specs = before ++ a :: after) {r : Name} (hr : r ∈ a.remediationOf) :
    ∃ s ∈ before, s.attemptId = r ∧ s.workUnitId = a.workUnitId := by
  obtain ⟨s, hs, hid⟩ := Option.map_eq_some_iff.mp (h before a after heq r hr)
  obtain ⟨hmem, hunit⟩ := List.mem_filter.mp (List.mem_of_getLast? hs)
  exact ⟨s, hmem, hid, by simpa using hunit⟩

/-- No remediation comes after another one of the same Attempt. -/
theorem Linear.not_remediated_again {before middle after : List AttemptSpec} {a b : AttemptSpec}
    (h : Linear (before ++ a :: middle ++ b :: after))
    (hn : ((before ++ a :: middle ++ b :: after).map AttemptSpec.attemptId).Nodup) {r : Name}
    (ha : r ∈ a.remediationOf) : r ∉ b.remediationOf := by
  intro hb
  obtain ⟨s, hs, hsr, hsunit⟩ := h.source (List.append_assoc _ _ _) ha
  have hids : ∀ x ∈ before ++ a :: middle ++ b :: after,
      ∀ y ∈ before ++ a :: middle ++ b :: after, x.attemptId = y.attemptId → x = y :=
    fun x hx y hy hxy => List.inj_on_of_nodup_map hn hx hy hxy
  obtain ⟨t, ht, htr, htunit⟩ := h.source rfl hb
  have hst : s = t := hids s (by simp [hs]) t (by simp at ht ⊢; tauto) (hsr.trans htr.symm)
  subst hst
  -- the unit of both is that of the source, and the first remediation is later than the source
  have hunit : a.workUnitId = b.workUnitId := hsunit.symm.trans htunit
  have hlast := h _ b after rfl r hb
  obtain ⟨l, hl, hlr⟩ := Option.map_eq_some_iff.mp hlast
  have hright : (ofUnit (a :: middle) b.workUnitId) ≠ [] := by
    apply List.ne_nil_of_mem (a := a)
    exact List.mem_filter.mpr ⟨List.mem_cons_self, by simpa using hunit⟩
  have hmem : l ∈ a :: middle := by
    have hsplit : ofUnit (before ++ a :: middle) b.workUnitId =
        ofUnit before b.workUnitId ++ ofUnit (a :: middle) b.workUnitId := List.filter_append ..
    rw [hsplit, List.getLast?_append_of_ne_nil _ hright] at hl
    exact (List.mem_filter.mp (List.mem_of_getLast? hl)).1
  have hls : l = s := hids l (by simp at hmem ⊢; tauto) s (by simp [hs]) (hlr.trans hsr.symm)
  rw [List.map_append, List.map_append, List.nodup_append, List.nodup_append] at hn
  exact hn.1.2.2 _ (List.mem_map_of_mem hs) _ (List.mem_map_of_mem hmem) (by rw [hls])

/-- An Attempt is remediated at most once. -/
theorem Linear.unique {specs : List AttemptSpec} (h : Linear specs)
    (hn : (specs.map AttemptSpec.attemptId).Nodup) {a b : AttemptSpec} (ha : a ∈ specs)
    (hb : b ∈ specs) {r : Name} (hra : r ∈ a.remediationOf) (hrb : r ∈ b.remediationOf) : a = b := by
  obtain ⟨before, after, rfl⟩ := List.append_of_mem ha
  rcases List.mem_append.mp hb with hmem | hmem
  · obtain ⟨first, middle, rfl⟩ := List.append_of_mem hmem
    exact absurd hra (h.not_remediated_again hn hrb)
  · rcases List.mem_cons.mp hmem with rfl | hmem
    · rfl
    · obtain ⟨middle, last, rfl⟩ := List.append_of_mem hmem
      rw [← List.cons_append, ← List.append_assoc] at h hn
      exact absurd hrb (h.not_remediated_again hn hra)

namespace Program

variable [Sha256] {p q : Program}

/-- The snapshots of the Attempts of a Program. -/
def specs (p : Program) : List AttemptSpec := p.attempts.map Attempt.spec

omit [Sha256] in
theorem ofUnit_specs (p : Program) (unitId : Name) :
    ofUnit p.specs unitId =
      (p.attempts.filter fun a => a.spec.workUnitId = unitId).map Attempt.spec := by
  rw [ofUnit, specs, List.filter_map]
  rfl

/-- An Attempt is only prepared when its unit is ready, and a remediation for the latest Attempt
of the unit, which has finished. -/
theorem prepareAttempt_eq_ok {actorId : Name} {requested : AttemptSpec} {d : Ledger}
    (h : p.prepareAttempt actorId requested = .ok d) :
    (∃ state, p.state requested.workUnitId = .ok state ∧ state.status = .ready) ∧
      ∀ r ∈ requested.remediationOf,
        (∃ source, p.attempt r = .ok source ∧ source.status = .finished) ∧
        (ofUnit p.specs requested.workUnitId).getLast?.map AttemptSpec.attemptId = some r := by
  simp only [prepareAttempt, bind_eq_ok, check_eq_ok, pure_eq_ok] at h
  obtain ⟨_, -, _, -, unit, hunit, _, -, state, hstate, _, hready, _, -, _, -, _, -, _, -, _,
    hlineage, -⟩ := h
  have hid : unit.workUnitId = requested.workUnitId := (ProgramSpec.workUnit_eq_ok.mp hunit).2
  rw [hid] at hstate
  refine ⟨⟨state, hstate, hready⟩, fun r hr => ?_⟩
  rw [Option.mem_def.mp hr] at hlineage
  simp only [checkLineage, checkRemediation, bind_eq_ok, check_eq_ok] at hlineage
  obtain ⟨source, hsource, _, ⟨hfinished, -, -⟩, hlast⟩ := hlineage
  refine ⟨⟨source, hsource, hfinished⟩, ?_⟩
  rw [ofUnit_specs, hid.symm]
  cases hp : p.attempts.reverse.find? fun a => a.spec.workUnitId = unit.workUnitId with
  | none => simp [hp] at hlast
  | some previous =>
    simp only [hp, check_eq_ok] at hlast
    have hr : source.attemptId = r := by
      have hfound := List.find?_some (lookup_eq_ok.mp hsource)
      simpa using hfound
    rw [List.getLast?_map, List.getLast?_filter, hp]
    exact congrArg some (hlast.trans hr)

/-- What a command that prepares an Attempt was admitted on. -/
theorem prepared_of_apply {c : DomainCommand} (h : p.apply c = .ok q) {a : AttemptSpec}
    (hc : c.request = .prepareAttempt a) : q.specs = p.specs ++ [a] ∧
      (∃ state, p.state a.workUnitId = .ok state ∧ state.status = .ready) ∧
      ∀ r ∈ a.remediationOf,
        (∃ source, p.attempt r = .ok source ∧ source.status = .finished) ∧
        (ofUnit p.specs a.workUnitId).getLast?.map AttemptSpec.attemptId = some r := by
  have hspecs := apply_specs h
  rw [hc] at hspecs
  refine ⟨hspecs, ?_⟩
  rcases apply_eq_ok h with ⟨hg, -⟩ | ⟨d, states, hg, -⟩
  · have hnone := guards_none hg
    rw [hc] at hnone
    cases hnone
  · simp only [guards, hc, bind_eq_ok, map_eq_ok, Option.some.injEq, exists_eq_right] at hg
    obtain ⟨_, -, _, -, hg⟩ := hg
    exact prepareAttempt_eq_ok hg

/-- The Attempts of a reachable Program are linear. -/
theorem Reachable.linear (hp : p.Reachable) : Linear p.specs := by
  induction hp with
  | create h =>
    unfold Program.create at h
    split_ifs at h
    cases h
    exact linear_nil
  | @step p q hp c h ih =>
    cases hc : c.request.prepared with
    | none =>
      have hspecs := apply_specs h
      rw [hc, Option.toList_none, List.append_nil] at hspecs
      rw [specs, hspecs]
      exact ih
    | some a =>
      have hrequest : c.request = .prepareAttempt a := by
        cases hr : c.request <;> rw [hr] at hc <;> cases hc
        rfl
      obtain ⟨hspecs, -, hlineage⟩ := prepared_of_apply h hrequest
      rw [hspecs]
      exact ih.concat fun r hr => (hlineage r hr).2

/-- The identifiers of the snapshots are distinct. -/
theorem Reachable.specs_nodup (hp : p.Reachable) : (p.specs.map AttemptSpec.attemptId).Nodup := by
  have hids := hp.coherent.ledger.attempts.ids
  rwa [specs, List.map_map]

/-- A run of commands only appends snapshots. -/
theorem run_specs {commands : List DomainCommand} (h : p.run commands = .ok q) :
    p.specs <+: q.specs := by
  induction commands generalizing p with
  | nil =>
    obtain rfl := Except.ok.inj h
    exact List.prefix_refl _
  | cons c rest ih =>
    obtain ⟨p', hc, h⟩ := bind_eq_ok.mp h
    have hspecs : p'.specs = p.specs ++ c.request.prepared.toList := apply_specs hc
    exact (hspecs ▸ List.prefix_append _ _).trans (ih h)

end Program

end CreatidyKernel
