import CreatidyKernel.Lib.Corrections
import CreatidyKernel.Store.Writes

set_option relaxedAutoImplicit false
set_option autoImplicit false

/-!
# Receipts are counted once

The receipts about one thing form a line of corrections, all about one operation of one Attempt.
The receipt in force is the last one recorded, whatever the order in which the receipts are read
and whatever scope they are read for.

## Main definitions

* `Store.chain` — the receipts about one thing, in the order they were recorded.
* `Store.UsageInv` — the invariant of the receipts and the reservations.
* `Store.CountedOnce` — what is promised about the receipts.

## Main results

* `Store.usageInv_run` — the invariant holds after every run.
* `Store.usage_counted_once` — receipts are counted once.
-/

namespace CreatidyKernel

open Checked

namespace Store

/-- The observation a receipt corrects, with its source. -/
def UsageRecord.corrected (u : UsageRecord) : Option (Name × Name) :=
  u.observation.supersedesId.map fun id => (u.observation.source, id)

/-- What a receipt is about. -/
def UsageRecord.identity (u : UsageRecord) : Name × Name × Name × Name := u.observation.identity

/-- The receipts about one thing, in the order they were recorded. -/
def chain (s : Store) (identity : Name × Name × Name × Name) : List UsageRecord :=
  s.usage.filter fun u => UsageRecord.identity u = identity

/-- The receipts are a log with corrections, and every receipt is about a reserved operation of
its Attempt, the same one for all receipts about one thing. -/
structure UsageInv (s : Store) : Prop where
  log : Corrections.Log usageKey UsageRecord.corrected UsageRecord.identity s.usage
  operations : (s.reservations.map Reservation.operation).Nodup
  reserved : ∀ u ∈ s.usage, ∃ r ∈ s.reservations, r.operation = u.operation ∧
    r.attempt = u.observation.attemptId.val
  attributed : ∀ a ∈ s.usage, ∀ b ∈ s.usage,
    UsageRecord.identity a = UsageRecord.identity b → a.operation = b.operation

theorem usageInv_empty : UsageInv empty :=
  ⟨Corrections.log_nil, List.nodup_nil, nofun, nofun⟩

variable [Sha256] {s : Store}

/-! ## Receipts in force -/

theorem mem_usageRecords {u : UsageRecord} : u ∈ s.usageRecords ↔ u ∈ s.usage :=
  SortedBy.mem_sortBy

/-- The receipts in force among some reservations are those of the log of these reservations. -/
theorem effectiveUsage_eq (reservations : List Reservation) :
    s.effectiveUsage reservations = Corrections.inForce usageKey UsageRecord.corrected
      (s.usageRecords.filter fun u => u.operation ∈ reservations.map Reservation.operation) :=
  List.filter_congr fun _ _ => decide_eq_decide.2 Iff.rfl

theorem mem_reservationRecords {r : Reservation} :
    r ∈ s.reservationRecords ↔ r ∈ s.reservations := SortedBy.mem_sortBy

/-- Every receipt is about a reserved operation. -/
theorem UsageInv.effectiveUsage_all (h : UsageInv s) :
    s.effectiveUsage s.reservationRecords =
      Corrections.inForce usageKey UsageRecord.corrected s.usageRecords := by
  have hall : s.usageRecords.filter
      (fun u => u.operation ∈ s.reservationRecords.map Reservation.operation) =
        s.usageRecords := by
    rw [List.filter_eq_self]
    intro u hu
    obtain ⟨r, hr, ho, -⟩ := h.reserved u (mem_usageRecords.1 hu)
    exact decide_eq_true (ho ▸ List.mem_map_of_mem (mem_reservationRecords.2 hr))
  rw [effectiveUsage_eq, hall]

/-- The receipt in force about one thing is the last one recorded. -/
theorem UsageInv.effective_chain (h : UsageInv s) (identity : Name × Name × Name × Name) :
    (s.effectiveUsage s.reservationRecords).filter
      (fun u => UsageRecord.identity u = identity) = (s.chain identity).getLast?.toList := by
  rw [h.effectiveUsage_all]
  exact h.log.inForce_group_perm (SortedBy.perm_sortBy _) identity

/-- Reading the receipts of some operations only is restricting the receipts in force to them. -/
theorem UsageInv.effective_restrict (h : UsageInv s) (reservations : List Reservation) :
    s.effectiveUsage reservations = (s.effectiveUsage s.reservationRecords).filter
      fun u => u.operation ∈ reservations.map Reservation.operation := by
  rw [h.effectiveUsage_all, effectiveUsage_eq]
  refine h.log.inForce_filter (SortedBy.perm_sortBy _) fun a ha b hb hg hp => ?_
  rwa [← h.attributed a ha b hb hg]

/-! ## Recording -/

/-- A receipt on record already is left alone. -/
theorem UsageInv.recordUsage_again (h : UsageInv s) {u : UsageRecord} (hu : u ∈ s.usage) :
    s.recordUsage u.operation u.observation = .ok ((), s) := by
  have hfind : Rows.find usageKey s.usage (usageKey u) = some u := Rows.find_of_mem h.log.nodup hu
  obtain ⟨r, hr, ho, ha⟩ := h.reserved u hu
  have hres : s.reservation u.operation = some r :=
    (Rows.find_eq_some_iff h.operations).2 ⟨hr, ho⟩
  rw [recordUsage, check_of ⟨r, hres, ha⟩, ok_bind]
  simp only [hfind]
  show (do
    let s' ← s.writeUsage u
    return ((), s')) = _
  rw [writeUsage, Rows.insertOnce_of_some hfind]
  rfl

/-- The receipt a chain may be extended with corrects its last one and keeps its attribution. -/
def Extends (s : Store) (u : UsageRecord) : Prop :=
  u.observation.supersedesId =
      (s.chain (UsageRecord.identity u)).getLast?.map (fun a => a.observation.observationId) ∧
    ∀ a ∈ s.chain (UsageRecord.identity u),
      a.operation = u.operation ∧ a.observation.attemptId = u.observation.attemptId

omit [Sha256] in
/-- Receipts about one operation are of one Attempt. -/
theorem UsageInv.attempt_eq (h : UsageInv s) {a b : UsageRecord} (ha : a ∈ s.usage)
    (hb : b ∈ s.usage) (ho : a.operation = b.operation) :
    a.observation.attemptId = b.observation.attemptId := by
  obtain ⟨r, hr, hra, hat⟩ := h.reserved a ha
  obtain ⟨r', hr', hrb, hbt⟩ := h.reserved b hb
  obtain rfl : r = r' := List.inj_on_of_nodup_map h.operations hr hr' (hra.trans (ho.trans hrb.symm))
  exact Subtype.ext (hat.symm.trans hbt)

/-- A recorded receipt is on record already or extends its chain. -/
theorem UsageInv.recordUsage_spec (h : UsageInv s) {operationId : String} {o : UsageObservation}
    {s' : Store} (hs : s.recordUsage operationId o = .ok ((), s')) :
    (∃ r ∈ s.reservations, r.operation = operationId ∧ r.attempt = o.attemptId.val) ∧
      ((s' = s ∧ ⟨operationId, o⟩ ∈ s.usage) ∨
        (usageKey ⟨operationId, o⟩ ∉ s.usage.map usageKey ∧ s.Extends ⟨operationId, o⟩ ∧
          s' = { s with usage := s.usage ++ [⟨operationId, o⟩] })) := by
  obtain ⟨⟨r, hr, hattempt⟩, hs⟩ := check_bind_eq_ok.1 hs
  obtain ⟨hmem, ho⟩ := Rows.mem_of_find hr
  refine ⟨⟨r, hmem, ho, hattempt⟩, ?_⟩
  cases hf : Rows.find usageKey s.usage (usageKey ⟨operationId, o⟩) with
  | some _ =>
    simp only [hf] at hs
    obtain ⟨t, ht, hs⟩ := bind_eq_ok.1 hs
    cases pure_eq_ok.1 hs
    obtain ⟨rows, hrows, ht⟩ := bind_eq_ok.1 ht
    obtain ⟨hnone, -⟩ | ⟨hsome, rfl⟩ := Rows.insertOnce_eq_ok.1 hrows
    · cases hf.symm.trans hnone
    · exact .inl ⟨(pure_eq_ok.1 ht).symm, (Rows.mem_of_find hsome).1⟩
  | none =>
    simp only [hf] at hs
    obtain ⟨hattr, hs⟩ := check_bind_eq_ok.1 hs
    obtain ⟨hcorrects, hs⟩ := check_bind_eq_ok.1 hs
    obtain ⟨t, ht, hs⟩ := bind_eq_ok.1 hs
    cases pure_eq_ok.1 hs
    obtain ⟨rows, hrows, ht⟩ := bind_eq_ok.1 ht
    obtain ⟨-, rfl⟩ | ⟨hsome, -⟩ := Rows.insertOnce_eq_ok.1 hrows
    · refine .inr ⟨?_, ?_, (pure_eq_ok.1 ht).symm⟩
      · intro hk
        obtain ⟨u, hu, huk⟩ := List.mem_map.1 hk
        exact Rows.find_eq_none_iff.1 hf u hu huk
      · -- the receipts in force about the same thing are the last one of the chain
        have hprior := h.effective_chain o.identity
        change List.filter (fun u : UsageRecord => decide (u.observation.identity = o.identity)) _ = _
          at hprior
        rw [hprior] at hattr hcorrects
        show o.supersedesId = (s.chain o.identity).getLast?.map _ ∧ ∀ a ∈ s.chain o.identity, _
        cases hlast : (s.chain o.identity).getLast? with
        | none =>
          rw [hlast] at hcorrects
          rw [List.getLast?_eq_none_iff.1 hlast]
          exact ⟨hcorrects, by rintro _ ⟨⟩⟩
        | some last =>
          rw [hlast] at hcorrects hattr
          refine ⟨hcorrects.2, fun a ha => ?_⟩
          obtain ⟨hop, hat⟩ := hattr last (by simp)
          obtain ⟨hl, hli⟩ := List.mem_filter.1 (List.mem_of_getLast? hlast)
          obtain ⟨ha, hai⟩ := List.mem_filter.1 ha
          have heq : a.operation = last.operation := h.attributed a ha last hl
            ((of_decide_eq_true hai).trans (of_decide_eq_true hli).symm)
          exact ⟨heq.trans hop, (h.attempt_eq ha hl heq).trans hat⟩
    · cases hf.symm.trans hsome

omit [Sha256] in
/-- A receipt that extends its chain extends the log. -/
theorem UsageInv.append (h : UsageInv s) {u : UsageRecord}
    (hr : ∃ r ∈ s.reservations, r.operation = u.operation ∧
      r.attempt = u.observation.attemptId.val)
    (hk : usageKey u ∉ s.usage.map usageKey) (hu : s.Extends u) :
    UsageInv { s with usage := s.usage ++ [u] } where
  log := by
    refine h.log.append hk ?_
    show Option.map _ u.observation.supersedesId = _
    rw [hu.1, Option.map_map]
    show (s.chain (UsageRecord.identity u)).getLast?.map _ =
      (s.chain (UsageRecord.identity u)).getLast?.map usageKey
    cases hlast : (s.chain (UsageRecord.identity u)).getLast? with
    | none => rfl
    | some last =>
      have hl := of_decide_eq_true (List.mem_filter.1 (List.mem_of_getLast? hlast)).2
      exact congrArg some (Prod.ext (congrArg Prod.fst hl).symm rfl)
  operations := h.operations
  reserved := by
    intro a ha
    cases List.mem_append.1 ha with
    | inl ha => exact h.reserved a ha
    | inr ha =>
      obtain rfl := List.mem_singleton.1 ha
      exact hr
  attributed := by
    have hchain : ∀ a ∈ s.usage, UsageRecord.identity a = UsageRecord.identity u →
        a.operation = u.operation := fun a ha hi =>
      (hu.2 a (List.mem_filter.2 ⟨ha, decide_eq_true hi⟩)).1
    intro a ha b hb hi
    rw [List.mem_append, List.mem_singleton] at ha hb
    rcases ha with ha | rfl <;> rcases hb with hb | rfl
    · exact h.attributed a ha b hb hi
    · exact hchain a ha hi
    · exact (hchain b hb hi.symm).symm
    · rfl

/-! ## Runs -/

/-- A write keeps the invariant. -/
theorem UsageInv.write {R : Store → Reservation → Prop}
    {U : Store → String → UsageObservation → Prop} {s' : Store} (h : UsageInv s)
    (hw : Write R U s s') : UsageInv s' := by
  rcases hw.usage_or with hu | ⟨operationId, o, -, hu⟩
  · rcases hw.reservations_or with hr | ⟨_, _, r, -, -, hn, -, -, rfl⟩
    · exact ⟨hu ▸ h.log, hr ▸ h.operations, by rw [hu, hr]; exact h.reserved,
        by rw [hu]; exact h.attributed⟩
    · refine ⟨h.log, ?_, fun u hu => ?_, h.attributed⟩
      · exact Rows.nodup_insertOnce h.operations (@Rows.insertOnce_of_none _ _ _ _ _ _ _ conflict _ hn)
      · obtain ⟨x, hx, hxu⟩ := h.reserved u hu
        exact ⟨x, List.mem_append_left _ hx, hxu⟩
  · obtain ⟨hr, ⟨rfl, -⟩ | ⟨hk, hx, rfl⟩⟩ := h.recordUsage_spec hu
    · exact h
    · exact h.append hr hk hx

/-- The invariant holds after every run. -/
theorem usageInv_run (calls : List Call) : UsageInv (Runs.run next empty calls) :=
  run_of_writes (fun _ _ h hw => h.write hw) usageInv_empty calls

/-- What is promised about the receipts. -/
structure CountedOnce (s : Store) : Prop where
  /-- The receipts about one thing form a line of corrections, of distinct observations. -/
  linear : ∀ identity, Corrections.Linear usageKey UsageRecord.corrected (s.chain identity)
  distinct : (s.usage.map usageKey).Nodup
  /-- They are all about one operation of one Attempt. -/
  attributed : ∀ identity, ∀ a ∈ s.chain identity, ∀ b ∈ s.chain identity,
    a.operation = b.operation ∧ a.observation.attemptId = b.observation.attemptId
  /-- The last one is in force. -/
  inForce : ∀ identity, (s.effectiveUsage s.reservationRecords).filter
    (fun u => UsageRecord.identity u = identity) = (s.chain identity).getLast?.toList
  /-- The receipts in force of a Program or a project are those of its reserved operations. -/
  restricted : ∀ scope identity, s.effectiveUsage (inScope s.reservationRecords scope identity) =
    (s.effectiveUsage s.reservationRecords).filter fun u =>
      ∃ r ∈ s.reservations, Reservation.scope r scope = identity ∧ r.operation = u.operation
  /-- A replay changes nothing. -/
  again : ∀ u ∈ s.usage, s.recordUsage u.operation u.observation = .ok ((), s)
  /-- A new receipt corrects the last one about the same thing and keeps its attribution. -/
  extended : ∀ operationId o s', s.recordUsage operationId o = .ok ((), s') →
    s' = s ∨ (s.Extends ⟨operationId, o⟩ ∧ s' = { s with usage := s.usage ++ [⟨operationId, o⟩] })
  /-- A refused receipt changes nothing. -/
  refused : ∀ operationId o e, s.recordUsage operationId o = .error e →
    s.next (.recordUsage operationId o) = s

/-- The promise follows from the invariant. -/
theorem UsageInv.countedOnce (h : UsageInv s) : CountedOnce s where
  linear := h.log.linear
  distinct := h.log.nodup
  attributed := by
    intro identity a ha b hb
    obtain ⟨ha, hai⟩ := List.mem_filter.1 ha
    obtain ⟨hb, hbi⟩ := List.mem_filter.1 hb
    have ho := h.attributed a ha b hb
      ((of_decide_eq_true hai).trans (of_decide_eq_true hbi).symm)
    exact ⟨ho, h.attempt_eq ha hb ho⟩
  inForce := h.effective_chain
  restricted := by
    intro scope identity
    rw [h.effective_restrict]
    refine List.filter_congr fun u _ => decide_eq_decide.2 ?_
    simp only [inScope, List.mem_map, List.mem_filter, mem_reservationRecords, decide_eq_true_eq,
      and_assoc]
  again := fun u hu => h.recordUsage_again hu
  extended := by
    intro operationId o s' hs
    obtain ⟨-, ⟨rfl, -⟩ | ⟨-, hx, hs'⟩⟩ := h.recordUsage_spec hs
    · exact .inl rfl
    · exact .inr ⟨hx, hs'⟩
  refused := by
    intro operationId o e he
    show Runs.settle s (s.recordUsage operationId o) = s
    rw [he, Runs.settle_error]

/-- A write appends receipts only. -/
theorem UsageInv.usage_append {R : Store → Reservation → Prop}
    {U : Store → String → UsageObservation → Prop} {s' : Store} (h : UsageInv s)
    (hw : Write R U s s') : s.usage <+: s'.usage := by
  rcases hw.usage_or with hu | ⟨operationId, o, -, hu⟩
  · rw [hu]
  · obtain ⟨-, ⟨rfl, -⟩ | ⟨-, -, rfl⟩⟩ := h.recordUsage_spec hu
    · exact List.prefix_rfl
    · exact List.prefix_append _ _

/-- Receipts are counted once in every reached store, and none is ever lost or changed. -/
theorem usage_counted_once (calls later : List Call) :
    CountedOnce (Runs.run next empty calls) ∧
      (Runs.run next empty calls).usage <+: (Runs.run next empty (calls ++ later)).usage := by
  refine ⟨(usageInv_run calls).countedOnce, ?_⟩
  rw [Runs.run_append]
  have hs := usageInv_run calls
  generalize Runs.run next empty calls = s at hs
  refine (run_of_writes (P := fun t => UsageInv t ∧ s.usage <+: t.usage) ?_
    ⟨hs, List.prefix_rfl⟩ later).2
  exact fun t t' ht hw => ⟨ht.1.write hw, ht.2.trans (ht.1.usage_append hw)⟩

end Store

end CreatidyKernel
