import CreatidyKernel.Core.Coherence

set_option relaxedAutoImplicit false
set_option autoImplicit false

/-!
# Closure of the aggregate under its commands

Each of the twelve commands turns a coherent Program into a coherent ledger whenever its guards
pass, so assembly succeeds and reachable Programs are coherent: the consistency check is never
the reason a legal command is refused.

## Main definitions

* `Advances` — an update of Attempt statuses that touches live Attempts only.

## Main results

* `Advances.attemptsCoherent`, `Advances.satisfactionsCoherent`, `Advances.liveCoherent` — such
  an update keeps the invariants of the record families.
* `Program.guards_coherent` — the guards of a command decide a coherent ledger.
* `Program.Reachable.coherent` — reachable Programs are coherent.
* `Program.reachable_assemble` — assembly succeeds after the guards of any command.
-/

namespace CreatidyKernel

open Checked

section

variable [Sha256]

/-! ## Updates of Attempts -/

/-- An update changes the status of live Attempts only. -/
structure Advances (attempts : List Attempt) (f : Attempt → Attempt) : Prop where
  spec : ∀ a ∈ attempts, (f a).spec = a.spec
  actor : ∀ a ∈ attempts, (f a).actorId = a.actorId
  still : ∀ a ∈ attempts, ¬a.Live → f a = a

namespace Advances

variable {attempts : List Attempt} {f : Attempt → Attempt}

omit [Sha256] in
theorem map_attemptId (h : Advances attempts f) :
    (attempts.map f).map Attempt.attemptId = attempts.map Attempt.attemptId := by
  rw [List.map_map]
  refine List.map_congr_left fun a ha => ?_
  exact congrArg AttemptSpec.attemptId (h.spec a ha)

omit [Sha256] in
/-- What is live after the update was live before. -/
theorem live (h : Advances attempts f) {a : Attempt} (ha : a ∈ attempts) (hl : (f a).Live) :
    a.Live := by
  by_contra hn
  rw [h.still a ha hn] at hl
  exact hn hl

omit [Sha256] in
/-- Finished Attempts stay. -/
theorem finished (h : Advances attempts f) {a : Attempt} (ha : a ∈ attempts)
    (hf : a.status = .finished) : f a = a :=
  h.still a ha fun hl => hl.ne_finished hf

theorem attemptsCoherent (h : Advances attempts f) {programId : Name}
    {history : List ProgramSpec} (hc : AttemptsCoherent programId history attempts) :
    AttemptsCoherent programId history (attempts.map f) where
  ids := by
    rw [h.map_attemptId]
    exact hc.ids
  program := by
    simp only [List.mem_map, forall_exists_index, and_imp, forall_apply_eq_imp_iff₂]
    intro a ha
    rw [h.spec a ha]
    exact hc.program a ha
  pinned := by
    simp only [List.mem_map, forall_exists_index, and_imp, forall_apply_eq_imp_iff₂]
    intro a ha
    rw [h.spec a ha]
    exact hc.pinned a ha
  lineage := by
    intro before a after heq r hr
    obtain ⟨before', rest, hsplit, rfl, hrest⟩ := List.map_eq_append_iff.1 heq
    obtain ⟨a', after', rfl, rfl, -⟩ := List.map_eq_cons_iff.1 hrest
    have ha : a' ∈ attempts := by simp [hsplit]
    rw [h.spec a' ha] at hr ⊢
    obtain ⟨source, hs, hid, hfin, hunit, hpin⟩ := hc.lineage before' a' after' hsplit r hr
    have hsa : source ∈ attempts := by simp [hsplit, hs]
    refine ⟨source, List.mem_map.2 ⟨source, hs, h.finished hsa hfin⟩, hid, hfin, hunit, hpin⟩

theorem satisfactionsCoherent (h : Advances attempts f) {order : ℕ} {programId : Name}
    {history : List ProgramSpec} {satisfactions : List TrustedSatisfaction}
    (hc : SatisfactionsCoherent order programId history attempts satisfactions) :
    SatisfactionsCoherent order programId history (attempts.map f) satisfactions :=
  { hc with
    each := fun s hs => { hc.each s hs with
      source := by
        obtain ⟨a, ha, hid, hfin, hunit, hpin⟩ := (hc.each s hs).source
        exact ⟨a, List.mem_map.2 ⟨a, ha, h.finished ha hfin⟩, hid, hfin, hunit, hpin⟩ } }

theorem liveCoherent (h : Advances attempts f) {spec : ProgramSpec}
    {cancellations : List WorkUnitCancellation}
    (hc : LiveCoherent spec cancellations attempts) :
    LiveCoherent spec cancellations (attempts.map f) where
  distinct := by
    rw [List.pairwise_map]
    refine hc.distinct.imp_of_mem fun {a b} ha hb hab hla hlb => ?_
    rw [h.spec a ha, h.spec b hb]
    exact hab (h.live ha hla) (h.live hb hlb)
  current := by
    simp only [List.mem_map, forall_exists_index, and_imp, forall_apply_eq_imp_iff₂]
    intro a ha hl
    rw [h.spec a ha]
    exact hc.current a ha (h.live ha hl)
  wanted := by
    simp only [List.mem_map, forall_exists_index, and_imp, forall_apply_eq_imp_iff₂]
    intro a ha hl
    rw [h.spec a ha]
    exact hc.wanted a ha (h.live ha hl)

end Advances

/-! ## Later revisions -/

/-- Facts recorded up to a revision are recorded up to a later one. -/
theorem SatisfactionsCoherent.mono {order order' : ℕ} (hle : order ≤ order') {programId : Name}
    {history : List ProgramSpec} {attempts : List Attempt}
    {satisfactions : List TrustedSatisfaction}
    (h : SatisfactionsCoherent order programId history attempts satisfactions) :
    SatisfactionsCoherent order' programId history attempts satisfactions :=
  { h with each := fun s hs => { h.each s hs with
      recorded := ⟨(h.each s hs).recorded.1, (h.each s hs).recorded.2.trans hle⟩ } }

omit [Sha256] in
theorem WithdrawalsCoherent.mono {order order' : ℕ} (hle : order ≤ order')
    {attempts : List Attempt} {withdrawals : List AttemptCancellation}
    (h : WithdrawalsCoherent order attempts withdrawals) :
    WithdrawalsCoherent order' attempts withdrawals :=
  { h with recorded := fun c hc => (h.recorded c hc).trans hle }

/-- A coherent ledger is coherent at the next revision. -/
theorem Ledger.Coherent.next {order : ℕ} {d : Ledger} (h : d.Coherent order) :
    d.Coherent (order + 1) :=
  { h with
    satisfactions := h.satisfactions.mono (Nat.le_succ _)
    cancellations := fun c hc => ⟨(h.cancellations c hc).1,
      (h.cancellations c hc).2.trans (Nat.le_succ _)⟩
    withdrawals := h.withdrawals.mono (Nat.le_succ _) }

/-- Citations survive an extension of the history. -/
theorem Cites.append {history : List ProgramSpec} {pin : ℕ × Name} {s : ProgramSpec}
    (h : Cites history pin s) (more : List ProgramSpec) : Cites (history ++ more) pin s :=
  ⟨List.mem_append_left _ h.1, h.2⟩

/-! ## Withdrawal of live Attempts -/

omit [Sha256] in
theorem mem_liveIds {attempts : List Attempt} {ids : List Name} {id : Name} :
    id ∈ Program.liveIds attempts ids ↔
      ∃ a ∈ attempts, a.attemptId = id ∧ id ∈ ids ∧ a.Live := by
  simp only [Program.liveIds, List.mem_map, List.mem_filter, decide_eq_true_iff]
  constructor
  · rintro ⟨a, ⟨ha, hid, hl⟩, rfl⟩
    exact ⟨a, ha, rfl, hid, hl⟩
  · rintro ⟨a, ha, rfl, hid, hl⟩
    exact ⟨a, ⟨ha, hid, hl⟩, rfl⟩

omit [Sha256] in
/-- With distinct identifiers, an Attempt is withdrawn exactly if it is live and listed. -/
theorem attemptId_mem_liveIds {attempts : List Attempt}
    (hn : (attempts.map Attempt.attemptId).Nodup) {a : Attempt} (ha : a ∈ attempts)
    {ids : List Name} :
    a.attemptId ∈ Program.liveIds attempts ids ↔ a.attemptId ∈ ids ∧ a.Live := by
  rw [mem_liveIds]
  constructor
  · rintro ⟨b, hb, he, hid, hl⟩
    obtain rfl := List.inj_on_of_nodup_map hn hb ha he
    exact ⟨hid, hl⟩
  · exact fun h => ⟨a, ha, rfl, h⟩

omit [Sha256] in
/-- Withdrawal is an update of live Attempts. -/
theorem advances_cancelLive {attempts : List Attempt}
    (hn : (attempts.map Attempt.attemptId).Nodup) (ids : List Name) :
    Advances attempts fun a =>
      if a.attemptId ∈ Program.liveIds attempts ids then a.withStatus .cancelled else a where
  spec a _ := by split_ifs <;> rfl
  actor a _ := by split_ifs <;> rfl
  still a ha hl := by
    exact if_neg fun hm => hl ((attemptId_mem_liveIds hn ha).1 hm).2

omit [Sha256] in
/-- What is live after a withdrawal was live and not listed. -/
theorem live_of_mem_withdrawn {attempts : List Attempt}
    (hn : (attempts.map Attempt.attemptId).Nodup) {ids : List Name} {a : Attempt}
    (ha : a ∈ Program.withdrawn attempts ids) (hl : a.Live) :
    a ∈ attempts ∧ a.attemptId ∉ ids := by
  obtain ⟨b, hb, rfl⟩ := List.mem_map.1 ha
  split_ifs at hl ⊢ with hm
  · rcases hl with h | h <;> cases h
  · rw [attemptId_mem_liveIds hn hb] at hm
    exact ⟨hb, fun hid => hm ⟨hid, hl⟩⟩

omit [Sha256] in
/-- Withdrawal records exactly one cancellation for each withdrawn Attempt. -/
theorem WithdrawalsCoherent.cancelLive {order : ℕ} {d : Ledger}
    (hn : (d.attempts.map Attempt.attemptId).Nodup)
    (h : WithdrawalsCoherent (order + 1) d.attempts d.attemptCancellations)
    (actorId reason : Name) (ids : List Name) :
    WithdrawalsCoherent (order + 1) (Program.cancelLive actorId order ids reason d).attempts
      (Program.cancelLive actorId order ids reason d).attemptCancellations := by
  have hnew : ((SortedSet.ofList (Program.liveIds d.attempts ids)).toList.map fun id =>
      (⟨id, actorId, reason, order + 1, order.succ_pos⟩ : AttemptCancellation)).map
        AttemptCancellation.attemptId =
      (SortedSet.ofList (Program.liveIds d.attempts ids)).toList := by
    rw [List.map_map]
    exact List.map_id _
  refine ⟨?_, ?_, ?_⟩
  · simp only [Program.cancelLive, List.map_append, hnew]
    refine List.nodup_append.2 ⟨h.ids, SortedBy.nodup _, ?_⟩
    rintro id hid _ hlive rfl
    -- a recorded cancellation belongs to a cancelled Attempt, a new one to a live one
    obtain ⟨a, ha, he, hcan⟩ := (h.exact id).1 hid
    obtain ⟨b, hb, hbe, -, hbl⟩ := mem_liveIds.1 (SortedSet.mem_ofList.1 hlive)
    obtain rfl := List.inj_on_of_nodup_map hn hb ha (hbe.trans he.symm)
    rcases hbl with hs | hs <;> rw [hs] at hcan <;> cases hcan
  · intro c hc
    rcases List.mem_append.1 hc with hc | hc
    · exact h.recorded c hc
    · obtain ⟨id, -, rfl⟩ := List.mem_map.1 hc
      exact Nat.le_refl _
  · intro id
    simp only [Program.cancelLive, Program.withdrawn, List.map_append, hnew, List.mem_append, SortedBy.mem_toList,
      SortedSet.mem_ofList, h.exact, List.mem_map]
    constructor
    · rintro (⟨a, ha, rfl, hcan⟩ | hid)
      · exact ⟨_, ⟨a, ha, rfl⟩, by split_ifs <;> rfl, by split_ifs <;> first | rfl | exact hcan⟩
      · obtain ⟨a, ha, rfl, -, -⟩ := mem_liveIds.1 hid
        exact ⟨_, ⟨a, ha, rfl⟩, by rw [if_pos hid]; rfl, by rw [if_pos hid]; rfl⟩
    · rintro ⟨_, ⟨a, ha, rfl⟩, hid, hcan⟩
      split_ifs at hid hcan with hm
      · exact .inr (by rw [← hid]; exact hm)
      · exact .inl ⟨a, ha, hid, hcan⟩

/-- Withdrawal keeps the records coherent. -/
theorem Ledger.Recorded.cancelLive {order : ℕ} {d : Ledger} (h : d.Recorded (order + 1))
    (actorId reason : Name) (ids : List Name) :
    (Program.cancelLive actorId order ids reason d).Recorded (order + 1) where
  history := h.history
  attempts := (advances_cancelLive h.attempts.ids ids).attemptsCoherent h.attempts
  satisfactions := (advances_cancelLive h.attempts.ids ids).satisfactionsCoherent h.satisfactions
  cancellations := h.cancellations
  withdrawals := h.withdrawals.cancelLive h.attempts.ids actorId reason ids
  draft hd := by
    obtain ⟨ha, hs, hc⟩ := h.draft hd
    exact ⟨by simp [Program.cancelLive, Program.withdrawn, ha], hs, hc⟩

namespace Program

variable {p : Program} {d : Ledger}

/-! ## Lookups -/

theorem Coherent.attempt_eq_ok (h : p.Coherent) {id : Name} {a : Attempt} :
    p.attempt id = .ok a ↔ a ∈ p.attempts ∧ a.attemptId = id := by
  rw [attempt, lookup_eq_ok, find?_key_eq_some_iff h.ledger.attempts.ids]

theorem Coherent.state_eq_ok (h : p.Coherent) {n : Name} {s : WorkUnitState} :
    p.state n = .ok s ↔ s ∈ p.workUnitStates ∧ s.workUnitId = n := by
  rw [state, lookup_eq_ok, find?_key_eq_some_iff h.nodup_workUnitId]

/-! ## Status changes -/

/-- A status other than draft and cancelled fits every coherent ledger. -/
theorem Coherent.withStatus (h : p.Coherent) {status : ProgramStatus} (hd : status ≠ .draft)
    (hc : status ≠ .cancelled) :
    ({ p.toLedger with status := status } : Ledger).Coherent (p.revision + 1) :=
  { h.ledger.next with
    draft := fun e => absurd e hd
    cancelled := fun e => absurd e hc }

theorem switchStatus_coherent (h : p.Coherent) {source target : ProgramStatus} {message : String}
    (hd : target ≠ .draft) (hc : target ≠ .cancelled)
    (hg : p.switchStatus source target message = .ok d) :
    d.Coherent (p.revision + 1) ∧ p.specHistory ⊆ d.specHistory := by
  obtain ⟨_, -, hg⟩ := bind_eq_ok.1 hg
  obtain rfl := pure_eq_ok.1 hg
  exact ⟨h.withStatus hd hc, List.Subset.refl _⟩

theorem cancelProgram_coherent (h : p.Coherent) {actorId : Name}
    (hg : p.cancelProgram actorId = .ok d) :
    d.Coherent (p.revision + 1) ∧ p.specHistory ⊆ d.specHistory := by
  obtain ⟨_, -, hg⟩ := bind_eq_ok.1 hg
  obtain rfl := pure_eq_ok.1 hg
  have hr := h.ledger.next.toRecorded.cancelLive actorId
    ⟨"Program abandonment", by decide⟩ (p.attempts.map Attempt.attemptId)
  have hdead : ∀ a ∈ withdrawn p.attempts (p.attempts.map Attempt.attemptId), ¬a.Live := by
    intro a ha hl
    obtain ⟨hmem, hid⟩ := live_of_mem_withdrawn h.ledger.attempts.ids ha hl
    exact hid (List.mem_map_of_mem hmem)
  refine ⟨{ hr with draft := nofun, live := ⟨?_, ?_, ?_⟩, cancelled := fun _ => hdead },
    List.Subset.refl _⟩
  · exact List.pairwise_of_forall_mem_list fun a ha b _ hla => absurd hla (hdead a ha)
  · exact fun a ha hl => absurd hl (hdead a ha)
  · exact fun a ha hl => absurd hl (hdead a ha)

/-! ## Abandoning a unit -/

omit [Sha256] in
/-- One pass along the order closes the affected units under dependents. -/
theorem spread_spec {spec : ProgramSpec} {done order affected result : List Name}
    (hr : Layers.Respects spec.DependsOn done order) (hnd : order.Nodup)
    (hdone : ∀ n ∈ order, n ∉ done)
    (hpred : ∀ n ∈ done, ∀ d, spec.DependsOn n d → d ∈ done)
    (hclosed : ∀ n ∈ done, ∀ d, spec.DependsOn n d → d ∈ affected → n ∈ affected)
    (h : spread spec affected order = .ok result) :
    affected ⊆ result ∧
      ∀ n, n ∈ done ∨ n ∈ order → ∀ d, spec.DependsOn n d → d ∈ result → n ∈ result := by
  induction order generalizing done affected with
  | nil =>
    obtain rfl := Except.ok.inj h
    exact ⟨List.Subset.refl _, fun n hn => hclosed n (by simpa using hn)⟩
  | cons m rest ih =>
    obtain ⟨u, hu, h⟩ := bind_eq_ok.1 h
    obtain ⟨humem, rfl⟩ := ProgramSpec.workUnit_eq_ok.1 hu
    rw [List.nodup_cons] at hnd
    have hm : u.workUnitId ∉ done := hdone _ List.mem_cons_self
    have hdep : ∀ d, spec.DependsOn u.workUnitId d → d ∈ u.dependencies := fun d ⟨v, hv, he, hd⟩ =>
      spec.workUnits.eq_of_key_eq hv humem he ▸ hd
    have hrest : ∀ n ∈ rest, n ∉ u.workUnitId :: done := fun n hn => by
      rw [List.mem_cons, not_or]
      exact ⟨fun he => hnd.1 (he ▸ hn), hdone n (List.mem_cons_of_mem _ hn)⟩
    have hpred' : ∀ n ∈ u.workUnitId :: done, ∀ d, spec.DependsOn n d →
        d ∈ u.workUnitId :: done := by
      intro n hn d hd
      rcases List.mem_cons.1 hn with rfl | hn
      exacts [List.mem_cons_of_mem _ (hr.1 d hd), List.mem_cons_of_mem _ (hpred n hn d hd)]
    -- predecessors of done units are done, so adding the head affects none of them
    have hclosed' : ∀ n ∈ u.workUnitId :: done, ∀ d, spec.DependsOn n d →
        d ∈ (if ∃ dep ∈ u.dependencies.toList, dep ∈ affected then u.workUnitId :: affected
          else affected) →
        n ∈ (if ∃ dep ∈ u.dependencies.toList, dep ∈ affected then u.workUnitId :: affected
          else affected) := by
      intro n hn d hd hda
      have hdd : d ∈ done := by
        rcases List.mem_cons.1 hn with rfl | hn
        exacts [hr.1 d hd, hpred n hn d hd]
      have hold : d ∈ affected := by
        split_ifs at hda
        · exact (List.mem_cons.1 hda).resolve_left fun he => hm (he ▸ hdd)
        · exact hda
      rcases List.mem_cons.1 hn with rfl | hn
      · rw [if_pos ⟨d, hdep d hd, hold⟩]
        exact List.mem_cons_self
      · have := hclosed n hn d hd hold
        split_ifs
        exacts [List.mem_cons_of_mem _ this, this]
    obtain ⟨hsub, hall⟩ := ih hr.2 hnd.2 hrest hpred' hclosed' h
    refine ⟨fun n hn => hsub ?_, fun n hn => hall n ?_⟩
    · split_ifs
      exacts [List.mem_cons_of_mem _ hn, hn]
    · rw [List.mem_cons] at hn ⊢
      tauto

/-- A new cancellation abandons only units that depend on its unit. -/
theorem abandoned_append {spec : ProgramSpec} {cancellations : List WorkUnitCancellation}
    {c : WorkUnitCancellation} {affected : List Name} (hc : c.workUnitId ∈ affected)
    (hclosed : ∀ n d, spec.DependsOn n d → d ∈ affected → n ∈ affected) {n : Name}
    (h : Abandoned spec (cancellations ++ [c]) n) :
    Abandoned spec cancellations n ∨ n ∈ affected := by
  induction h with
  | direct hf c' hc' hu hp =>
    rcases List.mem_append.1 hc' with hc' | hc'
    · exact .inl (.direct hf c' hc' hu hp)
    · obtain rfl := List.mem_singleton.1 hc'
      exact .inr (hu ▸ hc)
  | inherited hd _ ih =>
    rcases ih with ih | ih
    exacts [.inl (.inherited hd ih), .inr (hclosed _ _ hd ih)]

theorem cancelWorkUnit_coherent (h : p.Coherent) {actorId workUnitId reason : Name}
    (hg : p.cancelWorkUnit actorId workUnitId reason = .ok d) :
    d.Coherent (p.revision + 1) ∧ p.specHistory ⊆ d.specHistory := by
  simp only [cancelWorkUnit, bind_eq_ok, check_eq_ok, pure_eq_ok] at hg
  obtain ⟨_, hstatus, unit, hunit, order, horder, affected, hspread, state, -, _, -, fp, hf, rfl⟩ :=
    hg
  obtain ⟨order', ho', hnd, hmem, hr⟩ := p.spec.exists_topologicalOrder
  obtain rfl : order' = order := Except.ok.inj (ho'.symm.trans horder)
  obtain ⟨hself, hclosed⟩ := spread_spec hr hnd (by simp) (by simp) (by simp) hspread
  have hclosed' : ∀ n d, p.spec.DependsOn n d → d ∈ affected → n ∈ affected := by
    intro n d hd
    obtain ⟨u, hu, he, -⟩ := id hd
    exact hclosed n (.inr ((hmem n).2 (ProgramSpec.mem_unitIds.2 ⟨u, hu, he⟩))) d hd
  set c : WorkUnitCancellation := ⟨unit.workUnitId, fp, p.spec.revision, p.spec.digest, actorId,
    reason, p.revision + 1, p.spec.valid.revisionPos, p.revision.succ_pos⟩ with hc
  have hbase : ({ p.toLedger with cancellations := p.cancellations ++ [c] } :
      Ledger).Recorded (p.revision + 1) :=
    { h.ledger.next.toRecorded with
      cancellations := by
        intro c' hc'
        rcases List.mem_append.1 hc' with hc' | hc'
        · exact h.ledger.next.cancellations c' hc'
        · obtain rfl := List.mem_singleton.1 hc'
          exact ⟨⟨p.spec, ⟨h.ledger.history.mem, rfl⟩, hf⟩, Nat.le_refl _⟩
      draft := fun hd => by
        rcases hstatus with hs | hs <;> rw [hs] at hd <;> cases hd }
  set ids := (p.attempts.filter fun a => a.spec.workUnitId ∈ affected).map Attempt.attemptId
    with hids
  have hlive := (advances_cancelLive h.ledger.attempts.ids ids).liveCoherent h.ledger.live
  refine ⟨{ hbase.cancelLive actorId _ ids with
    live := ⟨hlive.distinct, hlive.current, ?_⟩
    cancelled := fun hd => ?_ }, List.Subset.refl _⟩
  · intro a ha hl hab
    obtain ⟨hmemp, hnot⟩ := live_of_mem_withdrawn h.ledger.attempts.ids ha hl
    rcases abandoned_append (c := c) (hself List.mem_cons_self) hclosed' hab with hold | hnew
    · exact h.ledger.live.wanted a hmemp hl hold
    · refine hnot (List.mem_map.2 ⟨a, List.mem_filter.2 ⟨hmemp, ?_⟩, rfl⟩)
      simpa using hnew
  · rcases hstatus with hs | hs <;> exact absurd (hs.symm.trans hd) nofun

/-! ## Attempts -/

/-- A new live Attempt for a unit without one. -/
theorem prepareAttempt_coherent (h : p.Coherent) {actorId : Name} {requested : AttemptSpec}
    (hg : p.prepareAttempt actorId requested = .ok d) :
    d.Coherent (p.revision + 1) ∧ p.specHistory ⊆ d.specHistory := by
  simp only [prepareAttempt, bind_eq_ok, check_eq_ok, pure_eq_ok] at hg
  obtain ⟨_, hprog, _, hpin, unit, hunit, _, hactive, state, hstate, _, hready, _, hfresh, _,
    hidle, inputs, -, _, -, _, hrem, _, -, _, -, rfl⟩ := hg
  obtain ⟨humem, huid⟩ := ProgramSpec.workUnit_eq_ok.1 hunit
  obtain ⟨hsmem, hsid⟩ := h.state_eq_ok.1 hstate
  have hn := h.ledger.next
  set new : Attempt := ⟨requested, .prepared, actorId⟩ with hnew
  have hlineage : ∀ r ∈ requested.remediationOf, ∃ source ∈ p.attempts, source.attemptId = r ∧
      source.status = .finished ∧ source.spec.workUnitId = requested.workUnitId ∧
      source.spec.pin = requested.pin := by
    intro r hr
    rw [Option.mem_def] at hr
    simp only [hr, checkLineage, checkRemediation, bind_eq_ok, check_eq_ok] at hrem
    obtain ⟨source, hsource, _, ⟨hfin, hsu, hsp⟩, -⟩ := hrem
    obtain ⟨hmem, hid⟩ := h.attempt_eq_ok.1 hsource
    exact ⟨source, hmem, hid, hfin, hsu.trans huid, hsp.trans hpin.symm⟩
  refine ⟨{ hn with
    attempts := ?_
    satisfactions := ?_
    withdrawals := ?_
    draft := ?_
    live := ?_
    cancelled := ?_ }, List.Subset.refl _⟩
  · refine ⟨?_, ?_, ?_, ?_⟩
    · rw [List.map_append, List.nodup_append]
      refine ⟨hn.attempts.ids, List.nodup_singleton _, ?_⟩
      rintro _ hid b hb rfl
      obtain ⟨a, ha, he⟩ := List.mem_map.1 hid
      rw [List.map_singleton, List.mem_singleton] at hb
      exact hfresh a ha (he.trans hb)
    · intro a ha
      rcases List.mem_append.1 ha with ha | ha
      · exact hn.attempts.program a ha
      · obtain rfl := List.mem_singleton.1 ha
        exact hprog
    · intro a ha
      rcases List.mem_append.1 ha with ha | ha
      · exact hn.attempts.pinned a ha
      · obtain rfl := List.mem_singleton.1 ha
        exact ⟨p.spec, ⟨h.ledger.history.mem, hpin.symm⟩, ProgramSpec.mem_unitIds.2 ⟨unit, humem, huid⟩⟩
    · intro before a after heq r hr
      rcases List.eq_nil_or_concat' after with rfl | ⟨after, x, rfl⟩
      · obtain ⟨rfl, ha⟩ := List.append_inj' heq rfl
        obtain rfl := (List.cons.inj ha).1
        exact hlineage r hr
      · rw [← List.cons_append, ← List.append_assoc] at heq
        obtain ⟨heq, -⟩ := List.append_inj' heq rfl
        exact hn.attempts.lineage before a after heq r hr
  · refine { hn.satisfactions with each := fun s hs => { hn.satisfactions.each s hs with
      source := ?_ } }
    obtain ⟨a, ha, hrest⟩ := (hn.satisfactions.each s hs).source
    exact ⟨a, List.mem_append_left _ ha, hrest⟩
  · refine { hn.withdrawals with exact := fun id => ?_ }
    rw [hn.withdrawals.exact]
    constructor
    · rintro ⟨a, ha, hrest⟩
      exact ⟨a, List.mem_append_left _ ha, hrest⟩
    · rintro ⟨a, ha, hid, hcan⟩
      rcases List.mem_append.1 ha with ha | ha
      · exact ⟨a, ha, hid, hcan⟩
      · obtain rfl := List.mem_singleton.1 ha
        cases hcan
  · exact fun hd => by cases hactive.symm.trans hd
  · refine ⟨?_, ?_, ?_⟩
    · refine List.pairwise_append.2 ⟨hn.live.distinct, List.pairwise_singleton _ _, ?_⟩
      rintro a ha b hb hla - he
      obtain rfl := List.mem_singleton.1 hb
      exact hidle a ha (he.trans huid.symm) hla
    · intro a ha hl
      rcases List.mem_append.1 ha with ha | ha
      · exact hn.live.current a ha hl
      · obtain rfl := List.mem_singleton.1 ha
        exact ProgramSpec.mem_unitIds.2 ⟨unit, humem, huid⟩
    · intro a ha hl
      rcases List.mem_append.1 ha with ha | ha
      · exact hn.live.wanted a ha hl
      · obtain rfl := List.mem_singleton.1 ha
        have hproj := h.projected fun hd => by rw [hactive] at hd; cases hd
        intro hab
        have hphase := (cancelled_iff_abandoned hproj hsmem).2 (by rwa [hsid, huid])
        rw [← WorkUnitState.status_eq_cancelled, hready] at hphase
        cases hphase
  · exact fun hd => by cases hactive.symm.trans hd

/-- A live Attempt moves on to a status other than cancelled. -/
theorem replaceStatus_coherent (h : p.Coherent) {current : Attempt} (hmem : current ∈ p.attempts)
    (hl : current.Live) {status : AttemptStatus} (hs : status ≠ .cancelled)
    (hd : p.status ≠ .draft) (hc : p.status ≠ .cancelled) :
    ({ p.toLedger with attempts := replaceStatus p.attempts current.attemptId status } :
      Ledger).Coherent (p.revision + 1) := by
  have hn := h.ledger.next
  have hadv : Advances p.attempts fun a =>
      if a.attemptId = current.attemptId then a.withStatus status else a := by
    refine ⟨fun a _ => ?_, fun a _ => ?_, fun a ha hna => if_neg fun he => hna ?_⟩
    · split_ifs <;> rfl
    · split_ifs <;> rfl
    · rwa [List.inj_on_of_nodup_map hn.attempts.ids ha hmem he]
  refine { hn with
    attempts := hadv.attemptsCoherent hn.attempts
    satisfactions := hadv.satisfactionsCoherent hn.satisfactions
    withdrawals := ?_
    draft := fun e => absurd e hd
    live := hadv.liveCoherent hn.live
    cancelled := fun e => absurd e hc }
  refine { hn.withdrawals with exact := fun id => ?_ }
  rw [hn.withdrawals.exact]
  simp only [replaceStatus, List.mem_map]
  constructor
  · rintro ⟨a, ha, rfl, hcan⟩
    refine ⟨a, ⟨a, ha, if_neg fun he => ?_⟩, rfl, hcan⟩
    rw [List.inj_on_of_nodup_map hn.attempts.ids ha hmem he] at hcan
    rcases hl with h | h <;> rw [h] at hcan <;> cases hcan
  · rintro ⟨_, ⟨a, ha, rfl⟩, hid, hcan⟩
    split_ifs at hid hcan
    · exact absurd hcan hs
    · exact ⟨a, ha, hid, hcan⟩

omit [Sha256] in
theorem Open.ne_draft (h : p.Open) : p.status ≠ .draft := by
  rcases h with h | h | h <;> simp [h]

omit [Sha256] in
theorem Open.ne_cancelled (h : p.Open) : p.status ≠ .cancelled := by
  rcases h with h | h | h <;> simp [h]

theorem startAttempt_coherent (h : p.Coherent) {attemptId : Name}
    (hg : p.startAttempt attemptId = .ok d) :
    d.Coherent (p.revision + 1) ∧ p.specHistory ⊆ d.specHistory := by
  simp only [startAttempt, bind_eq_ok, check_eq_ok, pure_eq_ok] at hg
  obtain ⟨current, hcur, state, -, _, ⟨hactive, hprep, -⟩, rfl⟩ := hg
  obtain ⟨hmem, rfl⟩ := h.attempt_eq_ok.1 hcur
  exact ⟨replaceStatus_coherent h hmem (.inl hprep) (by rintro ⟨⟩) (by simp [hactive]) (by simp [hactive]),
    List.Subset.refl _⟩

theorem finishAttempt_coherent (h : p.Coherent) {attemptId : Name}
    (hg : p.finishAttempt attemptId = .ok d) :
    d.Coherent (p.revision + 1) ∧ p.specHistory ⊆ d.specHistory := by
  simp only [finishAttempt, bind_eq_ok, check_eq_ok, pure_eq_ok] at hg
  obtain ⟨current, hcur, _, ⟨hopen, hexec⟩, rfl⟩ := hg
  obtain ⟨hmem, rfl⟩ := h.attempt_eq_ok.1 hcur
  exact ⟨replaceStatus_coherent h hmem (.inr hexec) (by rintro ⟨⟩) hopen.ne_draft hopen.ne_cancelled,
    List.Subset.refl _⟩

theorem failAttempt_coherent (h : p.Coherent) {attemptId : Name}
    (hg : p.failAttempt attemptId = .ok d) :
    d.Coherent (p.revision + 1) ∧ p.specHistory ⊆ d.specHistory := by
  simp only [failAttempt, checkLive, bind_eq_ok, check_eq_ok, pure_eq_ok] at hg
  obtain ⟨_, ⟨current, hcur, hopen, hl⟩, rfl⟩ := hg
  obtain ⟨hmem, rfl⟩ := h.attempt_eq_ok.1 hcur
  exact ⟨replaceStatus_coherent h hmem hl (by rintro ⟨⟩) hopen.ne_draft hopen.ne_cancelled,
    List.Subset.refl _⟩

theorem cancelAttempt_coherent (h : p.Coherent) {actorId attemptId : Name}
    (hg : p.cancelAttempt actorId attemptId = .ok d) :
    d.Coherent (p.revision + 1) ∧ p.specHistory ⊆ d.specHistory := by
  simp only [cancelAttempt, checkLive, bind_eq_ok, check_eq_ok, pure_eq_ok] at hg
  obtain ⟨_, ⟨current, hcur, hopen, -⟩, rfl⟩ := hg
  have hn := h.ledger.next
  exact ⟨{ hn.toRecorded.cancelLive actorId _ _ with
    live := (advances_cancelLive hn.attempts.ids _).liveCoherent hn.live
    cancelled := fun e => absurd e hopen.ne_cancelled }, List.Subset.refl _⟩

/-! ## Satisfactions -/

theorem satisfyWorkUnit_coherent (h : p.Coherent) {actorId : Name} {fact : TrustedSatisfaction}
    (hg : p.satisfyWorkUnit actorId fact = .ok d) :
    d.Coherent (p.revision + 1) ∧ p.specHistory ⊆ d.specHistory := by
  simp only [satisfyWorkUnit, bind_eq_ok, check_eq_ok] at hg
  obtain ⟨_, hopen, _, -, _, hprog, hg⟩ := hg
  split at hg
  · cases hg
  next spec hspec =>
  simp only [bind_eq_ok, check_eq_ok, pure_eq_ok] at hg
  obtain ⟨unit, hunit, fp, hf, _, rfl, _, ⟨-, hfresh⟩, source, hsource, _, hfin, _, ⟨-, hsu⟩, _,
    hsp, _, hout, rfl⟩ := hg
  obtain ⟨humem, huid⟩ := ProgramSpec.workUnit_eq_ok.1 hunit
  obtain ⟨hsmem, hsid⟩ := h.attempt_eq_ok.1 hsource
  have hn := h.ledger.next
  refine ⟨{ hn with
    satisfactions := ?_
    draft := fun e => absurd e hopen.ne_draft
    cancelled := fun e => absurd e hopen.ne_cancelled }, List.Subset.refl _⟩
  refine ⟨?_, ?_, ?_⟩
  · rw [List.map_append, List.nodup_append]
    refine ⟨hn.satisfactions.ids, List.nodup_singleton _, ?_⟩
    rintro _ hid b hb rfl
    obtain ⟨s, hs, he⟩ := List.mem_map.1 hid
    rw [List.map_singleton, List.mem_singleton] at hb
    exact hfresh s hs (he.trans hb)
  · intro s hs
    rcases List.mem_append.1 hs with hs | hs
    · exact hn.satisfactions.each s hs
    · obtain rfl := List.mem_singleton.1 hs
      exact {
        program := hprog
        pinned := ⟨spec, unit, h.ledger.history.find?_pin.1 hspec, humem, huid,
          by rw [huid] at hf; exact hf, hout⟩
        source := ⟨source, hsmem, hsid, hfin, hsu.trans huid, hsp⟩
        recorded := ⟨Nat.succ_pos _, Nat.le_refl _⟩ }
  · refine List.pairwise_append.2 ⟨hn.satisfactions.increasing, List.pairwise_singleton _ _, ?_⟩
    intro s hs t ht
    obtain rfl := List.mem_singleton.1 ht
    exact Nat.lt_succ_of_le (h.ledger.satisfactions.each s hs).recorded.2

/-! ## Amendments -/

omit [Sha256] in
/-- Withdrawing a live Attempt leaves fewer live ones. -/
theorem length_live_withdrawn {attempts : List Attempt}
    (hn : (attempts.map Attempt.attemptId).Nodup) {ids : List Name} {a : Attempt}
    (ha : a ∈ attempts) (hl : a.Live) (hid : a.attemptId ∈ ids) :
    ((withdrawn attempts ids).filter fun a => a.Live).length <
      (attempts.filter fun a => a.Live).length := by
  have hadv := advances_cancelLive hn ids
  set f : Attempt → Attempt := fun a =>
    if a.attemptId ∈ liveIds attempts ids then a.withStatus .cancelled else a with hf
  have hlen : ((withdrawn attempts ids).filter fun a => a.Live).length =
      (attempts.filter fun a => (f a).Live).length := by
    rw [withdrawn, List.filter_map, List.length_map]
    rfl
  have hsub : (attempts.filter fun a => (f a).Live).Sublist (attempts.filter fun a => a.Live) := by
    have heq : (attempts.filter fun a => (f a).Live) =
        (attempts.filter fun a => a.Live).filter fun a => (f a).Live := by
      rw [List.filter_filter]
      refine List.filter_congr fun b hb => ?_
      have := fun h => hadv.live hb h
      rw [Bool.eq_iff_iff, Bool.and_eq_true, decide_eq_true_iff, decide_eq_true_iff]
      exact ⟨fun h => ⟨h, this h⟩, And.left⟩
    rw [heq]
    exact List.filter_sublist
  rw [hlen]
  refine lt_of_le_of_ne hsub.length_le fun he => ?_
  -- the withdrawn Attempt is in the longer list only
  have hmem : a ∈ attempts.filter fun a => a.Live := List.mem_filter.2 ⟨ha, by simpa using hl⟩
  rw [← hsub.eq_of_length he, List.mem_filter, decide_eq_true_iff] at hmem
  have hfa : f a = a.withStatus .cancelled :=
    if_pos ((attemptId_mem_liveIds hn ha).2 ⟨hid, hl⟩)
  rw [hfa] at hmem
  rcases hmem.2 with h | h <;> cases h

/-- The invalidated Attempts are live. -/
theorem exists_of_mem_invalidAttempts {d : Ledger} {projected : List WorkUnitState}
    {invalid : List Name} (h : invalidAttempts d projected = .ok invalid) {id : Name}
    (hid : id ∈ invalid) : ∃ a ∈ d.attempts, a.attemptId = id ∧ a.Live := by
  obtain ⟨l, hl, h⟩ := bind_eq_ok.1 h
  obtain rfl := pure_eq_ok.1 h
  obtain ⟨a, ha, rfl⟩ := List.mem_map.1 hid
  obtain ⟨hmem, htrue⟩ := ((filterM_eq_ok hl).2 a).1 ha
  refine ⟨a, hmem, rfl, ?_⟩
  by_contra hn
  rw [if_neg hn] at htrue
  cases htrue

/-- When nothing is invalidated, every live Attempt was found valid. -/
theorem invalidated_of_nil {d : Ledger} {projected : List WorkUnitState}
    (h : invalidAttempts d projected = .ok []) {a : Attempt} (ha : a ∈ d.attempts)
    (hl : a.Live) : invalidated d projected a = .ok false := by
  obtain ⟨l, hfilter, h⟩ := bind_eq_ok.1 h
  obtain rfl := List.map_eq_nil_iff.1 (pure_eq_ok.1 h)
  obtain ⟨hall, hmem⟩ := filterM_eq_ok hfilter
  obtain ⟨b, hb⟩ := hall a ha
  rw [if_pos hl] at hb
  cases b with
  | false => exact hb
  | true => exact absurd ((hmem a).2 ⟨ha, by rw [if_pos hl, hb]⟩) (by simp)

/-- A valid live Attempt works on a current unit that is not cancelled. -/
theorem valid_subject {d : Ledger} {projected : List WorkUnitState} {a : Attempt}
    (h : invalidated d projected a = .ok false) :
    a.spec.workUnitId ∈ d.spec.unitIds ∧
      ∃ s, stateById projected a.spec.workUnitId = some s ∧ s.phase ≠ .cancelled := by
  unfold invalidated at h
  split at h
  · next unit source hu hs =>
    refine ⟨ProgramSpec.mem_unitIds.2 ⟨unit, ProgramSpec.workUnit_eq_ok.1 hu⟩, ?_⟩
    simp only [bind_eq_ok] at h
    obtain ⟨inputs, -, before, -, now, -, h⟩ := h
    split at h
    · simp at h
    · split_ifs at h
      · simp at h
      · simp only [bind_eq_ok, subscript_eq_ok, pure_eq_ok, decide_eq_false_iff_not,
          WorkUnitState.status_eq_cancelled] at h
        exact h
  · cases h

/-- The withdrawal loop keeps the records coherent and the rest of the ledger as it is, and
stops when no live Attempt is invalidated; the fuel is not exhausted before. -/
theorem withdraw_spec {actorId : Name} {revision fuel : ℕ} {d d' : Ledger}
    (hr : d.Recorded (revision + 1))
    (hdis : d.attempts.Pairwise fun a b => a.Live → b.Live →
      a.spec.workUnitId ≠ b.spec.workUnitId)
    (hfuel : (d.attempts.filter fun a => a.Live).length < fuel)
    (h : withdraw actorId revision fuel d = .ok d') :
    d'.Recorded (revision + 1) ∧
      (d'.attempts.Pairwise fun a b => a.Live → b.Live →
        a.spec.workUnitId ≠ b.spec.workUnitId) ∧
      d' = { d with attempts := d'.attempts, attemptCancellations := d'.attemptCancellations } ∧
      ∃ projected, project d'.spec d'.attempts d'.satisfactions d'.cancellations = .ok projected ∧
        invalidAttempts d' projected = .ok [] := by
  induction fuel generalizing d with
  | zero => exact absurd hfuel (Nat.not_lt_zero _)
  | succ fuel ih =>
    rw [withdraw] at h
    obtain ⟨projected, hp, h⟩ := bind_eq_ok.1 h
    obtain ⟨invalid, hi, h⟩ := bind_eq_ok.1 h
    split_ifs at h with hnil
    · obtain rfl := pure_eq_ok.1 h
      exact ⟨hr, hdis, rfl, projected, hp, hnil ▸ hi⟩
    · obtain ⟨id, hid⟩ := List.exists_mem_of_ne_nil _ hnil
      obtain ⟨a, ha, rfl, hl⟩ := exists_of_mem_invalidAttempts hi hid
      have hlt := length_live_withdrawn hr.attempts.ids ha hl hid
      have hadv := advances_cancelLive hr.attempts.ids invalid
      have hdis' : (withdrawn d.attempts invalid).Pairwise fun a b => a.Live → b.Live →
          a.spec.workUnitId ≠ b.spec.workUnitId := by
        rw [withdrawn, List.pairwise_map]
        refine hdis.imp_of_mem fun {a b} ha hb hab hla hlb => ?_
        rw [hadv.spec a ha, hadv.spec b hb]
        exact hab (hadv.live ha hla) (hadv.live hb hlb)
      have hr' := hr.cancelLive actorId
        ⟨"amendment withdrew Attempt subject or operational authority", by decide⟩ invalid
      obtain ⟨hrec, hpair, heq, hexit⟩ :=
        ih hr' hdis' (Nat.lt_of_lt_of_le hlt (Nat.le_of_lt_succ hfuel)) h
      exact ⟨hrec, hpair, heq, hexit⟩

/-- The records stay coherent under the next approved specification. -/
theorem amended_recorded (h : p.Coherent) {amendment : SpecAmendment} {spec : ProgramSpec}
    (hspec : p.spec.amend amendment = .ok spec) (hne : spec ≠ p.spec) :
    ({ p.toLedger with spec := spec, specHistory := p.specHistory ++ [spec] } :
      Ledger).Recorded (p.revision + 1) := by
  obtain ⟨hrev, hpar, hprog⟩ := (ProgramSpec.amend_eq_ok hspec).resolve_left hne
  have hn := h.ledger.next
  exact { hn.toRecorded with
    history := hn.history.append ⟨hrev, hpar, hprog⟩
    attempts := { hn.attempts with
      program := fun a ha => (hn.attempts.program a ha).trans hprog.symm
      pinned := fun a ha =>
        let ⟨s, hs, hu⟩ := hn.attempts.pinned a ha
        ⟨s, hs.append _, hu⟩ }
    satisfactions := { hn.satisfactions with
      each := fun s hs => { hn.satisfactions.each s hs with
        program := (hn.satisfactions.each s hs).program.trans hprog.symm
        pinned :=
          let ⟨t, unit, hc, hrest⟩ := (hn.satisfactions.each s hs).pinned
          ⟨t, unit, hc.append _, hrest⟩ } }
    cancellations := fun c hc =>
      let ⟨⟨s, hs, hf⟩, ho⟩ := hn.cancellations c hc
      ⟨⟨s, hs.append _, hf⟩, ho⟩ }

theorem amendProgramSpec_coherent (h : p.Coherent) {actorId : Name} {amendment : SpecAmendment}
    (hg : p.amendProgramSpec actorId amendment = .ok (some d)) :
    d.Coherent (p.revision + 1) ∧ p.specHistory ⊆ d.specHistory := by
  simp only [amendProgramSpec, bind_eq_ok, check_eq_ok] at hg
  obtain ⟨_, hstatus, spec, hspec, hg⟩ := hg
  split_ifs at hg with hsame
  · simp at hg
  · simp only [bind_eq_ok, pure_eq_ok, Option.some.injEq] at hg
    obtain ⟨d', hw, rfl⟩ := hg
    have hbase := amended_recorded h hspec hsame
    obtain ⟨hr, hdis, heq, projected, hp, hi⟩ :=
      withdraw_spec hbase h.ledger.live.distinct (Nat.lt_succ_self _) hw
    refine ⟨{ hr with live := ⟨hdis, fun a ha hl => ?_, fun a ha hl hab => ?_⟩, cancelled := ?_ },
      ?_⟩
    · exact (valid_subject (invalidated_of_nil hi ha hl)).1
    · obtain ⟨-, s, hs, hphase⟩ := valid_subject (invalidated_of_nil hi ha hl)
      obtain ⟨hsm, hse⟩ := index_eq_some hs
      exact hphase ((cancelled_iff_abandoned hp hsm).2 (by rwa [hse]))
    · intro hc
      rw [heq] at hc
      exact absurd hc hstatus
    · rw [heq]
      exact List.subset_append_left _ _

/-! ## Main results -/

/-- The guards of a command decide a coherent ledger that keeps the history. -/
theorem guards_coherent (h : p.Coherent) {c : DomainCommand}
    (hg : p.guards c = .ok (some d)) :
    d.Coherent (p.revision + 1) ∧ p.specHistory ⊆ d.specHistory := by
  simp only [guards, bind_eq_ok, check_eq_ok] at hg
  obtain ⟨_, -, _, -, hg⟩ := hg
  cases hc : c.request with
  | amendProgramSpec amendment =>
    rw [hc] at hg
    exact amendProgramSpec_coherent h hg
  | activateProgram =>
    simp only [hc, activateProgram, map_eq_ok, Option.some.injEq, exists_eq_right] at hg
    refine switchStatus_coherent h ?_ ?_ hg <;> rintro ⟨⟩
  | pauseProgram =>
    simp only [hc, pauseProgram, map_eq_ok, Option.some.injEq, exists_eq_right] at hg
    refine switchStatus_coherent h ?_ ?_ hg <;> rintro ⟨⟩
  | resumeProgram =>
    simp only [hc, resumeProgram, map_eq_ok, Option.some.injEq, exists_eq_right] at hg
    refine switchStatus_coherent h ?_ ?_ hg <;> rintro ⟨⟩
  | cancelProgram =>
    simp only [hc, map_eq_ok, Option.some.injEq, exists_eq_right] at hg
    exact cancelProgram_coherent h hg
  | cancelWorkUnit workUnitId reason =>
    simp only [hc, map_eq_ok, Option.some.injEq, exists_eq_right] at hg
    exact cancelWorkUnit_coherent h hg
  | prepareAttempt attempt =>
    simp only [hc, map_eq_ok, Option.some.injEq, exists_eq_right] at hg
    exact prepareAttempt_coherent h hg
  | startAttempt attemptId =>
    simp only [hc, map_eq_ok, Option.some.injEq, exists_eq_right] at hg
    exact startAttempt_coherent h hg
  | finishAttempt attemptId =>
    simp only [hc, map_eq_ok, Option.some.injEq, exists_eq_right] at hg
    exact finishAttempt_coherent h hg
  | failAttempt attemptId =>
    simp only [hc, map_eq_ok, Option.some.injEq, exists_eq_right] at hg
    exact failAttempt_coherent h hg
  | cancelAttempt attemptId =>
    simp only [hc, map_eq_ok, Option.some.injEq, exists_eq_right] at hg
    exact cancelAttempt_coherent h hg
  | satisfyWorkUnit satisfaction =>
    simp only [hc, map_eq_ok, Option.some.injEq, exists_eq_right] at hg
    exact satisfyWorkUnit_coherent h hg

/-- A new Program is coherent. -/
theorem create_coherent {spec : ProgramSpec} (h : create spec = .ok p) : p.Coherent := by
  unfold create at h
  split_ifs at h with hs
  obtain rfl := Except.ok.inj h
  rw [not_or, not_not, not_not] at hs
  refine {
    ledger := {
      history := ⟨rfl, List.isChain_singleton _, by simpa using hs⟩
      attempts := ⟨List.nodup_nil, by simp, by simp, by simp⟩
      satisfactions := ⟨List.nodup_nil, by simp, List.Pairwise.nil⟩
      cancellations := by simp [CancellationsCoherent]
      withdrawals := ⟨List.nodup_nil, by simp, by simp⟩
      draft := by simp
      live := ⟨List.Pairwise.nil, by simp, by simp⟩
      cancelled := nofun }
    pending := fun _ => rfl
    projected := fun hd => absurd rfl hd
    completed := nofun
    conclusions := ⟨by simp, by simp, List.Pairwise.nil⟩ }

/-- One accepted command keeps a Program coherent. -/
theorem apply_coherent (h : p.Coherent) {c : DomainCommand} {q : Program}
    (ha : p.apply c = .ok q) : q.Coherent := by
  obtain ⟨r, hg, ha⟩ := bind_eq_ok.1 ha
  cases r with
  | none => rwa [← pure_eq_ok.1 ha]
  | some d =>
    obtain ⟨hd, hsub⟩ := guards_coherent h hg
    obtain ⟨states, hok, hq⟩ := assemble_coherent h hd hsub
    exact Except.ok.inj (hok.symm.trans ha) ▸ hq

/-- Reachable Programs are coherent. -/
theorem Reachable.coherent (h : p.Reachable) : p.Coherent := by
  induction h with
  | create h => exact create_coherent h
  | step _ c h ih => exact apply_coherent ih h

/-- In every reachable Program, when the guards of a command pass, assembly succeeds: the
projection raises nothing, the next aggregate passes every clause of the check, and it is
coherent. So a command is refused by its guards only. -/
theorem reachable_assemble (hp : p.Reachable) (c : DomainCommand) :
    (∀ d, p.guards c = .ok (some d) → ∃ states, ledgerStates d = .ok states ∧
      (p.successor d states).validate = .ok () ∧ p.assemble d = .ok (p.successor d states) ∧
      (p.successor d states).Coherent) ∧
    ∀ e, p.apply c = .error e ↔ p.guards c = .error e := by
  have hassemble : ∀ d, p.guards c = .ok (some d) → ∃ states, ledgerStates d = .ok states ∧
      (p.successor d states).validate = .ok () ∧ p.assemble d = .ok (p.successor d states) ∧
      (p.successor d states).Coherent := by
    intro d hg
    obtain ⟨hd, hsub⟩ := guards_coherent hp.coherent hg
    obtain ⟨states, hok, hq⟩ := assemble_coherent hp.coherent hd hsub
    obtain ⟨states', hs, h⟩ := bind_eq_ok.1 hok
    obtain ⟨_, -, h⟩ := bind_eq_ok.1 h
    have heq : states' = states := congrArg Program.workUnitStates (pure_eq_ok.1 h)
    exact ⟨states, heq ▸ hs, hq.validate, hok, hq⟩
  refine ⟨hassemble, fun e => ?_⟩
  unfold apply
  cases hg : p.guards c with
  | error e' => simp
  | ok r =>
    cases r with
    | none => simp [pure, Except.pure]
    | some d =>
      obtain ⟨states, -, -, hok, -⟩ := hassemble d hg
      simp [hok]

end Program

end

/-! ### A small Program -/

namespace Sample

/-- A stand-in digest for concrete runs. -/
@[reducible] def sha256 : Sha256 := ⟨fun _ => ⟨"5feceb66ffc86f38", by decide⟩⟩

/-- A unit with one criterion and no inputs. -/
def unit : WorkUnit where
  workUnitId := ⟨"build", Nonblank.build⟩
  obligation := ⟨"build the kernel", Nonblank.buildTheKernel⟩
  dependencies := .empty
  requiredInputs := .empty
  outputs := .empty
  acceptanceCriteria := ⟨[⟨"tests pass", Nonblank.testsPass⟩], List.pairwise_singleton _ _⟩
  acceptancePolicyReference := none
  acceptable := .inl (by simp)
  disjoint := nofun

/-- The first specification of a Program with one unit. -/
def spec : ProgramSpec where
  programId := ⟨"kernel", Nonblank.kernel⟩
  objective := ⟨"ship", by decide⟩
  workUnits := ⟨[unit], List.pairwise_singleton _ _⟩
  initialInputs := ⟨[], List.Pairwise.nil⟩
  budget := ⟨3, 1⟩
  authority := ⟨⟨"owner", Nonblank.owner⟩, .ofList [.activateProgram, .prepareAttempt, .startAttempt,
    .finishAttempt] (by decide), 3, ⟨[⟨"judge", Nonblank.judge⟩], List.pairwise_singleton _ _⟩, .empty,
    by simp [SortedSet.empty]⟩
  revision := 1
  parentDigest := none
  acceptanceCriteria := ⟨[⟨"done", Nonblank.done⟩], List.pairwise_singleton _ _⟩
  policyReferences := ⟨[⟨⟨"p", Nonblank.p⟩, ⟨"1", Nonblank.one⟩, ⟨"d", Nonblank.d⟩⟩],
    List.pairwise_singleton _ _⟩
  valid := SpecArgs.check_eq_ok.1 (by decide)

/-- The new Program. -/
def program : Program where
  spec := spec
  status := .draft
  revision := 0
  workUnitStates := pendingStates spec
  attempts := []
  satisfactions := []
  cancellations := []
  attemptCancellations := []
  conclusions := []
  specHistory := [spec]

theorem create_program : Program.create spec = .ok program := by decide

/-- The owner activates the Program. -/
def activate : DomainCommand := ⟨0, ⟨"owner", Nonblank.owner⟩, .activateProgram⟩

/-- An Attempt for the unit. -/
def attempt : AttemptSpec where
  attemptId := ⟨"a1", Nonblank.a1⟩
  programId := spec.programId
  workUnitId := unit.workUnitId
  specRevision := 1
  specDigest := @ProgramSpec.digest sha256 spec
  effectiveInputs := ⟨[], List.Pairwise.nil⟩
  allocationReference := none
  agentDefinitionReference := none
  workspaceReference := none
  contextReference := none
  remediationOf := none
  specRevisionPos := Nat.one_pos

/-- The acceptance of the finished Attempt. -/
def satisfaction : TrustedSatisfaction where
  referenceId := ⟨"s1", Nonblank.s1⟩
  programId := spec.programId
  workUnitId := unit.workUnitId
  specRevision := 1
  specDigest := attempt.specDigest
  workUnitFingerprint := ⟨"5feceb66ffc86f38", by decide⟩
  issuerId := ⟨"judge", Nonblank.judge⟩
  sourceAttemptId := attempt.attemptId
  outputBindings := ⟨[], List.Pairwise.nil⟩
  recordOrder := 0
  specRevisionPos := Nat.one_pos
  outputsInitial := nofun

/-- The commands that complete the Program. -/
def commands : List DomainCommand :=
  [activate, ⟨1, ⟨"owner", Nonblank.owner⟩, .prepareAttempt attempt⟩,
    ⟨2, ⟨"owner", Nonblank.owner⟩, .startAttempt attempt.attemptId⟩,
    ⟨3, ⟨"owner", Nonblank.owner⟩, .finishAttempt attempt.attemptId⟩,
    ⟨4, ⟨"judge", Nonblank.judge⟩, .satisfyWorkUnit satisfaction⟩]

/-- The completed Program. -/
def completed : Program where
  spec := spec
  status := .completed
  revision := 5
  workUnitStates := [⟨unit.workUnitId, .satisfied satisfaction.referenceId⟩]
  attempts := [⟨attempt, .finished, ⟨"owner", Nonblank.owner⟩⟩]
  satisfactions := [satisfaction.recordAt 5]
  cancellations := []
  attemptCancellations := []
  conclusions := [⟨.completed, 1, attempt.specDigest, 5, .inl rfl, Nat.one_pos, by decide⟩]
  specHistory := [spec]

theorem run_commands : @Program.run sha256 program commands = .ok completed := by
  decide +kernel

theorem reachable_completed : @Program.Reachable sha256 completed :=
  @Program.Reachable.run sha256 _ _ (@Program.Reachable.create sha256 _ _ create_program) _
    run_commands

end Sample

/-- The ledger of the activated Program. -/
def Sample.activated : Ledger := { Sample.program.toLedger with status := .active }

/-- The activation of a new Program is assembled. -/
theorem Program.reachable_assemble_activate :
    ∃ states, @ledgerStates Sample.sha256 Sample.activated = .ok states ∧
      @validate Sample.sha256 (@successor Sample.sha256 Sample.program Sample.activated states) =
        .ok () ∧
      @assemble Sample.sha256 Sample.program Sample.activated =
        .ok (@successor Sample.sha256 Sample.program Sample.activated states) ∧
      @Coherent Sample.sha256 (@successor Sample.sha256 Sample.program Sample.activated states) :=
  (@reachable_assemble Sample.sha256 _
    (@Reachable.create Sample.sha256 _ _ Sample.create_program) Sample.activate).1 _ (by decide)

end CreatidyKernel
