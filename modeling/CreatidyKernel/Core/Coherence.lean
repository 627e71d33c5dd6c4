import CreatidyKernel.Core.Program

set_option relaxedAutoImplicit false
set_option autoImplicit false

/-!
# Coherence of a Program

The invariant of the aggregate. It is stronger than the check `Program.validate` performs: it
says where every fact comes from, that the live Attempts work on units that are neither gone
nor abandoned, and how cancelled Attempts and conclusions are recorded.

## Main definitions

* `HistoryCoherent`, `AttemptsCoherent`, `SatisfactionsCoherent`, `CancellationsCoherent`,
  `WithdrawalsCoherent`, `LiveCoherent` — the invariants of the record families.
* `Ledger.Coherent`, `Program.Coherent` — the invariants of a ledger and of an aggregate.

## Main results

* `Program.Coherent.validate` — a coherent Program passes the consistency check.
* `Program.assemble_coherent` — a coherent ledger is assembled into a coherent Program.
-/

namespace CreatidyKernel

open Checked

section

variable [Sha256]

/-! ## The revision chain -/

/-- The specifications form one approved chain from the first revision to the current one. -/
structure HistoryCoherent (spec : ProgramSpec) (history : List ProgramSpec) : Prop where
  last : history.getLast? = some spec
  chain : history.IsChain fun earlier later => Program.Follows later earlier
  first : ∀ s ∈ history.head?, s.revision = 1 ∧ s.parentDigest = none

/-- A pin cites a specification of the history. -/
def Cites (history : List ProgramSpec) (pin : ℕ × Name) (h : ProgramSpec) : Prop :=
  h ∈ history ∧ (h.revision, h.digest) = pin

namespace HistoryCoherent

variable {spec : ProgramSpec} {history : List ProgramSpec}

theorem mem (h : HistoryCoherent spec history) : spec ∈ history :=
  List.mem_of_getLast? h.last

/-- Revisions increase along the history. -/
theorem pairwise (h : HistoryCoherent spec history) :
    history.Pairwise fun a b => a.revision < b.revision := by
  have htrans : IsTrans ProgramSpec fun a b => a.revision < b.revision :=
    ⟨fun _ _ _ => Nat.lt_trans⟩
  refine List.isChain_iff_pairwise.1 (h.chain.imp fun a b hab => ?_)
  rw [hab.1]
  exact Nat.lt_succ_self _

theorem nodup_revision (h : HistoryCoherent spec history) :
    (history.map ProgramSpec.revision).Nodup :=
  List.pairwise_map.2 (h.pairwise.imp fun hab => Nat.ne_of_lt hab)

/-- A pin determines the specification it cites. -/
theorem nodup_pin (h : HistoryCoherent spec history) :
    (history.map fun s => (s.revision, s.digest)).Nodup :=
  List.pairwise_map.2 (h.pairwise.imp fun hab he => Nat.ne_of_lt hab (congrArg Prod.fst he))

theorem index_pin (h : HistoryCoherent spec history) {pin : ℕ × Name} {s : ProgramSpec} :
    index (fun s : ProgramSpec => (s.revision, s.digest)) history pin = some s ↔
      Cites history pin s := index_eq_some_iff h.nodup_pin

theorem find?_pin (h : HistoryCoherent spec history) {pin : ℕ × Name} {s : ProgramSpec} :
    (history.find? fun s => (s.revision, s.digest) = pin) = some s ↔ Cites history pin s :=
  find?_key_eq_some_iff h.nodup_pin

/-- A coherent history continues with a specification that follows the current one. -/
theorem append (h : HistoryCoherent spec history) {next : ProgramSpec}
    (hn : Program.Follows next spec) : HistoryCoherent next (history ++ [next]) where
  last := by simp
  chain := by
    refine h.chain.append (by simp) ?_
    rintro a ha b hb
    obtain rfl : spec = a := Option.some.inj (h.last.symm.trans ha)
    simp only [List.head?_cons, Option.mem_def, Option.some.injEq] at hb
    exact hb ▸ hn
  first := by
    intro s hs
    refine h.first s ?_
    cases history with
    | nil => simpa using h.last
    | cons a rest => simpa using hs

/-- Consecutive specifications follow each other. -/
theorem zip_tail (h : HistoryCoherent spec history) :
    ∀ e ∈ history.zip history.tail, Program.Follows e.2 e.1 := by
  have hc := h.chain
  clear h
  induction history with
  | nil => simp
  | cons a rest ih =>
    cases rest with
    | nil => simp
    | cons b rest =>
      rw [List.isChain_cons_cons] at hc
      rintro e he
      rcases List.mem_cons.1 he with rfl | he
      exacts [hc.1, ih hc.2 e he]

end HistoryCoherent

/-! ## The record families -/

/-- Attempts are distinct, cite a historical specification with their unit, and a remediation
links an earlier finished Attempt of the same subject. -/
structure AttemptsCoherent (programId : Name) (history : List ProgramSpec)
    (attempts : List Attempt) : Prop where
  ids : (attempts.map Attempt.attemptId).Nodup
  program : ∀ a ∈ attempts, a.spec.programId = programId
  pinned : ∀ a ∈ attempts, ∃ h, Cites history a.spec.pin h ∧ a.spec.workUnitId ∈ h.unitIds
  lineage : ∀ before a after, attempts = before ++ a :: after → ∀ r ∈ a.spec.remediationOf,
    ∃ source ∈ before, source.attemptId = r ∧ source.status = .finished ∧
      source.spec.workUnitId = a.spec.workUnitId ∧ source.spec.pin = a.spec.pin

/-- What a recorded satisfaction relies on. -/
structure SatisfactionCoherent (order : ℕ) (programId : Name) (history : List ProgramSpec)
    (attempts : List Attempt) (s : TrustedSatisfaction) : Prop where
  program : s.programId = programId
  pinned : ∃ h unit, Cites history s.pin h ∧ unit ∈ h.workUnits ∧
    unit.workUnitId = s.workUnitId ∧ h.fingerprint s.workUnitId = .ok s.workUnitFingerprint ∧
    s.outputNames = unit.outputs
  source : ∃ a ∈ attempts, a.attemptId = s.sourceAttemptId ∧ a.status = .finished ∧
    a.spec.workUnitId = s.workUnitId ∧ a.spec.pin = s.pin
  recorded : 0 < s.recordOrder ∧ s.recordOrder ≤ order

/-- Satisfactions are distinct, sound, and recorded in increasing order. -/
structure SatisfactionsCoherent (order : ℕ) (programId : Name) (history : List ProgramSpec)
    (attempts : List Attempt) (satisfactions : List TrustedSatisfaction) : Prop where
  ids : (satisfactions.map TrustedSatisfaction.referenceId).Nodup
  each : ∀ s ∈ satisfactions, SatisfactionCoherent order programId history attempts s
  increasing : satisfactions.Pairwise fun s t => s.recordOrder < t.recordOrder

/-- Cancellations of units pin a historical intent. -/
def CancellationsCoherent (order : ℕ) (history : List ProgramSpec)
    (cancellations : List WorkUnitCancellation) : Prop :=
  ∀ c ∈ cancellations, (∃ h, Cites history c.pin h ∧
    h.fingerprint c.workUnitId = .ok c.workUnitFingerprint) ∧ c.recordOrder ≤ order

/-- Every cancelled Attempt has exactly one recorded cancellation. -/
structure WithdrawalsCoherent (order : ℕ) (attempts : List Attempt)
    (withdrawals : List AttemptCancellation) : Prop where
  ids : (withdrawals.map AttemptCancellation.attemptId).Nodup
  recorded : ∀ c ∈ withdrawals, c.recordOrder ≤ order
  exact : ∀ id, id ∈ withdrawals.map AttemptCancellation.attemptId ↔
    ∃ a ∈ attempts, a.attemptId = id ∧ a.status = .cancelled

/-- Each unit has at most one live Attempt, and live Attempts work on current units that are
not abandoned. -/
structure LiveCoherent (spec : ProgramSpec) (cancellations : List WorkUnitCancellation)
    (attempts : List Attempt) : Prop where
  distinct : attempts.Pairwise fun a b => a.Live → b.Live → a.spec.workUnitId ≠ b.spec.workUnitId
  current : ∀ a ∈ attempts, a.Live → a.spec.workUnitId ∈ spec.unitIds
  wanted : ∀ a ∈ attempts, a.Live → ¬Abandoned spec cancellations a.spec.workUnitId

/-- The record families of a ledger are coherent, up to a revision. -/
structure Ledger.Recorded (order : ℕ) (d : Ledger) : Prop where
  history : HistoryCoherent d.spec d.specHistory
  attempts : AttemptsCoherent d.spec.programId d.specHistory d.attempts
  satisfactions : SatisfactionsCoherent order d.spec.programId d.specHistory d.attempts
    d.satisfactions
  cancellations : CancellationsCoherent order d.specHistory d.cancellations
  withdrawals : WithdrawalsCoherent order d.attempts d.attemptCancellations
  /-- Nothing happens before activation. -/
  draft : d.status = .draft → d.attempts = [] ∧ d.satisfactions = [] ∧ d.cancellations = []

/-- The invariant of a ledger: coherent records and coherent live Attempts. -/
structure Ledger.Coherent (order : ℕ) (d : Ledger) : Prop extends Ledger.Recorded order d where
  live : LiveCoherent d.spec d.cancellations d.attempts
  /-- An abandoned Program has no live Attempt. -/
  cancelled : d.status = .cancelled → ∀ a ∈ d.attempts, ¬a.Live

/-- Conclusions cite the history and were recorded at increasing revisions. -/
structure ConclusionsCoherent (order : ℕ) (history : List ProgramSpec)
    (conclusions : List ProgramConclusion) : Prop where
  cited : ∀ c ∈ conclusions, ∃ h, Cites history (c.specRevision, c.specDigest) h
  recorded : ∀ c ∈ conclusions, c.recordOrder ≤ order
  increasing : conclusions.Pairwise fun a b => a.recordOrder < b.recordOrder

/-- The invariant of the aggregate. -/
structure Program.Coherent (p : Program) : Prop where
  ledger : p.toLedger.Coherent p.revision
  pending : p.status = .draft → p.workUnitStates = pendingStates p.spec
  projected : p.status ≠ .draft →
    project p.spec p.attempts p.satisfactions p.cancellations = .ok p.workUnitStates
  completed : p.status = .completed → ∀ s ∈ p.workUnitStates, s.status = .satisfied
  conclusions : ConclusionsCoherent p.revision p.specHistory p.conclusions

/-! ## Consequences -/

theorem AttemptsCoherent.index_attemptId {programId : Name} {history : List ProgramSpec}
    {attempts : List Attempt} (h : AttemptsCoherent programId history attempts) {id : Name}
    {a : Attempt} : index Attempt.attemptId attempts id = some a ↔
      a ∈ attempts ∧ a.attemptId = id := index_eq_some_iff h.ids

/-- The source Attempt of every satisfaction is known, which the projection relies on. -/
theorem SatisfactionsCoherent.sources {order : ℕ} {programId : Name} {history : List ProgramSpec}
    {attempts : List Attempt} {satisfactions : List TrustedSatisfaction}
    (h : SatisfactionsCoherent order programId history attempts satisfactions) :
    ∀ s ∈ satisfactions, (index Attempt.attemptId attempts s.sourceAttemptId).isSome := by
  intro s hs
  obtain ⟨a, ha, hid, -⟩ := (h.each s hs).source
  rw [Option.isSome_iff_ne_none, ne_eq, index_eq_none_iff]
  exact fun hall => hall a ha hid

/-- The projection of coherent records raises nothing. -/
theorem Ledger.Recorded.exists_project {order : ℕ} {d : Ledger} (h : d.Recorded order) :
    ∃ states, project d.spec d.attempts d.satisfactions d.cancellations = .ok states :=
  project_total h.satisfactions.sources

/-- In a coherent Program the states list the units of the specification. -/
theorem Program.Coherent.map_workUnitId {p : Program} (h : p.Coherent) :
    p.workUnitStates.map WorkUnitState.workUnitId = p.spec.unitIds := by
  by_cases hd : p.status = .draft
  · rw [h.pending hd, pendingStates, List.map_map]
    exact List.map_id _
  · exact (project_fixedPoint (h.projected hd)).1

theorem Program.Coherent.nodup_workUnitId {p : Program} (h : p.Coherent) :
    (p.workUnitStates.map WorkUnitState.workUnitId).Nodup := by
  rw [h.map_workUnitId]
  exact p.spec.workUnits.nodup_keys

/-! ## Coherent Programs pass the check -/

namespace Program

omit [Sha256] in
/-- Positions follow the order of the history. -/
theorem attemptPosition_lt {before after : List Attempt} {a source : Attempt}
    (hn : ((before ++ a :: after).map Attempt.attemptId).Nodup) (hs : source ∈ before) :
    ∃ i j, attemptPosition (before ++ a :: after) source.attemptId = some i ∧
      attemptPosition (before ++ a :: after) a.attemptId = some j ∧ i < j := by
  have hkeys : ((before ++ a :: after).zipIdx.map fun e => e.1.attemptId).Nodup := by
    have hmap : (before ++ a :: after).zipIdx.map (fun e => e.1.attemptId) =
        (before ++ a :: after).map Attempt.attemptId := by
      conv_rhs => rw [← List.zipIdx_map_fst 0 (before ++ a :: after), List.map_map]
      rfl
    rwa [hmap]
  obtain ⟨i, hi, rfl⟩ := List.getElem_of_mem hs
  have hat (k : ℕ) (b : Attempt) (hk : (before ++ a :: after)[k]? = some b) :
      attemptPosition (before ++ a :: after) b.attemptId = some k := by
    rw [attemptPosition, (index_eq_some_iff hkeys).2
      ⟨List.mk_mem_zipIdx_iff_getElem?.2 hk, rfl⟩]
    rfl
  refine ⟨i, before.length, hat i _ ?_, hat _ _ ?_, hi⟩
  · rw [List.getElem?_append_left hi, List.getElem?_eq_getElem hi]
  · simp

variable {p : Program}

theorem Coherent.validateAttempt (h : p.Coherent) {a : Attempt} (ha : a ∈ p.attempts) :
    p.validateAttempt a = .ok () := by
  obtain ⟨spec, hcite, hunit⟩ := h.ledger.attempts.pinned a ha
  have hhist : p.historical a.spec.pin = some spec := h.ledger.history.index_pin.2 hcite
  rw [Program.validateAttempt, hhist]
  simp only [bind_eq_ok, check_eq_ok]
  refine ⟨(), h.ledger.attempts.program a ha, (), hunit, ?_⟩
  cases hr : a.spec.remediationOf with
  | none => rfl
  | some r =>
    obtain ⟨before, after, heq⟩ := List.append_of_mem ha
    obtain ⟨source, hs, rfl, hfin, hunit, hpin⟩ := h.ledger.attempts.lineage before a after heq r hr
    have hsource : index Attempt.attemptId p.attempts source.attemptId = some source :=
      h.ledger.attempts.index_attemptId.2 ⟨by rw [heq]; simp [hs], rfl⟩
    obtain ⟨i, j, hi, hj, hij⟩ := attemptPosition_lt (heq ▸ h.ledger.attempts.ids) hs
    rw [← heq] at hi hj
    simp only [validateRemediation, hsource, bind_eq_ok, subscript_eq_ok, check_eq_ok]
    exact ⟨i, hi, j, hj, hij, hfin, hunit, hpin⟩

theorem Coherent.validateSatisfaction (h : p.Coherent) {s : TrustedSatisfaction}
    (hs : s ∈ p.satisfactions) : p.validateSatisfaction s = .ok () := by
  have hc := h.ledger.satisfactions.each s hs
  obtain ⟨spec, unit, hcite, hmem, hid, hf, hout⟩ := hc.pinned
  obtain ⟨a, ha, haid, hfin, hunit, hpin⟩ := hc.source
  have hhist : p.historical s.pin = some spec := h.ledger.history.index_pin.2 hcite
  have hsource : index Attempt.attemptId p.attempts s.sourceAttemptId = some a :=
    h.ledger.attempts.index_attemptId.2 ⟨ha, haid⟩
  simp only [Program.validateSatisfaction, hhist, hsource, bind_eq_ok, check_eq_ok,
    ProgramSpec.workUnit_eq_ok]
  exact ⟨(), hc.program, _, hf, (), rfl, (), ⟨hfin, hunit, hpin⟩, unit, ⟨hmem, hid⟩, (), hout,
    hc.recorded⟩

theorem Coherent.validateCancellation (h : p.Coherent) {c : WorkUnitCancellation}
    (hc : c ∈ p.cancellations) : p.validateCancellation c = .ok () := by
  obtain ⟨⟨spec, hcite, hf⟩, horder⟩ := h.ledger.cancellations c hc
  have hhist : p.historical c.pin = some spec := h.ledger.history.index_pin.2 hcite
  simp only [Program.validateCancellation, hhist, bind_eq_ok, check_eq_ok]
  exact ⟨_, hf, rfl, horder⟩

theorem Coherent.validateProjection (h : p.Coherent) : p.validateProjection = .ok () := by
  unfold Program.validateProjection
  split_ifs with hd
  · rfl
  · rw [h.projected hd, ok_bind, check_eq_ok]

omit [Sha256] in
/-- The loop over the live Attempts succeeds when their units are current, wanted and
different, and an active unit cites its live Attempt. -/
theorem validateLive_eq_ok {states : List WorkUnitState} {seen : List Name}
    {attempts : List Attempt}
    (hcur : ∀ a ∈ attempts, a.Live → ∃ s, stateById states a.spec.workUnitId = some s ∧
      s.phase ≠ .cancelled ∧ (∀ id, s.phase = .active id → id = a.attemptId))
    (hseen : ∀ a ∈ attempts, a.Live → a.spec.workUnitId ∉ seen)
    (hdis : attempts.Pairwise fun a b => a.Live → b.Live →
      a.spec.workUnitId ≠ b.spec.workUnitId) :
    validateLive states seen attempts = .ok () := by
  induction attempts generalizing seen with
  | nil => rfl
  | cons a rest ih =>
    rw [List.forall_mem_cons] at hcur hseen
    rw [List.pairwise_cons] at hdis
    rw [validateLive]
    split_ifs with hl
    · obtain ⟨s, hs, hnc, hact⟩ := hcur.1 hl
      simp only [hs, bind_eq_ok, check_eq_ok]
      refine ⟨(), ⟨hseen.1 hl, mt WorkUnitState.status_eq_cancelled.1 hnc⟩, (), ?_,
        ih hcur.2 (fun b hb hbl hmem => ?_) hdis.2⟩
      · intro hst
        cases hp : s.phase with
        | active id => rw [WorkUnitState.activeAttemptId_eq_some, hp, hact id hp]
        | pending | ready | satisfied | cancelled => simp [WorkUnitState.status, hp] at hst
      · rcases List.mem_cons.1 hmem with he | hm
        · exact hdis.1 b hb hl hbl he.symm
        · exact hseen.2 b hb hbl hm
    · exact ih hcur.2 hseen.2 hdis.2

/-- The Attempt an active unit cites is its live Attempt. -/
theorem active_isLive {spec : ProgramSpec} {attempts : List Attempt}
    {satisfactions : List TrustedSatisfaction} {cancellations : List WorkUnitCancellation}
    {chosen : Name → Option WorkUnitState} {n id : Name} {s : WorkUnitState}
    (h : projectUnit spec attempts satisfactions cancellations chosen n = .ok s)
    (hp : s.phase = .active id) :
    ∃ a ∈ attempts, a.Live ∧ a.spec.workUnitId = n ∧ a.attemptId = id := by
  obtain ⟨unit, fp, -, rfl, -, ⟨-, rfl⟩ | ⟨-, inputs, matching, -, -, rfl⟩⟩ := projectUnit_inv h
  · cases hp
  · cases hl : matching.argmax TrustedSatisfaction.recordOrder with
    | some latest => simp only [hl] at hp; cases hp
    | none =>
      simp only [hl, openPhase] at hp
      split at hp
      · cases hp
      · split at hp
        · cases hp
        · next live hlive =>
          split_ifs at hp
          obtain rfl := Phase.active.inj hp
          have hprop := List.find?_some hlive
          simp only [decide_eq_true_eq] at hprop
          exact ⟨live, List.mem_of_find?_eq_some hlive, hprop.2, hprop.1, rfl⟩

/-- A live Attempt has a state that is not cancelled and cites no other Attempt. -/
theorem Coherent.state_of_live (h : p.Coherent) {a : Attempt} (ha : a ∈ p.attempts)
    (hl : a.Live) : ∃ s, stateById p.workUnitStates a.spec.workUnitId = some s ∧
      s.phase ≠ .cancelled ∧ ∀ id, s.phase = .active id → id = a.attemptId := by
  have hd : p.status ≠ .draft := fun hd => by
    rw [(h.ledger.draft hd).1] at ha
    cases ha
  have hproj := h.projected hd
  have hmem : a.spec.workUnitId ∈ p.workUnitStates.map WorkUnitState.workUnitId := by
    rw [h.map_workUnitId]
    exact h.ledger.live.current a ha hl
  obtain ⟨s, hs, he⟩ := List.mem_map.1 hmem
  refine ⟨s, (index_eq_some_iff h.nodup_workUnitId).2 ⟨hs, he⟩, ?_, fun id hp => ?_⟩
  · rw [ne_eq, cancelled_iff_abandoned hproj hs, he]
    exact h.ledger.live.wanted a ha hl
  · obtain ⟨b, hb, hbl, hbu, rfl⟩ := active_isLive ((project_fixedPoint hproj).2 s hs) hp
    by_contra hne
    have hab : a ≠ b := fun hab => hne (congrArg Attempt.attemptId hab).symm
    -- two different live Attempts would share the unit
    have hsym : Std.Symm fun a b : Attempt =>
        a.Live → b.Live → a.spec.workUnitId ≠ b.spec.workUnitId :=
      ⟨fun _ _ hxy hy hx he => hxy hx hy he.symm⟩
    exact h.ledger.live.distinct.forall ha hb hab hl hbl (he.symm.trans hbu.symm)

/-- A coherent Program passes the consistency check. -/
theorem Coherent.validate (h : p.Coherent) : p.validate = .ok () := by
  simp only [Program.validate, bind_eq_ok, check_eq_ok, forM_eq_ok]
  refine ⟨(), h.ledger.history.last, (), h.ledger.history.nodup_revision, (),
    h.ledger.history.zip_tail, (), h.ledger.attempts.ids, (), h.ledger.satisfactions.ids, (),
    fun a => h.validateAttempt, (), fun s => h.validateSatisfaction, (),
    fun c => h.validateCancellation, (), h.validateProjection, (), ?_, (), h.completed,
    h.ledger.cancelled⟩
  exact validateLive_eq_ok (fun a ha hl => h.state_of_live ha hl) (by simp)
    h.ledger.live.distinct

/-! ## Assembly -/

/-- The status of the next Program. -/
def nextStatus (d : Ledger) (states : List WorkUnitState) : ProgramStatus :=
  if d.status = .draft ∨ d.status = .cancelled then d.status else programStatus d.status states

omit [Sha256] in
/-- Assembly decides between the open statuses only; a completed Program has every unit
satisfied. -/
theorem nextStatus_cases (d : Ledger) (states : List WorkUnitState) :
    (nextStatus d states = .draft ↔ d.status = .draft) ∧
      (nextStatus d states = .cancelled ↔ d.status = .cancelled) ∧
      (nextStatus d states = .completed → ∀ s ∈ states, s.status = .satisfied) := by
  unfold nextStatus programStatus
  cases hs : d.status with
  | draft | cancelled => simp
  | active | paused | completed =>
    by_cases hall : ∀ s ∈ states, s.status = .satisfied
    · simpa [if_pos hall] using hall
    · simp [if_neg hall]

theorem successor_status (p : Program) (d : Ledger) (states : List WorkUnitState) :
    (p.successor d states).status = nextStatus d states := rfl

theorem successor_toLedger (p : Program) (d : Ledger) (states : List WorkUnitState) :
    (p.successor d states).toLedger = { d with status := nextStatus d states } := rfl

/-- Conclusions stay coherent when a step records the terminal status it reaches. -/
theorem conclude_coherent {d : Ledger} (h : ConclusionsCoherent p.revision p.specHistory
      p.conclusions) (hsub : p.specHistory ⊆ d.specHistory) (hmem : d.spec ∈ d.specHistory)
    (status : ProgramStatus) :
    ConclusionsCoherent (p.revision + 1) d.specHistory (p.conclude d.spec status) := by
  have hcited : ∀ c ∈ p.conclusions, ∃ s, Cites d.specHistory (c.specRevision, c.specDigest) s :=
    fun c hc => let ⟨s, hs, he⟩ := h.cited c hc; ⟨s, hsub hs, he⟩
  unfold conclude
  split_ifs
  · refine ⟨?_, ?_, ?_⟩
    · intro c hc
      rcases List.mem_append.1 hc with hc | hc
      · exact hcited c hc
      · obtain rfl := List.mem_singleton.1 hc
        exact ⟨d.spec, hmem, rfl⟩
    · intro c hc
      rcases List.mem_append.1 hc with hc | hc
      · exact Nat.le_succ_of_le (h.recorded c hc)
      · obtain rfl := List.mem_singleton.1 hc
        exact Nat.le_refl _
    · refine List.pairwise_append.2 ⟨h.increasing, List.pairwise_singleton _ _, ?_⟩
      intro a ha b hb
      obtain rfl := List.mem_singleton.1 hb
      exact Nat.lt_succ_of_le (h.recorded a ha)
  · exact ⟨hcited, fun c hc => Nat.le_succ_of_le (h.recorded c hc), h.increasing⟩

/-- A coherent ledger that keeps the history is assembled into a coherent Program. -/
theorem assemble_coherent (hp : p.Coherent) {d : Ledger} (hd : d.Coherent (p.revision + 1))
    (hsub : p.specHistory ⊆ d.specHistory) :
    ∃ states, p.assemble d = .ok (p.successor d states) ∧ (p.successor d states).Coherent := by
  obtain ⟨states, hs⟩ : ∃ states, ledgerStates d = .ok states := by
    unfold ledgerStates
    split_ifs
    exacts [⟨_, rfl⟩, hd.exists_project]
  obtain ⟨hdraft, hcancelled, hcompleted⟩ := nextStatus_cases d states
  have hq : (p.successor d states).Coherent := {
    ledger := { hd with
      draft := fun h => hd.draft (hdraft.1 h)
      cancelled := fun h => hd.cancelled (hcancelled.1 h) }
    pending := fun h => by
      rw [ledgerStates, if_pos (hdraft.1 h)] at hs
      exact (Except.ok.inj hs).symm
    projected := fun h => by
      rwa [ledgerStates, if_neg (mt hdraft.2 h)] at hs
    completed := hcompleted
    conclusions := conclude_coherent hp.conclusions hsub hd.history.mem _ }
  refine ⟨states, ?_, hq⟩
  rw [assemble, hs, ok_bind]
  have hv := hq.validate
  simp only [hv, ok_bind]
  rfl

/-- What a returned assembly is. -/
theorem assemble_eq_ok {d : Ledger} {q : Program} (h : p.assemble d = .ok q) :
    ∃ states, q = p.successor d states ∧ (d.status = .draft → states = pendingStates d.spec) ∧
      (d.status ≠ .draft →
        project d.spec d.attempts d.satisfactions d.cancellations = .ok states) := by
  obtain ⟨states, hs, h⟩ := bind_eq_ok.1 h
  obtain ⟨_, -, h⟩ := bind_eq_ok.1 h
  refine ⟨states, (pure_eq_ok.1 h).symm, fun hd => ?_, fun hd => ?_⟩
  · rw [ledgerStates, if_pos hd] at hs
    exact (Except.ok.inj hs).symm
  · rwa [ledgerStates, if_neg hd] at hs

end Program

end

end CreatidyKernel
