import CreatidyKernel.Core.Outcomes
import CreatidyKernel.Lib.Corrections
import CreatidyKernel.Lib.Links

set_option relaxedAutoImplicit false
set_option autoImplicit false

/-!
# The export of outcomes is exact

The links between the Attempts and the corrections of the observations are two pointer structures.
The checks of the export accept exactly the input in which both are well formed, its loops end,
and what it lists is then determined by them.

## Main definitions

* `LinkedOutcomes` — the Attempts are distinct and their links lead to roots.
* `Follows`, `Traceable` — every observation follows the ones before it.
* `CostPath`, `Shows` — what an entry of the export says.

## Main results

* `checkOutcomes_eq_ok`, `checkOutcomes_refused` — the outcomes are refused exactly when they are
  malformed.
* `traceable_iff_log` — well-formed observations are a log with corrections.
* `ledger_eq_ok`, `ledger_refused` — the observations are refused exactly when they are malformed.
* `export_exact` — the export ends, refuses exactly malformed input and is right on the rest.
-/

namespace CreatidyKernel

open Checked

namespace Outcomes

/-! ## Well-formed outcomes -/

variable {outcomes : List AttemptOutcome}

/-- The second outcome is listed and is of the Attempt that the first one remediates. -/
def Remediates (outcomes : List AttemptOutcome) (o p : AttemptOutcome) : Prop :=
  p ∈ outcomes ∧ o.parentOf = some p.attemptId

/-- Well-formed outcomes. -/
structure LinkedOutcomes (outcomes : List AttemptOutcome) : Prop where
  attempts : (outcomes.map AttemptOutcome.attemptId).Nodup
  acceptances : (outcomes.filterMap AttemptOutcome.acceptanceId).Nodup
  /-- What is remediated is listed, and of the same unit of the same Program. -/
  remediation : ∀ o ∈ outcomes, o.parentOf ≠ none → ∃ p, Remediates outcomes o p ∧
    p.attempt.programId = o.attempt.programId ∧ p.attempt.workUnitId = o.attempt.workUnitId
  acyclic : ∀ o ∈ outcomes, ¬Relation.TransGen (Remediates outcomes) o o

theorem mem_of_byAttempt {attemptId : Name} {p : AttemptOutcome}
    (h : byAttempt outcomes attemptId = some p) : p ∈ outcomes ∧ p.attemptId = attemptId := by
  obtain ⟨hp, hid⟩ := Rows.mem_of_find h
  exact ⟨List.mem_reverse.1 hp, hid⟩

theorem byAttempt_ne_none {attemptId : Name} :
    byAttempt outcomes attemptId ≠ none ↔ ∃ p ∈ outcomes, p.attemptId = attemptId := by
  rw [byAttempt, ne_eq, Rows.find_eq_none_iff]
  push Not
  simp only [List.mem_reverse]

theorem byAttempt_eq_some (hn : (outcomes.map AttemptOutcome.attemptId).Nodup) {attemptId : Name}
    {p : AttemptOutcome} :
    byAttempt outcomes attemptId = some p ↔ p ∈ outcomes ∧ p.attemptId = attemptId := by
  rw [byAttempt, Rows.find_eq_some_iff, List.mem_reverse]
  rw [List.map_reverse]
  exact List.nodup_reverse.2 hn

theorem mem_of_parent {o p : AttemptOutcome} (h : parent outcomes o = some p) : p ∈ outcomes := by
  obtain ⟨_, -, hp⟩ := Option.bind_eq_some_iff.1 h
  exact (mem_of_byAttempt hp).1

/-- With distinct Attempts the parent is the remediated outcome. -/
theorem parent_eq_some (hn : (outcomes.map AttemptOutcome.attemptId).Nodup)
    {o p : AttemptOutcome} : parent outcomes o = some p ↔ Remediates outcomes o p := by
  rw [parent, Option.bind_eq_some_iff]
  constructor
  · rintro ⟨r, hr, hp⟩
    obtain ⟨hmem, rfl⟩ := mem_of_byAttempt hp
    exact ⟨hmem, hr⟩
  · rintro ⟨hmem, hr⟩
    exact ⟨_, hr, (byAttempt_eq_some hn).2 ⟨hmem, rfl⟩⟩

theorem link_parent (hn : (outcomes.map AttemptOutcome.attemptId).Nodup) :
    Links.Link (parent outcomes) = Remediates outcomes := by
  funext o p
  exact propext (parent_eq_some hn)

/-- The identities are distinct when the lists of them have no duplicates. -/
theorem distinctIdentities_iff : DistinctIdentities outcomes ↔
    (outcomes.map AttemptOutcome.attemptId).Nodup ∧
      (outcomes.filterMap AttemptOutcome.acceptanceId).Nodup := by
  have hdedup : ∀ l : List Name, l.dedup.length = l.length ↔ l.Nodup := fun l =>
    ⟨fun h => (List.dedup_sublist l).eq_of_length h ▸ List.nodup_dedup l, fun h => by rw [h.dedup]⟩
  have hlength : (outcomes.filter fun o => o.acceptanceId ≠ none).length =
      (outcomes.filterMap AttemptOutcome.acceptanceId).length := by
    induction outcomes with
    | nil => rfl
    | cons o outcomes ih => cases ho : o.acceptanceId <;> simpa [ho] using ih
  rw [DistinctIdentities, hlength, hdedup, ← hdedup (outcomes.map _), List.length_map]

/-! ## The walk up the links -/

/-- The walk along a way up that ends returns. -/
theorem walk_of_climb {o : AttemptOutcome} {l : List AttemptOutcome} {fuel : ℕ} {seen : List Name}
    (h : Links.Climb (parent outcomes) o l) (hn : (l.map AttemptOutcome.attemptId).Nodup)
    (hseen : ∀ p ∈ l, p.attemptId ∉ seen) (hfuel : l.length ≤ fuel) :
    walk outcomes fuel seen (some o) = .ok () := by
  induction h generalizing fuel seen with
  | root h =>
    obtain ⟨fuel, rfl⟩ := Nat.exists_eq_succ_of_ne_zero (Nat.ne_of_gt hfuel)
    rw [walk, check_of (hseen _ List.mem_cons_self), ok_bind, h]
    cases fuel <;> rfl
  | @link a b l hb hl ih =>
    obtain ⟨fuel, rfl⟩ := Nat.exists_eq_succ_of_ne_zero (Nat.ne_of_gt (Nat.zero_lt_of_lt hfuel))
    rw [List.map_cons, List.nodup_cons] at hn
    rw [walk, check_of (hseen _ List.mem_cons_self), ok_bind, hb]
    refine ih hn.2 (fun p hp => ?_) (Nat.le_of_succ_le_succ hfuel)
    rw [List.mem_cons, not_or]
    exact ⟨fun he => hn.1 (he ▸ List.mem_map_of_mem hp), hseen p (List.mem_cons_of_mem _ hp)⟩

/-- A walk that returned went all the way up. -/
theorem exists_climb_of_walk {fuel : ℕ} {seen : List Name} {o : AttemptOutcome}
    (h : walk outcomes fuel seen (some o) = .ok ()) :
    ∃ l, Links.Climb (parent outcomes) o l := by
  induction fuel generalizing seen o with
  | zero => cases h
  | succ fuel ih =>
    obtain ⟨-, h⟩ := check_bind_eq_ok.1 h
    cases hp : parent outcomes o with
    | none => exact ⟨_, .root hp⟩
    | some p =>
      rw [hp] at h
      obtain ⟨l, hl⟩ := ih h
      exact ⟨_, .link hp hl⟩

/-- As many rounds as there are outcomes are enough: more change nothing, and the walk ends by
itself or finds a cycle. -/
theorem walk_ends {fuel : ℕ} {seen : List Name} {next : Option AttemptOutcome}
    (hnext : ∀ p ∈ next, p ∈ outcomes) (hn : seen.Nodup)
    (hseen : seen ⊆ outcomes.map AttemptOutcome.attemptId)
    (hfuel : outcomes.length < fuel + seen.length) (extra : ℕ) :
    walk outcomes (fuel + extra) seen next = walk outcomes fuel seen next ∧
      ∀ e, walk outcomes fuel seen next = .error e → e = .raised (invalid "remediation cycle") := by
  induction fuel generalizing seen next with
  | zero =>
    -- all the Attempts cannot have been seen before the last one
    have hle := (hn.subperm hseen).length_le
    rw [List.length_map] at hle
    omega
  | succ fuel ih =>
    cases next with
    | none => exact ⟨by rw [walk, walk], nofun⟩
    | some o =>
      rw [Nat.add_right_comm, walk, walk]
      by_cases ho : o.attemptId ∈ seen
      · rw [check_of_not (not_not.2 ho)]
        exact ⟨rfl, fun e he => (Except.error.inj he).symm⟩
      · rw [check_of ho, ok_bind, ok_bind]
        refine ih (fun p hp => mem_of_parent hp) (List.nodup_cons.2 ⟨ho, hn⟩) ?_ ?_
        · refine List.cons_subset.2 ⟨List.mem_map_of_mem (hnext o rfl), hseen⟩
        · rw [List.length_cons]
          omega

/-! ## The checks of the outcomes -/

/-- What a remediation check refuses with, and that it ends. -/
theorem checkRemediation_ends {o : AttemptOutcome} (ho : o ∈ outcomes) (extra : ℕ) :
    checkRemediation outcomes (outcomes.length + extra) o =
        checkRemediation outcomes outcomes.length o ∧
      ∀ e, checkRemediation outcomes outcomes.length o = .error e →
        e ∈ [Stop.raised (invalid "remediation must cite an Attempt in the same WorkUnit"),
          .raised (invalid "remediation cycle")] := by
  have hparent : ∀ p ∈ parent outcomes o, p ∈ outcomes := fun p hp => mem_of_parent hp
  have hends := @walk_ends outcomes outcomes.length [o.attemptId] _ hparent
    (List.nodup_singleton _) (by simpa using ⟨o, ho, rfl⟩) (by simp) extra
  unfold checkRemediation
  rw [hends.1]
  refine ⟨rfl, fun e he => ?_⟩
  by_cases hp : o.parentOf = none
  · rw [given, if_neg (not_not.2 hp)] at he
    cases he
  · rw [given, if_pos hp] at he
    rcases bind_eq_error.1 he with hc | ⟨_, -, hw⟩
    · rw [← (check_eq_error.1 hc).2]
      exact List.mem_cons_self
    · rw [hends.2 e hw]
      exact List.mem_cons_of_mem _ List.mem_cons_self

/-- The remediation checks of outcomes of distinct Attempts return when these are linked. -/
theorem checkRemediation_eq_ok (hn : (outcomes.map AttemptOutcome.attemptId).Nodup) {fuel : ℕ}
    (hfuel : outcomes.length ≤ fuel) :
    (∀ o ∈ outcomes, checkRemediation outcomes fuel o = .ok ()) ↔
      (∀ o ∈ outcomes, o.parentOf ≠ none → ∃ p, Remediates outcomes o p ∧
        p.attempt.programId = o.attempt.programId ∧
        p.attempt.workUnitId = o.attempt.workUnitId) ∧
      ∀ o ∈ outcomes, ¬Relation.TransGen (Remediates outcomes) o o := by
  constructor
  · intro h
    have hparent : ∀ o ∈ outcomes, o.parentOf ≠ none → ∃ p, parent outcomes o = some p ∧
        p.attempt.programId = o.attempt.programId ∧
        p.attempt.workUnitId = o.attempt.workUnitId ∧ ∃ l, Links.Climb (parent outcomes) p l := by
      intro o ho hp
      obtain ⟨⟨p, hpo, hsame⟩, hw⟩ := check_bind_eq_ok.1 (given_eq_ok.1 (h o ho) hp)
      rw [Option.mem_def] at hpo
      rw [hpo] at hw
      exact ⟨p, hpo, hsame.1, hsame.2, exists_climb_of_walk hw⟩
    refine ⟨fun o ho hp => ?_, fun o ho => ?_⟩
    · obtain ⟨p, hpo, hprogram, hunit, -⟩ := hparent o ho hp
      exact ⟨p, (parent_eq_some hn).1 hpo, hprogram, hunit⟩
    · rw [← link_parent hn]
      by_cases hp : o.parentOf = none
      · exact (Links.Climb.root (by rw [parent, hp]; rfl)).not_loop
      · obtain ⟨p, hpo, -, -, l, hl⟩ := hparent o ho hp
        exact (Links.Climb.link hpo hl).not_loop
  · rintro ⟨hparent, hloop⟩ o ho
    rw [checkRemediation, given_eq_ok]
    intro hp
    obtain ⟨p, hop, hsame⟩ := hparent o ho hp
    have hpo := (parent_eq_some hn).2 hop
    rw [check_of ⟨p, hpo, hsame⟩, ok_bind, hpo]
    have hclosed : ∀ a ∈ outcomes, ∀ b, parent outcomes a = some b → b ∈ outcomes :=
      fun a _ b hb => mem_of_parent hb
    obtain ⟨l, hl⟩ := Links.exists_climb hclosed (link_parent hn ▸ hloop) ho
    cases hl with
    | root hnone => cases hnone.symm.trans hpo
    | @link _ q l hq hl' =>
      obtain rfl := Option.some.inj (hq.symm.trans hpo)
      have hmem : ∀ b ∈ o :: l, b ∈ outcomes :=
        (Links.Climb.link hq hl').forall_mem ho fun a b ha => hclosed a ha b
      have hnodup := (Links.Climb.link hq hl').nodup
      have hids : ((o :: l).map AttemptOutcome.attemptId).Nodup :=
        hnodup.map_on fun a ha b hb hab => List.inj_on_of_nodup_map hn (hmem a ha) (hmem b hb) hab
      rw [List.map_cons, List.nodup_cons] at hids
      refine walk_of_climb hl' hids.2 (fun b hb => ?_) ?_
      · rw [List.mem_singleton]
        exact fun he => hids.1 (he ▸ List.mem_map_of_mem hb)
      · have hle := (hnodup.subperm hmem).length_le
        rw [List.length_cons] at hle
        omega

/-- The checks of the outcomes return exactly when these are well formed. -/
theorem checkOutcomes_eq_ok {fuel : ℕ} (hfuel : outcomes.length ≤ fuel) :
    checkOutcomes outcomes fuel = .ok () ↔ LinkedOutcomes outcomes := by
  rw [checkOutcomes, check_bind_eq_ok, distinctIdentities_iff, forM_eq_ok]
  constructor
  · rintro ⟨⟨hn, ha⟩, h⟩
    obtain ⟨hr, hc⟩ := (checkRemediation_eq_ok hn hfuel).1 h
    exact ⟨hn, ha, hr, hc⟩
  · rintro ⟨hn, ha, hr, hc⟩
    exact ⟨⟨hn, ha⟩, (checkRemediation_eq_ok hn hfuel).2 ⟨hr, hc⟩⟩

/-- What malformed outcomes are refused with. -/
def outcomeMessages : List String :=
  ["attempt and acceptance identities must be unique",
    "remediation must cite an Attempt in the same WorkUnit", "remediation cycle"]

/-- Malformed outcomes are refused. -/
theorem checkOutcomes_refused (h : ¬LinkedOutcomes outcomes) :
    ∃ m ∈ outcomeMessages, ∀ fuel ≥ outcomes.length,
      checkOutcomes outcomes fuel = .error (.raised (invalid m)) := by
  have hends : ∀ fuel ≥ outcomes.length,
      checkOutcomes outcomes fuel = checkOutcomes outcomes outcomes.length := by
    intro fuel hfuel
    obtain ⟨extra, rfl⟩ := Nat.exists_eq_add_of_le hfuel
    unfold checkOutcomes
    rw [forM_congr fun o ho => (checkRemediation_ends ho extra).1]
  cases hc : checkOutcomes outcomes outcomes.length with
  | ok u => exact absurd ((checkOutcomes_eq_ok le_rfl).1 hc) h
  | error e =>
    have hm : ∃ m ∈ outcomeMessages, e = .raised (invalid m) := by
      rcases bind_eq_error.1 hc with hd | ⟨_, -, hf⟩
      · exact ⟨_, List.mem_cons_self, (check_eq_error.1 hd).2.symm⟩
      · obtain ⟨o, ho, he⟩ := exists_of_forM_error hf
        have hmem := (checkRemediation_ends ho 0).2 e he
        simp only [List.mem_cons, List.not_mem_nil, or_false] at hmem
        obtain rfl | rfl := hmem
        · exact ⟨_, List.mem_cons_of_mem _ List.mem_cons_self, rfl⟩
        · exact ⟨_, List.mem_cons_of_mem _ (List.mem_cons_of_mem _ List.mem_cons_self), rfl⟩
    obtain ⟨m, hm, rfl⟩ := hm
    exact ⟨m, hm, fun fuel hfuel => (hends fuel hfuel).trans hc⟩

/-! ## Well-formed observations -/

/-- The observations of a receipt. -/
def ofReceipt (observations : List UsageObservation) (receiptId : Name) : List UsageObservation :=
  observations.filter fun u => u.receiptId = receiptId

/-- An observation may follow some others: it is of a listed Attempt and has a new id, and it
supersedes the last observation of its receipt with the same Attempt, metric and unit, or nothing
if it is the first one. -/
structure Follows (outcomes : List AttemptOutcome) (before : List UsageObservation)
    (o : UsageObservation) : Prop where
  known : ∃ p ∈ outcomes, p.attemptId = o.attemptId
  fresh : ∀ b ∈ before, b.observationId ≠ o.observationId
  supersedes : o.supersedesId =
    (ofReceipt before o.receiptId).getLast?.map UsageObservation.observationId
  same : ∀ b ∈ (ofReceipt before o.receiptId).getLast?,
    o.attemptId = b.attemptId ∧ o.metric = b.metric ∧ o.unit = b.unit

/-- Well-formed observations: each one follows those before it. -/
def Traceable (outcomes : List AttemptOutcome) (observations : List UsageObservation) : Prop :=
  ∀ before o after, observations = before ++ o :: after → Follows outcomes before o

theorem traceable_nil : Traceable outcomes [] := by
  intro before o after h
  cases before <;> cases h

theorem traceable_concat {observations : List UsageObservation} {o : UsageObservation} :
    Traceable outcomes (observations ++ [o]) ↔
      Traceable outcomes observations ∧ Follows outcomes observations o := by
  constructor
  · intro h
    exact ⟨fun before x after hx => h before x (after ++ [o]) (by rw [hx]; simp),
      h observations o [] rfl⟩
  · rintro ⟨h, ho⟩ before x after hx
    rcases List.eq_nil_or_concat after with rfl | ⟨after, y, rfl⟩
    · obtain ⟨rfl, hxo⟩ := List.append_inj' hx rfl
      obtain rfl := (List.cons.inj hxo).1
      exact ho
    · rw [List.concat_eq_append, ← List.cons_append, ← List.append_assoc] at hx
      exact h before x after (List.append_inj' hx rfl).1

theorem ofReceipt_concat {observations : List UsageObservation} {o : UsageObservation}
    {receiptId : Name} : ofReceipt (observations ++ [o]) receiptId =
      if o.receiptId = receiptId then ofReceipt observations receiptId ++ [o]
      else ofReceipt observations receiptId := by
  by_cases hr : o.receiptId = receiptId <;> simp [ofReceipt, hr]

/-- Well-formed observations are a log with corrections, of listed Attempts, in which the
observations of a receipt have one Attempt, metric and unit. -/
theorem traceable_iff_log {observations : List UsageObservation} :
    Traceable outcomes observations ↔
      (∀ a ∈ observations, ∃ p ∈ outcomes, p.attemptId = a.attemptId) ∧
      Corrections.Log UsageObservation.observationId UsageObservation.supersedesId
        UsageObservation.receiptId observations ∧
      ∀ a ∈ observations, ∀ b ∈ observations, a.receiptId = b.receiptId →
        a.attemptId = b.attemptId ∧ a.metric = b.metric ∧ a.unit = b.unit := by
  induction observations using List.reverseRecOn with
  | nil => exact ⟨fun _ => ⟨nofun, Corrections.log_nil, nofun⟩, fun _ => traceable_nil⟩
  | append_singleton observations o ih =>
    rw [traceable_concat, ih, Corrections.log_concat]
    have hlast : ∀ b ∈ (ofReceipt observations o.receiptId).getLast?,
        b ∈ observations ∧ b.receiptId = o.receiptId := by
      intro b hb
      obtain ⟨hmem, hr⟩ := List.mem_filter.1 (List.mem_of_getLast? hb)
      exact ⟨hmem, of_decide_eq_true hr⟩
    constructor
    · rintro ⟨⟨hknown, hlog, hsame⟩, ho⟩
      refine ⟨?_, ⟨hlog, ?_, ho.supersedes⟩, ?_⟩
      · simpa [or_imp, forall_and] using ⟨hknown, ho.known⟩
      · rw [List.mem_map]
        rintro ⟨b, hb, hbo⟩
        exact ho.fresh b hb hbo
      · -- an observation of the same receipt agrees with the last one before, as the new one does
        have hnew : ∀ a ∈ observations, a.receiptId = o.receiptId →
            a.attemptId = o.attemptId ∧ a.metric = o.metric ∧ a.unit = o.unit := by
          intro a ha har
          have hmem : a ∈ ofReceipt observations o.receiptId :=
            List.mem_filter.2 ⟨ha, decide_eq_true har⟩
          cases hl : (ofReceipt observations o.receiptId).getLast? with
          | none =>
            rw [List.getLast?_eq_none_iff.1 hl] at hmem
            cases hmem
          | some last =>
            obtain ⟨hlmem, hlr⟩ := hlast last hl
            obtain ⟨hattempt, hmetric, hunit⟩ := hsame a ha last hlmem (har.trans hlr.symm)
            obtain ⟨hattempt', hmetric', hunit'⟩ := ho.same last hl
            exact ⟨hattempt.trans hattempt'.symm, hmetric.trans hmetric'.symm,
              hunit.trans hunit'.symm⟩
        intro a ha b hb hab
        rw [List.mem_append, List.mem_singleton] at ha hb
        rcases ha with ha | rfl <;> rcases hb with hb | rfl
        · exact hsame a ha b hb hab
        · exact hnew a ha hab
        · obtain ⟨hattempt, hmetric, hunit⟩ := hnew b hb hab.symm
          exact ⟨hattempt.symm, hmetric.symm, hunit.symm⟩
        · exact ⟨rfl, rfl, rfl⟩
    · rintro ⟨hknown, ⟨hlog, hfresh, hsupersedes⟩, hsame⟩
      have hold : ∀ a ∈ observations, a ∈ observations ++ [o] := fun a => List.mem_append_left _
      have hself : o ∈ observations ++ [o] := List.mem_append_right _ (List.mem_singleton_self _)
      refine ⟨⟨fun a ha => hknown a (hold a ha), hlog,
        fun a ha b hb => hsame a (hold a ha) b (hold b hb)⟩, hknown o hself, ?_, hsupersedes, ?_⟩
      · exact fun b hb hbo => hfresh (hbo ▸ List.mem_map_of_mem hb)
      · intro b hb
        obtain ⟨hmem, hr⟩ := hlast b hb
        exact hsame o hself b (hold b hmem) hr.symm

/-- The observations of a receipt form a line of corrections of one Attempt. -/
theorem Traceable.linear {observations : List UsageObservation}
    (h : Traceable outcomes observations) (receiptId : Name) :
    Corrections.Linear UsageObservation.observationId UsageObservation.supersedesId
        (ofReceipt observations receiptId) ∧
      ∀ a ∈ ofReceipt observations receiptId, ∀ b ∈ ofReceipt observations receiptId,
        a.attemptId = b.attemptId := by
  obtain ⟨-, hlog, hsame⟩ := traceable_iff_log.1 h
  refine ⟨hlog.linear receiptId, fun a ha b hb => ?_⟩
  obtain ⟨ha, har⟩ := List.mem_filter.1 ha
  obtain ⟨hb, hbr⟩ := List.mem_filter.1 hb
  exact (hsame a ha b hb ((of_decide_eq_true har).trans (of_decide_eq_true hbr).symm)).1

/-- The observations of a receipt are those of its Attempt. -/
theorem Traceable.filter_attempt {observations : List UsageObservation}
    (h : Traceable outcomes observations) {receiptId : Name} {a : UsageObservation}
    (ha : a ∈ ofReceipt observations receiptId) :
    (ofReceipt observations receiptId).filter (fun u => u.attemptId = a.attemptId) =
      ofReceipt observations receiptId :=
  List.filter_eq_self.2 fun b hb => decide_eq_true ((h.linear receiptId).2 b hb a ha)

/-! ## The checks of the observations -/

/-- The ledger has the last observation of every receipt. -/
structure Ledger.Reads (l : Ledger) (observations : List UsageObservation) : Prop where
  nodup : (l.latest.map UsageObservation.receiptId).Nodup
  latest : ∀ receiptId, Rows.find UsageObservation.receiptId l.latest receiptId =
    (ofReceipt observations receiptId).getLast?
  ids : l.ids = observations.map UsageObservation.observationId

/-- A round of the loop returns exactly when its observation follows the ones before, and the
ledger then has it too. -/
theorem record_eq_ok {l l' : Ledger} {before : List UsageObservation} {o : UsageObservation}
    (hl : l.Reads before) : record outcomes l o = .ok l' ↔ Follows outcomes before o ∧
      l' = ⟨Rows.put UsageObservation.receiptId l.latest o, l.ids ++ [o.observationId]⟩ := by
  have hids : o.observationId ∉ l.ids ↔ ∀ b ∈ before, b.observationId ≠ o.observationId := by
    rw [hl.ids, List.mem_map]
    push Not
    rfl
  rw [record, check_bind_eq_ok, byAttempt_ne_none, hids, bind_eq_ok, hl.latest]
  constructor
  · rintro ⟨⟨hknown, hfresh⟩, _, hlineage, hl'⟩
    refine ⟨?_, (pure_eq_ok.1 hl').symm⟩
    cases hlast : (ofReceipt before o.receiptId).getLast? with
    | none =>
      rw [hlast] at hlineage
      exact ⟨hknown, hfresh, by rw [hlast]; exact check_eq_ok.1 hlineage,
        by rw [hlast]; exact nofun⟩
    | some prior =>
      rw [hlast] at hlineage
      obtain ⟨hsupersedes, hsame⟩ := check_eq_ok.1 hlineage
      refine ⟨hknown, hfresh, by rw [hlast]; exact hsupersedes, fun b hb => ?_⟩
      obtain rfl := Option.some.inj (hlast.symm.trans hb)
      exact hsame
  · rintro ⟨ho, rfl⟩
    refine ⟨⟨ho.known, ho.fresh⟩, (), ?_, rfl⟩
    have hsupersedes := ho.supersedes
    have hsame := ho.same
    cases hlast : (ofReceipt before o.receiptId).getLast? with
    | none =>
      rw [hlast] at hsupersedes
      exact check_of hsupersedes
    | some prior =>
      rw [hlast] at hsupersedes hsame
      exact check_of ⟨hsupersedes, hsame prior rfl⟩

theorem Ledger.Reads.put {l : Ledger} {before : List UsageObservation} (hl : l.Reads before)
    (o : UsageObservation) : Ledger.Reads
      ⟨Rows.put UsageObservation.receiptId l.latest o, l.ids ++ [o.observationId]⟩
      (before ++ [o]) where
  nodup := Rows.nodup_put hl.nodup
  latest := by
    intro receiptId
    rw [Rows.find_put, ofReceipt_concat]
    by_cases hr : receiptId = o.receiptId
    · rw [if_pos hr, if_pos hr.symm, List.getLast?_concat]
    · rw [if_neg hr, if_neg (Ne.symm hr), hl.latest]
  ids := by rw [hl.ids, List.map_append, List.map_singleton]

/-- The loop returns exactly on well-formed observations, with the last observation of every
receipt. -/
theorem ledger_eq_ok {observations : List UsageObservation} :
    (Traceable outcomes observations → ∃ l, ledger outcomes observations = .ok l) ∧
      ∀ l, ledger outcomes observations = .ok l →
        Traceable outcomes observations ∧ l.Reads observations := by
  induction observations using List.reverseRecOn with
  | nil =>
    refine ⟨fun _ => ⟨_, rfl⟩, fun l hl => ?_⟩
    obtain rfl := Except.ok.inj hl
    exact ⟨traceable_nil, List.nodup_nil, fun _ => rfl, rfl⟩
  | append_singleton observations o ih =>
    have hconcat : ledger outcomes (observations ++ [o]) =
        ledger outcomes observations >>= fun l => record outcomes l o := foldlM_concat
    rw [hconcat, traceable_concat]
    constructor
    · rintro ⟨h, ho⟩
      obtain ⟨l, hl⟩ := ih.1 h
      exact ⟨_, bind_of_ok hl ((record_eq_ok (ih.2 l hl).2).2 ⟨ho, rfl⟩)⟩
    · intro l' hl'
      obtain ⟨l, hl, hrecord⟩ := bind_eq_ok.1 hl'
      obtain ⟨h, hreads⟩ := ih.2 l hl
      obtain ⟨ho, rfl⟩ := (record_eq_ok hreads).1 hrecord
      exact ⟨⟨h, ho⟩, hreads.put o⟩

/-- What malformed observations are refused with. -/
def observationMessages : List String :=
  ["unknown Attempt or duplicate observation ID", "correction lacks an earlier receipt",
    "duplicate receipt or invalid correction lineage"]

/-- Malformed observations are refused. -/
theorem ledger_refused {observations : List UsageObservation}
    (h : ¬Traceable outcomes observations) :
    ∃ m ∈ observationMessages, ledger outcomes observations = .error (invalid m) := by
  cases hl : ledger outcomes observations with
  | ok l => exact absurd (ledger_eq_ok.2 l hl).1 h
  | error e =>
    obtain ⟨l, o, -, he⟩ := exists_of_foldlM_error hl
    rcases bind_eq_error.1 he with hc | ⟨_, -, hrest⟩
    · exact ⟨_, List.mem_cons_self, by rw [(check_eq_error.1 hc).2]⟩
    · rcases bind_eq_error.1 hrest with hc | ⟨_, -, hput⟩
      · cases hf : Rows.find UsageObservation.receiptId l.latest o.receiptId with
        | none =>
          rw [hf] at hc
          exact ⟨_, List.mem_cons_of_mem _ List.mem_cons_self, by rw [(check_eq_error.1 hc).2]⟩
        | some prior =>
          rw [hf] at hc
          exact ⟨_, List.mem_cons_of_mem _ (List.mem_cons_of_mem _ List.mem_cons_self),
            by rw [(check_eq_error.1 hc).2]⟩
      · cases hput

/-! ## The Attempts an accepted one is charged with -/

/-- The loop of `chain` lists the Attempts on the way up. -/
theorem chainFrom_of_climb (h : LinkedOutcomes outcomes) {o : AttemptOutcome}
    {l : List AttemptOutcome} {fuel : ℕ} {result : List Name} (ho : o ∈ outcomes)
    (hl : Links.Climb (parent outcomes) o l) (hfuel : l.length ≤ fuel + 1) :
    chainFrom outcomes fuel (result ++ [o.attemptId]) o.parentOf =
      .ok (result ++ l.map AttemptOutcome.attemptId).reverse := by
  induction hl generalizing fuel result with
  | @root a hnone =>
    have hp : a.parentOf = none := by
      by_contra hp
      obtain ⟨p, hap, -⟩ := h.remediation a ho hp
      cases hnone.symm.trans ((parent_eq_some h.attempts).2 hap)
    rw [hp]
    cases fuel <;> rfl
  | @link a b l hab hbl ih =>
    have hb := (parent_eq_some h.attempts).1 hab
    obtain ⟨fuel, rfl⟩ : ∃ n, fuel = n + 1 := by
      cases hbl <;> exact Nat.exists_eq_succ_of_ne_zero (by rintro rfl; simp at hfuel)
    have hsubscript : subscript (byAttempt outcomes) b.attemptId = .ok b :=
      subscript_eq_ok.2 ((byAttempt_eq_some h.attempts).2 ⟨hb.1, rfl⟩)
    rw [hb.2, chainFrom, hsubscript]
    show chainFrom outcomes fuel (result ++ [a.attemptId] ++ [b.attemptId]) b.parentOf = _
    rw [ih hb.1 (Nat.le_of_succ_le_succ hfuel), List.map_cons, List.append_assoc,
      List.singleton_append]

/-- Among linked outcomes every one has a way up, through listed outcomes. -/
theorem LinkedOutcomes.exists_climb (h : LinkedOutcomes outcomes) {o : AttemptOutcome}
    (ho : o ∈ outcomes) : ∃ l, Links.Climb (parent outcomes) o l ∧ (∀ p ∈ l, p ∈ outcomes) ∧
      (l.map AttemptOutcome.attemptId).Nodup ∧ l.length ≤ outcomes.length := by
  have hclosed : ∀ a ∈ outcomes, ∀ b, parent outcomes a = some b → b ∈ outcomes :=
    fun a _ b hb => mem_of_parent hb
  obtain ⟨l, hl⟩ := Links.exists_climb hclosed (link_parent h.attempts ▸ h.acyclic) ho
  have hmem : ∀ p ∈ l, p ∈ outcomes := hl.forall_mem ho fun a b ha => hclosed a ha b
  refine ⟨l, hl, hmem, ?_, (hl.nodup.subperm hmem).length_le⟩
  exact hl.nodup.map_on fun a ha b hb hab =>
    List.inj_on_of_nodup_map h.attempts (hmem a ha) (hmem b hb) hab

/-- A path along parent links from a root Attempt to an Attempt, without duplicates. -/
structure CostPath (outcomes : List AttemptOutcome) (o : AttemptOutcome) (path : List Name) :
    Prop where
  nodup : path.Nodup
  links : path.IsChain fun a b => ∃ p ∈ outcomes, p.attemptId = b ∧ p.parentOf = some a
  root : ∃ r ∈ path.head?, ∃ p ∈ outcomes, p.attemptId = r ∧ p.parentOf = none
  last : path.getLast? = some o.attemptId

/-- An accepted Attempt is charged with the path to it. -/
theorem LinkedOutcomes.chain_eq_ok (h : LinkedOutcomes outcomes) {o : AttemptOutcome}
    (ho : o ∈ outcomes) :
    ∃ path, CostPath outcomes o path ∧ ∀ fuel ≥ outcomes.length,
      chain outcomes fuel o = .ok path := by
  obtain ⟨l, hl, hmem, hn, hlength⟩ := h.exists_climb ho
  refine ⟨(l.map AttemptOutcome.attemptId).reverse, ⟨List.nodup_reverse.2 hn, ?_, ?_, ?_⟩, ?_⟩
  · rw [List.isChain_reverse, List.isChain_map]
    refine (hl.isChain.imp_of_mem_imp ?_)
    intro a b ha hb hab
    exact ⟨a, hmem a ha, rfl, ((parent_eq_some h.attempts).1 hab).2⟩
  · obtain ⟨r, hr, hroot⟩ := hl.exists_getLast
    refine ⟨r.attemptId, ?_, r, hmem r (List.mem_of_getLast? hr), rfl, ?_⟩
    · rw [List.head?_reverse, List.getLast?_map, hr]
      rfl
    · by_contra hp
      obtain ⟨p, hrp, -⟩ := h.remediation r (hmem r (List.mem_of_getLast? hr)) hp
      cases hroot.symm.trans ((parent_eq_some h.attempts).2 hrp)
  · rw [List.getLast?_reverse, List.head?_map]
    cases hl <;> rfl
  · intro fuel hfuel
    exact @chainFrom_of_climb outcomes h o l fuel [] ho hl (by omega)

/-! ## The export -/

/-- An entry shows what is known about an Attempt. -/
structure Shows [Sha256] (outcomes : List AttemptOutcome) (observations : List UsageObservation)
    (o : AttemptOutcome) (x : AttemptExport) : Prop where
  entry : x = exportAttempt x.effectiveUsage o x.costAttemptIds
  unaccepted : o.acceptanceId = none → x.costAttemptIds = none
  /-- An accepted Attempt is charged with the path to it. -/
  cost : o.acceptanceId ≠ none → ∃ path ∈ x.costAttemptIds, CostPath outcomes o path
  /-- Of each receipt of the Attempt the last observation is shown, and of no other one. -/
  effective : ∀ receiptId, x.effectiveUsage.filter (fun u => u.receiptId = receiptId) =
    ((ofReceipt observations receiptId).filter fun u =>
      u.attemptId = o.attemptId).getLast?.toList

/-- The latest observations of the receipts of an Attempt. -/
theorem Ledger.Reads.effective {l : Ledger} {observations : List UsageObservation}
    (hl : l.Reads observations) (h : Traceable outcomes observations) (attemptId receiptId : Name) :
    (l.latest.filter fun u => u.attemptId = attemptId).filter (fun u => u.receiptId = receiptId) =
      ((ofReceipt observations receiptId).filter fun u =>
        u.attemptId = attemptId).getLast?.toList := by
  rw [List.filter_comm, Rows.filter_key hl.nodup, hl.latest]
  obtain ⟨-, hsame⟩ := h.linear receiptId
  cases hlast : (ofReceipt observations receiptId).getLast? with
  | none => rw [List.getLast?_eq_none_iff.1 hlast]; rfl
  | some last =>
    have hmem := List.mem_of_getLast? hlast
    by_cases ha : last.attemptId = attemptId
    · subst ha
      rw [h.filter_attempt hmem, hlast]
      simp
    · have hnone : (ofReceipt observations receiptId).filter (fun u => u.attemptId = attemptId) =
          [] :=
        List.filter_eq_nil_iff.2 fun a h hat =>
          ha ((hsame last hmem a h).trans (of_decide_eq_true hat))
      rw [hnone]
      simp [ha]

variable [Sha256]

theorem exportAttempt_self (latest : List UsageObservation) (o : AttemptOutcome)
    (cost : Option (List Name)) : exportAttempt latest o cost =
      exportAttempt (exportAttempt latest o cost).effectiveUsage o
        (exportAttempt latest o cost).costAttemptIds := by
  simp [exportAttempt, List.filter_filter]

/-- Each entry of an export of well-formed input shows what is known about its Attempt. -/
theorem exists_exportOne (h : LinkedOutcomes outcomes) {observations : List UsageObservation}
    (ht : Traceable outcomes observations) {l : Ledger} (hl : l.Reads observations)
    {o : AttemptOutcome} (ho : o ∈ outcomes) :
    ∃ x, Shows outcomes observations o x ∧ ∀ fuel ≥ outcomes.length,
      exportOne outcomes fuel l.latest o = .ok x := by
  obtain ⟨path, hpath, hchain⟩ := h.chain_eq_ok ho
  cases ha : o.acceptanceId with
  | none =>
    refine ⟨exportAttempt l.latest o none, ⟨exportAttempt_self _ _ _, fun _ => rfl,
      fun hne => absurd ha hne, hl.effective ht o.attemptId⟩, fun fuel _ => ?_⟩
    rw [exportOne, ha]
  | some acceptanceId =>
    refine ⟨exportAttempt l.latest o (some path), ⟨exportAttempt_self _ _ _,
      fun hnone => absurd (ha.symm.trans hnone) (by simp), fun _ => ⟨path, rfl, hpath⟩,
      hl.effective ht o.attemptId⟩, fun fuel hfuel => ?_⟩
    rw [exportOne, ha, hchain fuel hfuel]
    rfl

/-- A listed entry for each outcome, whatever the bound on the rounds. -/
theorem exists_attempts (h : LinkedOutcomes outcomes) {observations : List UsageObservation}
    (ht : Traceable outcomes observations) {l : Ledger} (hl : l.Reads observations) :
    ∃ attempts, List.Forall₂ (Shows outcomes observations) outcomes attempts ∧
      ∀ fuel ≥ outcomes.length,
        outcomes.mapM (exportOne outcomes fuel l.latest) = .ok attempts := by
  have hall : ∀ listed ⊆ outcomes, ∃ attempts,
      List.Forall₂ (fun o x => Shows outcomes observations o x ∧ ∀ fuel ≥ outcomes.length,
        exportOne outcomes fuel l.latest o = .ok x) listed attempts := by
    intro listed hsub
    induction listed with
    | nil => exact ⟨[], .nil⟩
    | cons o listed ih =>
      obtain ⟨ho, hrest⟩ := List.cons_subset.1 hsub
      obtain ⟨x, hx⟩ := exists_exportOne h ht hl ho
      obtain ⟨attempts, hattempts⟩ := ih hrest
      exact ⟨x :: attempts, .cons hx hattempts⟩
  obtain ⟨attempts, hattempts⟩ := hall outcomes (List.Subset.refl _)
  exact ⟨attempts, hattempts.imp fun _ _ hx => hx.1,
    fun fuel hfuel => mapM_eq_ok.2 (hattempts.imp fun _ _ hx => hx.2 fuel hfuel)⟩

/-- Malformed outcomes are refused. -/
theorem exportOutcomes_of_not_linked (h : ¬LinkedOutcomes outcomes)
    (observations : List UsageObservation) : ∃ m ∈ outcomeMessages, ∀ fuel ≥ outcomes.length,
      exportOutcomes fuel outcomes observations = .error (.raised (invalid m)) := by
  obtain ⟨m, hm, hrefused⟩ := checkOutcomes_refused h
  refine ⟨m, hm, fun fuel hfuel => ?_⟩
  rw [exportOutcomes, hrefused fuel hfuel, error_bind]

/-- Malformed observations about well-formed outcomes are refused. -/
theorem exportOutcomes_of_not_traceable (h : LinkedOutcomes outcomes)
    {observations : List UsageObservation} (ht : ¬Traceable outcomes observations) :
    ∃ m ∈ observationMessages, ∀ fuel ≥ outcomes.length,
      exportOutcomes fuel outcomes observations = .error (.raised (invalid m)) := by
  obtain ⟨m, hm, hrefused⟩ := ledger_refused ht
  refine ⟨m, hm, fun fuel hfuel => ?_⟩
  rw [exportOutcomes, (checkOutcomes_eq_ok hfuel).2 h, ok_bind, hrefused]
  rfl

/-- Well-formed input is exported. -/
theorem exists_exportOutcomes (h : LinkedOutcomes outcomes) {observations : List UsageObservation}
    (ht : Traceable outcomes observations) : ∃ e : Export,
      (∀ fuel ≥ outcomes.length, exportOutcomes fuel outcomes observations = .ok e) ∧
        e.schema = "creatidy-local-outcomes-v1" ∧ e.observations = observations ∧
        List.Forall₂ (Shows outcomes observations) outcomes e.attempts := by
  obtain ⟨l, hl⟩ := ledger_eq_ok.1 ht
  obtain ⟨attempts, hshows, hmapM⟩ := exists_attempts h ht (ledger_eq_ok.2 l hl).2
  refine ⟨⟨_, attempts, observations⟩, fun fuel hfuel => ?_, rfl, rfl, hshows⟩
  rw [exportOutcomes, (checkOutcomes_eq_ok hfuel).2 h, ok_bind, hl]
  show (outcomes.mapM (exportOne outcomes fuel l.latest) >>= fun attempts => _) = _
  rw [hmapM fuel hfuel]
  rfl

/-- What is promised about the export of some outcomes and observations. As many rounds as there
are outcomes are enough for its loops, so it ends without running out of them. -/
structure ExactExport (outcomes : List AttemptOutcome) (observations : List UsageObservation) :
    Prop where
  /-- Malformed outcomes are refused. -/
  outcomes_refused : ¬LinkedOutcomes outcomes → ∃ m ∈ outcomeMessages,
    ∀ fuel ≥ outcomes.length,
      exportOutcomes fuel outcomes observations = .error (.raised (invalid m))
  /-- Malformed observations about well-formed outcomes are refused. -/
  observations_refused : LinkedOutcomes outcomes → ¬Traceable outcomes observations →
    ∃ m ∈ observationMessages, ∀ fuel ≥ outcomes.length,
      exportOutcomes fuel outcomes observations = .error (.raised (invalid m))
  /-- Everything else is exported. -/
  exported : LinkedOutcomes outcomes → Traceable outcomes observations → ∃ e : Export,
    (∀ fuel ≥ outcomes.length, exportOutcomes fuel outcomes observations = .ok e) ∧
      e.schema = "creatidy-local-outcomes-v1" ∧ e.observations = observations ∧
      List.Forall₂ (Shows outcomes observations) outcomes e.attempts
  /-- The observations of a receipt are then a line of corrections, of one Attempt. -/
  linear : Traceable outcomes observations → ∀ receiptId,
    Corrections.Linear UsageObservation.observationId UsageObservation.supersedesId
        (ofReceipt observations receiptId) ∧
      ∀ a ∈ ofReceipt observations receiptId, ∀ b ∈ ofReceipt observations receiptId,
        a.attemptId = b.attemptId

/-- The export ends, refuses exactly malformed input and is right on the rest. -/
theorem export_exact (outcomes : List AttemptOutcome) (observations : List UsageObservation) :
    ExactExport outcomes observations where
  outcomes_refused := fun h => exportOutcomes_of_not_linked h observations
  observations_refused := fun h ht => exportOutcomes_of_not_traceable h ht
  exported := fun h ht => exists_exportOutcomes h ht
  linear := fun ht => ht.linear

end Outcomes

end CreatidyKernel
