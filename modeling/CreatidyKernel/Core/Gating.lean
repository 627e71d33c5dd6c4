import Mathlib.Data.List.ReduceOption
import CreatidyKernel.Core.Admission

set_option relaxedAutoImplicit false
set_option autoImplicit false

/-!
# The verifier is gated

The producer of checks may execute candidate code, so the verifier asks it for a check only
after every earlier check passed, and while the evidence of all of them is fresh. The evidence
ages meanwhile, whence it is judged once more at the end, and again on admission.

## Main definitions

* `asked` — the checks the loop asks for, each with the reading of the clock before.
* `Stands` — a check was asked for and its evidence passes at a time.
* `Current` — an accepted result still is what its subjects, policy and evidence say.

## Main results

* `asked_gated` — the earlier evidence passes whenever a check is asked for.
* `observe_eq_ok`, `observe_eq_error` — the loop collects the answers, unless the producer raises
  or repeats an identifier.
* `verification_gated` — when a candidate is accepted, what the findings name, and what admission
  derives again.
-/

namespace CreatidyKernel

open Checked

section

variable {producer : CheckProducer} {attempt : Attempt} {verifierId : Name}
  {subject : EvidenceSubject} {time : ℕ → ℤ}

/-! ## The questions -/

/-- The checks the loop of the verifier asks for, each with the index of the reading of the clock
taken before. -/
def asked (producer : CheckProducer) (attempt : Attempt) (verifierId : Name)
    (subject : EvidenceSubject) (time : ℕ → ℤ) :
    List Name → ℕ → List (Option Evidence) → List (Name × ℕ)
  | [], _, _ => []
  | name :: rest, i, observed =>
    if ∀ previous ∈ observed, ∃ e ∈ previous, e.FreshAt (time i) then
      (name, i) :: match producer name subject with
        | .error _ => []
        | .ok item =>
          if (∀ e ∈ item, ∀ previous ∈ observed.reduceOption,
                previous.evidenceId ≠ e.evidenceId) ∧
              Passing attempt verifierId name subject (time (i + 1)) item then
            asked producer attempt verifierId subject time rest (i + 2) (observed ++ [item])
          else []
    else []

/-- The checks are asked for in the order they are required. -/
theorem asked_inOrder (names : List Name) (i : ℕ) (observed : List (Option Evidence)) :
    (asked producer attempt verifierId subject time names i observed).map Prod.fst <+: names := by
  induction names generalizing i observed with
  | nil => exact List.nil_prefix
  | cons name rest ih =>
    rw [asked]
    split_ifs
    · rw [List.map_cons]
      refine (List.prefix_cons_inj _).2 ?_
      cases producer name subject with
      | error e => exact List.nil_prefix
      | ok item =>
        show ((if _ then _ else _ : List (Name × ℕ)).map Prod.fst) <+: rest
        split_ifs
        · exact ih _ _
        · exact List.nil_prefix
    · exact List.nil_prefix

/-- Valid evidence is valid as long as it is fresh. -/
theorem Evidence.Valid.of_fresh {e : Evidence} {name : Name} {now later : ℤ}
    (h : e.Valid attempt verifierId name subject now) (hf : e.FreshAt later) :
    e.Valid attempt verifierId name subject later :=
  ⟨h.1, h.2.1, h.2.2.1, hf, h.2.2.2.2⟩

/-- The producer answered a check with evidence that passes at a time. -/
def Answered (producer : CheckProducer) (attempt : Attempt) (verifierId : Name)
    (subject : EvidenceSubject) (now : ℤ) (name : Name) : Prop :=
  ∃ e, producer name subject = .ok (some e) ∧ e.Valid attempt verifierId name subject now ∧
    e.passed

/-- Whenever a check is asked for, every earlier one was answered with evidence that passes at
that time. -/
theorem asked_gated {names done : List Name} {i : ℕ} {observed : List (Option Evidence)}
    (hdone : List.Forall₂ (fun n item => producer n subject = .ok item ∧
      ∃ t, Passing attempt verifierId n subject t item) done observed)
    {before after : List (Name × ℕ)} {q : Name × ℕ}
    (h : asked producer attempt verifierId subject time names i observed = before ++ q :: after) :
    ∀ n ∈ done ++ before.map Prod.fst,
      Answered producer attempt verifierId subject (time q.2) n := by
  induction names generalizing done i observed before with
  | nil => simp [asked] at h
  | cons name rest ih =>
    rw [asked] at h
    split_ifs at h with hfresh
    · cases before with
      | nil =>
        rw [List.nil_append, List.cons.injEq] at h
        obtain ⟨rfl, -⟩ := h
        intro n hn
        rw [List.map_nil, List.append_nil] at hn
        obtain ⟨k, hk, rfl⟩ := List.getElem_of_mem hn
        have hlen := hdone.length_eq
        have hitem := hdone.get hk (hlen ▸ hk)
        obtain ⟨hask, t, e, he, hvalid, hpassed⟩ := hitem
        obtain ⟨e', he', hfe⟩ := hfresh _ (List.get_mem observed ⟨k, hlen ▸ hk⟩)
        rw [Option.mem_def] at he he'
        obtain rfl := Option.some.inj (he.symm.trans he')
        exact ⟨e, by rw [← he]; exact hask, hvalid.of_fresh hfe, hpassed⟩
      | cons q' before =>
        rw [List.cons_append, List.cons.injEq] at h
        obtain ⟨rfl, h⟩ := h
        split at h
        · simp at h
        · next item hitem =>
          split_ifs at h with hgo
          · have hdone' := List.rel_append hdone
              (List.Forall₂.cons (a := name) (b := item) ⟨hitem, time (i + 1), hgo.2⟩ .nil)
            have hnext := ih hdone' h
            rwa [List.append_assoc] at hnext
          · simp at h
    · simp at h

/-- A loop that returns has collected the answers to its questions, with distinct identifiers,
and reads the clock for the last time after them. -/
theorem observe_eq_ok {names : List Name} {i final : ℕ} {observed result : List (Option Evidence)}
    (h : observe producer attempt verifierId subject time names i observed = .ok (result, final)) :
    ∃ answers, result = observed ++ answers ∧
      List.Forall₂ (fun q item => producer q.1 subject = .ok item)
        (asked producer attempt verifierId subject time names i observed) answers ∧
      (∀ q ∈ asked producer attempt verifierId subject time names i observed, q.2 < final) ∧
      i ≤ final ∧
      ((observed.reduceOption.map Evidence.evidenceId).Nodup →
        (result.reduceOption.map Evidence.evidenceId).Nodup) := by
  induction names generalizing i observed with
  | nil =>
    obtain ⟨rfl, rfl⟩ := Prod.mk.inj (Except.ok.inj h)
    exact ⟨[], by simp, .nil, by simp [asked], le_rfl, id⟩
  | cons name rest ih =>
    rw [observe] at h
    rw [asked]
    split_ifs at h with hfresh
    · obtain ⟨item, hitem, h⟩ := bind_eq_ok.1 h
      obtain ⟨_, hnew, h⟩ := bind_eq_ok.1 h
      rw [check_eq_ok] at hnew
      have hids : (observed.reduceOption.map Evidence.evidenceId).Nodup →
          ((observed ++ [item]).reduceOption.map Evidence.evidenceId).Nodup := by
        intro hnd
        cases item with
        | none => simpa [List.reduceOption_append] using hnd
        | some e =>
          rw [List.reduceOption_append, List.map_append, List.nodup_append]
          refine ⟨hnd, List.nodup_singleton _, ?_⟩
          rintro _ hid _ he rfl
          obtain ⟨previous, hp, hpe⟩ := List.mem_map.1 hid
          have hlast := List.mem_singleton.1 he
          exact hnew e rfl previous hp (hpe.trans hlast)
      rw [if_pos hfresh, hitem]
      split_ifs at h with hpass
      · obtain ⟨answers, rfl, hall, hlt, hle, hnodup⟩ := ih h
        have hgo : (∀ e ∈ item, ∀ previous ∈ observed.reduceOption,
            previous.evidenceId ≠ e.evidenceId) ∧
            Passing attempt verifierId name subject (time (i + 1)) item := ⟨hnew, hpass⟩
        simp only [if_pos hgo]
        refine ⟨item :: answers, by simp, .cons hitem hall, ?_, by omega, fun hnd =>
          hnodup (hids hnd)⟩
        rintro q (_ | ⟨_, hq⟩)
        · show i < final
          omega
        · exact hlt q hq
      · obtain ⟨rfl, rfl⟩ := Prod.mk.inj (pure_eq_ok.1 h)
        have hstop : ¬((∀ e ∈ item, ∀ previous ∈ observed.reduceOption,
            previous.evidenceId ≠ e.evidenceId) ∧
            Passing attempt verifierId name subject (time (i + 1)) item) := fun hgo => hpass hgo.2
        simp only [if_neg hstop]
        refine ⟨[item], rfl, .cons hitem .nil, ?_, by omega, hids⟩
        intro q hq
        rw [List.mem_singleton.1 hq]
        show i < i + 2
        omega
    · obtain ⟨rfl, rfl⟩ := Prod.mk.inj (Except.ok.inj h)
      rw [if_neg hfresh]
      exact ⟨[], by simp, .nil, by simp, by omega, id⟩

/-- A loop that raises does so on its last question: the producer raises, or it repeats an
identifier. -/
theorem observe_eq_error {names : List Name} {i : ℕ} {observed : List (Option Evidence)}
    {failure : Failure}
    (h : observe producer attempt verifierId subject time names i observed = .error failure) :
    ∃ before q, asked producer attempt verifierId subject time names i observed = before ++ [q] ∧
      (producer q.1 subject = .error failure ∨
        failure = ⟨.invalidDomainValue, "duplicate evidence IDs"⟩ ∧
          ∃ e e', producer q.1 subject = .ok (some e) ∧ e'.evidenceId = e.evidenceId ∧
            (e' ∈ observed.reduceOption ∨
              ∃ q' ∈ before, producer q'.1 subject = .ok (some e'))) := by
  induction names generalizing i observed with
  | nil => cases h
  | cons name rest ih =>
    rw [observe] at h
    rw [asked]
    split_ifs at h with hfresh
    rw [if_pos hfresh]
    rcases bind_eq_error.1 h with hraised | ⟨item, hitem, h⟩
    · rw [hraised]
      exact ⟨[], _, rfl, .inl hraised⟩
    · rw [hitem]
      rcases bind_eq_error.1 h with hdup | ⟨_, hnew, h⟩
      · rw [check_eq_error] at hdup
        obtain ⟨hdup, hfailure⟩ := hdup
        push Not at hdup
        obtain ⟨e, he, e', he', hid⟩ := hdup
        have hstop : ¬((∀ e ∈ item, ∀ previous ∈ observed.reduceOption,
            previous.evidenceId ≠ e.evidenceId) ∧
            Passing attempt verifierId name subject (time (i + 1)) item) :=
          fun hgo => hgo.1 e he e' he' hid
        simp only [if_neg hstop]
        rw [Option.mem_def] at he
        exact ⟨[], _, rfl, .inr ⟨hfailure.symm, e, e', he ▸ hitem, hid, .inl he'⟩⟩
      · rw [check_eq_ok] at hnew
        split_ifs at h with hpass
        · have hgo : (∀ e ∈ item, ∀ previous ∈ observed.reduceOption,
              previous.evidenceId ≠ e.evidenceId) ∧
              Passing attempt verifierId name subject (time (i + 1)) item := ⟨hnew, hpass⟩
          simp only [if_pos hgo]
          obtain ⟨before, q, hl, hwhy⟩ := ih h
          refine ⟨(name, i) :: before, q, by rw [hl, List.cons_append], hwhy.imp_right ?_⟩
          rintro ⟨rfl, e, e', he, hid, hold | ⟨q', hq', he'⟩⟩
          · refine ⟨rfl, e, e', he, hid, ?_⟩
            rw [List.reduceOption_append, List.mem_append] at hold
            refine hold.imp_right fun hitem' => ⟨(name, i), List.mem_cons_self, ?_⟩
            cases item with
            | none => simp at hitem'
            | some e₀ =>
              have : e' = e₀ := by simpa using hitem'
              rw [this]
              exact hitem
          · exact ⟨rfl, e, e', he, hid, .inr ⟨q', List.mem_cons_of_mem _ hq', he'⟩⟩
        · cases h

/-! ## The findings -/

/-- The findings of a decision on the observations. -/
def findingsOn (attempt : Attempt) (verifierId candidateId : Name) (subject : EvidenceSubject)
    (now : ℤ) (names : List Name) (observed : List (Option Evidence)) : List Finding :=
  names.zipIdx.filterMap fun (name, i) =>
    findingOn attempt verifierId candidateId subject now name observed[i]?

/-- A check was asked for, and the answer passes at a time. -/
def Stands (producer : CheckProducer) (attempt : Attempt) (verifierId : Name)
    (subject : EvidenceSubject) (questions : List (Name × ℕ)) (now : ℤ) (name : Name) : Prop :=
  name ∈ questions.map Prod.fst ∧ Answered producer attempt verifierId subject now name

variable {candidateId : Name} {names : List Name} {observed : List (Option Evidence)} {now : ℤ}

theorem findingOn_eq_none {name : Name} {o : Option (Option Evidence)} :
    findingOn attempt verifierId candidateId subject now name o = none ↔
      Passing attempt verifierId name subject now o.join := by
  unfold findingOn
  split_ifs with h <;> simp [h]

/-- A finding names the check it is about. -/
theorem findingOn_eq_some {name : Name} {o : Option (Option Evidence)} {f : Finding}
    (h : findingOn attempt verifierId candidateId subject now name o = some f) :
    f.fingerprint = name ∧ ¬Passing attempt verifierId name subject now o.join := by
  by_cases hp : Passing attempt verifierId name subject now o.join
  · rw [findingOn, if_pos hp] at h
    cases h
  · rw [findingOn, if_neg hp] at h
    exact ⟨(Option.some.inj h) ▸ rfl, hp⟩

theorem findingsOn_eq_nil : findingsOn attempt verifierId candidateId subject now names observed =
    [] ↔ ∀ (i : ℕ) (name : Name), names[i]? = some name →
      Passing attempt verifierId name subject now observed[i]?.join := by
  simp only [findingsOn, List.filterMap_eq_nil_iff, findingOn_eq_none, Prod.forall,
    List.mk_mem_zipIdx_iff_getElem?]
  exact forall_comm

/-- Findings carry the names of their checks, in the required order. -/
theorem mem_map_findingsOn {n : Name} :
    n ∈ (findingsOn attempt verifierId candidateId subject now names observed).map
        Finding.fingerprint ↔
      ∃ i : ℕ, names[i]? = some n ∧ ¬Passing attempt verifierId n subject now observed[i]?.join := by
  simp only [findingsOn, List.mem_map, List.mem_filterMap, Prod.exists,
    List.mk_mem_zipIdx_iff_getElem?]
  constructor
  · rintro ⟨f, ⟨name, i, hi, hf⟩, rfl⟩
    obtain ⟨rfl, hp⟩ := findingOn_eq_some hf
    exact ⟨i, hi, hp⟩
  · rintro ⟨i, hi, hp⟩
    exact ⟨_, ⟨n, i, hi, if_neg hp⟩, rfl⟩

theorem map_findingsOn_sublist :
    ((findingsOn attempt verifierId candidateId subject now names observed).map
      Finding.fingerprint).Sublist names := by
  have hmap : (findingsOn attempt verifierId candidateId subject now names observed).map
      Finding.fingerprint = (names.zipIdx.filter fun e =>
        (findingOn attempt verifierId candidateId subject now e.1 observed[e.2]?).isSome).map
          Prod.fst := by
    unfold findingsOn
    induction names.zipIdx with
    | nil => rfl
    | cons e l ih =>
      cases hf : findingOn attempt verifierId candidateId subject now e.1 observed[e.2]? with
      | none => simpa [hf] using ih
      | some f =>
        have hname := (findingOn_eq_some hf).1
        simpa [hf, hname] using ih
  rw [hmap]
  refine (List.filter_sublist.map Prod.fst).trans ?_
  rw [List.zipIdx_map_fst]

/-- The observation on a required check passes exactly if the check stands. -/
theorem passing_iff_stands {questions : List (Name × ℕ)}
    (hpre : questions.map Prod.fst <+: names) (hnd : names.Nodup)
    (hans : List.Forall₂ (fun q item => producer q.1 subject = .ok item) questions observed)
    {i : ℕ} {n : Name} (hi : names[i]? = some n) :
    Passing attempt verifierId n subject now observed[i]?.join ↔
      Stands producer attempt verifierId subject questions now n := by
  have hlen := hans.length_eq
  obtain ⟨hin, hni⟩ := List.getElem?_eq_some_iff.1 hi
  by_cases hlt : i < questions.length
  · have hname : questions[i].1 = n := by
      rw [← hni, ← hpre.getElem (by simpa using hlt), List.getElem_map]
    have hitem := hans.get hlt (hlen ▸ hlt)
    simp only [List.get_eq_getElem, hname] at hitem
    have hasked : n ∈ questions.map Prod.fst :=
      List.mem_map.2 ⟨questions[i], List.getElem_mem hlt, hname⟩
    rw [List.getElem?_eq_getElem (hlen ▸ hlt), Option.join_some]
    constructor
    · rintro ⟨e, he, hvalid, hpassed⟩
      rw [Option.mem_def] at he
      exact ⟨hasked, e, he ▸ hitem, hvalid, hpassed⟩
    · rintro ⟨-, e, he, hvalid, hpassed⟩
      exact ⟨e, Except.ok.inj (hitem.symm.trans he), hvalid, hpassed⟩
  · have hnone : observed[i]? = none := List.getElem?_eq_none (by omega)
    rw [hnone]
    constructor
    · rintro ⟨e, he, -⟩
      cases he
    · rintro ⟨hasked, -⟩
      exfalso
      obtain ⟨j, hj, hjn⟩ := List.getElem_of_mem hasked
      rw [hpre.getElem hj] at hjn
      have hij : j = i := (List.Nodup.getElem_inj_iff hnd).1 (hjn.trans hni.symm)
      rw [List.length_map] at hj
      omega

end

/-! ## The verdict -/

section

variable [Sha256] {p : Program} {candidate : CandidateResult} {collected : ArtifactManifest}
  {policy : VerificationPolicy} {producer : CheckProducer} {inspection : Inspection} {now : ℤ}
  {clock : Option (ℕ → ℤ)} {attempt : Attempt} {unit : WorkUnit}

/-- The checks the verifier asks for when it decides on a candidate. -/
def questions (p : Program) (candidate : CandidateResult) (policy : VerificationPolicy)
    (producer : CheckProducer) (inspection : Inspection) (now : ℤ) (clock : Option (ℕ → ℤ))
    (attempt : Attempt) : List (Name × ℕ) :=
  asked producer attempt inspection.verifierId (evidenceSubject p candidate policy inspection attempt)
    (decisionTime now clock) policy.required 0 []

/-- The satisfaction of an accepted candidate. -/
def satisfactionFor (p : Program) (candidate : CandidateResult) (collected : ArtifactManifest)
    (inspection : Inspection) (attempt : Attempt) (unit : WorkUnit) :
    Except Failure TrustedSatisfaction := do
  let outputs ← candidate.outputs.mapM (outputBinding collected.artifacts)
  let fingerprint ← p.spec.fingerprint unit.workUnitId
  TrustedSatisfaction.init inspection.referenceId.val p.programId.val
    unit.workUnitId.val p.spec.revision p.spec.digest.val fingerprint.val
    inspection.verifierId.val attempt.attemptId.val outputs 0

/-- The decision on the observations. -/
theorem verifyCandidate_eq {observed : List (Option Evidence)} {final : ℕ}
    (ha : p.attemptNamed candidate.publication.attemptId = .ok attempt)
    (hu : p.spec.workUnit attempt.spec.workUnitId = .ok unit)
    (hc : checkSubjects p candidate collected policy inspection.verifierId attempt unit = .ok ())
    (ho : observe producer attempt inspection.verifierId
      (evidenceSubject p candidate policy inspection attempt) (decisionTime now clock)
      policy.required 0 [] = .ok (observed, final)) :
    verifyCandidate p candidate collected policy producer inspection now clock =
      if findingsOn attempt inspection.verifierId candidate.candidateId
          (evidenceSubject p candidate policy inspection attempt) (decisionTime now clock final)
          policy.required observed ≠ [] then
        .ok (.rejected ⟨candidate, evidenceSubject p candidate policy inspection attempt,
          observed.reduceOption, findingsOn attempt inspection.verifierId candidate.candidateId
            (evidenceSubject p candidate policy inspection attempt)
            (decisionTime now clock final) policy.required observed⟩)
      else (fun fact => .accepted ⟨candidate, evidenceSubject p candidate policy inspection attempt,
        observed.reduceOption, policy.reference, fact⟩) <$>
          satisfactionFor p candidate collected inspection attempt unit := by
  simp only [verifyCandidate, ha, hu, hc, ho, ok_bind, findingsOn, satisfactionFor]
  split_ifs
  · rfl
  · cases candidate.outputs.mapM (outputBinding collected.artifacts) with
    | error e => rfl
    | ok outputs =>
      cases p.spec.fingerprint unit.workUnitId with
      | error e => rfl
      | ok fingerprint =>
        simp only [ok_bind]
        cases TrustedSatisfaction.init inspection.referenceId.val p.programId.val
          unit.workUnitId.val p.spec.revision p.spec.digest.val fingerprint.val
          inspection.verifierId.val attempt.attemptId.val outputs 0 <;> rfl

/-- The satisfaction of an accepted candidate can be built: its outputs are collected, and have
distinct names. -/
theorem satisfactionFor_total (inspection : Inspection)
    (hu : p.spec.workUnit attempt.spec.workUnitId = .ok unit)
    (hc : checkSubjects p candidate collected policy inspection.verifierId attempt unit = .ok ()) :
    ∃ fact, satisfactionFor p candidate collected inspection attempt unit = .ok fact ∧
      fact.issuerId = inspection.verifierId ∧ fact.referenceId = inspection.referenceId ∧
      fact.sourceAttemptId = attempt.attemptId := by
  simp only [checkSubjects, bind_eq_ok, check_eq_ok] at hc
  obtain ⟨state, -, _, -, _, -, _, -, _, -, _, -, _, -, _, -, _, houtputs, -⟩ := hc
  obtain ⟨hum, huid⟩ := ProgramSpec.workUnit_eq_ok.1 hu
  obtain ⟨outputs, ho⟩ : ∃ outputs,
      candidate.outputs.mapM (outputBinding collected.artifacts) = .ok outputs := by
    refine exists_mapM_eq_ok fun o hom => ?_
    obtain ⟨artifact, hart⟩ := Option.isSome_iff_exists.1 (houtputs o hom)
    exact ⟨_, bind_of_ok (subscript_eq_ok.2 hart) rfl⟩
  obtain ⟨fingerprint, hf⟩ := p.spec.fingerprint_total
    (ProgramSpec.mem_unitIds.2 ⟨unit, hum, rfl⟩)
  have hbound : ∀ o ∈ candidate.outputs, ∀ b, outputBinding collected.artifacts o = .ok b →
      b.name = o.1 ∧ b.source = .initial := by
    intro o _ b hb
    obtain ⟨artifact, -, hb⟩ := bind_eq_ok.1 hb
    obtain rfl := pure_eq_ok.1 hb
    exact ⟨rfl, rfl⟩
  have hnames : (outputs.map InputBinding.name).Nodup := by
    rw [map_mapM ho fun o hom b hb => (hbound o hom b hb).1]
    exact candidate.names
  have hinitial : ∀ b ∈ (SortedBy.ofList outputs hnames : Bindings).toList,
      b.source = .initial := by
    intro b hb
    obtain ⟨o, hom, hob⟩ := exists_of_mem_result ho ((SortedBy.mem_ofList hnames).1 hb)
    exact (hbound o hom b hob).2
  have hbindings : bindings outputs "output_bindings" = .ok (SortedBy.ofList outputs hnames) :=
    sortedTuple_eq_ok.2 ⟨hnames, rfl⟩
  refine ⟨⟨inspection.referenceId, p.programId, unit.workUnitId, p.spec.revision, p.spec.digest,
    fingerprint, inspection.verifierId, attempt.attemptId, _, 0, p.spec.valid.revisionPos,
    hinitial⟩, ?_, rfl, rfl, rfl⟩
  have hzero : natural 0 "record_order" = .ok 0 := rfl
  simp only [satisfactionFor, ho, hf, ok_bind, TrustedSatisfaction.init, nonempty_val,
    positive_coe p.spec.valid.revisionPos, hzero, hbindings, dif_pos hinitial]
  rfl

/-- What a decision that returned went through. -/
theorem verifyCandidate_inv {v : Verdict}
    (h : verifyCandidate p candidate collected policy producer inspection now clock = .ok v) :
    ∃ attempt unit observed final, p.attemptNamed candidate.publication.attemptId = .ok attempt ∧
      p.spec.workUnit attempt.spec.workUnitId = .ok unit ∧
      checkSubjects p candidate collected policy inspection.verifierId attempt unit = .ok () ∧
      observe producer attempt inspection.verifierId
        (evidenceSubject p candidate policy inspection attempt) (decisionTime now clock)
        policy.required 0 [] = .ok (observed, final) := by
  simp only [verifyCandidate, bind_eq_ok] at h
  obtain ⟨attempt, ha, unit, hu, _, hc, ⟨observed, final⟩, ho, -⟩ := h
  exact ⟨attempt, unit, observed, final, ha, hu, hc, ho⟩

/-- Subjects that pass have distinct required checks. -/
theorem nodup_required {verifierId : Name}
    (hc : checkSubjects p candidate collected policy verifierId attempt unit = .ok ()) :
    policy.required.Nodup := by
  simp only [checkSubjects, bind_eq_ok, check_eq_ok] at hc
  obtain ⟨state, -, _, -, _, -, _, -, _, -, _, -, _, -, _, -, _, -, hnd⟩ := hc
  exact hnd

/-- A decision that returns accepts exactly if every required check stands at the time read
last, and otherwise its findings name the checks that do not. -/
theorem verdict_spec (ha : p.attemptNamed candidate.publication.attemptId = .ok attempt)
    {v : Verdict}
    (h : verifyCandidate p candidate collected policy producer inspection now clock = .ok v) :
    ∃ final, (∀ q ∈ questions p candidate policy producer inspection now clock attempt,
        q.2 < final) ∧
      ((∃ r, v = .accepted r) ↔ ∀ n ∈ policy.required, Stands producer attempt
        inspection.verifierId (evidenceSubject p candidate policy inspection attempt)
        (questions p candidate policy producer inspection now clock attempt)
        (decisionTime now clock final) n) ∧
      ∀ r, v = .rejected r → (r.findings.map Finding.fingerprint).Sublist policy.required ∧
        ∀ n, n ∈ r.findings.map Finding.fingerprint ↔ n ∈ policy.required ∧
          ¬Stands producer attempt inspection.verifierId
            (evidenceSubject p candidate policy inspection attempt)
            (questions p candidate policy producer inspection now clock attempt)
            (decisionTime now clock final) n := by
  obtain ⟨attempt', unit, observed, final, ha', hu, hc, ho⟩ := verifyCandidate_inv h
  obtain rfl := Except.ok.inj (ha.symm.trans ha')
  have hnd := nodup_required hc
  obtain ⟨answers, hobs, hans, hlt, -, -⟩ := observe_eq_ok ho
  rw [List.nil_append] at hobs
  subst hobs
  have hpre : (questions p candidate policy producer inspection now clock attempt).map
      Prod.fst <+: policy.required := asked_inOrder _ _ _
  have hstands (i : ℕ) (n : Name) (hi : policy.required[i]? = some n) :
      Passing attempt inspection.verifierId n
          (evidenceSubject p candidate policy inspection attempt)
          (decisionTime now clock final) observed[i]?.join ↔
        Stands producer attempt inspection.verifierId
          (evidenceSubject p candidate policy inspection attempt)
          (questions p candidate policy producer inspection now clock attempt)
          (decisionTime now clock final) n := passing_iff_stands hpre hnd hans hi
  rw [verifyCandidate_eq ha hu hc ho] at h
  refine ⟨final, hlt, ?_, ?_⟩
  · rw [show (∀ n ∈ policy.required, Stands producer attempt inspection.verifierId
          (evidenceSubject p candidate policy inspection attempt)
          (questions p candidate policy producer inspection now clock attempt)
          (decisionTime now clock final) n) ↔ findingsOn attempt inspection.verifierId
            candidate.candidateId (evidenceSubject p candidate policy inspection attempt)
            (decisionTime now clock final) policy.required observed = [] from ?_]
    · split_ifs at h with hf
      · obtain rfl := Except.ok.inj h
        exact ⟨nofun, fun hnil => absurd hnil hf⟩
      · obtain ⟨fact, -, rfl⟩ := map_eq_ok.1 h
        exact ⟨fun _ => not_not.1 hf, fun _ => ⟨_, rfl⟩⟩
    · rw [findingsOn_eq_nil]
      constructor
      · exact fun hall i n hi => (hstands i n hi).2 (hall n (List.mem_of_getElem? hi))
      · intro hall n hn
        obtain ⟨i, hi⟩ := List.mem_iff_getElem?.1 hn
        exact (hstands i n hi).1 (hall i n hi)
  · rintro r rfl
    split_ifs at h with hf
    · obtain rfl := Verdict.rejected.inj (Except.ok.inj h)
      refine ⟨map_findingsOn_sublist, fun n => ?_⟩
      rw [mem_map_findingsOn]
      constructor
      · rintro ⟨i, hi, hp⟩
        exact ⟨List.mem_of_getElem? hi, mt (hstands i n hi).2 hp⟩
      · rintro ⟨hn, hs⟩
        obtain ⟨i, hi⟩ := List.mem_iff_getElem?.1 hn
        exact ⟨i, hi, mt (hstands i n hi).1 hs⟩
    · obtain ⟨fact, -, hfact⟩ := map_eq_ok.1 h
      cases hfact

/-- A decision on subjects that pass returns, unless the producer raises or repeats an
identifier on its last question. -/
theorem verdict_total (ha : p.attemptNamed candidate.publication.attemptId = .ok attempt)
    (hu : p.spec.workUnit attempt.spec.workUnitId = .ok unit)
    (hc : checkSubjects p candidate collected policy inspection.verifierId attempt unit = .ok ()) :
    (∃ v, verifyCandidate p candidate collected policy producer inspection now clock = .ok v) ∨
      ∃ failure before q, verifyCandidate p candidate collected policy producer inspection now
          clock = .error failure ∧
        questions p candidate policy producer inspection now clock attempt = before ++ [q] ∧
        (producer q.1 (evidenceSubject p candidate policy inspection attempt) = .error failure ∨
          ∃ e e', producer q.1 (evidenceSubject p candidate policy inspection attempt) =
              .ok (some e) ∧ e'.evidenceId = e.evidenceId ∧
            ∃ q' ∈ before, producer q'.1 (evidenceSubject p candidate policy inspection attempt) =
              .ok (some e')) := by
  cases ho : observe producer attempt inspection.verifierId
      (evidenceSubject p candidate policy inspection attempt) (decisionTime now clock)
      policy.required 0 [] with
  | ok result =>
    obtain ⟨observed, final⟩ := result
    refine .inl ?_
    rw [verifyCandidate_eq ha hu hc ho]
    split_ifs
    · exact ⟨_, rfl⟩
    · obtain ⟨fact, hfact, -⟩ := satisfactionFor_total inspection hu hc
      rw [hfact]
      exact ⟨_, rfl⟩
  | error failure =>
    obtain ⟨before, q, hl, hwhy⟩ := observe_eq_error ho
    refine .inr ⟨failure, before, q, ?_, hl, hwhy.imp_right ?_⟩
    · simp only [verifyCandidate, ha, hu, hc, ho, ok_bind, error_bind]
    · rintro ⟨-, e, e', he, hid, hold | hq⟩
      · cases hold
      · exact ⟨e, e', he, hid, hq⟩

/-! ## Admission -/

omit [Sha256] in
/-- Observations that are all present are the evidence they hold. -/
theorem forall₂_reduceOption {R : Name → Evidence → Prop} {names : List Name}
    {observed : List (Option Evidence)}
    (h : List.Forall₂ (fun n item => ∃ e, item = some e ∧ R n e) names observed) :
    List.Forall₂ R names observed.reduceOption := by
  induction h with
  | nil => exact .nil
  | cons hitem _ ih =>
    obtain ⟨e, rfl, he⟩ := hitem
    rw [List.reduceOption_cons_of_some]
    exact .cons he ih

omit [Sha256] in
/-- Evidence that is valid for some checks names these checks. -/
theorem map_checkName {attempt : Attempt} {verifierId : Name} {subject : EvidenceSubject}
    {now : ℤ} {names : List Name} {evidence : List Evidence}
    (h : List.Forall₂ (fun n e => producer n subject = .ok (some e) ∧
      e.Valid attempt verifierId n subject now ∧ e.passed) names evidence) :
    evidence.map Evidence.checkName = names := by
  have heq : List.Forall₂ (· = ·) names (evidence.map Evidence.checkName) :=
    List.forall₂_map_right_iff.2 (h.imp fun _ _ he => he.2.1.1.symm)
  rw [List.forall₂_eq_eq_eq] at heq
  exact heq.symm

/-- An accepted result carries, in the required order, the passing evidence for every required
check, with distinct identifiers. -/
theorem evidence_of_accepted {r : AcceptedResult}
    (ha : p.attemptNamed candidate.publication.attemptId = .ok attempt)
    (h : verifyCandidate p candidate collected policy producer inspection now clock =
      .ok (.accepted r)) :
    r.candidate = candidate ∧ r.subject = evidenceSubject p candidate policy inspection attempt ∧
      r.policy = policy.reference ∧ r.satisfaction.issuerId = inspection.verifierId ∧
      r.satisfaction.referenceId = inspection.referenceId ∧
      r.satisfaction.sourceAttemptId = attempt.attemptId ∧
      (r.evidence.map Evidence.evidenceId).Nodup ∧
      ∃ final, List.Forall₂ (fun n e => producer n r.subject = .ok (some e) ∧
        e.Valid attempt inspection.verifierId n r.subject (decisionTime now clock final) ∧
        e.passed) policy.required r.evidence := by
  obtain ⟨attempt', unit, observed, final, ha', hu, hc, ho⟩ := verifyCandidate_inv h
  obtain rfl := Except.ok.inj (ha.symm.trans ha')
  obtain ⟨answers, hobs, hans, -, -, hids⟩ := observe_eq_ok ho
  rw [List.nil_append] at hobs
  subst hobs
  have hpre : (questions p candidate policy producer inspection now clock attempt).map
      Prod.fst <+: policy.required := asked_inOrder _ _ _
  replace hans : List.Forall₂ (fun q item => producer q.1
      (evidenceSubject p candidate policy inspection attempt) = .ok item)
    (questions p candidate policy producer inspection now clock attempt) observed := hans
  rw [verifyCandidate_eq ha hu hc ho] at h
  split_ifs at h with hf
  · cases h
  rw [not_not, findingsOn_eq_nil] at hf
  obtain ⟨fact, hfact, hr⟩ := map_eq_ok.1 h
  obtain rfl := Verdict.accepted.inj hr
  obtain ⟨fact', hfact', hissuer, href, hsource⟩ :=
    satisfactionFor_total inspection hu hc
  obtain rfl := Except.ok.inj (hfact.symm.trans hfact')
  refine ⟨rfl, rfl, rfl, hissuer, href, hsource, hids (by simp), final,
    forall₂_reduceOption (List.forall₂_iff_get.2 ⟨?_, fun i hi hi' => ?_⟩)⟩
  · -- a check that was not asked for does not stand
    have hle := hpre.length_le
    rw [List.length_map, hans.length_eq] at hle
    refine le_antisymm ?_ hle
    by_contra hlt
    obtain ⟨e, he, -⟩ := hf observed.length _ (List.getElem?_eq_getElem (by omega))
    rw [List.getElem?_eq_none le_rfl] at he
    cases he
  · obtain ⟨e, he, hvalid, hpassed⟩ := hf i _ (List.getElem?_eq_getElem hi)
    rw [List.getElem?_eq_getElem hi', Option.join_some, Option.mem_def] at he
    refine ⟨e, he, ?_, hvalid, hpassed⟩
    have hasked : i < (questions p candidate policy producer inspection now clock
        attempt).length := hans.length_eq ▸ hi'
    have hname := hpre.getElem (by simpa using hasked)
    rw [List.getElem_map] at hname
    have hitem := hans.get hasked hi'
    rw [List.get_eq_getElem, List.get_eq_getElem, hname, he] at hitem
    exact hitem

omit [Sha256] in
/-- A producer whose answers pass at every reading is asked for all checks. -/
theorem observe_all {attempt : Attempt} {verifierId : Name} {subject : EvidenceSubject}
    {time : ℕ → ℤ} {names : List Name} {evidence : List Evidence} (before : List Evidence) (i : ℕ)
    (hall : List.Forall₂ (fun n e => producer n subject = .ok (some e) ∧
      (∀ k, e.Valid attempt verifierId n subject (time k)) ∧ e.passed) names evidence)
    (hbefore : ∀ e ∈ before, ∀ k, e.FreshAt (time k))
    (hids : ((before ++ evidence).map Evidence.evidenceId).Nodup) :
    ∃ final, observe producer attempt verifierId subject time names i (before.map some) =
      .ok ((before ++ evidence).map some, final) := by
  induction hall generalizing before i with
  | nil => exact ⟨i, by rw [observe, List.append_nil]⟩
  | @cons name e rest evidence he _ ih =>
    obtain ⟨hask, hvalid, hpassed⟩ := he
    have hfresh : ∀ previous ∈ before.map some, ∃ e ∈ previous, e.FreshAt (time i) := by
      intro previous hp
      obtain ⟨e', he', rfl⟩ := List.mem_map.1 hp
      exact ⟨e', rfl, hbefore e' he' i⟩
    have hnew : ∀ e' ∈ some e, ∀ previous ∈ (before.map some).reduceOption,
        previous.evidenceId ≠ e'.evidenceId := by
      intro e' he previous hp he'
      obtain rfl := Option.some.inj he
      rw [List.reduceOption_mem_iff, List.mem_map] at hp
      obtain ⟨_, hp, ⟨⟩⟩ := hp
      rw [List.map_append, List.nodup_append] at hids
      exact hids.2.2 _ (List.mem_map_of_mem hp) _ (List.mem_map_of_mem List.mem_cons_self) he'
    have hpass : Passing attempt verifierId name subject (time (i + 1)) (some e) :=
      ⟨e, rfl, hvalid (i + 1), hpassed⟩
    have hnext := ih (before ++ [e]) (i + 2) (fun e' he' k => by
      rcases List.mem_append.1 he' with he' | he'
      · exact hbefore e' he' k
      · rw [List.mem_singleton.1 he']
        exact (hvalid k).2.2.2.1) (by rwa [List.append_assoc])
    rw [observe, if_pos hfresh, hask, ok_bind, check_of hnew, ok_bind, if_pos hpass]
    rwa [List.map_append, List.append_assoc] at hnext

/-- While its evidence is fresh, an accepted result is derived again from its own evidence. -/
theorem verify_again {r : AcceptedResult} {later : ℤ}
    (h : verifyCandidate p candidate collected policy producer inspection now clock =
      .ok (.accepted r)) (hfresh : ∀ e ∈ r.evidence, e.FreshAt later) :
    verifyCandidate p candidate collected policy (recordedChecks r.evidence) inspection later none =
      .ok (.accepted r) := by
  obtain ⟨attempt, unit, observed, final, ha, hu, hc, ho⟩ := verifyCandidate_inv h
  obtain ⟨-, hsubject, -, -, -, -, hids, final', hall⟩ := evidence_of_accepted ha h
  have hnd := nodup_required hc
  have hchecks : r.evidence.map Evidence.checkName = policy.required := map_checkName hall
  have hrecorded : List.Forall₂ (fun n e =>
      recordedChecks r.evidence n r.subject = .ok (some e) ∧
      (∀ k, e.Valid attempt inspection.verifierId n r.subject (decisionTime later none k)) ∧
      e.passed) policy.required r.evidence := by
    refine List.forall₂_iff_get.2 ⟨hall.length_eq, fun i hi hi' => ?_⟩
    obtain ⟨-, hvalid, hpassed⟩ := hall.get hi hi'
    have hmem := List.get_mem r.evidence ⟨i, hi'⟩
    refine ⟨?_, fun _ => hvalid.of_fresh (hfresh _ hmem), hpassed⟩
    rw [recordedChecks, (find?_key_eq_some_iff (hchecks ▸ hnd)).2 ⟨hmem, hvalid.1⟩]
  obtain ⟨last, hagain⟩ := observe_all [] 0 hrecorded (by simp) (by simpa)
  rw [hsubject, List.map_nil, List.nil_append] at hagain
  rw [verifyCandidate_eq ha hu hc ho] at h
  split_ifs at h with hf
  · cases h
  obtain ⟨fact, hfact, hr⟩ := map_eq_ok.1 h
  obtain rfl := Verdict.accepted.inj hr
  have hnil : findingsOn attempt inspection.verifierId candidate.candidateId
      (evidenceSubject p candidate policy inspection attempt) (decisionTime later none last)
      policy.required (observed.reduceOption.map some) = [] := by
    rw [findingsOn_eq_nil]
    intro i n hi
    obtain ⟨hin, rfl⟩ := List.getElem?_eq_some_iff.1 hi
    obtain ⟨-, hvalid, hpassed⟩ := hrecorded.get hin (hall.length_eq ▸ hin)
    rw [List.getElem?_map, List.getElem?_eq_getElem (hall.length_eq ▸ hin)]
    exact ⟨_, rfl, hvalid last, hpassed⟩
  have hreduce : (observed.reduceOption.map some).reduceOption = observed.reduceOption := by
    simp [List.reduceOption, List.filterMap_map]
  rw [verifyCandidate_eq ha hu hc hagain, hnil, if_neg (by simp), hreduce, hfact]
  rfl

/-- What an accepted result must be for the Program, the policy and the repository it is
admitted to: accepted under the policy and for its checks, about the current subjects, and
backed by evidence that passed and is fresh. -/
structure Current (p : Program) (r : AcceptedResult) (collected : ArtifactManifest)
    (policy : VerificationPolicy) (inspection : Inspection) (now : ℤ) : Prop where
  pinned : r.policy = policy.reference
  checks : r.evidence.map Evidence.checkName = policy.required
  collected : collected = r.candidate.publication.artifacts
  subject : ∃ attempt, p.attemptNamed r.candidate.publication.attemptId = .ok attempt ∧
    r.subject = evidenceSubject p r.candidate policy inspection attempt
  evidence : ∀ e ∈ r.evidence, e.subject = r.subject ∧ e.passed ∧ e.FreshAt now

/-- A result that is admitted is current. -/
theorem current_of_admitted {q : Program} {r : AcceptedResult}
    {repository baseRevision headRevision : Name}
    (h : admitAccepted p r collected policy repository baseRevision headRevision now = .ok q) :
    Current p r collected policy ⟨repository, baseRevision, headRevision,
      r.satisfaction.issuerId, r.satisfaction.referenceId⟩ now := by
  simp only [admitAccepted, bind_eq_ok, check_eq_ok] at h
  obtain ⟨_, -, _, hpolicy, v, hv, _, rfl, -⟩ := h
  obtain ⟨attempt, unit, observed, final, ha, -, hc, -⟩ := verifyCandidate_inv hv
  obtain ⟨-, hsubject, -, -, -, -, -, last, hall⟩ := evidence_of_accepted ha hv
  simp only [checkSubjects, bind_eq_ok, check_eq_ok] at hc
  obtain ⟨_, -, _, -, _, ⟨-, hcollected⟩, -⟩ := hc
  refine ⟨hpolicy, map_checkName hall, hcollected, ⟨attempt, ha, hsubject⟩, fun e he => ?_⟩
  obtain ⟨i, hi, rfl⟩ := List.getElem_of_mem he
  obtain ⟨-, hvalid, hpassed⟩ := hall.get (hall.length_eq ▸ hi) hi
  exact ⟨hvalid.2.1, hpassed, hvalid.2.2.2.1⟩

/-- An accepted result whose evidence is fresh is admitted to the Program it was accepted
for. -/
theorem admitAccepted_eq {r : AcceptedResult} {later : ℤ}
    (h : verifyCandidate p candidate collected policy producer inspection now clock =
      .ok (.accepted r)) (hfresh : ∀ e ∈ r.evidence, e.FreshAt later) :
    admitAccepted p r collected policy inspection.repository inspection.baseRevision
        inspection.headRevision later =
      p.apply ⟨p.revision, inspection.verifierId, .satisfyWorkUnit r.satisfaction⟩ := by
  obtain ⟨attempt, unit, observed, final, ha, -⟩ := verifyCandidate_inv h
  obtain ⟨hcandidate, -, hpolicy, hissuer, href, hsource, -⟩ := evidence_of_accepted ha h
  have hname : attempt.attemptId.val = candidate.publication.attemptId := by
    have hfound := List.find?_some (lookup_eq_ok.1 ha)
    exact of_decide_eq_true hfound
  have hagain := verify_again h hfresh
  rw [admitAccepted, hissuer, href, hcandidate, hsource, check_of hname, check_of hpolicy]
  simp only [ok_bind, hagain, check_of]

/-! ## Main result -/

/-- For every candidate, policy, producer and clock: the producer is asked for a prefix of the
required checks in order, and for the next one only while it has answered every earlier one with
passing evidence that is fresh at that time. A decision that returns accepts exactly if every
required check was answered so and its evidence is still fresh at the time read last, and
otherwise its findings name exactly the checks that do not stand; it returns unless the subjects
are refused, the producer raises, or it repeats an identifier. While the evidence is fresh,
admission to the same Program derives the same result again; a result that is not current is
refused. -/
theorem verification_gated (p : Program) (candidate : CandidateResult)
    (collected : ArtifactManifest) (policy : VerificationPolicy) (producer : CheckProducer)
    (inspection : Inspection) (now : ℤ) (clock : Option (ℕ → ℤ)) :
    (∀ attempt, p.attemptNamed candidate.publication.attemptId = .ok attempt →
      (questions p candidate policy producer inspection now clock attempt).map Prod.fst <+:
        policy.required ∧
      (∀ before q after, questions p candidate policy producer inspection now clock attempt =
          before ++ q :: after → ∀ n ∈ before.map Prod.fst,
        Answered producer attempt inspection.verifierId
          (evidenceSubject p candidate policy inspection attempt)
          (decisionTime now clock q.2) n) ∧
      (∀ v, verifyCandidate p candidate collected policy producer inspection now clock = .ok v →
        ∃ final, (∀ q ∈ questions p candidate policy producer inspection now clock attempt,
            q.2 < final) ∧
          ((∃ r, v = .accepted r) ↔ ∀ n ∈ policy.required, Stands producer attempt
            inspection.verifierId (evidenceSubject p candidate policy inspection attempt)
            (questions p candidate policy producer inspection now clock attempt)
            (decisionTime now clock final) n) ∧
          ∀ r, v = .rejected r → (r.findings.map Finding.fingerprint).Sublist policy.required ∧
            ∀ n, n ∈ r.findings.map Finding.fingerprint ↔ n ∈ policy.required ∧
              ¬Stands producer attempt inspection.verifierId
                (evidenceSubject p candidate policy inspection attempt)
                (questions p candidate policy producer inspection now clock attempt)
                (decisionTime now clock final) n) ∧
      ∀ unit, p.spec.workUnit attempt.spec.workUnitId = .ok unit →
        checkSubjects p candidate collected policy inspection.verifierId attempt unit = .ok () →
        (∃ v, verifyCandidate p candidate collected policy producer inspection now clock =
          .ok v) ∨
        ∃ failure before q, verifyCandidate p candidate collected policy producer inspection now
            clock = .error failure ∧
          questions p candidate policy producer inspection now clock attempt = before ++ [q] ∧
          (producer q.1 (evidenceSubject p candidate policy inspection attempt) =
              .error failure ∨
            ∃ e e', producer q.1 (evidenceSubject p candidate policy inspection attempt) =
                .ok (some e) ∧ e'.evidenceId = e.evidenceId ∧
              ∃ q' ∈ before, producer q'.1
                (evidenceSubject p candidate policy inspection attempt) = .ok (some e'))) ∧
    (∀ r later, verifyCandidate p candidate collected policy producer inspection now clock =
        .ok (.accepted r) → (∀ e ∈ r.evidence, e.FreshAt later) →
      verifyCandidate p candidate collected policy (recordedChecks r.evidence) inspection later
          none = .ok (.accepted r) ∧
        admitAccepted p r collected policy inspection.repository inspection.baseRevision
            inspection.headRevision later =
          p.apply ⟨p.revision, inspection.verifierId, .satisfyWorkUnit r.satisfaction⟩) ∧
    ∀ (q : Program) r collected' policy' repository baseRevision headRevision later,
      ¬Current q r collected' policy' ⟨repository, baseRevision, headRevision,
        r.satisfaction.issuerId, r.satisfaction.referenceId⟩ later →
      ∃ failure, admitAccepted q r collected' policy' repository baseRevision headRevision later =
        .error failure := by
  refine ⟨fun attempt ha => ⟨asked_inOrder _ _ _, fun before q after h n hn => ?_,
    fun v h => verdict_spec ha h, fun unit hu hc => verdict_total ha hu hc⟩,
    fun r later h hfresh => ⟨verify_again h hfresh, admitAccepted_eq h hfresh⟩,
    fun q r collected' policy' repository baseRevision headRevision later hstale => ?_⟩
  · exact asked_gated .nil h n (by simpa using hn)
  · cases hq : admitAccepted q r collected' policy' repository baseRevision headRevision later with
    | error failure => exact ⟨failure, rfl⟩
    | ok q' => exact absurd (current_of_admitted hq) hstale

end

end CreatidyKernel
