import CreatidyKernel.Application.Remediation
import CreatidyKernel.Core.Lineage
import CreatidyKernel.Store.Evidence

set_option relaxedAutoImplicit false
set_option autoImplicit false

/-!
# Remediation is linear and does not oscillate

The records of a rejection are written once, so every later guard reads the findings an earlier
guard has read, and refuses to remediate the same fingerprints again. An Attempt is remediated at
most once, since the Attempts of a unit are a chain.

## Main definitions

* `Application.Justified` — the findings a rejection is remediated for.
* `Application.Guarded` — what the guard of a remediation found.
* `Application.Prepared` — what a call prepared a remediation on.
* `Application.World` — the store, and the remediations put on record so far.

## Main results

* `Application.remediationContext_kept` — a rejection is read back as it was.
* `Application.guarded_of_ok` — what the guard says.
* `Application.remediation_linear` — what holds after every sequence of calls.
-/

namespace CreatidyKernel

namespace Application

open Checked Runs
open Codec (getField)

/-! ## Records that are read again -/

/-- No file is damaged. -/
def intact : Damage := fun _ => none

section

variable {blobs : Blobs} {damage : Damage} {s s' : Store}

theorem findArtifact_eq_some {operationId name : String} {digest : Name} :
    findArtifact damage s operationId name = .ok (some digest) ↔
      ∃ row, Rows.find ArtifactReference.key s.artifacts (operationId, name) = some row ∧
        damage row.digest = none ∧ row.digest = digest := by
  unfold findArtifact
  cases hrow : Rows.find ArtifactReference.key s.artifacts (operationId, name) with
  | none => simp
  | some row => cases hd : damage row.digest <;> simp [hd]

/-- An artifact that was read is read again. -/
theorem artifact_kept (hk : s.Keeps s') {operationId name : String} {value : Json}
    (h : artifact damage s blobs operationId name = .ok value) :
    artifact intact s' blobs operationId name = .ok value := by
  obtain ⟨found, hfound, h⟩ := bind_eq_ok.1 h
  cases found with
  | none => cases h
  | some digest =>
    obtain ⟨row, hrow, -, hdigest⟩ := findArtifact_eq_some.1 hfound
    exact bind_of_ok (findArtifact_eq_some.2 ⟨row, hk.artifacts _ row hrow, rfl, hdigest⟩) h

theorem operation_kept (hk : s.Keeps s') {operationId : String} {o : Operation}
    (h : s.journal.operation operationId = .ok o) :
    ∃ o', s'.journal.operation operationId = .ok o' ∧ o'.requestJson = o.requestJson := by
  obtain ⟨hid, h⟩ := check_bind_eq_ok.1 h
  have hrequest : s'.journal.request operationId = some o.requestJson :=
    hk.requests _ _ (congrArg (Option.map Operation.requestJson) (lookup_eq_ok.1 h))
  obtain ⟨o', ho', hsame⟩ := Option.map_eq_some_iff.1 hrequest
  exact ⟨o', check_bind_eq_ok.2 ⟨hid, lookup_eq_ok.2 ho'⟩, hsame⟩

/-- The record of a rejection is read again. -/
theorem rejection_kept (hk : s.Keeps s') {source : String} {r : Rejection}
    (h : rejection blobs damage s source = .ok r) : rejection blobs intact s' source = .ok r := by
  obtain ⟨o, ho, h⟩ := bind_eq_ok.1 h
  obtain ⟨o', ho', hrequest⟩ := operation_kept hk ho
  refine bind_of_ok ho' ?_
  rw [hrequest]
  obtain ⟨envelope, he, h⟩ := bind_eq_ok.1 h
  refine bind_of_ok he ?_
  obtain ⟨fields, hf, h⟩ := bind_eq_ok.1 h
  refine bind_of_ok hf ?_
  obtain ⟨hnames, h⟩ := check_bind_eq_ok.1 h
  refine check_bind_eq_ok.2 ⟨hnames, ?_⟩
  obtain ⟨request, hq, h⟩ := bind_eq_ok.1 h
  refine bind_of_ok hq ?_
  obtain ⟨hnames, h⟩ := check_bind_eq_ok.1 h
  refine check_bind_eq_ok.2 ⟨hnames, ?_⟩
  obtain ⟨result, hr, h⟩ := bind_eq_ok.1 h
  exact bind_of_ok (artifact_kept hk hr) h

theorem reviewedFindings_kept (hk : s.Keeps s') {r : Rejection} {operationId : String}
    {findings : Json} (h : reviewedFindings blobs damage s r operationId = .ok findings) :
    reviewedFindings blobs intact s' r operationId = .ok findings := by
  obtain ⟨receipt, hr, h⟩ := bind_eq_ok.1 h
  exact bind_of_ok (artifact_kept hk hr) h

/-- **Records are read back**: the findings of a rejection are those that were read before. -/
theorem remediationContext_kept (hk : s.Keeps s') {source : String}
    {found : Option String × List NormalizedFinding}
    (h : remediationContext blobs damage s source = .ok found) :
    remediationContext blobs intact s' source = .ok found := by
  obtain ⟨r, hr, h⟩ := bind_eq_ok.1 h
  refine bind_of_ok (rejection_kept hk hr) ?_
  by_cases hi : ∃ status ∈ r.reviewStatus, status ∈ inert
  · rw [if_pos hi] at h ⊢
    exact h
  · rw [if_neg hi] at h ⊢
    obtain ⟨findings, hf, h⟩ := bind_eq_ok.1 h
    refine bind_of_ok ?_ h
    unfold rejectionFindings at hf ⊢
    cases ho : r.reviewOperationId with
    | none =>
      rw [ho] at hf
      exact hf
    | some operationId =>
      rw [ho] at hf
      exact reviewedFindings_kept hk hf

/-- A rejection whose findings are read has its result on record. -/
theorem recorded_of_context {source : String} {found : Option String × List NormalizedFinding}
    (h : remediationContext blobs damage s source = .ok found) :
    ∃ row, Rows.find ArtifactReference.key s.artifacts ("rejection:" ++ source, "rejected-result") =
      some row := by
  obtain ⟨r, hr, -⟩ := bind_eq_ok.1 h
  obtain ⟨_, -, hr⟩ := bind_eq_ok.1 hr
  obtain ⟨_, -, hr⟩ := bind_eq_ok.1 hr
  obtain ⟨_, -, hr⟩ := bind_eq_ok.1 hr
  obtain ⟨-, hr⟩ := check_bind_eq_ok.1 hr
  obtain ⟨_, -, hr⟩ := bind_eq_ok.1 hr
  obtain ⟨-, hr⟩ := check_bind_eq_ok.1 hr
  obtain ⟨_, hresult, -⟩ := bind_eq_ok.1 hr
  obtain ⟨found, hfound, hresult⟩ := bind_eq_ok.1 hresult
  cases found with
  | none => cases hresult
  | some digest =>
    obtain ⟨row, hrow, -⟩ := findArtifact_eq_some.1 hfound
    exact ⟨row, hrow⟩

end

/-! ## What the findings are -/

/-- The findings a rejection is remediated for: none, if the review left nothing to a worker; its
own; or those of the receipt of the review, which is for the same subject and says the same. -/
inductive Justified (blobs : Blobs) (damage : Damage) (s : Store) (r : Rejection) :
    List NormalizedFinding → Prop
  | inert {status : String} (hs : r.reviewStatus = some status) (hi : status ∈ inert) :
      Justified blobs damage s r []
  | unreviewed {items : List Json} {findings : List NormalizedFinding}
      (ho : r.reviewOperationId = none)
      (hs : r.reviewStatus ≠ some "changes_requested" ∧ r.reviewStatus ≠ some "approved")
      (hr : r.findings = .arr items) (hn : items.mapM normalize = .ok findings) :
      Justified blobs damage s r findings
  | approved {operationId : String} {receipt : List (String × Json)} {items : List Json}
      {findings : List NormalizedFinding} (ho : r.reviewOperationId = some operationId)
      (ha : artifact damage s blobs operationId "review-receipt" = .ok (.obj receipt))
      (hsubject : getField receipt "subject" = r.subject)
      (hs : r.reviewStatus = some "approved") (hv : getField receipt "verdict" = .str "approve")
      (hr : r.findings = .arr items) (hn : items.mapM normalize = .ok findings) :
      Justified blobs damage s r findings
  | reviewed {operationId : String} {receipt : List (String × Json)} {items : List Json}
      {findings : List NormalizedFinding} (ho : r.reviewOperationId = some operationId)
      (ha : artifact damage s blobs operationId "review-receipt" = .ok (.obj receipt))
      (hsubject : getField receipt "subject" = r.subject)
      (hs : r.reviewStatus = some "changes_requested")
      (hv : getField receipt "verdict" = .str "request_changes")
      (hr : getField receipt "findings" = .arr items) (hn : items.mapM normalize = .ok findings) :
      Justified blobs damage s r findings

section

variable {blobs : Blobs} {damage : Damage} {s : Store}

theorem dictionary_eq_ok {message : String} {v : Json} {fields : List (String × Json)} :
    dictionary message v = .ok fields ↔ v = .obj fields := by
  cases v <;> simp [dictionary]

theorem listing_eq_ok {message : String} {v : Json} {items : List Json} :
    listing message v = .ok items ↔ v = .arr items := by
  cases v <;> simp [listing]

/-- The findings of a rejection are justified by its records. -/
theorem remediationContext_eq_ok {source : String} {review : Option String}
    {findings : List NormalizedFinding}
    (h : remediationContext blobs damage s source = .ok (review, findings)) :
    ∃ r, rejection blobs damage s source = .ok r ∧ review = r.reviewOperationId ∧
      Justified blobs damage s r findings := by
  obtain ⟨r, hr, h⟩ := bind_eq_ok.1 h
  refine ⟨r, hr, ?_⟩
  by_cases hi : ∃ status ∈ r.reviewStatus, status ∈ inert
  · rw [if_pos hi] at h
    obtain ⟨hreview, hnil⟩ := Prod.mk.inj (pure_eq_ok.1 h)
    obtain ⟨status, hs, hi⟩ := hi
    exact ⟨hreview.symm, hnil ▸ .inert hs hi⟩
  · rw [if_neg hi] at h
    obtain ⟨value, hv, h⟩ := bind_eq_ok.1 h
    obtain ⟨items, hitems, h⟩ := bind_eq_ok.1 h
    obtain ⟨found, hn, h⟩ := bind_eq_ok.1 h
    obtain ⟨hreview, hfound⟩ := Prod.mk.inj (pure_eq_ok.1 h)
    subst hfound
    refine ⟨hreview.symm, ?_⟩
    have hvalue := listing_eq_ok.1 hitems
    unfold rejectionFindings at hv
    cases ho : r.reviewOperationId with
    | none =>
      simp only [ho, check_bind_eq_ok, pure_eq_ok] at hv
      exact .unreviewed ho hv.1 (hv.2.trans hvalue) hn
    | some operationId =>
      simp only [ho] at hv
      obtain ⟨receipt, ha, hv⟩ := bind_eq_ok.1 hv
      obtain ⟨fields, hfields, hv⟩ := bind_eq_ok.1 hv
      obtain rfl := dictionary_eq_ok.1 hfields
      obtain ⟨hsubject, hv⟩ := check_bind_eq_ok.1 hv
      by_cases hc : r.reviewStatus = some "changes_requested"
      · simp only [hc, if_true, check_bind_eq_ok, pure_eq_ok] at hv
        exact .reviewed ho ha hsubject hc hv.1 (hv.2.trans hvalue) hn
      · rw [if_neg hc] at hv
        by_cases happroved : r.reviewStatus = some "approved"
        · simp only [happroved, if_true, check_bind_eq_ok, pure_eq_ok] at hv
          exact .approved ho ha hsubject happroved hv.1 (hv.2.trans hvalue) hn
        · rw [if_neg happroved] at hv
          cases hv

end

/-! ## The guard -/

section

variable {blobs : Blobs} {damage : Damage} {s : Store}

/-- An earlier rejection is in the history, unless it is for no finding. -/
theorem mem_rejectionHistory {attempts : List Attempt} {history : List (SortedSet String)}
    (h : rejectionHistory blobs damage s attempts = .ok history) {a : Attempt} (ha : a ∈ attempts)
    {row : ArtifactReference} (hrow : Rows.find ArtifactReference.key s.artifacts
      ("rejection:" ++ a.attemptId.val, "rejected-result") = some row) :
    ∃ review findings, remediationContext blobs damage s a.attemptId.val = .ok (review, findings) ∧
      (findings = [] ∨ fingerprints findings ∈ history) := by
  induction attempts generalizing history with
  | nil => cases ha
  | cons b attempts ih =>
    obtain ⟨own, hown, h⟩ := bind_eq_ok.1 h
    obtain ⟨rest, hrest, h⟩ := bind_eq_ok.1 h
    obtain rfl := pure_eq_ok.1 h
    rcases List.mem_cons.1 ha with rfl | ha
    · obtain ⟨rejected, hfound, hown⟩ := bind_eq_ok.1 hown
      cases rejected with
      | none =>
        unfold findArtifact at hfound
        rw [hrow] at hfound
        cases hd : damage row.digest <;> simp [hd] at hfound
      | some digest =>
        obtain ⟨⟨review, findings⟩, hcontext, hown⟩ := bind_eq_ok.1 hown
        refine ⟨review, findings, hcontext, ?_⟩
        by_cases hf : findings = []
        · exact .inl hf
        · obtain rfl := pure_eq_ok.1 hown
          rw [if_neg hf]
          exact .inr List.mem_cons_self
    · obtain ⟨review, findings, hcontext, hin⟩ := ih hrest ha
      exact ⟨review, findings, hcontext, hin.imp_right (List.mem_append_right _)⟩

/-- The history of some Attempts and a rejected one. -/
theorem rejectionHistory_concat {attempts : List Attempt} {a : Attempt}
    {history : List (SortedSet String)} {digest : Name} {review : Option String}
    {findings : List NormalizedFinding}
    (h : rejectionHistory blobs damage s (attempts ++ [a]) = .ok history)
    (hfound : findArtifact damage s ("rejection:" ++ a.attemptId.val) "rejected-result" =
      .ok (some digest))
    (hcontext : remediationContext blobs damage s a.attemptId.val = .ok (review, findings))
    (hne : findings ≠ []) :
    ∃ earlier, rejectionHistory blobs damage s attempts = .ok earlier ∧
      history = earlier ++ [fingerprints findings] := by
  induction attempts generalizing history with
  | nil =>
    refine ⟨[], rfl, ?_⟩
    obtain ⟨own, hown, h⟩ := bind_eq_ok.1 h
    obtain ⟨rest, hrest, h⟩ := bind_eq_ok.1 h
    cases hrest
    obtain rfl := pure_eq_ok.1 h
    obtain ⟨rejected, hfound', hown⟩ := bind_eq_ok.1 hown
    obtain rfl := Except.ok.inj (hfound.symm.trans hfound')
    obtain ⟨found, hcontext', hown⟩ := bind_eq_ok.1 hown
    obtain rfl := Except.ok.inj (hcontext.symm.trans hcontext')
    obtain rfl := pure_eq_ok.1 hown
    simp [hne]
  | cons b attempts ih =>
    obtain ⟨own, hown, h⟩ := bind_eq_ok.1 h
    obtain ⟨rest, hrest, h⟩ := bind_eq_ok.1 h
    obtain rfl := pure_eq_ok.1 h
    obtain ⟨earlier, he, rfl⟩ := ih hrest
    refine ⟨own ++ earlier, ?_, (List.append_assoc _ _ _).symm⟩
    exact bind_of_ok hown <| bind_of_ok he rfl

/-- A history that repeats its last set before is refused. -/
theorem not_mem_of_history {earlier : List (SortedSet String)} {current : SortedSet String}
    (h : ¬(1 < (earlier ++ [current]).length ∧
      ((earlier ++ [current]).dropLast.getLast? = some current ∨
        (2 < (earlier ++ [current]).length ∧ current ∈ (earlier ++ [current]).dropLast)))) :
    current ∉ earlier := by
  intro hmem
  rw [List.dropLast_concat, List.length_append, List.length_singleton] at h
  apply h
  have hpos := List.length_pos_of_mem hmem
  refine ⟨by omega, ?_⟩
  by_cases hlen : earlier.length = 1
  · obtain ⟨x, rfl⟩ := List.length_eq_one_iff.1 hlen
    rw [List.mem_singleton.1 hmem]
    exact .inl rfl
  · exact .inr ⟨by omega, hmem⟩

/-- What the guard of a remediation found. -/
structure Guarded (blobs : Blobs) (damage : Damage) (s : Store) (p : Program)
    (unitId source : Name) (r : RemediationData) : Prop where
  latest : (unitAttempts p unitId).getLast?.map Attempt.attemptId = some source
  finished : ∃ a, p.attempt source = .ok a ∧ a.status = .finished
  ready : ∃ state, p.state unitId = .ok state ∧ state.status = .ready
  recorded : ∃ row, Rows.find ArtifactReference.key s.artifacts
    ("rejection:" ++ source.val, "rejected-result") = some row
  sourceAttemptId : r.sourceAttemptId = source
  /-- The findings are those of the rejection of the source. -/
  findings : remediationContext blobs damage s source.val = .ok (r.reviewOperationId, r.findings)
  nonempty : r.findings ≠ []
  /-- No earlier rejected Attempt of the unit has the same fingerprints. -/
  fresh : ∀ a ∈ unitAttempts p unitId, a.attemptId ≠ source →
    ∀ row, Rows.find ArtifactReference.key s.artifacts
      ("rejection:" ++ a.attemptId.val, "rejected-result") = some row →
    ∃ review findings, remediationContext blobs damage s a.attemptId.val = .ok (review, findings) ∧
      (findings = [] ∨ fingerprints findings ≠ fingerprints r.findings)

theorem raising_eq_ok {α : Type} {x : Except Failure α} {a : α} :
    raising x = .ok a ↔ x = .ok a := by
  cases x <;> simp [raising, Except.mapError]

/-- **The guard** of a remediation. -/
theorem guarded_of_ok {p : Program} {unitId source : Name} {r : RemediationData}
    (h : remediationData blobs damage s p unitId source = .ok r) :
    Guarded blobs damage s p unitId source r := by
  obtain ⟨hlatest, h⟩ := check_bind_eq_ok.1 h
  obtain ⟨attempt, hattempt, h⟩ := bind_eq_ok.1 h
  obtain ⟨state, hstate, h⟩ := bind_eq_ok.1 h
  obtain ⟨⟨hfinished, hready⟩, h⟩ := check_bind_eq_ok.1 h
  obtain ⟨-, h⟩ := check_bind_eq_ok.1 h
  obtain ⟨-, h⟩ := check_bind_eq_ok.1 h
  obtain ⟨rejected, hrejected, h⟩ := bind_eq_ok.1 h
  obtain ⟨hne, h⟩ := check_bind_eq_ok.1 h
  obtain ⟨⟨review, findings⟩, hcontext, h⟩ := bind_eq_ok.1 h
  obtain ⟨hfindings, h⟩ := check_bind_eq_ok.1 h
  obtain ⟨history, hhistory, h⟩ := bind_eq_ok.1 h
  obtain ⟨hrepeats, h⟩ := check_bind_eq_ok.1 h
  obtain rfl := pure_eq_ok.1 h
  rw [raising_eq_ok] at hattempt hstate hrejected hcontext hhistory
  obtain ⟨digest, rfl⟩ := Option.ne_none_iff_exists'.1 hne
  obtain ⟨row, hrow, -⟩ := findArtifact_eq_some.1 hrejected
  refine ⟨hlatest, ⟨attempt, hattempt, hfinished⟩, ⟨state, hstate, hready⟩, ⟨row, hrow⟩, rfl,
    hcontext, hfindings, fun a ha hid row' hrow' => ?_⟩
  -- the source comes last, so its own fingerprints end the history
  obtain ⟨last, hlast, rfl⟩ := Option.map_eq_some_iff.1 hlatest
  obtain ⟨before, hbefore⟩ : ∃ before, unitAttempts p unitId = before ++ [last] :=
    ⟨_, (List.dropLast_append_getLast? last hlast).symm⟩
  rw [hbefore] at hhistory ha
  obtain ⟨earlier, hearlier, rfl⟩ :=
    rejectionHistory_concat hhistory hrejected hcontext hfindings
  have hmem : a ∈ before := by
    rcases List.mem_append.1 ha with ha | ha
    · exact ha
    · exact absurd (congrArg Attempt.attemptId (List.mem_singleton.1 ha)) hid
  obtain ⟨review', findings', hcontext', hin⟩ := mem_rejectionHistory hearlier hmem hrow'
  refine ⟨review', findings', hcontext', hin.imp_right fun hin he => ?_⟩
  rw [he] at hin
  exact not_mem_of_history hrepeats hin

end

/-! ## What a call prepares -/

section

variable [Sha256] {blobs : Blobs} {s s' : Store} {c : AdvanceCall} {attempt : AttemptSpec}
  {remediation : Option RemediationData} {context : String} {q : Program}

/-- The store an Attempt of a call is admitted in. -/
def admissionStore (s : Store) (c : AdvanceCall) : Store := Runs.run Store.nextOrReopen s c.others

/-- What the admission of an Attempt found, if it is not the repetition of an earlier one. -/
structure Admitted (s : Store) (programId unitId : Name) (source : Option Name)
    (attempt : AttemptSpec) (q : Program) : Prop where
  head : ∃ p, s.loadHead programId = .ok p ∧ q.specs = p.specs ++ [attempt] ∧
    (∃ state, p.state unitId = .ok state ∧ state.status = .ready) ∧
    ∀ r ∈ source, (∃ a, p.attempt r = .ok a ∧ a.status = .finished) ∧
      (ofUnit p.specs unitId).getLast?.map AttemptSpec.attemptId = some r

/-- What a call prepared a remediation on: what its guard found, the context with the findings,
and what the admission found. -/
structure Prepared (blobs : Blobs) (s : Store) (c : AdvanceCall) (attempt : AttemptSpec)
    (r : RemediationData) (context : String) (q : Program) (s' : Store) : Prop where
  asked : c.remediationOf = some r.sourceAttemptId.val
  guarded : ∃ p, s.loadHead c.programId = .ok p ∧
    Guarded blobs c.damage s p c.unitId r.sourceAttemptId r ∧
    (∀ a ∈ p.attempts, a.attemptId ≠ attempt.attemptId) ∧
    ∃ inputs, p.resolvedInputs c.unitId = .ok inputs ∧ context = contextText inputs (some r)
  attemptId : attempt.attemptId.val = attemptIdOf c.programId c.unitId (some r.sourceAttemptId)
  programId : attempt.programId = c.programId
  workUnitId : attempt.workUnitId = c.unitId
  remediationOf : attempt.remediationOf = some r.sourceAttemptId
  contextReference : attempt.contextReference.map Subtype.val = some (referenceOf context)
  admitted : s' = admissionStore s c ∨
    Admitted (admissionStore s c) c.programId c.unitId (some r.sourceAttemptId) attempt q

omit [Sha256] in
theorem nonempty_eq_ok {value field : String} {n : Name} (h : nonempty value field = .ok n) :
    n.val = value := by
  unfold nonempty at h
  split at h
  · rw [← Except.ok.inj h]
  · cases h

omit [Sha256] in
theorem optionalNonempty_eq_ok {value : Option String} {field : String} {n : Option Name}
    (h : optionalNonempty value field = .ok n) : n.map Subtype.val = value := by
  cases value with
  | none =>
    obtain rfl := Except.ok.inj h
    rfl
  | some value =>
    obtain ⟨n, hn, rfl⟩ := map_eq_ok.1 h
    exact congrArg some (nonempty_eq_ok hn)

omit [Sha256] in
/-- The source of a remediation is the Attempt that was asked for. -/
theorem sourceOf_eq_ok {remediationOf : Option String} {source : Option Name}
    (h : sourceOf remediationOf = .ok source) : remediationOf = source.map Subtype.val := by
  cases remediationOf with
  | none =>
    obtain rfl := Except.ok.inj h
    rfl
  | some text =>
    simp only [sourceOf] at h
    split at h
    · rw [← Except.ok.inj h]
      rfl
    · cases h

/-- The admission of an Attempt is the repetition of an earlier one, or goes through the guards of
the Program. -/
theorem admitted_of_ok {s s' : Store} {cut : Cut} {programId : Name} {commandKey : String} {n : ℕ}
    {intent : Option Intent}
    (h : s.admitCommand cut programId commandKey ⟨n, worker, .prepareAttempt attempt⟩ intent =
      .ok (q, s')) :
    s' = s ∨ Admitted s programId attempt.workUnitId attempt.remediationOf attempt q := by
  obtain ⟨_, -, h⟩ := bind_eq_ok.1 h
  rcases Store.admitDecision_spec h with rfl | ⟨p, -, -, -, -, hp, -, ha, -, -, -⟩
  · exact .inl rfl
  · obtain ⟨hspecs, hready, hsource⟩ := Program.prepared_of_apply ha rfl
    exact .inr ⟨p, hp, hspecs, hready, hsource⟩

theorem next_of_admitted {cut : Cut} {programId : Name} {commandKey : String} {command : DomainCommand}
    {intent : Option Intent}
    (h : s.admitCommand cut programId commandKey command intent = .ok (q, s')) :
    s' = s.nextOrReopen (some (.admitCommand cut programId commandKey command intent)) := by
  show s' = settle s (s.admitCommand cut programId commandKey command intent)
  rw [h]
  rfl

/-- The admission of a new Attempt: its snapshot, its context, and the command. -/
theorem admitAttempt_eq_ok {p : Program} {attemptId : String} {source : Option Name}
    {remediation' : Option RemediationData}
    (h : admitAttempt s p c attemptId source remediation =
      .ok (.prepared attempt remediation' context q s')) :
    remediation' = remediation ∧ attempt.attemptId.val = attemptId ∧
      attempt.programId = p.programId ∧ attempt.workUnitId = c.unitId ∧
      attempt.remediationOf = source ∧
      attempt.contextReference.map Subtype.val = some (referenceOf context) ∧
      (∃ inputs, p.resolvedInputs c.unitId = .ok inputs ∧
        context = contextText inputs remediation) ∧
      ∃ commandKey intent, (admissionStore s c).admitCommand c.cut p.programId commandKey
        ⟨p.revision, worker, .prepareAttempt attempt⟩ (some intent) = .ok (q, s') := by
  obtain ⟨-, h⟩ := check_bind_eq_ok.1 h
  obtain ⟨_, -, h⟩ := bind_eq_ok.1 h
  obtain ⟨-, h⟩ := check_bind_eq_ok.1 h
  obtain ⟨-, h⟩ := check_bind_eq_ok.1 h
  obtain ⟨allocation, -, h⟩ := bind_eq_ok.1 h
  obtain ⟨-, h⟩ := check_bind_eq_ok.1 h
  obtain ⟨inputs, hinputs, h⟩ := bind_eq_ok.1 h
  obtain ⟨spec, hspec, h⟩ := bind_eq_ok.1 h
  obtain ⟨_, -, h⟩ := bind_eq_ok.1 h
  obtain ⟨⟨q', t⟩, hadmit, h⟩ := bind_eq_ok.1 h
  cases pure_eq_ok.1 h
  rw [raising_eq_ok] at hinputs hspec hadmit
  -- the fields of the snapshot, in the order of the constructor
  obtain ⟨id, hid, hspec⟩ := bind_eq_ok.1 hspec
  obtain ⟨programId, hprogram, hspec⟩ := bind_eq_ok.1 hspec
  obtain ⟨unitId, hunit, hspec⟩ := bind_eq_ok.1 hspec
  obtain ⟨_, -, hspec⟩ := bind_eq_ok.1 hspec
  obtain ⟨_, -, hspec⟩ := bind_eq_ok.1 hspec
  obtain ⟨_, -, hspec⟩ := bind_eq_ok.1 hspec
  obtain ⟨_, -, hspec⟩ := bind_eq_ok.1 hspec
  obtain ⟨_, -, hspec⟩ := bind_eq_ok.1 hspec
  obtain ⟨reference, hreference, hspec⟩ := bind_eq_ok.1 hspec
  obtain ⟨remediationOf, hof, hspec⟩ := bind_eq_ok.1 hspec
  obtain ⟨_, -, hspec⟩ := bind_eq_ok.1 hspec
  obtain rfl := pure_eq_ok.1 hspec
  rw [nonempty_val] at hprogram hunit
  rw [optionalNonempty_val] at hof
  exact ⟨rfl, nonempty_eq_ok hid, (Except.ok.inj hprogram).symm, (Except.ok.inj hunit).symm,
    (Except.ok.inj hof).symm, optionalNonempty_eq_ok hreference, ⟨inputs, hinputs, rfl⟩,
    _, _, hadmit⟩

/-- A call that admits an Attempt found none of its identity. -/
theorem advance_eq_ok (h : advance blobs s c = .ok (.prepared attempt remediation context q s')) :
    ∃ p source, s.loadHead c.programId = .ok p ∧ sourceOf c.remediationOf = .ok source ∧
      (∀ a ∈ p.attempts, a.attemptId.val ≠ attemptIdOf p.programId c.unitId source) ∧
      remediated blobs c.damage s p c.unitId none source = .ok remediation ∧
      admitAttempt s p c (attemptIdOf p.programId c.unitId source) source remediation =
        .ok (.prepared attempt remediation context q s') := by
  obtain ⟨p, hp, h⟩ := bind_eq_ok.1 h
  obtain ⟨-, h⟩ := check_bind_eq_ok.1 h
  obtain ⟨_, -, h⟩ := bind_eq_ok.1 h
  obtain ⟨-, h⟩ := check_bind_eq_ok.1 h
  obtain ⟨-, h⟩ := check_bind_eq_ok.1 h
  obtain ⟨source, hsource, h⟩ := bind_eq_ok.1 h
  obtain ⟨remediation', hremediation, h⟩ := bind_eq_ok.1 h
  obtain ⟨_, -, h⟩ := bind_eq_ok.1 h
  obtain ⟨-, h⟩ := check_bind_eq_ok.1 h
  cases hexisting : p.attempts.find? fun a =>
      a.attemptId.val = attemptIdOf p.programId c.unitId source with
  | some a =>
    rw [hexisting] at h
    cases h
  | none =>
    rw [hexisting] at h hremediation
    obtain rfl := (admitAttempt_eq_ok h).1
    refine ⟨p, source, raising_eq_ok.1 hp, hsource, fun a ha => ?_, hremediation, h⟩
    simpa using List.find?_eq_none.1 hexisting a ha

/-- The admission is a call on the store. -/
theorem admission_of_ok (h : advance blobs s c = .ok (.prepared attempt remediation context q s')) :
    ∃ call, s' = (admissionStore s c).nextOrReopen (some call) := by
  obtain ⟨p, source, -, -, -, -, h⟩ := advance_eq_ok h
  obtain ⟨-, -, -, -, -, -, -, commandKey, intent, h⟩ := admitAttempt_eq_ok h
  exact ⟨_, next_of_admitted h⟩

/-- **What is prepared**: an Attempt with the findings of its source in its context. -/
theorem prepared_of_ok (hs : s.aggregates.Agreeing) {r : RemediationData}
    (h : advance blobs s c = .ok (.prepared attempt (some r) context q s')) :
    Prepared blobs s c attempt r context q s' := by
  obtain ⟨p, source, hp, hsource, hnew, hremediation, h⟩ := advance_eq_ok h
  obtain ⟨-, hid, hprogram, hunit, hof, hreference, hcontext, commandKey, intent, hadmit⟩ :=
    admitAttempt_eq_ok h
  have hsame : p.programId = c.programId := (hs.told hp).1
  have hadmitted := admitted_of_ok hadmit
  rw [hsame] at hid hprogram hnew hadmitted
  rw [hunit, hof] at hadmitted
  cases source with
  | none => cases hremediation
  | some source =>
    obtain ⟨r', hr', hr⟩ := map_eq_ok.1 hremediation
    obtain rfl := Option.some.inj hr
    have hguarded := guarded_of_ok hr'
    obtain rfl := hguarded.sourceAttemptId
    refine ⟨sourceOf_eq_ok hsource, ⟨p, hp, hguarded, fun a ha he => ?_, hcontext⟩, hid, hprogram,
      hunit, hof, hreference, hadmitted⟩
    exact hnew a ha ((congrArg Subtype.val he).trans hid)

end

/-! ## Runs -/

/-- A remediation that was put on record. -/
structure Entry where
  programId : Name
  unitId : Name
  source : Name
  fingerprints : SortedSet String
deriving DecidableEq

/-- The store, and the remediations that calls have put on record. -/
structure World where
  store : Store
  log : List Entry

/-- A call of any kind on the store, or a call on a WorkUnit up to the admission of an Attempt;
what follows it on the store are calls of the first kind. -/
inductive Event
  | call (c : Option Store.Call)
  | advance (c : AdvanceCall)

section

variable [Sha256]

/-- The snapshot of an Attempt is on record. -/
def OnRecord (s : Store) (programId : Name) (attempt : AttemptSpec) : Prop :=
  match s.loadHead programId with
  | .ok p => attempt ∈ p.specs
  | .error _ => False

instance (s : Store) (programId : Name) (attempt : AttemptSpec) :
    Decidable (OnRecord s programId attempt) := by
  unfold OnRecord
  split <;> infer_instance

/-- The world a call on a WorkUnit leaves behind. -/
def World.settle (w : World) (c : AdvanceCall) : Except Stop Advanced → World
  | .ok (.prepared attempt (some r) _ _ s') => ⟨s',
      if OnRecord s' c.programId attempt then
        w.log ++ [⟨c.programId, c.unitId, r.sourceAttemptId, fingerprints r.findings⟩]
      else w.log⟩
  | .ok (.prepared _ none _ _ s') => { w with store := s' }
  | .ok (.found _) | .error _ => w

/-- What happens at an event. -/
def World.next (blobs : Blobs) (w : World) : Event → World
  | .call c => { w with store := w.store.nextOrReopen c }
  | .advance c => w.settle c (advance blobs w.store c)

/-- Nothing is on record. -/
def World.empty : World := ⟨Store.empty, []⟩

variable {blobs : Blobs} {s s' : Store} {w : World}

/-- What an entry of the log says about the store: the source and its remediation are on record, and
so are the findings of the source. -/
structure Logged (blobs : Blobs) (s : Store) (e : Entry) : Prop where
  head : ∃ p, s.loadHead e.programId = .ok p ∧
    (∃ a ∈ ofUnit p.specs e.unitId, a.attemptId = e.source) ∧
    ∃ a ∈ p.specs, a.attemptId.val = attemptIdOf e.programId e.unitId (some e.source)
  findings : ∃ review findings,
    remediationContext blobs intact s e.source.val = .ok (review, findings) ∧ findings ≠ [] ∧
      fingerprints findings = e.fingerprints

/-- What an entry says stays true. -/
theorem Logged.mono {e : Entry} (h : Logged blobs s e) (hk : s.Keeps s')
    (hc : Store.Continues s s') : Logged blobs s' e := by
  obtain ⟨p, hp, ⟨a, ha, hsource⟩, ⟨b, hb, hid⟩⟩ := h.head
  obtain ⟨review, findings, hcontext, hfindings⟩ := h.findings
  obtain ⟨commands, q, hq, hrun⟩ := hc e.programId p hp
  have hspecs := Program.run_specs hrun
  exact ⟨⟨q, hq, ⟨a, (hspecs.filter _).subset ha, hsource⟩, ⟨b, hspecs.subset hb, hid⟩⟩,
    ⟨review, findings, remediationContext_kept hk hcontext, hfindings⟩⟩

/-- Remediations of one unit are of different Attempts and for different fingerprints. -/
def Distinct (e e' : Entry) : Prop :=
  e.programId = e'.programId → e.unitId = e'.unitId →
    e.source ≠ e'.source ∧ e.fingerprints ≠ e'.fingerprints

/-- The invariant: the tables agree, and the log is of distinct remediations on record. -/
structure World.Inv (blobs : Blobs) (w : World) : Prop where
  agreeing : w.store.aggregates.Agreeing
  logged : ∀ e ∈ w.log, Logged blobs w.store e
  distinct : w.log.Pairwise Distinct

/-- What was logged before a remediation is distinct from it. -/
theorem distinct_of_prepared {c : AdvanceCall} {attempt : AttemptSpec} {r : RemediationData}
    {context : String} {q : Program} (h : Prepared blobs s c attempt r context q s') {e : Entry}
    (he : Logged blobs s e) :
    Distinct e ⟨c.programId, c.unitId, r.sourceAttemptId, fingerprints r.findings⟩ := by
  intro hprogram hunit
  obtain ⟨p, hp, hguarded, hnew, -⟩ := h.guarded
  obtain ⟨p', hp', ⟨a, ha, hsource⟩, ⟨b, hb, hid⟩⟩ := he.head
  rw [hprogram] at hp' hid
  rw [hunit] at ha hid
  obtain rfl := Except.ok.inj (hp.symm.trans hp')
  have hne : e.source ≠ r.sourceAttemptId := by
    intro hsame
    rw [hsame] at hid
    obtain ⟨t, ht, rfl⟩ := List.mem_map.1 hb
    exact hnew t ht (Subtype.ext (hid.trans h.attemptId.symm))
  refine ⟨hne, fun hsame => ?_⟩
  obtain ⟨review, findings, hcontext, hfindings, hprints⟩ := he.findings
  rw [Program.ofUnit_specs] at ha
  obtain ⟨t, ht, rfl⟩ := List.mem_map.1 ha
  obtain ⟨row, hrow⟩ := recorded_of_context hcontext
  have hid' : t.attemptId = e.source := hsource
  rw [← hid'] at hrow hcontext hne
  obtain ⟨review', findings', hcontext', hfresh⟩ := hguarded.fresh t ht hne row hrow
  have hsame' := (remediationContext_kept (.refl s) hcontext').symm.trans hcontext
  obtain ⟨-, rfl⟩ := Prod.mk.inj (Except.ok.inj hsame')
  exact hfresh.elim hfindings fun hdiff => hdiff (hprints.trans hsame)

/-- A remediation that is put on record may be logged. -/
theorem logged_of_prepared {c : AdvanceCall} {attempt : AttemptSpec} {r : RemediationData}
    {context : String} {q : Program} (h : Prepared blobs s c attempt r context q s')
    (hk : s.Keeps s') (hc : Store.Continues s s') (ho : OnRecord s' c.programId attempt) :
    Logged blobs s' ⟨c.programId, c.unitId, r.sourceAttemptId, fingerprints r.findings⟩ := by
  obtain ⟨p, hp, hguarded, -⟩ := h.guarded
  obtain ⟨commands, q', hq, hrun⟩ := hc c.programId p hp
  unfold OnRecord at ho
  rw [hq] at ho
  obtain ⟨a, ha, hsource⟩ := Option.map_eq_some_iff.1 hguarded.latest
  have hmem : a.spec ∈ ofUnit p.specs c.unitId := by
    rw [Program.ofUnit_specs]
    exact List.mem_map_of_mem (List.mem_of_getLast? ha)
  exact ⟨⟨q', hq, ⟨a.spec, ((Program.run_specs hrun).filter _).subset hmem, hsource⟩,
      ⟨attempt, ho, h.attemptId⟩⟩,
    ⟨r.reviewOperationId, r.findings, remediationContext_kept hk hguarded.findings,
      hguarded.nonempty, rfl⟩⟩

/-- What other calls on the store leave of the invariant. -/
theorem World.Inv.store (h : w.Inv blobs) (hk : w.store.Keeps s')
    (hc : s'.aggregates.Agreeing ∧ Store.Continues w.store s') :
    World.Inv blobs { w with store := s' } :=
  ⟨hc.1, fun e he => (h.logged e he).mono hk hc.2, h.distinct⟩

/-- A later store of a run. -/
theorem run_spec (h : s.aggregates.Agreeing) (calls : List (Option Store.Call)) :
    (Runs.run Store.nextOrReopen s calls).aggregates.Agreeing ∧
      Store.Continues s (Runs.run Store.nextOrReopen s calls) :=
  ⟨@run_invariant _ _ Store.nextOrReopen (fun s => s.aggregates.Agreeing)
    (fun _ c h => (Store.agreeing_next h c).1) s h calls, Store.continues_run h calls⟩

/-- What the admission of an Attempt does to the store. -/
theorem advance_store {c : AdvanceCall} {attempt : AttemptSpec}
    {remediation : Option RemediationData} {context : String} {q : Program}
    (hs : s.aggregates.Agreeing)
    (h : advance blobs s c = .ok (.prepared attempt remediation context q s')) :
    s.Keeps s' ∧ s'.aggregates.Agreeing ∧ Store.Continues s s' := by
  obtain ⟨call, rfl⟩ := admission_of_ok h
  have hothers := run_spec hs c.others
  have hlast := Store.agreeing_next hothers.1 (some call)
  exact ⟨(Store.keeps_run s c.others).trans (Store.keeps_next _ _), hlast.1,
    hothers.2.trans hlast.2⟩

/-- **The step**: every event keeps the invariant. -/
theorem World.next_inv (h : w.Inv blobs) (e : Event) : (w.next blobs e).Inv blobs := by
  cases e with
  | call c => exact h.store (Store.keeps_next _ c) (Store.agreeing_next h.agreeing c)
  | advance c =>
    show (w.settle c (advance blobs w.store c)).Inv blobs
    cases ha : advance blobs w.store c with
    | error stop => exact h
    | ok advanced =>
      cases advanced with
      | found a => exact h
      | prepared attempt remediation context q s' =>
        obtain ⟨hk, hc⟩ := advance_store h.agreeing ha
        have hstore := h.store hk hc
        cases remediation with
        | none => exact hstore
        | some r =>
          have hprepared := prepared_of_ok h.agreeing ha
          show World.Inv blobs ⟨s', if OnRecord s' c.programId attempt then _ else _⟩
          by_cases ho : OnRecord s' c.programId attempt
          · rw [if_pos ho]
            refine ⟨hstore.agreeing, fun e he => ?_, ?_⟩
            · rcases List.mem_append.1 he with he | he
              · exact hstore.logged e he
              · rw [List.mem_singleton.1 he]
                exact logged_of_prepared hprepared hk hc.2 ho
            · refine List.pairwise_append.2 ⟨h.distinct, List.pairwise_singleton _ _, ?_⟩
              intro e he e' he'
              rw [List.mem_singleton.1 he']
              exact distinct_of_prepared hprepared (h.logged e he)
          · rw [if_neg ho]
            exact hstore

theorem World.run_inv (blobs : Blobs) (events : List Event) :
    (Runs.run (World.next blobs) World.empty events).Inv blobs :=
  @run_invariant _ _ (World.next blobs) (World.Inv blobs) (fun _ e h => World.next_inv h e)
    World.empty ⟨Aggregates.agreeing_empty, nofun, List.Pairwise.nil⟩ events

/-- What holds of remediations. -/
structure Remediating (blobs : Blobs) (w : World) : Prop where
  /-- A remediation links the Attempt of its unit that came last before it, and an Attempt has at
  most one remediation. -/
  linear : ∀ programId p, w.store.loadHead programId = .ok p → Linear p.specs ∧
    ∀ a ∈ p.specs, ∀ b ∈ p.specs, ∀ r ∈ a.remediationOf, r ∈ b.remediationOf → a = b
  /-- A remediation is prepared for the latest Attempt of a ready unit, which has finished and was
  rejected for fingerprints no earlier rejection of the unit had; its context has the findings. -/
  prepared : ∀ c attempt r context q s',
    advance blobs w.store c = .ok (.prepared attempt (some r) context q s') →
    Prepared blobs w.store c attempt r context q s'
  /-- The remediations of a unit are for different fingerprints. -/
  distinct : w.log.Pairwise Distinct
  /-- The findings are those the records of the rejection justify. -/
  justified : ∀ damage source review findings,
    remediationContext blobs damage w.store source = .ok (review, findings) →
    ∃ r, rejection blobs damage w.store source = .ok r ∧ review = r.reviewOperationId ∧
      Justified blobs damage w.store r findings

/-- **Remediation is linear and does not oscillate**, whatever is called in whatever order. -/
theorem remediation_linear (blobs : Blobs) (events : List Event) :
    Remediating blobs (Runs.run (World.next blobs) World.empty events) := by
  have hinv := World.run_inv blobs events
  refine ⟨fun programId p hp => ?_, fun c attempt r context q s' ha =>
    prepared_of_ok hinv.agreeing ha, hinv.distinct, fun damage source review findings hf =>
    remediationContext_eq_ok hf⟩
  obtain ⟨-, rows, ht, -⟩ := hinv.agreeing.told hp
  exact ⟨ht.reachable.linear, fun a ha b hb r hra hrb =>
    ht.reachable.linear.unique ht.reachable.specs_nodup ha hb hra hrb⟩

end

end Application

end CreatidyKernel
