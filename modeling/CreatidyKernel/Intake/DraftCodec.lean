import CreatidyKernel.Intake.Reading

set_option relaxedAutoImplicit false
set_option autoImplicit false

/-!
# The codec of drafts

The constructors of a piece of evidence check nothing, and the decoder of a draft requires every
text to be there and every number to be positive. A draft that meets these rules is legible: it is
the draft, and the only one, that is decoded from the bytes of its payload.

## Main definitions

* `Meaning.draftFrom` — the decoder.
* `Meaning.IntakeEvidence.Legible`, `Meaning.Draft.Legible` — what the decoder requires.

## Main results

* `Meaning.draftFrom_eq_ok` — a draft is decoded from the bytes of a value exactly if the value is
  its payload and the draft is legible.
* `Meaning.Draft.payload_injective` — drafts with one payload are equal.
-/

namespace CreatidyKernel

namespace Intake

namespace Meaning

open Checked Codec

/-! ## The decoder -/

/-- `_text`. -/
def text : Json → Except Failure String
  | .str s => do
    check (s ≠ "") (refusal "invalid intake text")
    return s
  | _ => .error (refusal "invalid intake text")

/-- `_integer`. -/
def integer : Json → Except Failure ℤ
  | .int n => do
    check (1 ≤ n) (refusal "positive intake integer required")
    return n
  | _ => .error (refusal "positive intake integer required")

/-- The fields of a subject, in key order. -/
def subjectFields : List String := ["base", "branch", "issue", "origin", "repository"]

/-- `_subject_from`. -/
def subjectFrom (value : Json) : Except Failure IssueSubject := do
  let subject ← objectFrom (Json.encode value)
  check (subject.map Prod.fst = subjectFields) (refusal "invalid issue subject fields")
  let origin ← text (Codec.getField subject "origin")
  let repository ← text (Codec.getField subject "repository")
  let issue ← integer (Codec.getField subject "issue")
  let branch ← text (Codec.getField subject "branch")
  let base ← text (Codec.getField subject "base")
  IssueSubject.init origin repository issue branch base

/-- `Disposition(text)`. -/
def dispositionOf? : String → Option Disposition
  | "implemented_in_current_source" => some .implemented
  | "active_equivalent_pr" => some .activePr
  | "work_remains" => some .remains
  | "incomplete_search" => some .incomplete
  | "permission_limited" => some .permission
  | "stale_source" => some .stale
  | "unresolved_equivalence" => some .equivalence
  | "unknown_baseline" => some .baseline
  | _ => none

/-- The fields of evidence with its subject, in key order. -/
def evidenceFields : List String :=
  ["baseline_producer", "baseline_reference", "baseline_result", "disposition", "issue_digest",
    "issue_state", "issue_updated", "recipe_digest", "relevance_producer", "relevance_proof",
    "relevance_reference", "source", "subject"]

/-- The part of `draft_from` about evidence. The subject is taken out of the dictionary first, and
without one no subject is decoded, so the other fields are right if all of them are. -/
def evidenceFrom (value observedAt : Json) : Except Failure IntakeEvidence := do
  let evidence ← objectFrom (Json.encode value)
  let subject ← subjectFrom (Codec.getField evidence "subject")
  check (evidence.map Prod.fst = evidenceFields) (refusal "invalid evidence fields")
  let issueDigest ← text (Codec.getField evidence "issue_digest")
  let issueUpdated ← text (Codec.getField evidence "issue_updated")
  let issueState ← text (Codec.getField evidence "issue_state")
  let source ← text (Codec.getField evidence "source")
  let recipeDigest ← text (Codec.getField evidence "recipe_digest")
  let baselineProducer ← text (Codec.getField evidence "baseline_producer")
  let baselineReference ← text (Codec.getField evidence "baseline_reference")
  let baselineResult ← text (Codec.getField evidence "baseline_result")
  let relevanceProducer ← text (Codec.getField evidence "relevance_producer")
  let relevanceReference ← text (Codec.getField evidence "relevance_reference")
  let proof ← text (Codec.getField evidence "relevance_proof")
  let disposition ← text (Codec.getField evidence "disposition")
  let disposition ← lookup ⟨.valueError, pyRepr disposition ++ " is not a valid Disposition"⟩
    dispositionOf? disposition
  let observedAt ← integer observedAt
  return ⟨subject, issueDigest, issueUpdated, issueState, source, recipeDigest, baselineProducer,
    baselineReference, baselineResult, relevanceProducer, relevanceReference, proof.toUTF8,
    disposition, observedAt⟩

/-- The fields of a draft, in key order. -/
def draftFields : List String :=
  ["declaration", "evidence", "kind", "observed_at", "parent_digest", "revision", "task_id",
    "version"]

/-- The digest of a parent, which the first draft of a task does not have. -/
def parentFrom : Json → Except Failure (Option String)
  | .null => .ok none
  | value => some <$> text value

/-- `draft_from`. -/
def draftFrom (raw : ByteArray) : Except Failure Draft := do
  let value ← objectFrom raw
  check (value.map Prod.fst = draftFields) (refusal "invalid draft fields")
  check (Codec.getField value "kind" = .str "ordinary-draft" ∧ Codec.getField value "version" = .int 1)
    (refusal "unsupported draft version")
  let evidence ← evidenceFrom (Codec.getField value "evidence") (Codec.getField value "observed_at")
  let parent ← parentFrom (Codec.getField value "parent_digest")
  let taskId ← text (Codec.getField value "task_id")
  let revision ← integer (Codec.getField value "revision")
  let declaration ← text (Codec.getField value "declaration")
  let declaration ← Declaration.init declaration.toUTF8
  return ⟨taskId, revision, parent, declaration, evidence⟩

/-! ## The parts of a draft -/

theorem text_eq_ok {value : Json} {s : String} :
    text value = .ok s ↔ value = .str s ∧ s ≠ "" := by
  unfold text
  split
  · next t =>
    rw [check_bind_eq_ok, pure_eq_ok, Json.str.injEq]
    constructor
    · rintro ⟨ht, rfl⟩
      exact ⟨rfl, ht⟩
    · rintro ⟨rfl, ht⟩
      exact ⟨ht, rfl⟩
  · next hne => exact iff_of_false nofun fun h => hne s h.1

theorem integer_eq_ok {value : Json} {n : ℤ} :
    integer value = .ok n ↔ value = .int n ∧ 1 ≤ n := by
  unfold integer
  split
  · next m =>
    rw [check_bind_eq_ok, pure_eq_ok, Json.int.injEq]
    constructor
    · rintro ⟨hm, rfl⟩
      exact ⟨rfl, hm⟩
    · rintro ⟨rfl, hm⟩
      exact ⟨hm, rfl⟩
  · next hne => exact iff_of_false nofun fun h => hne n h.1

theorem parentFrom_eq_ok {value : Json} {parent : Option String} :
    parentFrom value = .ok parent ↔ value = parent.elim .null .str ∧ parent ≠ some "" := by
  unfold parentFrom
  split
  · cases parent <;> simp
  · next hne =>
    rw [map_eq_ok]
    constructor
    · rintro ⟨s, hs, rfl⟩
      obtain ⟨rfl, htext⟩ := text_eq_ok.mp hs
      exact ⟨rfl, by simpa using htext⟩
    · rintro ⟨rfl, hparent⟩
      cases parent with
      | none => exact absurd rfl hne
      | some s => exact ⟨s, text_eq_ok.mpr ⟨rfl, by simpa using hparent⟩, rfl⟩

/-- The digest of a parent is known by its JSON form. -/
theorem parent_injective {a b : Option String}
    (h : a.elim Json.null .str = b.elim Json.null .str) : a = b := by
  cases a <;> cases b <;> simp_all

theorem dispositionOf?_eq_some {s : String} {d : Disposition} :
    dispositionOf? s = some d ↔ s = d.value := by
  constructor
  · intro h
    unfold dispositionOf? at h
    split at h <;> cases h <;> rfl
  · rintro rfl
    cases d <;> rfl

theorem IssueSubject.init_eq_ok {origin repository : String} {issue : ℤ} {branch base : String}
    {s : IssueSubject} : IssueSubject.init origin repository issue branch base = .ok s ↔
      origin = s.origin ∧ repository = s.repository ∧ issue = s.issue ∧ branch = s.branch ∧
        base = s.base := by
  unfold IssueSubject.init
  constructor
  · intro h
    split at h
    · cases h
      exact ⟨rfl, rfl, rfl, rfl, rfl⟩
    · cases h
  · rintro ⟨rfl, rfl, rfl, rfl, rfl⟩
    exact dif_pos s.selected

theorem Declaration.init_eq_ok {raw : ByteArray} {d : Declaration} :
    Declaration.init raw = .ok d ↔ raw = d.raw := by
  unfold Declaration.init
  constructor
  · intro h
    split at h
    · cases h
      rfl
    · cases h
  · rintro rfl
    split
    · next value h =>
      have hvalue := d.admitted.symm.trans h
      cases d
      cases hvalue
      rfl
    · next failure h =>
      rw [d.admitted] at h
      cases h

theorem decodeUtf8_eq_ok {raw : ByteArray} {s : String} :
    decodeUtf8 raw = .ok s ↔ raw = s.toUTF8 := by
  rw [decodeUtf8, lookup_eq_ok, Json.fromUTF8_eq_some]

/-! ## Payloads -/

theorem IssueSubject.payload_wf (s : IssueSubject) : s.payload.WF := by
  simp only [IssueSubject.payload, Json.wf_obj, List.map_cons, List.map_nil]
  exact ⟨by decide, by simp⟩

theorem IssueSubject.payload_injective : Function.Injective IssueSubject.payload := by
  rintro ⟨origin, repository, issue, branch, base, hs⟩ ⟨origin', repository', issue', branch',
    base', hs'⟩ h
  simp only [IssueSubject.payload, Json.obj.injEq, List.cons.injEq, Prod.mk.injEq, true_and,
    and_true, Json.str.injEq, Json.int.injEq] at h
  obtain ⟨rfl, rfl, rfl, rfl, rfl⟩ := h
  rfl

/-- The texts of a selected issue are not empty. -/
theorem IssueSubject.texts (s : IssueSubject) :
    s.origin ≠ "" ∧ s.repository ≠ "" ∧ s.branch ≠ "" ∧ s.base ≠ "" := by
  obtain ⟨horigin, -, hrepository, -, hbranch, hbase⟩ := s.selected
  refine ⟨fun h => ?_, fun h => ?_, hbranch, fun h => ?_⟩
  · rw [h] at horigin
    exact absurd horigin (by decide)
  · rw [h] at hrepository
    exact absurd hrepository (by decide)
  · rw [h] at hbase
    exact absurd hbase (by decide)

theorem IntakeEvidence.entries_wf (e : IntakeEvidence) (proof : String) :
    (Json.obj (e.entries proof)).WF := by
  simp only [IntakeEvidence.entries, Json.wf_obj, List.map_cons, List.map_nil]
  exact ⟨by decide, by simp [IssueSubject.payload_wf]⟩

theorem IntakeEvidence.payload_eq_ok {e : IntakeEvidence} {payload : Fields} :
    e.payload = .ok payload ↔
      ∃ proof, e.relevanceProof = proof.toUTF8 ∧ payload = e.entries proof := by
  rw [IntakeEvidence.payload, bind_eq_ok]
  constructor
  · rintro ⟨proof, hproof, h⟩
    cases h
    exact ⟨proof, decodeUtf8_eq_ok.mp hproof, rfl⟩
  · rintro ⟨proof, hproof, rfl⟩
    exact ⟨proof, decodeUtf8_eq_ok.mpr hproof, rfl⟩

theorem IntakeEvidence.payload_wf {e : IntakeEvidence} {payload : Fields}
    (h : e.payload = .ok payload) : (Json.obj payload).WF := by
  obtain ⟨proof, -, rfl⟩ := IntakeEvidence.payload_eq_ok.mp h
  exact e.entries_wf proof

theorem Draft.payload_eq_ok {d : Draft} {payload : Fields} :
    d.payload = .ok payload ↔ ∃ declaration evidence, d.declaration.raw = declaration.toUTF8 ∧
      d.evidence.payload = .ok evidence ∧ payload = d.entries declaration evidence := by
  rw [Draft.payload, bind_eq_ok]
  constructor
  · rintro ⟨declaration, hdeclaration, h⟩
    obtain ⟨evidence, hevidence, h⟩ := bind_eq_ok.mp h
    cases h
    exact ⟨declaration, evidence, decodeUtf8_eq_ok.mp hdeclaration, hevidence, rfl⟩
  · rintro ⟨declaration, evidence, hdeclaration, hevidence, rfl⟩
    exact ⟨declaration, decodeUtf8_eq_ok.mpr hdeclaration, bind_of_ok hevidence rfl⟩

theorem Draft.payload_wf {d : Draft} {payload : Fields} (h : d.payload = .ok payload) :
    (Json.obj payload).WF := by
  obtain ⟨declaration, evidence, -, hevidence, rfl⟩ := Draft.payload_eq_ok.mp h
  simp only [Draft.entries, Json.wf_obj, List.map_cons, List.map_nil]
  refine ⟨by decide, ?_⟩
  have hwf := IntakeEvidence.payload_wf hevidence
  rw [Json.wf_obj] at hwf
  cases d.parentDigest <;> simpa using hwf

/-- Evidence with one payload differs in the time alone. -/
theorem IntakeEvidence.payload_injective {a b : IntakeEvidence} {payload : Fields}
    (ha : a.payload = .ok payload) (hb : b.payload = .ok payload) :
    a = { b with observedAt := a.observedAt } := by
  obtain ⟨proof, hproof, rfl⟩ := IntakeEvidence.payload_eq_ok.mp ha
  obtain ⟨proof', hproof', h⟩ := IntakeEvidence.payload_eq_ok.mp hb
  obtain ⟨subject, issueDigest, issueUpdated, issueState, source, recipeDigest, baselineProducer,
    baselineReference, baselineResult, relevanceProducer, relevanceReference, relevanceProof,
    disposition, observedAt⟩ := a
  simp only [IntakeEvidence.entries, List.cons.injEq, Prod.mk.injEq, true_and, and_true,
    Json.str.injEq] at h
  obtain ⟨rfl, rfl, rfl, hdisposition, rfl, rfl, rfl, rfl, rfl, rfl, rfl, rfl, hsubject⟩ := h
  have hd : disposition = b.disposition := by
    have := dispositionOf?_eq_some.mpr hdisposition
    rw [dispositionOf?_eq_some.mpr rfl] at this
    exact Option.some.inj this
  simp only at hproof
  rw [IssueSubject.payload_injective hsubject, hproof, hd, ← hproof']

/-- Drafts with one payload are equal. -/
theorem Draft.payload_injective {a b : Draft} {payload : Fields} (ha : a.payload = .ok payload)
    (hb : b.payload = .ok payload) : a = b := by
  obtain ⟨declaration, evidence, hdeclaration, hevidence, rfl⟩ := Draft.payload_eq_ok.mp ha
  obtain ⟨declaration', evidence', hdeclaration', hevidence', h⟩ := Draft.payload_eq_ok.mp hb
  simp only [Draft.entries, List.cons.injEq, Prod.mk.injEq, true_and, and_true, Json.str.injEq,
    Json.int.injEq, Json.obj.injEq] at h
  obtain ⟨rfl, rfl, htime, hparent, hrevision, htask⟩ := h
  have hsame := IntakeEvidence.payload_injective hevidence hevidence'
  have hraw : Declaration.init a.declaration.raw = .ok b.declaration := by
    rw [Declaration.init_eq_ok, hdeclaration, hdeclaration']
  have hdecl : a.declaration = b.declaration := by
    rw [Declaration.init_eq_ok.mpr rfl] at hraw
    exact Except.ok.inj hraw
  have hparents := parent_injective hparent
  rw [htime] at hsame
  obtain ⟨taskId, revision, parent, declared, found⟩ := a
  obtain ⟨taskId', revision', parent', declared', found'⟩ := b
  simp only at hrevision htask hdecl hparents hsame
  rw [hrevision, htask, hdecl, hparents, hsame]

/-! ## Legible drafts -/

/-- The texts of evidence. -/
def IntakeEvidence.texts (e : IntakeEvidence) : List String :=
  [e.issueDigest, e.issueUpdated, e.issueState, e.source, e.recipeDigest, e.baselineProducer,
    e.baselineReference, e.baselineResult, e.relevanceProducer, e.relevanceReference]

/-- What the decoder requires of evidence, beyond its form. -/
structure IntakeEvidence.Legible (e : IntakeEvidence) : Prop where
  texts : ∀ s ∈ e.texts, s ≠ ""
  relevanceProof : e.relevanceProof ≠ "".toUTF8
  observedAt : 1 ≤ e.observedAt

/-- What the decoder requires of a draft. -/
structure Draft.Legible (d : Draft) : Prop where
  taskId : d.taskId ≠ ""
  revision : 1 ≤ d.revision
  parentDigest : d.parentDigest ≠ some ""
  evidence : d.evidence.Legible

theorem toUTF8_ne_empty {s : String} : s.toUTF8 ≠ "".toUTF8 ↔ s ≠ "" := by
  rw [Ne, Ne, String.toUTF8_eq_toByteArray, String.toUTF8_eq_toByteArray, String.toByteArray_inj]

theorem subjectFrom_eq_ok {value : Json} (hv : value.WF) {s : IssueSubject} :
    subjectFrom value = .ok s ↔ value = s.payload := by
  unfold subjectFrom
  constructor
  · intro h
    obtain ⟨subject, hsubject, h⟩ := bind_eq_ok.mp h
    obtain ⟨hkeys, h⟩ := check_bind_eq_ok.mp h
    obtain ⟨origin, horigin, h⟩ := bind_eq_ok.mp h
    obtain ⟨repository, hrepository, h⟩ := bind_eq_ok.mp h
    obtain ⟨issue, hissue, h⟩ := bind_eq_ok.mp h
    obtain ⟨branch, hbranch, h⟩ := bind_eq_ok.mp h
    obtain ⟨base, hbase, h⟩ := bind_eq_ok.mp h
    rw [objectFrom_encode hv] at hsubject
    obtain ⟨rfl, rfl, rfl, rfl, rfl⟩ := IssueSubject.init_eq_ok.mp h
    rw [text_eq_ok] at horigin hrepository hbranch hbase
    rw [integer_eq_ok] at hissue
    have hfields : subject = _ := Codec.eq_map_getField (by rw [hkeys]; decide)
    rw [hkeys] at hfields
    simp only [subjectFields, List.map_cons, List.map_nil, horigin.1, hrepository.1, hissue.1,
      hbranch.1, hbase.1] at hfields
    rw [hsubject, hfields]
    rfl
  · rintro rfl
    obtain ⟨horigin, hrepository, hbranch, hbase⟩ := s.texts
    refine bind_of_ok ((objectFrom_encode hv).mpr rfl) <| bind_of_ok (check_of rfl) <|
      bind_of_ok (text_eq_ok.mpr ⟨rfl, horigin⟩) <|
      bind_of_ok (text_eq_ok.mpr ⟨rfl, hrepository⟩) <|
      bind_of_ok (integer_eq_ok.mpr ⟨rfl, ?_⟩) <|
      bind_of_ok (text_eq_ok.mpr ⟨rfl, hbranch⟩) <| bind_of_ok (text_eq_ok.mpr ⟨rfl, hbase⟩) <|
      IssueSubject.init_eq_ok.mpr ⟨rfl, rfl, rfl, rfl, rfl⟩
    have hissue := s.selected.2.2.2.1
    omega

theorem Disposition.value_ne_empty (d : Disposition) : d.value ≠ "" := by
  cases d <;> decide

theorem evidenceFrom_eq_ok {value observedAt : Json} (hv : value.WF) {e : IntakeEvidence} :
    evidenceFrom value observedAt = .ok e ↔
      (∃ payload, e.payload = .ok payload ∧ value = .obj payload) ∧
        observedAt = .int e.observedAt ∧ e.Legible := by
  unfold evidenceFrom
  constructor
  · intro h
    obtain ⟨evidence, hevidence, h⟩ := bind_eq_ok.mp h
    obtain ⟨subject, hsubject, h⟩ := bind_eq_ok.mp h
    obtain ⟨hkeys, h⟩ := check_bind_eq_ok.mp h
    obtain ⟨issueDigest, hdigest, h⟩ := bind_eq_ok.mp h
    obtain ⟨issueUpdated, hupdated, h⟩ := bind_eq_ok.mp h
    obtain ⟨issueState, hstate, h⟩ := bind_eq_ok.mp h
    obtain ⟨source, hsource, h⟩ := bind_eq_ok.mp h
    obtain ⟨recipeDigest, hrecipe, h⟩ := bind_eq_ok.mp h
    obtain ⟨baselineProducer, hbproducer, h⟩ := bind_eq_ok.mp h
    obtain ⟨baselineReference, hbreference, h⟩ := bind_eq_ok.mp h
    obtain ⟨baselineResult, hbresult, h⟩ := bind_eq_ok.mp h
    obtain ⟨relevanceProducer, hrproducer, h⟩ := bind_eq_ok.mp h
    obtain ⟨relevanceReference, hrreference, h⟩ := bind_eq_ok.mp h
    obtain ⟨proof, hproof, h⟩ := bind_eq_ok.mp h
    obtain ⟨disposition, hdisposition, h⟩ := bind_eq_ok.mp h
    obtain ⟨d, hd, h⟩ := bind_eq_ok.mp h
    obtain ⟨time, htime, h⟩ := bind_eq_ok.mp h
    cases h
    rw [objectFrom_encode hv] at hevidence
    subst hevidence
    rw [Json.wf_obj] at hv
    rw [subjectFrom_eq_ok (Codec.getField_wf hv.2 _)] at hsubject
    rw [lookup_eq_ok, dispositionOf?_eq_some] at hd
    rw [text_eq_ok] at hdigest hupdated hstate hsource hrecipe hbproducer hbreference hbresult
    rw [text_eq_ok] at hrproducer hrreference hproof hdisposition
    rw [integer_eq_ok] at htime
    refine ⟨⟨_, IntakeEvidence.payload_eq_ok.mpr ⟨proof, rfl, rfl⟩, ?_⟩, htime.1, ?_, ?_, htime.2⟩
    · have hfields : evidence = _ := Codec.eq_map_getField (by rw [hkeys]; decide)
      rw [hkeys] at hfields
      simp only [evidenceFields, List.map_cons, List.map_nil, hdigest.1, hupdated.1, hstate.1,
        hsource.1, hrecipe.1, hbproducer.1, hbreference.1, hbresult.1, hrproducer.1,
        hrreference.1, hproof.1, hdisposition.1, hsubject, hd] at hfields
      rw [hfields]
      rfl
    · simp only [IntakeEvidence.texts, List.forall_mem_cons]
      exact ⟨hdigest.2, hupdated.2, hstate.2, hsource.2, hrecipe.2, hbproducer.2, hbreference.2,
        hbresult.2, hrproducer.2, hrreference.2, nofun⟩
    · exact toUTF8_ne_empty.mpr hproof.2
  · rintro ⟨⟨payload, hpayload, rfl⟩, rfl, htexts, hnonempty, htime⟩
    obtain ⟨proof, hproof, rfl⟩ := IntakeEvidence.payload_eq_ok.mp hpayload
    simp only [IntakeEvidence.texts, List.forall_mem_cons] at htexts
    obtain ⟨hdigest, hupdated, hstate, hsource, hrecipe, hbproducer, hbreference, hbresult,
      hrproducer, hrreference, -⟩ := htexts
    rw [hproof, toUTF8_ne_empty] at hnonempty
    refine bind_of_ok ((objectFrom_encode hv).mpr rfl) <|
      bind_of_ok ((subjectFrom_eq_ok e.subject.payload_wf).mpr rfl) <|
      bind_of_ok (check_of rfl) <|
      bind_of_ok (text_eq_ok.mpr ⟨rfl, hdigest⟩) <|
      bind_of_ok (text_eq_ok.mpr ⟨rfl, hupdated⟩) <|
      bind_of_ok (text_eq_ok.mpr ⟨rfl, hstate⟩) <|
      bind_of_ok (text_eq_ok.mpr ⟨rfl, hsource⟩) <|
      bind_of_ok (text_eq_ok.mpr ⟨rfl, hrecipe⟩) <|
      bind_of_ok (text_eq_ok.mpr ⟨rfl, hbproducer⟩) <|
      bind_of_ok (text_eq_ok.mpr ⟨rfl, hbreference⟩) <|
      bind_of_ok (text_eq_ok.mpr ⟨rfl, hbresult⟩) <|
      bind_of_ok (text_eq_ok.mpr ⟨rfl, hrproducer⟩) <|
      bind_of_ok (text_eq_ok.mpr ⟨rfl, hrreference⟩) <|
      bind_of_ok (text_eq_ok.mpr ⟨rfl, hnonempty⟩) <|
      bind_of_ok (text_eq_ok.mpr ⟨rfl, Disposition.value_ne_empty _⟩) <|
      bind_of_ok (lookup_eq_ok.mpr (dispositionOf?_eq_some.mpr rfl)) <|
      bind_of_ok (integer_eq_ok.mpr ⟨rfl, htime⟩) ?_
    rw [← hproof]
    rfl

/-- A declaration has at least one byte. -/
theorem Declaration.raw_ne_empty (d : Declaration) : d.raw ≠ "".toUTF8 := by
  intro h
  have hd := d.admitted
  rw [h] at hd
  obtain ⟨-, hd⟩ := check_bind_eq_ok.mp hd
  obtain ⟨fields, hfields, -⟩ := bind_eq_ok.mp hd
  obtain ⟨text, htext, hfields⟩ := bind_eq_ok.mp hfields
  obtain ⟨value, hvalue, -⟩ := bind_eq_ok.mp hfields
  have hempty : Json.textOf "".toUTF8 = some "" := by decide +kernel
  have hload : loads "" = none := by decide +kernel
  rw [lookup_eq_ok, hempty, Option.some.injEq] at htext
  rw [← htext, lookup_eq_ok, hload] at hvalue
  cases hvalue

/-- A draft is decoded from the bytes of its payload if it is legible, and from the bytes of no
other value. -/
theorem draftFrom_eq_ok {value : Json} (hv : value.WF) {d : Draft} :
    draftFrom (Json.encode value) = .ok d ↔
      d.Legible ∧ ∃ payload, d.payload = .ok payload ∧ value = .obj payload := by
  unfold draftFrom
  constructor
  · intro h
    obtain ⟨fields, hfields, h⟩ := bind_eq_ok.mp h
    obtain ⟨hkeys, h⟩ := check_bind_eq_ok.mp h
    obtain ⟨⟨hkind, hversion⟩, h⟩ := check_bind_eq_ok.mp h
    obtain ⟨evidence, hevidence, h⟩ := bind_eq_ok.mp h
    obtain ⟨parent, hparent, h⟩ := bind_eq_ok.mp h
    obtain ⟨taskId, htask, h⟩ := bind_eq_ok.mp h
    obtain ⟨revision, hrevision, h⟩ := bind_eq_ok.mp h
    obtain ⟨raw, hraw, h⟩ := bind_eq_ok.mp h
    obtain ⟨declaration, hdeclaration, h⟩ := bind_eq_ok.mp h
    cases h
    rw [objectFrom_encode hv] at hfields
    subst hfields
    rw [Json.wf_obj] at hv
    rw [evidenceFrom_eq_ok (Codec.getField_wf hv.2 _)] at hevidence
    obtain ⟨⟨payload, hpayload, hobject⟩, htime, hlegible⟩ := hevidence
    rw [parentFrom_eq_ok] at hparent
    rw [text_eq_ok] at htask hraw
    rw [integer_eq_ok] at hrevision
    rw [Declaration.init_eq_ok] at hdeclaration
    refine ⟨⟨htask.2, hrevision.2, hparent.2, hlegible⟩, _,
      Draft.payload_eq_ok.mpr ⟨raw, payload, hdeclaration.symm, hpayload, rfl⟩, ?_⟩
    have hform : fields = _ := Codec.eq_map_getField (by rw [hkeys]; decide)
    rw [hkeys] at hform
    simp only [draftFields, List.map_cons, List.map_nil, hkind, hversion, hobject, htime,
      hparent.1, htask.1, hraw.1, hrevision.1] at hform
    rw [hform]
    rfl
  · rintro ⟨hlegible, payload, hpayload, rfl⟩
    obtain ⟨raw, evidence, hraw, hevidence, rfl⟩ := Draft.payload_eq_ok.mp hpayload
    have hne : raw ≠ "" := by
      rw [← toUTF8_ne_empty, ← hraw]
      exact d.declaration.raw_ne_empty
    have hwf : (Codec.getField (d.entries raw evidence) "evidence").WF := by
      rw [Json.wf_obj] at hv
      exact Codec.getField_wf hv.2 _
    exact bind_of_ok ((objectFrom_encode hv).mpr rfl) <| bind_of_ok (check_of rfl) <|
      bind_of_ok (check_of ⟨rfl, rfl⟩) <|
      bind_of_ok ((evidenceFrom_eq_ok hwf).mpr
        ⟨⟨evidence, hevidence, rfl⟩, rfl, hlegible.evidence⟩) <|
      bind_of_ok (parentFrom_eq_ok.mpr ⟨rfl, hlegible.parentDigest⟩) <|
      bind_of_ok (text_eq_ok.mpr ⟨rfl, hlegible.taskId⟩) <|
      bind_of_ok (integer_eq_ok.mpr ⟨rfl, hlegible.revision⟩) <|
      bind_of_ok (text_eq_ok.mpr ⟨rfl, hne⟩) <|
      bind_of_ok (Declaration.init_eq_ok.mpr hraw.symm) rfl

end Meaning

end Intake

end CreatidyKernel
