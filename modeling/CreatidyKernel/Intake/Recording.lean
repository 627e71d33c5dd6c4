import CreatidyKernel.Codec.Fingerprint
import CreatidyKernel.Intake.DraftCodec
import CreatidyKernel.Lib.Runs
import CreatidyKernel.Lib.SortedBy

set_option relaxedAutoImplicit false
set_option autoImplicit false

/-!
# Recorded drafts can be read

What a reader tells about a selected issue has a text in each of its fields, whatever was absent,
inaccessible or unknown: the adapter of the forge, the references and the receipts never leave one
empty. So a draft that is recorded is legible, and every later read of the history gives it back.

## Main definitions

* `Meaning.recover`, `Meaning.history` — the reads of recorded drafts.
* `Meaning.prepare` — the call that records a draft, and `Meaning.next` the state after it.

## Main results

* `Meaning.read_texts` — evidence has a text in each of its fields.
* `Meaning.next_kept` — a call keeps the drafts readable.
* `Meaning.draft_codec` — in every run the recorded drafts are read back, payloads and digests tell
  drafts apart, and canonical bytes are those of the draft they are decoded to.
-/

namespace CreatidyKernel

namespace Intake

namespace Meaning

open Checked

/-! ## Rows and calls -/

/-- A row of the journal that holds a draft. -/
structure Row where
  operationId : String
  bytes : ByteArray

/-- `_recover`, of a draft. -/
def recover (row : Row) : Except Failure Draft := do
  let inner ← objectFrom row.bytes
  check (Codec.getField inner "version" = .int 1 ∧
    Codec.getField inner "kind" = .str "ordinary-draft")
    (refusal "unsupported ordinary record version or kind")
  let draft ← draftFrom row.bytes
  let start ← taskPrefix draft.taskId
  check (row.operationId = start ++ toString draft.revision ∨
    row.operationId =
      "ordinary:record:ordinary-draft:" ++ draft.taskId ++ ":" ++ toString draft.revision)
    (refusal "draft namespace differs from subject")
  return draft

/-- The state of a task: its rows, and the drafts that were recorded, which no call reads. -/
structure Desk where
  rows : List Row
  recorded : List Draft

/-- The snapshots of the issue are those that the adapter makes of answers of the forge. -/
def Adapted [Sha256] (w : Answers) : Prop :=
  ∀ issue, w.issue .opening = .ok issue → ∃ number answer, issue = issueOf number answer

/-- A call of `prepare`: its arguments, what its reader is told, the age of the receipt in other
records, whether a record of another kind has the key, and the order in which the store lists the
rows. -/
structure Call [Sha256] where
  selected : IssueSubject
  declaration : Declaration
  expectedParent : Option String
  reader : Reader
  answers : Answers
  adapted : Adapted answers
  known : Except Failure (Option {n : ℤ // 1 ≤ n})
  occupied : Bool
  list : List Row → List Row
  perm : ∀ rows, (list rows).Perm rows

section

variable [Sha256]

/-- The loop of `history` over the sorted drafts. -/
def chainFrom (taskId : String) : ℤ → Option String → List Draft → Except Failure Unit
  | _, _, [] => .ok ()
  | index, parent, d :: ds => do
    check (d.taskId = taskId ∧ d.revision = index + 1 ∧ d.parentDigest = parent)
      (refusal "broken immutable draft chain")
    let digest ← d.digest
    chainFrom taskId (index + 1) (some digest.val) ds

/-- `history`. -/
def history (taskId : String) (rows : List Row) : Except Failure (List Draft) := do
  let _ ← taskPrefix taskId
  let drafts ← rows.mapM recover
  let drafts := SortedBy.sortBy Draft.revision drafts
  chainFrom taskId 0 none drafts
  return drafts

/-- The digest of the draft before. -/
def parentOf (previous : Option Draft) (first : Option String) : Except Failure (Option String) :=
  match previous with
  | none => .ok first
  | some d => (fun n => some n.val) <$> d.digest

/-- The draft before says the same. -/
def unchanged (previous : Option Draft) (declaration : Declaration) (evidence : IntakeEvidence) :
    Except Failure (Option Draft) :=
  match previous with
  | none => .ok none
  | some d =>
    if d.declaration.raw = declaration.raw then do
      let old ← d.evidence.digest
      let new ← evidence.digest
      return if old = new then some d else none
    else .ok none

/-- The draft that `prepare` records. -/
def nextDraft (taskId : String) (previous : Option Draft) (parent : Option String)
    (declaration : Declaration) (evidence : IntakeEvidence) : Draft :=
  ⟨taskId, previous.elim 1 (·.revision + 1), parent, declaration, evidence⟩

/-- `_record`, under the key that is free. -/
def recordDraft (taskId : String) (occupied : Bool) (draft : Draft) : Except Failure Row := do
  let payload ← draft.payload
  let start ← taskPrefix taskId
  let key := if occupied = true
    then "ordinary:record:ordinary-draft:" ++ taskId ++ ":" ++ toString draft.revision
    else start ++ toString draft.revision
  return ⟨key, Json.encode (.obj payload)⟩

/-- `prepare`: the draft, with its row unless the draft before says the same. -/
def prepare (taskId : String) (c : Call) (rows : List Row) :
    Except Failure (Draft × Option Row) := do
  let drafts ← history taskId (c.list rows)
  let previous := drafts.getLast?
  let parent ← parentOf previous none
  check (c.expectedParent = parent) (refusal "draft amendment expected parent differs")
  let evidence ← read c.reader c.answers c.selected c.declaration
  check (evidence.subject = c.selected) (refusal "evidence subject differs")
  let known ← c.known
  let observed ← integer (.int evidence.observedAt)
  let evidence := { evidence with
    observedAt := known.elim observed fun age => min observed age.val }
  check (∀ d ∈ previous, d.evidence.subject ≠ c.selected →
    (d.evidence.subject.origin, d.evidence.subject.repository, d.evidence.subject.issue,
      d.evidence.subject.branch) =
      (c.selected.origin, c.selected.repository, c.selected.issue, c.selected.branch))
    (refusal "task selection identity changed")
  match ← unchanged previous c.declaration evidence with
  | some d => return (d, none)
  | none =>
    let draft := nextDraft taskId previous parent c.declaration evidence
    let row ← recordDraft taskId c.occupied draft
    return (draft, some row)

/-- The state after a call. -/
def next (taskId : String) (s : Desk) (c : Call) : Desk :=
  match prepare taskId c s.rows with
  | .ok (d, some row) => ⟨s.rows ++ [row], s.recorded ++ [d]⟩
  | _ => s

/-! ## The texts of evidence -/

omit [Sha256] in
theorem ne_empty_of_nonblank {s : String} (h : Nonblank s) : s ≠ "" := by
  rintro rfl
  exact absurd h (by decide)

omit [Sha256] in
theorem field_ne_empty {data : Fields} {name s : String}
    (h : Publication.field data name = some s) : s ≠ "" := by
  unfold Publication.field at h
  split at h
  · split_ifs at h with hs
    cases h
    exact hs
  · cases h

/-- An answer about an issue becomes a snapshot with a text in each of its fields. -/
theorem issueOf_texts (number : ℕ) (answer : ℤ × Json) :
    (issueOf number answer).contentDigest ≠ "" ∧ (issueOf number answer).updatedAt ≠ "" ∧
      (issueOf number answer).state ≠ "" := by
  have hseen : (Publication.issueOf number answer).contentDigest ≠ "" ∧
      (Publication.issueOf number answer).state ≠ "" := by
    unfold Publication.issueOf
    split_ifs with h1 h2
    · exact ⟨by decide, by decide⟩
    · exact ⟨by decide, by decide⟩
    · extract_lets unknown seen
      cases hcase : seen with
      | none => exact ⟨by decide, by decide⟩
      | some snapshot =>
        obtain ⟨data, -, h⟩ := Option.bind_eq_some_iff.mp hcase
        obtain ⟨n, -, h⟩ := Option.bind_eq_some_iff.mp h
        obtain ⟨-, -, h⟩ := Option.bind_eq_some_iff.mp h
        obtain ⟨state, hstate, h⟩ := Option.bind_eq_some_iff.mp h
        obtain ⟨-, -, h⟩ := Option.bind_eq_some_iff.mp h
        split at h
        · obtain ⟨title, -, h⟩ := Option.bind_eq_some_iff.mp h
          obtain ⟨updated, -, h⟩ := Option.bind_eq_some_iff.mp h
          cases h
          exact ⟨ne_empty_of_nonblank (digest _).2, field_ne_empty hstate⟩
        · cases h
  refine ⟨hseen.1, ?_, hseen.2⟩
  unfold issueOf
  extract_lets seen updated
  have hupdated : updated.getD "unknown" ≠ "" := by
    cases hu : updated with
    | none => exact by decide
    | some u =>
      obtain ⟨data, -, hfield⟩ := Option.bind_eq_some_iff.mp hu
      exact field_ne_empty hfield
  split_ifs with hfound
  · exact hupdated
  · exact show "unknown" ≠ "" from by decide

omit [Sha256] in
/-- The revision of a branch is not an empty text: a reference has a payload. -/
theorem sourceRevision_ne_empty (branch : Observation) : sourceRevision branch ≠ "" := by
  unfold sourceRevision
  split
  · decide
  · next revision _ =>
    obtain ⟨value, hcolon, -, hpayload, -⟩ := revision
    split_ifs with hprefix
    · obtain ⟨payload, hvalue⟩ := hprefix
      change "forgejo:".toList ++ payload = value.toList at hvalue
      change (divide ':' value.toList).2 ≠ [] at hpayload
      change String.ofList (value.toList.drop 8) ≠ ""
      rw [← hvalue] at hpayload ⊢
      exact fun h => hpayload (String.ofList_eq_empty_iff.mp h)
    · rintro rfl
      exact absurd hcolon (by decide)

omit [Sha256] in
theorem ne_empty_of_definite {s : String} (h : Definite (.str s)) : s ≠ "" := by
  rintro rfl
  exact absurd h (by decide)

omit [Sha256] in
/-- A receipt that stands has a producer, a reference and a result. -/
theorem receipt_texts {subject : IssueSubject} {recipe : String} {now : ℤ}
    {opening closing : Option BaselineSnapshot} {v : Standing}
    (h : receipt subject recipe now opening closing = some v) :
    v.producer ≠ "" ∧ v.reference ≠ "" ∧ v.result ≠ "" := by
  obtain ⟨b, -, h⟩ := Option.bind_eq_some_iff.mp h
  obtain ⟨c, -, h⟩ := Option.bind_eq_some_iff.mp h
  obtain ⟨-, -, h⟩ := Option.bind_eq_some_iff.mp h
  obtain ⟨first, hfirst, h⟩ := Option.bind_eq_some_iff.mp h
  obtain ⟨last, -, h⟩ := Option.bind_eq_some_iff.mp h
  cases h
  unfold standing at hfirst
  split at hfirst
  · split_ifs at hfirst with hb
    cases hfirst
    obtain ⟨-, -, -, hproducer, hreference, hresult⟩ := hb
    exact ⟨ne_empty_of_nonblank hproducer, ne_empty_of_nonblank hreference,
      ne_empty_of_definite hresult⟩
  · cases hfirst

omit [Sha256] in
theorem encode_ne_empty (v : Json) : Json.encode v ≠ "".toUTF8 := by
  rw [Json.encode, toUTF8_ne_empty, dumps]
  intro h
  obtain ⟨c, r, hprint, -⟩ := Json.print_head v
  rw [String.ofList_eq_empty_iff, hprint] at h
  cases h

/-- Evidence has a text in each of its fields. -/
theorem read_texts {r : Reader} {w : Answers} (hw : Adapted w) {subject : IssueSubject}
    {declaration : Declaration} {e : IntakeEvidence} (h : read r w subject declaration = .ok e) :
    (∀ s ∈ e.texts, s ≠ "") ∧ e.relevanceProof ≠ "".toUTF8 := by
  obtain ⟨-, h⟩ := check_bind_eq_ok.mp h
  obtain ⟨issue, hissue, h⟩ := bind_eq_ok.mp h
  obtain ⟨branch, -, h⟩ := bind_eq_ok.mp h
  obtain ⟨baseline, -, h⟩ := bind_eq_ok.mp h
  obtain ⟨⟨disposition, proof⟩, -, h⟩ := bind_eq_ok.mp h
  obtain ⟨closingIssue, -, h⟩ := bind_eq_ok.mp h
  obtain ⟨closingBranch, -, h⟩ := bind_eq_ok.mp h
  obtain ⟨closingBaseline, -, h⟩ := bind_eq_ok.mp h
  obtain ⟨now, -, h⟩ := bind_eq_ok.mp h
  cases h
  obtain ⟨number, answer, rfl⟩ := hw issue hissue
  obtain ⟨hdigest, hupdated, hstate⟩ := issueOf_texts number answer
  refine ⟨?_, encode_ne_empty _⟩
  simp only [IntakeEvidence.texts, List.forall_mem_cons]
  have hvalid (valid : Option Standing) (hv : ∀ v, valid = some v →
      v.producer ≠ "" ∧ v.reference ≠ "" ∧ v.result ≠ "") :
      valid.elim "unknown" Standing.producer ≠ "" ∧ valid.elim "unknown" Standing.reference ≠ "" ∧
        valid.elim "unknown" Standing.result ≠ "" := by
    cases valid with
    | none => exact ⟨by decide, by decide, by decide⟩
    | some v => exact hv v rfl
  obtain ⟨hproducer, hreference, hresult⟩ := hvalid _ fun v hv => receipt_texts hv
  refine ⟨hdigest, hupdated, hstate, sourceRevision_ne_empty branch,
    ne_empty_of_nonblank (digest _).2, hproducer, hreference, hresult, r.bounded.2, ?_, by rintro _ ⟨⟩⟩
  intro hempty
  have hlength := congrArg (fun s => s.toList.length) hempty
  simp at hlength

/-! ## Chains -/

variable {taskId : String}

theorem chainFrom_cons {index : ℤ} {parent : Option String} {d : Draft} {ds : List Draft} :
    chainFrom taskId index parent (d :: ds) = .ok () ↔
      (d.taskId = taskId ∧ d.revision = index + 1 ∧ d.parentDigest = parent) ∧
        ∃ n, d.digest = .ok n ∧ chainFrom taskId (index + 1) (some n.val) ds = .ok () := by
  rw [chainFrom, check_bind_eq_ok, bind_eq_ok]

/-- The revisions of a chain increase by one. -/
theorem chainFrom_revision {ds : List Draft} : ∀ {index : ℤ} {parent : Option String},
    chainFrom taskId index parent ds = .ok () →
      ds.Pairwise (fun a b => a.revision < b.revision) ∧ (∀ d ∈ ds, index < d.revision) ∧
        ∀ d ∈ ds.getLast?, d.revision = index + ds.length := by
  induction ds with
  | nil =>
    intro index parent _
    exact ⟨.nil, by simp, by simp⟩
  | cons d ds ih =>
    intro index parent h
    obtain ⟨⟨-, hrevision, -⟩, n, -, hrest⟩ := chainFrom_cons.mp h
    obtain ⟨hpairwise, habove, hlast⟩ := ih hrest
    refine ⟨List.pairwise_cons.mpr ⟨fun e he => ?_, hpairwise⟩, ?_, ?_⟩
    · have := habove e he
      omega
    · rw [List.forall_mem_cons]
      exact ⟨by omega, fun e he => by have := habove e he; omega⟩
    · intro e he
      rw [List.length_cons]
      cases ds with
      | nil =>
        rw [List.getLast?_singleton, Option.mem_some_iff] at he
        subst he
        simpa using hrevision
      | cons d' ds =>
        rw [List.getLast?_cons_cons] at he
        have := hlast e he
        push_cast at this ⊢
        omega

/-- A chain grows by a draft on its last one. -/
theorem chainFrom_concat {d : Draft} {n : Name} (hd : d.digest = .ok n) (htask : d.taskId = taskId)
    {ds : List Draft} : ∀ {index : ℤ} {parent : Option String},
    chainFrom taskId index parent ds = .ok () →
      parentOf ds.getLast? parent = .ok d.parentDigest → d.revision = index + ds.length + 1 →
        chainFrom taskId index parent (ds ++ [d]) = .ok () := by
  induction ds with
  | nil =>
    intro index parent _ hparent hrevision
    cases hparent
    exact chainFrom_cons.mpr ⟨⟨htask, by simpa using hrevision, rfl⟩, n, hd, rfl⟩
  | cons e ds ih =>
    intro index parent h hparent hrevision
    obtain ⟨he, m, hm, hrest⟩ := chainFrom_cons.mp h
    refine chainFrom_cons.mpr ⟨he, m, hm, ih hrest ?_ ?_⟩
    · rw [← hparent]
      cases ds with
      | nil =>
        show _ = (fun n => some n.val) <$> e.digest
        rw [hm]
        rfl
      | cons e' ds =>
        rw [List.getLast?_cons_cons]
        cases hlast : (e' :: ds).getLast? with
        | none => simp at hlast
        | some p => rfl
    · rw [hrevision, List.length_cons]
      push_cast
      omega

/-! ## Histories -/

/-- What every call keeps: the rows are those of the recorded drafts, which form a chain. -/
structure Kept (taskId : String) (s : Desk) : Prop where
  recovered : List.Forall₂ (fun row d => recover row = .ok d) s.rows s.recorded
  encoded : List.Forall₂ (fun row d => ∃ payload, d.payload = .ok payload ∧
    row.bytes = Json.encode (.obj payload)) s.rows s.recorded
  chained : chainFrom taskId 0 none s.recorded = .ok ()

omit [Sha256] in
/-- Drafts in the order of their revisions are what any order of them is sorted to. -/
theorem sortBy_of_perm {ds es : List Draft} (hperm : es.Perm ds)
    (h : ds.Pairwise fun a b => a.revision < b.revision) :
    SortedBy.sortBy Draft.revision es = ds := by
  have hnodup : (ds.map Draft.revision).Nodup := by
    rw [List.Nodup, List.pairwise_map]
    exact h.imp fun hlt => hlt.ne
  have hsame : (SortedBy.sortBy Draft.revision es).Perm ds :=
    (SortedBy.perm_sortBy es).trans hperm
  refine List.Perm.eq_of_pairwise (fun a b ha hb hab hba => ?_) (SortedBy.pairwise_le_sortBy es)
    (h.imp fun hlt => hlt.le) hsame
  exact List.inj_on_of_nodup_map hnodup (hsame.subset ha) hb (le_antisymm hab hba)

/-- The history of a task is read in whatever order the store lists its rows. -/
theorem Kept.history {s : Desk} (hs : Kept taskId s) (htask : Accepted taskId) {rows : List Row}
    (hperm : rows.Perm s.rows) : history taskId rows = .ok s.recorded := by
  obtain ⟨drafts, hdrafts, hsame⟩ := List.perm_comp_forall₂ hperm hs.recovered
  have hsort := sortBy_of_perm hsame (chainFrom_revision hs.chained).1
  refine bind_of_ok (bind_of_ok (check_of htask) rfl) <| bind_of_ok (mapM_eq_ok.mpr hdrafts) ?_
  rw [hsort]
  exact bind_of_ok hs.chained rfl

/-! ## Recording -/

omit [Sha256] in
theorem taskPrefix_eq_ok {start : String} :
    taskPrefix taskId = .ok start ↔ Accepted taskId ∧ start = "ordinary:" ++ taskId ++ ":draft:" := by
  rw [taskPrefix, check_bind_eq_ok, pure_eq_ok, eq_comm (a := start)]

/-- What a call that records a draft has done: the draft continues the history, its evidence is
what was read, and the row is that of the draft. -/
structure Records (taskId : String) (drafts : List Draft) (d : Draft) (row : Row) : Prop where
  accepted : Accepted taskId
  task : d.taskId = taskId
  revision : d.revision = drafts.getLast?.elim 1 (·.revision + 1)
  parentDigest : parentOf drafts.getLast? none = .ok d.parentDigest
  evidence : d.evidence.Legible
  bytes : ∃ payload, d.payload = .ok payload ∧ row.bytes = Json.encode (.obj payload)
  operationId : row.operationId = "ordinary:" ++ taskId ++ ":draft:" ++ toString d.revision ∨
    row.operationId = "ordinary:record:ordinary-draft:" ++ taskId ++ ":" ++ toString d.revision

theorem prepare_records {c : Call} {rows : List Row} {d : Draft} {row : Row}
    (h : prepare taskId c rows = .ok (d, some row)) :
    ∃ drafts, history taskId (c.list rows) = .ok drafts ∧ Records taskId drafts d row := by
  obtain ⟨drafts, hdrafts, h⟩ := bind_eq_ok.mp h
  obtain ⟨parent, hparent, h⟩ := bind_eq_ok.mp h
  obtain ⟨-, h⟩ := check_bind_eq_ok.mp h
  obtain ⟨evidence, hevidence, h⟩ := bind_eq_ok.mp h
  obtain ⟨-, h⟩ := check_bind_eq_ok.mp h
  obtain ⟨known, -, h⟩ := bind_eq_ok.mp h
  obtain ⟨observed, hobserved, h⟩ := bind_eq_ok.mp h
  obtain ⟨-, h⟩ := check_bind_eq_ok.mp h
  obtain ⟨same, -, h⟩ := bind_eq_ok.mp h
  obtain ⟨htexts, hproof⟩ := read_texts c.adapted hevidence
  have htime := (integer_eq_ok.mp hobserved).2
  split at h
  · cases h
  · obtain ⟨row', hrow, h⟩ := bind_eq_ok.mp h
    cases h
    obtain ⟨payload, hpayload, hrow⟩ := bind_eq_ok.mp hrow
    obtain ⟨start, hstart, hrow⟩ := bind_eq_ok.mp hrow
    obtain ⟨haccepted, rfl⟩ := taskPrefix_eq_ok.mp hstart
    cases hrow
    refine ⟨drafts, hdrafts, haccepted, rfl, rfl, hparent, ⟨htexts, hproof, ?_⟩,
      ⟨payload, hpayload, rfl⟩, ?_⟩
    · cases known with
      | none => exact htime
      | some age => exact le_min htime age.2
    · by_cases hoccupied : c.occupied = true
      · exact .inr (if_pos hoccupied)
      · exact .inl (if_neg hoccupied)

theorem Records.legible {drafts : List Draft} {d : Draft} {row : Row}
    (h : Records taskId drafts d row) (hdrafts : ∀ p ∈ drafts.getLast?, 0 ≤ p.revision) :
    d.Legible := by
  refine ⟨?_, ?_, ?_, h.evidence⟩
  · rw [h.task]
    rintro rfl
    exact absurd h.accepted (by decide)
  · rw [h.revision]
    cases hlast : drafts.getLast? with
    | none => exact le_refl 1
    | some p =>
      have := hdrafts p hlast
      show 1 ≤ p.revision + 1
      omega
  · intro hempty
    have hparent := h.parentDigest
    rw [hempty] at hparent
    cases hlast : drafts.getLast? with
    | none =>
      rw [hlast] at hparent
      cases hparent
    | some p =>
      rw [hlast] at hparent
      obtain ⟨n, -, hn⟩ := map_eq_ok.mp hparent
      exact ne_empty_of_nonblank n.2 (Option.some.inj hn)

/-- The row of a recorded draft is read back. -/
theorem Records.recover {drafts : List Draft} {d : Draft} {row : Row}
    (h : Records taskId drafts d row) (hlegible : d.Legible) : recover row = .ok d := by
  obtain ⟨payload, hpayload, hbytes⟩ := h.bytes
  have hwf := Draft.payload_wf hpayload
  have hdraft := (draftFrom_eq_ok hwf).mpr ⟨hlegible, payload, hpayload, rfl⟩
  obtain ⟨declaration, evidence, -, -, rfl⟩ := Draft.payload_eq_ok.mp hpayload
  unfold Meaning.recover
  rw [hbytes]
  refine bind_of_ok ((objectFrom_encode hwf).mpr rfl) <| bind_of_ok (check_of ⟨rfl, rfl⟩) <|
    bind_of_ok hdraft <| bind_of_ok (taskPrefix_eq_ok.mpr ⟨?_, rfl⟩) <| bind_of_ok (check_of ?_) rfl
  · rw [h.task]
    exact h.accepted
  · rw [h.task]
    exact h.operationId

/-- A call keeps the drafts readable. -/
theorem next_kept {s : Desk} (hs : Kept taskId s) (c : Call) : Kept taskId (next taskId s c) := by
  unfold next
  split
  · next d row h =>
    obtain ⟨drafts, hdrafts, hrecords⟩ := prepare_records h
    have hhistory := hs.history hrecords.accepted (c.perm s.rows)
    obtain rfl : s.recorded = drafts := Except.ok.inj (hhistory.symm.trans hdrafts)
    obtain ⟨-, habove, hlast⟩ := chainFrom_revision hs.chained
    have hlegible : d.Legible := hrecords.legible fun p hp => by
      have := habove p (List.mem_of_getLast? hp)
      omega
    obtain ⟨payload, hpayload, hbytes⟩ := hrecords.bytes
    refine ⟨?_, ?_, ?_⟩
    · exact List.rel_append hs.recovered (.cons (hrecords.recover hlegible) .nil)
    · exact List.rel_append hs.encoded (.cons ⟨payload, hpayload, hbytes⟩ .nil)
    · have hdigest : d.digest = .ok (digest (.obj payload)) := bind_of_ok hpayload rfl
      refine chainFrom_concat hdigest hrecords.task hs.chained hrecords.parentDigest ?_
      rw [hrecords.revision]
      cases hcase : s.recorded.getLast? with
      | none => simp [List.getLast?_eq_none_iff.mp hcase]
      | some p =>
        have := hlast p hcase
        show p.revision + 1 = _
        omega
  · exact hs

/-- A recorded draft is decoded from the bytes of its payload. -/
theorem Kept.decoded {s : Desk} (hs : Kept taskId s) :
    List.Forall₂ (fun row d => draftFrom row.bytes = .ok d) s.rows s.recorded :=
  hs.recovered.imp fun row d h => by
    obtain ⟨inner, -, h⟩ := bind_eq_ok.mp h
    obtain ⟨-, h⟩ := check_bind_eq_ok.mp h
    obtain ⟨draft, hdraft, h⟩ := bind_eq_ok.mp h
    obtain ⟨start, -, h⟩ := bind_eq_ok.mp h
    obtain ⟨-, h⟩ := check_bind_eq_ok.mp h
    cases h
    exact hdraft

/-- The bytes `encode` writes for some value. -/
def Canonical (raw : ByteArray) : Prop := ∃ value : Json, value.WF ∧ Json.encode value = raw

/-- The codec of drafts. A draft about evidence that was read is decoded from the bytes of its
payload; in every run of calls the rows are the bytes of the recorded drafts, each is decoded to
its draft, and the history of the task gives the drafts back, in whatever order the store lists
the rows; drafts with one digest are equal, and evidence with one digest differs in the time alone;
canonical bytes are those of the payload of the draft they are decoded to. -/
theorem draft_codec (hsha : Function.Injective Sha256.hexdigest) :
    (∀ (r : Reader) (w : Answers), Adapted w → ∀ subject declaration e,
      read r w subject declaration = .ok e → ∀ (taskId : String) (revision observedAt : ℤ)
        (parent : Option Name) (payload : Fields), Accepted taskId → 1 ≤ revision →
        1 ≤ observedAt →
        Draft.payload ⟨taskId, revision, parent.map Subtype.val, declaration,
          { e with observedAt := observedAt }⟩ = .ok payload →
        draftFrom (Json.encode (.obj payload)) = .ok ⟨taskId, revision, parent.map Subtype.val,
          declaration, { e with observedAt := observedAt }⟩) ∧
    (∀ (taskId : String) (calls : List Call),
      let s := Runs.run (next taskId) ⟨[], []⟩ calls
      List.Forall₂ (fun row d => draftFrom row.bytes = .ok d ∧
        ∃ payload, d.payload = .ok payload ∧ row.bytes = Json.encode (.obj payload))
        s.rows s.recorded ∧
      (Accepted taskId → ∀ rows : List Row, rows.Perm s.rows →
        history taskId rows = .ok s.recorded)) ∧
    (∀ (a b : Draft) (n : Name), a.digest = .ok n → b.digest = .ok n → a = b) ∧
    (∀ (a b : IntakeEvidence) (n : Name), a.digest = .ok n → b.digest = .ok n →
      a = { b with observedAt := a.observedAt }) ∧
    ∀ (raw : ByteArray) (d : Draft), Canonical raw → draftFrom raw = .ok d →
      ∃ payload, d.payload = .ok payload ∧ Json.encode (.obj payload) = raw := by
  have hinjective {v w : Json} (hv : v.WF) (hw : w.WF) (h : digest v = digest w) : v = w :=
    dumps_injective hv hw (hsha h)
  refine ⟨fun r w hw subject declaration e he taskId revision observedAt parent payload htask
    hrevision htime hpayload => ?_, fun taskId calls => ?_, fun a b n ha hb => ?_,
    fun a b n ha hb => ?_, fun raw d hraw h => ?_⟩
  · obtain ⟨htexts, hproof⟩ := read_texts hw he
    refine (draftFrom_eq_ok (Draft.payload_wf hpayload)).mpr
      ⟨⟨?_, hrevision, ?_, ⟨htexts, hproof, htime⟩⟩, payload, hpayload, rfl⟩
    · rintro rfl
      exact absurd htask (by decide)
    · cases parent with
      | none => exact nofun
      | some n => exact fun h => ne_empty_of_nonblank n.2 (Option.some.inj h)
  · have hkept : Kept taskId (Runs.run (next taskId) ⟨[], []⟩ calls) :=
      Runs.run_invariant (P := Kept taskId) (fun s c hs => next_kept hs c) ⟨.nil, .nil, rfl⟩ calls
    exact ⟨hkept.decoded.mp (fun _ _ h h' => ⟨h, h'⟩) hkept.encoded, fun htask rows hperm =>
      hkept.history htask hperm⟩
  · obtain ⟨payload, hpayload, hn⟩ := bind_eq_ok.mp ha
    obtain ⟨payload', hpayload', hn'⟩ := bind_eq_ok.mp hb
    rw [pure_eq_ok] at hn hn'
    have hsame := hinjective (Draft.payload_wf hpayload) (Draft.payload_wf hpayload')
      (hn.trans hn'.symm)
    rw [Json.obj.injEq] at hsame
    exact Draft.payload_injective hpayload (hsame ▸ hpayload')
  · obtain ⟨payload, hpayload, hn⟩ := bind_eq_ok.mp ha
    obtain ⟨payload', hpayload', hn'⟩ := bind_eq_ok.mp hb
    rw [pure_eq_ok] at hn hn'
    have hsame := hinjective (IntakeEvidence.payload_wf hpayload)
      (IntakeEvidence.payload_wf hpayload') (hn.trans hn'.symm)
    rw [Json.obj.injEq] at hsame
    exact IntakeEvidence.payload_injective hpayload (hsame ▸ hpayload')
  · obtain ⟨value, hvalue, rfl⟩ := hraw
    obtain ⟨-, payload, hpayload, rfl⟩ := (draftFrom_eq_ok hvalue).mp h
    exact ⟨payload, hpayload, rfl⟩

end

namespace Sample

/-- An answer about an issue that may not be read, a branch that is unknown, and no baseline. -/
@[reducible] def answers : @Answers :=
  { issue := fun _ => .ok ⟨.inaccessible, "unknown", "unknown", "unknown"⟩
    branch := fun _ => .ok ⟨.unknown, none, none, none, none, none, none⟩
    page := fun _ _ => .ok ⟨[], none, true⟩
    change := fun _ _ => .ok ⟨⟨.unknown, none, none, none, none, none, none⟩, "", none, "", none⟩
    base := .ok none
    head := fun _ => .ok none
    treeReadable := none
    baseline := fun _ => .ok none
    now := .ok 5 }

def call : @Call Sample.distinct :=
  @Call.mk Sample.distinct selected declaration none
    ⟨"https://forge.invalid", "team/project", [], false, "reader", 4, by decide⟩ answers
    (fun issue h => ⟨8, (403, .null), (Except.ok.inj h).symm⟩) (.ok none) false id
    (fun _ => .refl _)

end Sample

/-- A draft about an issue that may not be read. -/
theorem draft_codec_inaccessible :
    @history Sample.distinct "t" (Runs.run (@next Sample.distinct "t") ⟨[], []⟩ [Sample.call]).rows =
        .ok (Runs.run (@next Sample.distinct "t") ⟨[], []⟩ [Sample.call]).recorded ∧
      (Runs.run (@next Sample.distinct "t") ⟨[], []⟩ [Sample.call]).recorded.length = 1 :=
  ⟨((@draft_codec Sample.distinct Sample.distinct_injective).2.1 "t" [Sample.call]).2
    (by decide) _ (.refl _), by decide +kernel⟩

end Meaning

end Intake

end CreatidyKernel
