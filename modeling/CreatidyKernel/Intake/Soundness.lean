import CreatidyKernel.Codec.Fingerprint
import CreatidyKernel.Intake.Reading

set_option relaxedAutoImplicit false
set_option autoImplicit false

/-!
# What a disposition stands on

That work remains authorizes new work, and one variable collects what went wrong in two scans, in
the reads of every change, in the last reads and in the receipts. Later failures overwrite earlier
ones, but none makes the variable empty again: so what an empty one says is read back through the
loops, change by change.

## Main definitions

* `Meaning.Walks`, `Meaning.Complete`, `Meaning.Examined` — walks over the pages of changes, those
  that are complete, and the items that a walk looks at.
* `Meaning.Remaining` — the grounds for saying that work remains.
* `Meaning.Observed` — what the answers of the forge that a read looks at say of their subjects.

## Main results

* `Meaning.scan_complete` — a scan without a failure is a complete walk.
* `Meaning.weighFrom_harmless` — changes that leave nothing open.
* `Meaning.disposition_sound` — what each disposition says about the answers.
-/

namespace CreatidyKernel

namespace Intake

namespace Meaning

open Checked

/-! ## Walks -/

section Walks

variable {page : ℕ → Except Failure Page} {bound : ℕ}

variable (page bound) in
/-- A walk that asks for another page: the number of that page, the references so far and the
cursors that it has followed. -/
inductive Walks : ℕ → List Reference → List String → Prop
  | start : Walks 0 [] []
  | next {number : ℕ} {references references' : List Reference} {seen : List String} {answer : Page}
      {cursor : String} :
    Walks number references seen → number < bound → page number = .ok answer →
      collect answer.items references = .ok references' → answer.nextCursor = some cursor →
        cursor ∉ seen → Walks (number + 1) references' (cursor :: seen)

/-- A complete walk within the bound. -/
def Complete (page : ℕ → Except Failure Page) (bound : ℕ) (references : List Reference) : Prop :=
  ∃ number before seen answer, Walks page bound number before seen ∧ number < bound ∧
    page number = .ok answer ∧ collect answer.items before = .ok references ∧
      answer.complete = true ∧ answer.nextCursor = none

/-- An item that a walk looks at: those before it were found, each for the first time. -/
def Examined (page : ℕ → Except Failure Page) (bound : ℕ) (item : Observation) : Prop :=
  ∃ number references seen answer before after references', Walks page bound number references seen ∧
    number < bound ∧ page number = .ok answer ∧ answer.items = before ++ item :: after ∧
      collect before references = .ok references'

theorem collect_cons {item : Observation} {items : List Observation} {references : List Reference} :
    collect (item :: items) references =
      if item.presence = .inaccessible then .error .permission
      else
        match item.presence, item.reference with
        | .found, some reference =>
          if reference ∈ references then .error .incomplete
          else collect items (references ++ [reference])
        | _, _ => .error .incomplete :=
  rfl

theorem collect_append {before after : List Observation} : ∀ {references references' : List Reference},
    collect before references = .ok references' →
      collect (before ++ after) references = collect after references' := by
  induction before with
  | nil =>
    intro references references' h
    cases h
    rfl
  | cons item before ih =>
    intro references references' h
    rw [collect_cons] at h
    rw [List.cons_append, collect_cons]
    split_ifs at h ⊢ with hitem
    split at h
    · split_ifs at h ⊢ with hseen
      exact ih h
    · cases h

theorem scanFrom_succ {left number : ℕ} {references : List Reference} {seen : List String}
    {answer : Page} (h : page number = .ok answer) :
    scanFrom page (left + 1) number references seen =
      match collect answer.items references with
      | .error failure => .ok ([], some failure)
      | .ok references =>
        if answer.complete = true ∧ answer.nextCursor = none then .ok (references, none)
        else
          match answer.nextCursor with
          | none => .ok ([], some .incomplete)
          | some cursor =>
            if cursor ∈ seen then .ok ([], some .incomplete)
            else scanFrom page left (number + 1) references (cursor :: seen) := by
  rw [scanFrom, h]
  rfl

/-- A scan is, from every page that its walk asks for, the scan from there. -/
theorem Walks.scanFrom_eq {number : ℕ} {references : List Reference} {seen : List String}
    (h : Walks page bound number references seen) :
    number ≤ bound ∧
      scanFrom page bound 0 [] [] = scanFrom page (bound - number) number references seen := by
  induction h with
  | start => exact ⟨Nat.zero_le _, rfl⟩
  | @next number references references' seen answer cursor _ hbound hpage hcollect hcursor hseen ih =>
    refine ⟨hbound, ih.2.trans ?_⟩
    obtain ⟨left, hleft⟩ : ∃ left, bound - number = left + 1 := ⟨bound - number - 1, by omega⟩
    have hrest : bound - (number + 1) = left := by omega
    rw [hleft, hrest, scanFrom_succ hpage, hcollect]
    dsimp only
    rw [if_neg (by rw [hcursor]; exact fun hc => nomatch hc.2), hcursor]
    exact if_neg hseen

/-- The last step of a scan. -/
theorem Walks.scan_eq {number : ℕ} {references : List Reference} {seen : List String}
    (h : Walks page bound number references seen) (hbound : number < bound) :
    scanFrom page bound 0 [] [] =
      scanFrom page (bound - number - 1 + 1) number references seen := by
  rw [h.scanFrom_eq.2]
  congr 1
  omega

/-- A scan from a page on that has no failure ends a walk. -/
theorem complete_of_scanFrom {left : ℕ} : ∀ {number : ℕ} {references result : List Reference}
    {seen : List String}, Walks page bound number references seen → number + left = bound →
      scanFrom page left number references seen = .ok (result, none) →
        Complete page bound result := by
  induction left with
  | zero =>
    intro number references result seen _ _ h
    cases h
  | succ left ih =>
    intro number references result seen hwalks hbound h
    obtain ⟨answer, hpage, -⟩ := bind_eq_ok.mp h
    rw [scanFrom_succ hpage] at h
    cases hcollect : collect answer.items references with
    | error failure =>
      rw [hcollect] at h
      cases h
    | ok found =>
      rw [hcollect] at h
      dsimp only at h
      split_ifs at h with hdone
      · cases h
        exact ⟨number, references, seen, answer, hwalks, by omega, hpage, hcollect, hdone.1, hdone.2⟩
      · cases hcursor : answer.nextCursor with
        | none =>
          rw [hcursor] at h
          cases h
        | some cursor =>
          rw [hcursor] at h
          dsimp only at h
          split_ifs at h with hseen
          · cases h
          · exact ih (hwalks.next (by omega) hpage hcollect hcursor hseen) (by omega) h

/-- A scan without a failure is a complete walk. -/
theorem scan_complete {references : List Reference} :
    scanFrom page bound 0 [] [] = .ok (references, none) ↔ Complete page bound references := by
  constructor
  · exact complete_of_scanFrom .start (Nat.zero_add _)
  · rintro ⟨number, before, seen, answer, hwalks, hbound, hpage, hcollect, hcomplete, hcursor⟩
    rw [hwalks.scan_eq hbound, scanFrom_succ hpage, hcollect]
    exact if_pos ⟨hcomplete, hcursor⟩

/-- An inaccessible item that a walk looks at is a lack of permission. -/
theorem scan_inaccessible {item : Observation} (h : Examined page bound item)
    (hitem : item.presence = .inaccessible) :
    scanFrom page bound 0 [] [] = .ok ([], some .permission) := by
  obtain ⟨number, references, seen, answer, before, after, references', hwalks, hbound, hpage,
    hitems, hcollect⟩ := h
  have herror : collect answer.items references = .error .permission := by
    rw [hitems, collect_append hcollect, collect, if_pos hitem]
  rw [hwalks.scan_eq hbound, scanFrom_succ hpage, herror]

end Walks

section Reads

/-! ## Changes -/

variable {r : Reader} {w : Answers} {subject : IssueSubject} {declaration : Declaration}

/-- A change that leaves nothing open: it was found, and if it is open and targets the branch of
the subject, its head is known not to meet the criteria on top of the base. -/
structure Harmless (w : Answers) (subject : IssueSubject) (number : ℕ) (s : ChangeSnapshot) :
    Prop where
  found : s.observation.presence = .found
  target : s.targetBranch ≠ none
  head : s.state = "open" → s.targetBranch = some subject.branch →
    s.observation.head ≠ none ∧
      s.observation.base.map Subtype.val = some ("forgejo:" ++ subject.base) ∧
        w.head number = .ok (some false)

/-- Nothing is left open. -/
def Tally.Empty (t : Tally) : Prop :=
  t.incomplete = none ∧ t.active = false ∧ t.unresolved = false

/-- A step of the loop leaves nothing open only for a change that does. -/
theorem weigh_empty {ref : Reference} {s : ChangeSnapshot} {matched : Option Bool} {t : Tally}
    (h : (weigh subject ref s matched t).Empty) :
    t.Empty ∧ s.observation.presence = .found ∧ s.targetBranch ≠ none ∧
      (s.state = "open" → s.targetBranch = some subject.branch →
        asksHead subject s ∧ matched = some false) := by
  unfold weigh at h
  extract_lets entry t' at h
  split_ifs at h with h1 h2 h3 h4
  · exact absurd h.1 nofun
  · exact absurd h.1 nofun
  · obtain ⟨hincomplete, hactive, hunresolved⟩ := h
    rw [not_or, not_not] at h2
    simp only [Bool.or_eq_false_iff, beq_eq_false_iff_ne, ne_eq, t'] at hactive hunresolved
    refine ⟨⟨hincomplete, hactive.1, hunresolved.1⟩, h2.1, h2.2, fun _ _ => ⟨h4, ?_⟩⟩
    rcases matched with _ | _ | _
    · exact absurd rfl hunresolved.2
    · rfl
    · exact absurd rfl hactive.2
  · exact absurd h.2.2 nofun
  · rw [not_or, not_not] at h2
    exact ⟨h, h2.1, h2.2, fun ho ht => absurd ⟨ho, ht⟩ h3⟩

/-- Changes that leave nothing open. -/
theorem weighFrom_harmless {t' : Tally} (ht : t'.Empty)
    {l : List (Reference × ChangeSnapshot)} : ∀ {number : ℕ} {t : Tally},
    weighFrom r w subject number l t = .ok t' →
      t.Empty ∧ ∀ i p, l[i]? = some p → Harmless w subject (number + i) p.2 := by
  induction l with
  | nil =>
    intro number t h
    cases h
    exact ⟨ht, by simp⟩
  | cons p l ih =>
    intro number t h
    obtain ⟨ref, s⟩ := p
    obtain ⟨result, hresult, h⟩ := bind_eq_ok.mp h
    obtain ⟨hempty, hrest⟩ := ih h
    obtain ⟨ht, hfound, htarget, hhead⟩ := weigh_empty hempty
    refine ⟨ht, fun i p hp => ?_⟩
    cases i with
    | zero =>
      cases hp
      refine ⟨hfound, htarget, fun hopen hbranch => ?_⟩
      obtain ⟨hasks, hfalse⟩ := hhead hopen hbranch
      unfold matched at hresult
      split_ifs at hresult with hask
      · exact ⟨hasks.2.2.2.1, hasks.2.2.2.2, hfalse ▸ hresult⟩
      · rw [hfalse] at hresult
        cases hresult
    | succ i =>
      rw [List.getElem?_cons_succ] at hp
      have := hrest i p hp
      rwa [Nat.add_assoc, Nat.add_comm 1 i] at this

/-- The changes that were read, by their number. -/
theorem snapshots_eq_ok {change : ℕ → Except Failure ChangeSnapshot} {refs : List Reference}
    {states : List ChangeSnapshot} (h : snapshots change refs = .ok states) :
    states.length = refs.length ∧ ∀ i s, states[i]? = some s → change i = .ok s := by
  have hall := mapM_eq_ok.mp h
  have hlength := hall.length_eq
  rw [List.length_range] at hlength
  refine ⟨hlength.symm, fun i s hs => ?_⟩
  obtain ⟨hi, rfl⟩ := List.getElem?_eq_some_iff.mp hs
  have := hall.get (by simpa [hlength] using hi) hi
  simpa using this

/-- The receipt stands at a time. -/
structure Stands (subject : IssueSubject) (recipe : String) (now : ℤ) (b : BaselineSnapshot) :
    Prop where
  relevant : b.subject = subject ∧ b.recipeDigest = recipe
  past : ∃ observedAt, b.observedAt = .int observedAt ∧ 0 < observedAt ∧ observedAt ≤ now
  result : b.result = .str "passed" ∨ b.result = .str "failed"
  named : ∃ producer reference, b.producer = .str producer ∧ b.reference = .str reference ∧
    Nonblank producer ∧ Nonblank reference

theorem standing_eq_some {recipe : String} {now : ℤ} {b : BaselineSnapshot} {v : Standing}
    (h : standing subject recipe now b = some v) : Stands subject recipe now b := by
  unfold standing at h
  split at h
  · next producer reference result observedAt hproducer hreference hresult hobserved =>
    split_ifs at h with hb
    obtain ⟨hrelevant, hpositive, hpast, hp, hr, hdefinite⟩ := hb
    exact ⟨hrelevant, ⟨observedAt, hobserved, hpositive, hpast⟩, hresult ▸ hdefinite,
      producer, reference, hproducer, hreference, hp, hr⟩
  · cases h

/-- Two receipts that establish something stand both. -/
theorem receipt_eq_some {recipe : String} {now : ℤ} {opening closing : Option BaselineSnapshot}
    {v : Standing} (h : receipt subject recipe now opening closing = some v) :
    ∃ b c, opening = some b ∧ closing = some c ∧ SameReceipt b c ∧ Stands subject recipe now b ∧
      Stands subject recipe now c := by
  obtain ⟨b, hb, h⟩ := Option.bind_eq_some_iff.mp h
  obtain ⟨c, hc, h⟩ := Option.bind_eq_some_iff.mp h
  obtain ⟨_, hsame, h⟩ := Option.bind_eq_some_iff.mp h
  obtain ⟨first, hfirst, h⟩ := Option.bind_eq_some_iff.mp h
  obtain ⟨last, hlast, -⟩ := Option.bind_eq_some_iff.mp h
  refine ⟨b, c, hb, hc, ?_, standing_eq_some hfirst, standing_eq_some hlast⟩
  by_contra hn
  rw [guard, if_neg hn] at hsame
  cases hsame

/-! ## Failures -/

/-- A failure of a scan or of a read, if there is one. -/
def Setback (failure : Option Disposition) : Prop :=
  ∀ d ∈ failure, d = .permission ∨ d = .incomplete

theorem setback_permission : Setback (some .permission) := by simp [Setback]

theorem setback_incomplete : Setback (some .incomplete) := by simp [Setback]

theorem setback_none : Setback none := by simp [Setback]

theorem collect_setback {items : List Observation} : ∀ {references : List Reference}
    {failure : Disposition}, collect items references = .error failure → Setback (some failure) := by
  induction items with
  | nil =>
    intro references failure h
    cases h
  | cons item items ih =>
    intro references failure h
    rw [collect_cons] at h
    split_ifs at h with hitem
    · cases h
      exact setback_permission
    · split at h
      · split_ifs at h with hseen
        · cases h
          exact setback_incomplete
        · exact ih h
      · cases h
        exact setback_incomplete

theorem scanFrom_setback {page : ℕ → Except Failure Page} {left : ℕ} : ∀ {number : ℕ}
    {references result : List Reference} {seen : List String} {failure : Option Disposition},
    scanFrom page left number references seen = .ok (result, failure) → Setback failure := by
  induction left with
  | zero =>
    intro number references result seen failure h
    cases h
    exact setback_incomplete
  | succ left ih =>
    intro number references result seen failure h
    obtain ⟨answer, hpage, -⟩ := bind_eq_ok.mp h
    rw [scanFrom_succ hpage] at h
    split at h
    · next hcollect =>
      cases h
      exact collect_setback hcollect
    · split_ifs at h with hdone
      · cases h
        exact setback_none
      · split at h
        · cases h
          exact setback_incomplete
        · split_ifs at h with hseen
          · cases h
            exact setback_incomplete
          · exact ih h

theorem weigh_setback {ref : Reference} {s : ChangeSnapshot} {matched : Option Bool} {t : Tally}
    (h : Setback t.incomplete) : Setback (weigh subject ref s matched t).incomplete := by
  unfold weigh
  extract_lets entry t'
  split_ifs with h1 h2 h3 h4
  · exact setback_permission
  · exact setback_incomplete
  · exact h
  · exact h
  · exact h

theorem weighFrom_setback {t' : Tally} {l : List (Reference × ChangeSnapshot)} : ∀ {number : ℕ}
    {t : Tally}, weighFrom r w subject number l t = .ok t' → Setback t.incomplete →
      Setback t'.incomplete := by
  induction l with
  | nil =>
    intro number t h ht
    cases h
    exact ht
  | cons p l ih =>
    intro number t h ht
    obtain ⟨ref, s⟩ := p
    obtain ⟨result, -, h⟩ := bind_eq_ok.mp h
    exact ih h (weigh_setback ht)

theorem gap_setback {initial changed incomplete : Option Disposition} {refs again : List Reference}
    {states closing : List ChangeSnapshot} (hincomplete : Setback incomplete)
    (hchanged : Setback changed) :
    Setback (gap initial changed incomplete refs again states closing) := by
  unfold gap
  split_ifs with h1 h2
  · exact setback_permission
  · exact setback_incomplete
  · intro d hd
    rcases Option.or_eq_some_iff.mp hd with h | ⟨-, h⟩
    · exact hincomplete d h
    · exact hchanged d h

/-- The two scans and the two reads of the changes agree. -/
theorem gap_eq_none {initial changed incomplete : Option Disposition} {refs again : List Reference}
    {states closing : List ChangeSnapshot}
    (h : gap initial changed incomplete refs again states closing = none) :
    refs = again ∧ states = closing ∧ incomplete = none ∧ changed = none := by
  unfold gap at h
  split_ifs at h with h1 h2
  rw [not_or, not_not, not_not] at h2
  rw [Option.or_eq_none_iff] at h
  exact ⟨h2.1, h2.2, h.1, h.2⟩

/-! ## The comparison -/

theorem compared_remains {recipe : String} {baseline : Option BaselineSnapshot} {readable : Bool}
    {implemented : Option Bool} {active unresolved : Bool} {incomplete : Option Disposition}
    (hincomplete : Setback incomplete)
    (h : compared r subject recipe baseline readable implemented active unresolved incomplete =
      .remains) :
    incomplete = none ∧ implemented ≠ some true ∧ active = false ∧ unresolved = false := by
  unfold compared at h
  split at h
  · subst h
    exact absurd (hincomplete _ rfl) (by simp)
  · split_ifs at h with h1 h2 h3 h4 h5
    exact ⟨rfl, h2, by simpa using h3, by simpa using h4⟩

/-- What the comparison has seen when it finds that work remains. -/
theorem survey_remains {recipe : String} {baseline : Option BaselineSnapshot} {proof : List Json}
    (h : survey r w subject recipe baseline = .ok (.remains, proof)) :
    r.inventoryOnly = false ∧ w.base = .ok (some false) ∧
      ∃ (refs : List Reference) (states : List ChangeSnapshot),
        (∀ round, Complete (w.page round) r.maxPages refs) ∧ states.length = refs.length ∧
          (∀ round i s, states[i]? = some s → w.change round i = .ok s) ∧
            ∀ i s, states[i]? = some s → Harmless w subject i s := by
  obtain ⟨readable, -, h⟩ := bind_eq_ok.mp h
  obtain ⟨content, hcontent, h⟩ := bind_eq_ok.mp h
  obtain ⟨⟨refs, initial⟩, hopening, h⟩ := bind_eq_ok.mp h
  obtain ⟨states, hstates, h⟩ := bind_eq_ok.mp h
  obtain ⟨tally, htally, h⟩ := bind_eq_ok.mp h
  obtain ⟨⟨again, changed⟩, hagain, h⟩ := bind_eq_ok.mp h
  obtain ⟨closing, hclosing, h⟩ := bind_eq_ok.mp h
  rw [pure_eq_ok, Prod.mk.injEq] at h
  have hinitial : Setback initial := scanFrom_setback hopening
  have hgap : Setback (gap initial changed tally.incomplete refs again states closing) :=
    gap_setback (weighFrom_setback htally hinitial) (scanFrom_setback hagain)
  obtain ⟨hnone, hbase, hactive, hunresolved⟩ := compared_remains hgap h.1
  obtain ⟨rfl, rfl, hincomplete, rfl⟩ := gap_eq_none hnone
  obtain ⟨⟨rfl, -, hknown⟩, hharmless⟩ :=
    weighFrom_harmless ⟨hincomplete, hactive, hunresolved⟩ htally
  obtain ⟨hlength, hopened⟩ := snapshots_eq_ok hstates
  obtain ⟨-, hclosed⟩ := snapshots_eq_ok hclosing
  have hfalse : content = some false := by
    rcases content with _ | _ | _
    · exact absurd rfl (beq_eq_false_iff_ne.mp hknown)
    · rfl
    · exact absurd rfl hbase
  have hasked : r.inventoryOnly = false ∧ w.base = .ok (some false) := by
    unfold implemented at hcontent
    split_ifs at hcontent with hr
    · rw [hfalse] at hcontent
      cases hcontent
    · exact ⟨Bool.eq_false_iff.mpr hr, hfalse ▸ hcontent⟩
  refine ⟨hasked.1, hasked.2, refs, states, fun round => ?_, hlength, fun round i s hs => ?_,
    fun i s hs => ?_⟩
  · cases round with
    | opening => exact scan_complete.mp hopening
    | closing => exact scan_complete.mp hagain
  · cases round with
    | opening => exact hopened i s hs
    | closing => exact hclosed i s hs
  · obtain ⟨hi, rfl⟩ := List.getElem?_eq_some_iff.mp hs
    have hzip : (refs.zip states)[i]? = some (refs.get ⟨i, hlength ▸ hi⟩, states[i]) := by
      rw [List.getElem?_eq_some_iff]
      exact ⟨by simp [← hlength, hi], by simp⟩
    simpa using hharmless i _ hzip

/-- A comparison that looked at something inaccessible lacks a permission. -/
theorem survey_permission {recipe : String} {baseline : Option BaselineSnapshot}
    {d : Disposition} {proof : List Json} (h : survey r w subject recipe baseline = .ok (d, proof))
    (hseen : ∃ round, (∃ item, Examined (w.page round) r.maxPages item ∧
        item.presence = .inaccessible) ∨
      ∃ refs i s, Complete (w.page round) r.maxPages refs ∧ i < refs.length ∧
        w.change round i = .ok s ∧ s.observation.presence = .inaccessible) :
    d = .permission := by
  obtain ⟨readable, -, h⟩ := bind_eq_ok.mp h
  obtain ⟨content, -, h⟩ := bind_eq_ok.mp h
  obtain ⟨⟨refs, initial⟩, hopening, h⟩ := bind_eq_ok.mp h
  obtain ⟨states, hstates, h⟩ := bind_eq_ok.mp h
  obtain ⟨tally, -, h⟩ := bind_eq_ok.mp h
  obtain ⟨⟨again, changed⟩, hagain, h⟩ := bind_eq_ok.mp h
  obtain ⟨closing, hclosing, h⟩ := bind_eq_ok.mp h
  rw [pure_eq_ok, Prod.mk.injEq] at h
  have hread {change : ℕ → Except Failure ChangeSnapshot} {refs : List Reference}
      {states : List ChangeSnapshot} {i : ℕ} {s : ChangeSnapshot}
      (hstates : snapshots change refs = .ok states) (hi : i < refs.length)
      (hs : change i = .ok s) : s ∈ states := by
    obtain ⟨hlength, hall⟩ := snapshots_eq_ok hstates
    have hget := List.getElem?_eq_getElem (hlength ▸ hi)
    obtain rfl := Except.ok.inj ((hall i _ hget).symm.trans hs)
    exact List.getElem_mem _
  have hgap : gap initial changed tally.incomplete refs again states closing =
      some .permission := by
    refine if_pos ?_
    obtain ⟨round, ⟨item, hitem, hi⟩ | ⟨found, i, s, hcomplete, hlt, hs, hi⟩⟩ := hseen
    · have hscan := scan_inaccessible hitem hi
      cases round with
      | opening => exact .inl (Prod.mk.inj (Except.ok.inj (hopening.symm.trans hscan))).2
      | closing => exact .inr (.inl (Prod.mk.inj (Except.ok.inj (hagain.symm.trans hscan))).2)
    · have hscan := scan_complete.mpr hcomplete
      refine .inr (.inr ⟨s, List.mem_append.mpr ?_, hi⟩)
      cases round with
      | opening =>
        obtain ⟨rfl, rfl⟩ := Prod.mk.inj (Except.ok.inj (hopening.symm.trans hscan))
        exact .inl (hread hstates hlt hs)
      | closing =>
        obtain ⟨rfl, rfl⟩ := Prod.mk.inj (Except.ok.inj (hagain.symm.trans hscan))
        exact .inr (hread hclosing hlt hs)
  rw [hgap] at h
  exact h.1.symm

/-! ## Dispositions -/

/-- What is found again and has not moved is the same. -/
theorem eq_of_moved {α : Type} [DecidableEq α] {presence : α → Presence} {first last : α}
    (h : moved presence first last = false) (hfirst : presence first = .found)
    (hlast : presence last = .found) : first = last := by
  simpa [moved, hfirst, hlast] using h

theorem closed_remains {d : Disposition} {issue closingIssue : IssueSnapshot}
    {branch closingBranch : Observation}
    (h : closed d issue closingIssue branch closingBranch = .remains) :
    d = .remains ∧ moved IssueSnapshot.presence issue closingIssue = false ∧
      moved Observation.presence branch closingBranch = false ∧
        closingIssue.presence = .found ∧ closingBranch.presence = .found := by
  unfold closed at h
  split_ifs at h with h1 h2 h3
  subst h
  simp only [not_or, Bool.not_eq_true] at h2
  simp only [ne_eq, reduceCtorEq, not_false_eq_true, true_and, not_or, not_not] at h3
  exact ⟨rfl, h2.1, h2.2, h3.1, h3.2⟩

/-- A disposition that depends on what was found at first is kept back when that has moved. -/
theorem closed_moved {d : Disposition} {issue closingIssue : IssueSnapshot}
    {branch closingBranch : Observation}
    (hd : issue.presence ≠ .found ∨ branch.presence ≠ .found → d = .permission ∨ d = .incomplete)
    (h : issue ≠ closingIssue ∨ branch ≠ closingBranch ∨ closingIssue.presence ≠ .found ∨
      closingBranch.presence ≠ .found) :
    closed d issue closingIssue branch closingBranch ∈
      [Disposition.permission, .stale, .incomplete] := by
  unfold closed
  split_ifs with h1 h2 h3
  · simp
  · simp
  · simp
  · by_cases hstale : d = .stale
    · simp [hstale]
    · have hclosing : closingIssue.presence = .found ∧ closingBranch.presence = .found := by
        by_contra hn
        exact h3 ⟨hstale, by rwa [not_and_or] at hn⟩
      have hopening : issue.presence ≠ .found ∨ branch.presence ≠ .found := by
        by_contra hn
        rw [not_or, not_not, not_not] at hn
        simp only [moved, decide_eq_true_eq, not_or, not_and, not_not] at h2
        rcases h with h | h | h | h
        · exact h (h2.1 hn.1 hclosing.1)
        · exact h (h2.2 hn.2 hclosing.2)
        · exact h hclosing.1
        · exact h hclosing.2
      rcases hd hopening with rfl | rfl <;> simp

/-- What the part between the first reads and the last comes to. -/
theorem judged_eq_ok {recipe : String} {issue : IssueSnapshot} {branch : Observation}
    {baseline : Option BaselineSnapshot} {d : Disposition} {proof : List Json}
    (h : judged r w subject declaration recipe issue branch baseline = .ok (d, proof)) :
    ∃ criteria, strings false (Codec.getField declaration.value "criteria") = .ok criteria ∧
      ((issue.presence ≠ .found ∨ branch.presence ≠ .found) ∧ (d = .permission ∨ d = .incomplete) ∨
        issue.presence = .found ∧ branch.presence = .found ∧
          (sourceRevision branch ≠ subject.base ∧ d = .stale ∨
            sourceRevision branch = subject.base ∧
              ((r.criteria.map ContentCriterion.criterion = criteria ∨ r.inventoryOnly = true) ∧
                  survey r w subject recipe baseline = .ok (d, proof) ∨
                ¬(r.criteria.map ContentCriterion.criterion = criteria ∨ r.inventoryOnly = true) ∧
                  d = .equivalence))) := by
  obtain ⟨criteria, hcriteria, h⟩ := bind_eq_ok.mp h
  refine ⟨criteria, hcriteria, ?_⟩
  split_ifs at h with h1 h2 h3 h4
  · cases h
    refine .inl ⟨?_, .inl rfl⟩
    rcases h1 with h1 | h1
    · exact .inl (by rw [h1]; decide)
    · exact .inr (by rw [h1]; decide)
  · cases h
    exact .inl ⟨h2, .inr rfl⟩
  · cases h
    rw [not_or, not_not, not_not] at h2
    exact .inr ⟨h2.1, h2.2, .inl ⟨h3, rfl⟩⟩
  · rw [not_or, not_not, not_not] at h2
    exact .inr ⟨h2.1, h2.2, .inr ⟨not_not.mp h3, .inl ⟨h4, h⟩⟩⟩
  · cases h
    rw [not_or, not_not, not_not] at h2
    exact .inr ⟨h2.1, h2.2, .inr ⟨not_not.mp h3, .inr ⟨h4, rfl⟩⟩⟩

section

variable [Sha256]

/-- The digest of the recipes of a declaration. -/
def recipeOf (declaration : Declaration) : String :=
  (digest (Codec.getField declaration.value "recipes")).val

/-- The grounds for saying that work remains: the issue and the branch were found, the same at both
reads and at the base; both scans were complete, with the same changes, each the same at both
reads and harmless; the base is known not to meet the criteria; and both receipts stand. -/
structure Remaining (r : Reader) (w : Answers) (subject : IssueSubject) (declaration : Declaration)
    (refs : List Reference) (states : List ChangeSnapshot) : Prop where
  issue : ∃ issue, w.issue .opening = .ok issue ∧ w.issue .closing = .ok issue ∧
    issue.presence = .found
  branch : ∃ branch, w.branch .opening = .ok branch ∧ w.branch .closing = .ok branch ∧
    branch.presence = .found ∧ sourceRevision branch = subject.base
  scans : ∀ round, Complete (w.page round) r.maxPages refs
  changes : states.length = refs.length ∧
    ∀ round i s, states[i]? = some s → w.change round i = .ok s
  base : r.inventoryOnly = false ∧ w.base = .ok (some false)
  harmless : ∀ i s, states[i]? = some s → Harmless w subject i s
  receipts : ∃ b c now, w.baseline .opening = .ok (some b) ∧ w.baseline .closing = .ok (some c) ∧
    w.now = .ok now ∧ SameReceipt b c ∧ Stands subject (recipeOf declaration) now b ∧
      Stands subject (recipeOf declaration) now c

/-- The reader compares the changes with the criteria. -/
def Surveys (r : Reader) (w : Answers) (subject : IssueSubject) (declaration : Declaration) : Prop :=
  ∃ issue branch criteria, w.issue .opening = .ok issue ∧ w.branch .opening = .ok branch ∧
    issue.presence = .found ∧ branch.presence = .found ∧ sourceRevision branch = subject.base ∧
      strings false (Codec.getField declaration.value "criteria") = .ok criteria ∧
        (r.criteria.map ContentCriterion.criterion = criteria ∨ r.inventoryOnly = true)

/-- What an answer of the forge that a read looks at says of its subject. -/
inductive Observed (r : Reader) (w : Answers) (subject : IssueSubject) (declaration : Declaration) :
    Presence → Prop
  | issue {round : Round} {issue : IssueSnapshot} :
    w.issue round = .ok issue → Observed r w subject declaration issue.presence
  | branch {round : Round} {branch : Observation} :
    w.branch round = .ok branch → Observed r w subject declaration branch.presence
  | item {round : Round} {item : Observation} : Surveys r w subject declaration →
    Examined (w.page round) r.maxPages item → Observed r w subject declaration item.presence
  | change {round : Round} {refs : List Reference} {i : ℕ} {s : ChangeSnapshot} :
    Surveys r w subject declaration → Complete (w.page round) r.maxPages refs → i < refs.length →
      w.change round i = .ok s → Observed r w subject declaration s.observation.presence

/-- What a read was told, and what it came to. -/
structure Report (r : Reader) (w : Answers) (subject : IssueSubject) (declaration : Declaration)
    (e : IntakeEvidence) where
  issue : IssueSnapshot
  closingIssue : IssueSnapshot
  branch : Observation
  closingBranch : Observation
  baseline : Option BaselineSnapshot
  closingBaseline : Option BaselineSnapshot
  now : ℤ
  disposition : Disposition
  proof : List Json
  issueTold : w.issue .opening = .ok issue ∧ w.issue .closing = .ok closingIssue
  branchTold : w.branch .opening = .ok branch ∧ w.branch .closing = .ok closingBranch
  baselineTold : w.baseline .opening = .ok baseline ∧ w.baseline .closing = .ok closingBaseline
  nowTold : w.now = .ok now
  judged : judged r w subject declaration (recipeOf declaration) issue branch baseline =
    .ok (disposition, proof)
  result : e.disposition =
    if receipt subject (recipeOf declaration) now baseline closingBaseline = none ∧
        closed disposition issue closingIssue branch closingBranch = .remains then .baseline
    else closed disposition issue closingIssue branch closingBranch

theorem read_report {e : IntakeEvidence} (h : read r w subject declaration = .ok e) :
    Nonempty (Report r w subject declaration e) := by
  obtain ⟨-, h⟩ := check_bind_eq_ok.mp h
  obtain ⟨issue, hissue, h⟩ := bind_eq_ok.mp h
  obtain ⟨branch, hbranch, h⟩ := bind_eq_ok.mp h
  obtain ⟨baseline, hbaseline, h⟩ := bind_eq_ok.mp h
  obtain ⟨⟨d, proof⟩, hjudged, h⟩ := bind_eq_ok.mp h
  obtain ⟨closingIssue, hclosingIssue, h⟩ := bind_eq_ok.mp h
  obtain ⟨closingBranch, hclosingBranch, h⟩ := bind_eq_ok.mp h
  obtain ⟨closingBaseline, hclosingBaseline, h⟩ := bind_eq_ok.mp h
  obtain ⟨now, hnow, h⟩ := bind_eq_ok.mp h
  cases h
  exact ⟨⟨issue, closingIssue, branch, closingBranch, baseline, closingBaseline, now, d, proof,
    ⟨hissue, hclosingIssue⟩, ⟨hbranch, hclosingBranch⟩, ⟨hbaseline, hclosingBaseline⟩, hnow, hjudged,
    rfl⟩⟩

namespace Report

variable {e : IntakeEvidence}

/-- Work remains only on its grounds. -/
theorem remaining (t : Report r w subject declaration e) (h : e.disposition = .remains) :
    ∃ refs states, Remaining r w subject declaration refs states := by
  rw [t.result] at h
  split_ifs at h with hvalid
  obtain ⟨v, hv⟩ := Option.ne_none_iff_exists'.mp fun hn => hvalid ⟨hn, h⟩
  obtain ⟨b, c, hb, hc, hreceipts⟩ := receipt_eq_some hv
  obtain ⟨hremains, hissueSame, hbranchSame, hissueFound, hbranchFound⟩ := closed_remains h
  have hjudged := t.judged
  rw [hremains] at hjudged
  obtain ⟨criteria, -, ⟨-, hd⟩ | ⟨hissue, hbranch, ⟨-, hd⟩ | ⟨hbase, ⟨-, hsurvey⟩ | ⟨-, hd⟩⟩⟩⟩ :=
    judged_eq_ok hjudged
  · exact absurd hd (by simp)
  · cases hd
  · obtain ⟨hinventory, hfalse, refs, states, hscans, hlength, hchanges, hharmless⟩ :=
      survey_remains hsurvey
    have hclosingIssue := t.issueTold.2
    rw [← eq_of_moved hissueSame hissue hissueFound] at hclosingIssue
    have hclosingBranch := t.branchTold.2
    rw [← eq_of_moved hbranchSame hbranch hbranchFound] at hclosingBranch
    exact ⟨refs, states, ⟨t.issue, t.issueTold.1, hclosingIssue, hissue⟩,
      ⟨t.branch, t.branchTold.1, hclosingBranch, hbranch, hbase⟩, hscans, ⟨hlength, hchanges⟩,
      ⟨hinventory, hfalse⟩, hharmless, b, c, t.now, hb ▸ t.baselineTold.1, hc ▸ t.baselineTold.2,
      t.nowTold, hreceipts⟩
  · cases hd

/-- The comparison was made if the answers call for it. -/
theorem surveys (t : Report r w subject declaration e) (h : Surveys r w subject declaration) :
    survey r w subject (recipeOf declaration) t.baseline = .ok (t.disposition, t.proof) := by
  obtain ⟨issue, branch, criteria, hissue, hbranch, hi, hb, hbase, hcriteria, hr⟩ := h
  obtain rfl := Except.ok.inj (t.issueTold.1.symm.trans hissue)
  obtain rfl := Except.ok.inj (t.branchTold.1.symm.trans hbranch)
  obtain ⟨criteria', hcriteria', hcases⟩ := judged_eq_ok t.judged
  obtain rfl := Except.ok.inj (hcriteria.symm.trans hcriteria')
  rcases hcases with ⟨hn, -⟩ | ⟨-, -, ⟨hn, -⟩ | ⟨-, ⟨-, hsurvey⟩ | ⟨hn, -⟩⟩⟩
  · exact absurd hn (by simp [hi, hb])
  · exact absurd hbase hn
  · exact hsurvey
  · exact absurd hr hn

/-- Something inaccessible is a lack of permission. -/
theorem permission (t : Report r w subject declaration e) {p : Presence}
    (h : Observed r w subject declaration p) (hp : p = .inaccessible) :
    e.disposition = .permission := by
  have hclosed : closed t.disposition t.issue t.closingIssue t.branch t.closingBranch =
      .permission := by
    refine if_pos ?_
    cases h with
    | @issue round seen hseen =>
      cases round with
      | opening =>
        obtain rfl := Except.ok.inj (t.issueTold.1.symm.trans hseen)
        simp [hp]
      | closing =>
        obtain rfl := Except.ok.inj (t.issueTold.2.symm.trans hseen)
        simp [hp]
    | @branch round seen hseen =>
      cases round with
      | opening =>
        obtain rfl := Except.ok.inj (t.branchTold.1.symm.trans hseen)
        simp [hp]
      | closing =>
        obtain rfl := Except.ok.inj (t.branchTold.2.symm.trans hseen)
        simp [hp]
    | @item round item hs hitem =>
      exact .inl (survey_permission (t.surveys hs) ⟨round, .inl ⟨item, hitem, hp⟩⟩)
    | @change round refs i s hs hcomplete hi hread =>
      exact .inl (survey_permission (t.surveys hs)
        ⟨round, .inr ⟨refs, i, s, hcomplete, hi, hread, hp⟩⟩)
  rw [t.result, hclosed]
  exact if_neg (by simp)

/-- What has moved is not reported on. -/
theorem moved (t : Report r w subject declaration e)
    (h : t.issue ≠ t.closingIssue ∨ t.branch ≠ t.closingBranch ∨ t.closingIssue.presence ≠ .found ∨
      t.closingBranch.presence ≠ .found) :
    e.disposition ∈ [Disposition.permission, .stale, .incomplete] := by
  have hclosed := closed_moved (d := t.disposition) (fun hn => ?_) h
  · rw [t.result, if_neg]
    · exact hclosed
    · rintro ⟨-, hr⟩
      rw [hr] at hclosed
      simp at hclosed
  · obtain ⟨-, -, ⟨-, hd⟩ | ⟨hissue, hbranch, -⟩⟩ := judged_eq_ok t.judged
    · exact hd
    · exact absurd hn (by simp [hissue, hbranch])

end Report

/-- A disposition is sound, whatever the forge, the source, the baseline and the clock answer. Work
remains only on the grounds that it may; whatever is seen to be inaccessible is a lack of
permission; and nothing but a lack of permission, a stale or an incomplete finding is reported of
an issue or a branch that has moved or is not found again. -/
theorem disposition_sound {e : IntakeEvidence} (h : read r w subject declaration = .ok e) :
    (e.disposition = .remains → ∃ refs states, Remaining r w subject declaration refs states) ∧
    (Observed r w subject declaration .inaccessible → e.disposition = .permission) ∧
    ∀ issue closingIssue branch closingBranch, w.issue .opening = .ok issue →
      w.issue .closing = .ok closingIssue → w.branch .opening = .ok branch →
        w.branch .closing = .ok closingBranch →
          issue ≠ closingIssue ∨ branch ≠ closingBranch ∨ closingIssue.presence ≠ .found ∨
            closingBranch.presence ≠ .found →
              e.disposition ∈ [Disposition.permission, .stale, .incomplete] := by
  obtain ⟨t⟩ := read_report h
  refine ⟨t.remaining, fun hobserved => t.permission hobserved rfl,
    fun issue closingIssue branch closingBranch hissue hclosingIssue hbranch hclosingBranch hmoved =>
      t.moved ?_⟩
  obtain rfl := Except.ok.inj (t.issueTold.1.symm.trans hissue)
  obtain rfl := Except.ok.inj (t.branchTold.1.symm.trans hbranch)
  obtain rfl := Except.ok.inj (t.issueTold.2.symm.trans hclosingIssue)
  obtain rfl := Except.ok.inj (t.branchTold.2.symm.trans hclosingBranch)
  exact hmoved

end

end Reads

namespace Sample

def reference : Reference := ⟨"forgejo:team/project#1", by decide +kernel⟩

def baseReference : Reference := ⟨"forgejo:0123456789abcdef0123456789abcdef01234567", by decide +kernel⟩

/-- One open change on top of the base, whose head does not meet the criteria. -/
def change : ChangeSnapshot :=
  ⟨⟨.found, some reference, none, some baseReference, some baseReference, none, none⟩, "open",
    some false, "2025", some "main"⟩

def receipt : BaselineSnapshot :=
  ⟨selected, @recipeOf Sample.distinct declaration, .str "runner", .str "run:1", .str "passed",
    .int 3⟩

/-- An issue with work that remains. -/
def workRemains : Answers where
  issue := fun _ => .ok ⟨.found, "digest", "2025", "open"⟩
  branch := fun _ => .ok ⟨.found, none, some baseReference, none, none, none, none⟩
  page := fun _ _ => .ok ⟨[change.observation], none, true⟩
  change := fun _ _ => .ok change
  base := .ok (some false)
  head := fun _ => .ok (some false)
  treeReadable := none
  baseline := fun _ => .ok (some receipt)
  now := .ok 5

def reader : Reader :=
  ⟨"https://forge.invalid", "team/project", [⟨"p", "c", "d"⟩], false, "reader", 4,
    (by decide : 1 ≤ 4 ∧ "reader" ≠ "")⟩

theorem remains : (@read Sample.distinct reader workRemains selected declaration).map
    IntakeEvidence.disposition = .ok .remains := by
  decide +kernel

end Sample

/-- Work remains about an issue with one change that is harmless. -/
theorem disposition_sound_remains : ∃ refs states, @Remaining Sample.distinct Sample.reader
    Sample.workRemains Sample.selected Sample.declaration refs states := by
  obtain ⟨e, he, hd⟩ := map_eq_ok.mp Sample.remains
  exact (@disposition_sound _ _ _ _ Sample.distinct e he).1 hd

end Meaning

end Intake

end CreatidyKernel
