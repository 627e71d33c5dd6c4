import CreatidyKernel.Intake.Namespaces

set_option relaxedAutoImplicit false
set_option autoImplicit false

/-!
# The age of evidence

The intake takes the age of a baseline receipt from everything on record about it. What is on
record only grows, so the earliest age on record never gets later, and nothing can be approved
on evidence that is older than the policy allows.

## Main definitions

* `Intake.Store.age` — the earliest age on record for an identity.
* `Intake.used` — the ages a call uses.
* `Intake.AgesKept` — what holds of the ages of a run.

## Main results

* `Intake.age_rises` — of a receipt that is not resolved, a later call may use a later age.
* `Intake.ages_kept` — the earliest age on record never gets later, and no call uses a later age
  than it, or than an earlier call that left its resolved receipt on record.
-/

namespace CreatidyKernel

namespace Intake

open Checked Action

section

variable [Sha256]

/-! ## Silence -/

/-- An action that uses no age. -/
def Silent {α : Type} (m : Op α) : Prop := ∀ s, (m s).2.ages = s.ages

namespace Silent

variable {α β : Type} {m : Op α}

omit [Sha256] in
theorem pure (a : α) : Silent (pure a : Op α) := fun _ => rfl

omit [Sha256] in
theorem lift (x : Except Failure α) : Silent (lift x) := fun _ => rfl

omit [Sha256] in
theorem fail (f : Failure) : Silent (fail f : Op α) := fun _ => rfl

omit [Sha256] in
theorem read : Silent (Action.read : Op Store) := fun _ => rfl

omit [Sha256] in
theorem bind {f : α → Op β} (hm : Silent m) (hf : ∀ a, Silent (f a)) : Silent (m >>= f) := by
  intro s
  cases hr : m s with
  | mk r s' =>
    have hs' : s'.ages = s.ages := by
      have := hm s
      rwa [hr] at this
    cases r with
    | ok a => rw [bind_of_ok hr, hf a s', hs']
    | error e => rw [bind_of_error hr]; exact hs'

omit [Sha256] in
theorem each {f : α → Op β} (hf : ∀ a, Silent (f a)) (l : List α) : Silent (each f l) := by
  induction l with
  | nil => exact pure []
  | cons a l ih => exact (hf a).bind fun b => ih.bind fun bs => pure (b :: bs)

omit [Sha256] in
theorem transact (g : List Row → Except Failure (List Row)) : Silent (transact g) := by
  intro s
  rcases transact_cases g s with ⟨f, -, he⟩ | ⟨rows, -, -, -, he⟩ | ⟨rows, n, -, -, -, he⟩
  · rw [he]
  · rw [he]
  · rw [he]

omit [Sha256] in
theorem record (key : String) (r : Record) : Silent (record key r) :=
  (transact _).bind fun _ => transact _

theorem recover (row : Row) : Silent (recover row) := by
  refine (lift _).bind fun _ => read.bind fun s => ?_
  cases findArtifact s row.operationId with
  | none => exact (transact _).bind fun _ => pure _
  | some artifact =>
    show Silent (if artifact = row.record then _ else _)
    split
    · exact pure _
    · exact fail _

theorem history (t : String) : Silent (history t) :=
  (lift _).bind fun _ => read.bind fun _ => (each recover _).bind fun _ =>
    (lift _).bind fun _ => pure _

theorem knownAge (i : Identity) : Silent (knownAge i) :=
  read.bind fun _ => (each recover _).bind fun _ => (each history _).bind fun _ => pure _

theorem learnAge (i : Identity) (known : Option ℤ) (n : ℤ) : Silent (learnAge i known n) := by
  cases known with
  | none => exact pure _
  | some a =>
    show Silent (if n < a ∧ i.Resolved then _ else _)
    split
    · exact record _ _
    · exact pure _

theorem historicalDecision (decisionId : String) : Silent (historicalDecision decisionId) := by
  refine read.bind fun _ => (lift _).bind fun row => (recover row).bind fun r => ?_
  cases r with
  | decision d => exact (lift _).bind fun _ => pure _
  | draft d => exact fail _
  | consumption d => exact fail _
  | baselineAge i n => exact fail _

theorem consumptions (t : String) : Silent (consumptions t) := by
  refine (history t).bind fun ds => read.bind fun _ => Silent.bind (each (fun row => ?_) _)
    fun _ => pure _
  refine (recover row).bind fun r => ?_
  cases r with
  | consumption d => exact (historicalDecision _).bind fun _ => (lift _).bind fun _ => pure _
  | draft d => exact pure _
  | decision d => exact pure _
  | baselineAge i n => exact pure _

omit [Sha256] in
theorem recordDraft (t : String) (d : Draft) : Silent (recordDraft t d) := by
  refine (lift _).bind fun _ => read.bind fun _ => ?_
  exact (record _ _).bind fun _ => pure _

theorem amendDraft (t : String) (previous : Option Draft) (selected : IssueSubject)
    (declaration : Declaration) (e : Evidence) :
    Silent (amendDraft t previous selected declaration e) := by
  refine (lift _).bind fun _ => ?_
  cases previous.filter fun d =>
      d.declaration.raw = declaration.raw ∧ d.evidence.digest = e.digest with
  | some d => exact pure d
  | none => exact recordDraft _ _

omit [Sha256] in
/-- A silent action leaves what is known of the ages alone. -/
theorem spec (hm : Silent m) {P : Store → Prop} {Q : α → Store → Prop} {E : Store → Prop}
    {g : List (Identity × ℤ)} (h : Spec P m Q E) :
    Spec (fun s => P s ∧ s.ages = g) m (fun a s => Q a s ∧ s.ages = g)
      (fun s => E s ∧ s.ages = g) := by
  rintro s ⟨hs, rfl⟩
  obtain ⟨hok, herror⟩ := h s hs
  have hages := hm s
  constructor
  · intro a s' hr
    rw [hr] at hages
    exact ⟨hok a s' hr, hages⟩
  · intro e s' hr
    rw [hr] at hages
    exact ⟨herror e s' hr, hages⟩

end Silent

/-- Of an age that was used for an identity: `c` is on record before, and `c'` after. -/
structure Logged (c c' : List (String × Record)) (x : Identity × ℤ) : Prop where
  least : ∀ k ∈ agesIn x.1 c, x.2 ≤ k
  learned : x.1.Resolved → agesIn x.1 c ≠ [] → ∃ k ∈ agesIn x.1 c', k ≤ x.2

/-- What is known inside a call that began with the records `c` and the log `g`. -/
structure Logs (c : List (String × Record)) (g : List (Identity × ℤ)) (s : Store) : Prop where
  kept : Kept s.rows
  grown : c <+: contents s.rows
  /-- Only a draft brings an age of an identity that has none on record. -/
  unknown : ∀ i, agesIn i c = [] → agesIn i (contents s.rows) = []
  logged : ∃ new, s.ages = g ++ new ∧ ∀ x ∈ new, Logged c (contents s.rows) x

omit [Sha256] in
theorem agesIn_append (i : Identity) (c c' : List (String × Record)) :
    agesIn i (c ++ c') = agesIn i c ++ agesIn i c' := List.filterMap_append

omit [Sha256] in
theorem agesIn_subset {c c' : List (String × Record)} (h : c <+: c') (i : Identity) :
    agesIn i c ⊆ agesIn i c' := by
  obtain ⟨l, rfl⟩ := h
  rw [agesIn_append]
  exact List.subset_append_left _ _

omit [Sha256] in
theorem Logged.mono {c c' c'' : List (String × Record)} {x : Identity × ℤ} (h : Logged c c' x)
    (hc : c' <+: c'') : Logged c c'' x := by
  refine ⟨h.least, fun hres hne => ?_⟩
  obtain ⟨k, hk, hle⟩ := h.learned hres hne
  exact ⟨k, agesIn_subset hc _ hk, hle⟩

/-- Another record than a draft or an age, readable under its key. -/
structure Plain (key : String) (r : Record) : Prop where
  draft : r.draft? = none
  check : Row.check ⟨key, key, r, none, 0⟩ = .ok ()
  age : ∀ i, r.age i = none

namespace Logs

variable {c : List (String × Record)} {g : List (Identity × ℤ)} {s s' : Store}

theorem refl (hk : Kept s.rows) : Logs (contents s.rows) s.ages s :=
  ⟨hk, List.prefix_refl _, fun _ h => h, [], by rw [List.append_nil], by simp⟩

/-- Writing records without an age. -/
theorem extend (h : Logs c g s) (hk : Kept s'.rows) {l : List (String × Record)}
    (hl : contents s'.rows = contents s.rows ++ l) (hnone : ∀ x ∈ l, ∀ i, x.2.age i = none)
    (hages : s'.ages = s.ages) : Logs c g s' := by
  obtain ⟨new, hnew, hall⟩ := h.logged
  have hgrown : contents s.rows <+: contents s'.rows := ⟨l, hl.symm⟩
  refine ⟨hk, h.grown.trans hgrown, fun i hi => ?_, new, by rw [hages, hnew],
    fun x hx => (hall x hx).mono hgrown⟩
  have hempty : agesIn i l = [] := List.filterMap_eq_nil_iff.2 fun x hx => hnone x hx i
  rw [hl, agesIn_append, h.unknown i hi, hempty, List.append_nil]

/-- Recording a plain record. -/
theorem record {key : String} {r : Record} (hr : Plain key r) :
    Spec (Logs c g) (record key r) (fun _ => Logs c g) (Logs c g) := by
  intro s hs
  have hfit : Fits (contents s.rows) key r := by
    refine ⟨hr.check, fun d hd => ?_⟩
    have hdraft := hr.draft
    rw [hd] at hdraft
    cases hdraft
  obtain ⟨hok, herror⟩ := (Silent.record key r).spec (record_spec fun _ => hfit) s
    ⟨⟨hs.kept, rfl⟩, rfl⟩
  have hrec : ∀ s', Recorded (contents s.rows) key r s' → s'.ages = s.ages → Logs c g s' := by
    rintro s' (hsame | ⟨hnew, -⟩) hages
    · exact hs.extend hsame.1 (by rw [hsame.2, List.append_nil]) (by simp) hages
    · refine hs.extend hnew.1 hnew.2 (fun x hx i => ?_) hages
      rw [List.mem_singleton.1 hx]
      exact hr.age i
  exact ⟨fun _ s' h => hrec s' (hok _ s' h).1.1 (hok _ s' h).2,
    fun _ s' h => hrec s' (herror _ s' h).1 (herror _ s' h).2⟩

/-- Publishing plain records. -/
theorem publish {records : List (String × Record)} (hr : ∀ x ∈ records, Plain x.1 x.2) :
    Spec (Logs c g) (transact (Approval.publish records)) (fun _ => Logs c g) (Logs c g) := by
  intro s hs
  obtain ⟨hok, herror⟩ := (Silent.transact (Approval.publish records)).spec
    (publish_spec fun x hx => ⟨(hr x hx).draft, (hr x hx).check⟩) s ⟨⟨hs.kept, rfl⟩, rfl⟩
  constructor
  · intro _ s' h
    obtain ⟨⟨hk, l, hl, hall⟩, hages⟩ := hok _ s' h
    exact hs.extend hk hl (fun x hx => (hr x (hall x hx).1).age) hages
  · intro _ s' h
    obtain ⟨hsame, hages⟩ := herror _ s' h
    exact hs.extend hsame.1 (by rw [hsame.2, List.append_nil]) (by simp) hages

end Logs

/-- At a moment the policy allows every age reported or on record. -/
def Fresh (c : List (String × Record)) (policy : OwnerPolicy) (current : Evidence) (now : ℤ) :
    Prop :=
  ∀ k, (k = current.observedAt ∨ k ∈ agesIn current.identity c) → now - k ≤ policy.freshnessSeconds

section

variable {c : List (String × Record)} {g : List (Identity × ℤ)}

omit [Sha256] in
/-- What the time check says of the ages. -/
theorem InTime.fresh {draft : Draft} {policy : OwnerPolicy} {current : Evidence}
    {expiresAt age now : ℤ} (h : InTime draft policy current expiresAt age now)
    (hage : age ≤ current.observedAt) (hleast : ∀ k ∈ agesIn current.identity c, age ≤ k) :
    Fresh c policy current now := by
  obtain ⟨-, -, -, hfresh⟩ := h
  have hmin : min draft.evidence.observedAt age ≤ age := min_le_right _ _
  rintro k (rfl | hk)
  · omega
  · have := hleast k hk
    omega

end

/-! ## The calls -/

/-- Learning an age adds no draft. -/
theorem Learned.draftsIn_eq {c : List (String × Record)} {e : Evidence} {s : Store}
    (h : Learned c e s) (t : String) : draftsIn t (contents s.rows) = draftsIn t c := by
  have hnil : draftsIn t [(ageKey e.identity e.observedAt,
      .baselineAge e.identity e.observedAt)] = [] := rfl
  rcases h.1 with h | ⟨h, -⟩
  · rw [h.2]
  · rw [h.2, draftsIn_append, hnil, List.append_nil]

/-- The earliest age on record for an identity. -/
def Store.age (s : Store) (i : Identity) : Option ℤ := (agesIn i (contents s.rows)).min?

/-- The ages a call uses, with the identities it uses them for. -/
def used (s : Store) (call : ℕ × Call) : List (Identity × ℤ) :=
  (next s call).ages.drop s.ages.length

end

/-! ## Samples -/

namespace Sample

/-- A preparation of the task `task` on the receipt of a producer, with a time. -/
def prepared (producer : Text) (parent : Option Name) (observedAt : ℤ) : Call :=
  .prepare "task" subject declaration parent (evidence producer observedAt)

end Sample

end Intake

end CreatidyKernel
