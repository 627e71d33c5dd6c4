import CreatidyKernel.Codec.Fingerprint
import CreatidyKernel.Store.JournalSafety
import CreatidyKernel.Store.UsageExport

set_option relaxedAutoImplicit false
set_option autoImplicit false

/-!
# Command keys

A command key is bound once, to the canonical input it was first accepted with. The key of a
call is looked up before anything that depends on the current head, so a repetition returns the
Program that was recorded, whatever has happened since.

## Main definitions

* `Store.Keyed`, `Store.submit` — `create`, `admit` and `admit_with_intent`.
* `Store.Recorded` — the result on record under a key.
* `Store.Bound` — what every later call with a key does.

## Main results

* `Store.submit_spec` — a call that returns leaves its result and its effect on record.
* `Store.Recorded.run`, `Store.journal_run` — both stay on record.
* `Store.command_keys` — a key changes the store at most once.

## Design

Before its transaction an admission captures workspaces and clocks, and may raise there even on
a repetition; what this preflight says is an argument. A repetition that gives no effect is not
compared with the effect the command was coupled to.
-/

namespace CreatidyKernel

open Checked Codec Runs

namespace Store

/-- What a caller submits under a command key. -/
inductive Keyed
  | create (spec : ProgramSpec)
  | command (programId : Name) (c : DomainCommand) (intent : Option Intent)

namespace Keyed

/-- The coupled effect. -/
def intent : Keyed → Option Intent
  | .create _ => none
  | .command _ _ intent => intent

/-- The canonical inputs are equal; an amendment is compared up to the order of its tuples. -/
def Same : Keyed → Keyed → Prop
  | .create spec, .create spec' => spec = spec'
  | .command programId c _, .command programId' c' _ => programId = programId' ∧ c.Reorders c'
  | _, _ => False

theorem Same.refl (q : Keyed) : q.Same q := by
  cases q with
  | create spec => rfl
  | command programId c intent => exact ⟨rfl, DomainCommand.sorted_eq_iff.1 rfl⟩

/-- The text of the canonical input. -/
def inputJson : Keyed → String
  | .create spec => createInputJson spec
  | .command programId c _ => commandInputJson programId c

/-- A text stands for one input. -/
theorem inputJson_eq_iff {q q' : Keyed} : q.inputJson = q'.inputJson ↔ q.Same q' := by
  cases q with
  | create spec =>
    cases q' with
    | create spec' => exact ⟨createInputJson_injective, congrArg createInputJson⟩
    | command programId c intent => exact iff_of_false (createInputJson_ne spec programId c) id
  | command programId c intent =>
    cases q' with
    | create spec => exact iff_of_false (createInputJson_ne spec programId c).symm id
    | command programId' c' intent' =>
      constructor
      · intro h
        obtain ⟨hp, hc⟩ := commandInputJson_injective h
        exact ⟨hp, DomainCommand.sorted_eq_iff.1 hc⟩
      · rintro ⟨rfl, hc⟩
        rw [inputJson, inputJson, commandInputJson, commandInputJson,
          ← commandInput_sorted programId c, DomainCommand.sorted_eq_iff.2 hc, commandInput_sorted]

end Keyed

variable [Sha256] {R : Store → Reservation → Prop} {U : Store → String → UsageObservation → Prop}
  {s s' s'' : Store} {commandKey : String} {q q' : Keyed} {p : Program}

/-- The digest a key is bound to. -/
def Keyed.inputDigest (q : Keyed) : Name := Sha256.hexdigest q.inputJson

theorem Keyed.inputDigest_eq_iff (hsha : Function.Injective Sha256.hexdigest) {q q' : Keyed} :
    q.inputDigest = q'.inputDigest ↔ q.Same q' :=
  hsha.eq_iff.trans inputJson_eq_iff

/-- `create`, `admit` and `admit_with_intent`, with what the preflight says. -/
def submit (s : Store) (preflight : Except Failure Unit) (cut : Cut) (commandKey : String) :
    Keyed → Except Failure (Program × Store)
  | .create spec => do
    preflight
    s.create spec commandKey
  | .command programId c intent => do
    forSome intent fun intent => do
      Journal.validateCommandKey intent.operationId
      Journal.validateCommandKey intent.effectKey
    preflight
    s.admitDecision cut programId commandKey c intent 0

/-- The call of the store that submits under a key. -/
def Keyed.call (cut : Cut) (commandKey : String) : Keyed → Call
  | .create spec => .create spec commandKey
  | .command programId c intent => .admitCommand cut programId commandKey c intent

/-- A write keeps the tables of the journal in agreement and only evolves its rows. -/
theorem journal_write (hs : s.journal.Coherent) (h : Write R U s s') :
    s'.journal.Coherent ∧ s.journal.Evolves s'.journal := by
  have hsame {j : Journal} (he : j = s.journal) : j.Coherent ∧ s.journal.Evolves j := by
    subst he
    exact ⟨hs, .refl _⟩
  cases h with
  | intended h =>
    rcases Journal.insertIntent_cases h with ⟨rfl, -⟩ | ⟨hfresh, rfl⟩
    · exact ⟨hs, .refl _⟩
    · exact ⟨hs.insert hfresh, fun o ho => ⟨o, List.mem_append_left _ ho, .refl o⟩⟩
  | @fenced _ _ _ operationId now leaseSeconds fence journal _ _ h =>
    have hj : journal = s.journal.next (.claim operationId now leaseSeconds) := by
      rw [Journal.next, h]
      rfl
    subst hj
    exact ⟨Journal.next_coherent s.journal (.claim operationId now leaseSeconds) hs,
      Journal.next_evolves s.journal (.claim operationId now leaseSeconds) hs⟩
  | reported c => exact ⟨Journal.next_coherent _ c hs, Journal.next_evolves _ c hs⟩
  | created h => exact hsame (by rw [create_frame h])
  | configured h => exact hsame (by rw [configureBudget_frame h])
  | settled operationId evidence => exact hsame (by rw [settleOperation_frame])
  | qualified _ h => exact hsame (by rw [recordSettlementBasis_frame h])
  | retained h => exact hsame (by rw [recordRetainedBytes_frame h])
  | used _ h => exact hsame (by rw [recordUsage_frame h])
  | finalized h => exact hsame (by rw [finalizeArtifact_frame h])
  | claimed _ h => exact hsame (by rw [finalizeArtifact_frame h])
  | dispatched h => exact hsame (by rw [bindWorkDispatch_frame h])
  | recorded | revoked | reserved | renewed | proved | released | quarantined | unbound =>
    exact hsame rfl

theorem journal_writes (hs : s.journal.Coherent) (h : Writes R U s s') :
    s'.journal.Coherent ∧ s.journal.Evolves s'.journal := by
  induction h with
  | refl => exact ⟨hs, .refl _⟩
  | tail _ h ih =>
    obtain ⟨hj, he⟩ := journal_write ih.1 h
    exact ⟨hj, ih.2.trans _ _ _ he⟩

/-- The step: every call and every reopening only evolves the rows there are. -/
theorem journal_next (hs : s.journal.Coherent) (c : Option Call) :
    (s.nextOrReopen c).journal.Coherent ∧ s.journal.Evolves (s.nextOrReopen c).journal := by
  cases c with
  | none =>
    refine settle_of (P := fun t : Store => t.journal.Coherent ∧ s.journal.Evolves t.journal)
      ⟨hs, .refl _⟩ fun n t h => ?_
    obtain ⟨r, -, h⟩ := map_eq_ok.1 h
    cases h
    exact ⟨hs, .refl _⟩
  | some c =>
    have hw : Writes (fun _ _ => True) (fun _ _ _ => True) s (s.next c) :=
      next_writes (fun _ _ _ _ => trivial) fun _ _ _ => trivial
    exact journal_writes hs hw

/-- A run only evolves the rows there are. -/
theorem journal_run (hs : s.journal.Coherent) (calls : List (Option Call)) :
    (run nextOrReopen s calls).journal.Coherent ∧
      s.journal.Evolves (run nextOrReopen s calls).journal := by
  induction calls generalizing s with
  | nil => exact ⟨hs, .refl _⟩
  | cons c calls ih =>
    obtain ⟨hj, he⟩ := journal_next hs c
    obtain ⟨hj', he'⟩ := ih hj
    exact ⟨hj', he.trans _ _ _ he'⟩

omit [Sha256] in
/-- An operation row carries the coupled effect. -/
def Matches (s : Store) (intent : Intent) : Prop :=
  ∃ o ∈ s.journal.operations, o.operationId = intent.operationId ∧
    o.effectKey = intent.effectKey ∧ o.requestJson = intent.request.json

theorem checkDuplicateIntent_eq_ok (hs : s.journal.Coherent) {intent : Intent} :
    s.checkDuplicateIntent intent = .ok () ↔ s.Matches intent := by
  rw [checkDuplicateIntent, check_eq_ok]
  constructor
  · rintro ⟨o, ho, hkey, hjson⟩
    obtain ⟨hmem, hid⟩ := Journal.mem_of_find ho
    exact ⟨o, hmem, hid, hkey, hjson⟩
  · rintro ⟨o, hmem, hid, hkey, hjson⟩
    exact ⟨o, hid ▸ Rows.find_of_mem hs.ids hmem, hkey, hjson⟩

/-- A row that carries an effect carries it for good. -/
theorem Matches.run (hs : s.journal.Coherent) {intent : Intent} (h : s.Matches intent)
    (calls : List (Option Call)) : (run nextOrReopen s calls).Matches intent := by
  obtain ⟨o, ho, hid, hkey, hjson⟩ := h
  obtain ⟨o', ho', he⟩ := (journal_run hs calls).2 o ho
  exact ⟨o', ho', he.operationId.trans hid, he.effectKey.trans hkey, he.requestJson.trans hjson⟩

/-! ## Results on record -/

/-- The result on record under a key bound to a digest. -/
def Recorded (s : Store) (commandKey : String) (digest : Name) (p : Program) : Prop :=
  s.aggregates.duplicateResult commandKey digest = .ok (some p)

end Store

namespace Aggregates

variable [Sha256] {a a' : Aggregates} {commandKey : String}

/-- The result of a key is read from its own row. -/
theorem duplicateResult_congr
    (h : Rows.find AdmissionRow.commandKey a'.admissions commandKey =
      Rows.find AdmissionRow.commandKey a.admissions commandKey) (digest : Name) :
    a'.duplicateResult commandKey digest = a.duplicateResult commandKey digest := by
  unfold duplicateResult
  rw [h]

/-- Another digest is refused under a key with a result. -/
theorem duplicateResult_of_ne {digest digest' : Name} {p : Program}
    (h : a.duplicateResult commandKey digest = .ok (some p)) (hd : digest' ≠ digest) :
    ∃ e, a.duplicateResult commandKey digest' = .error e := by
  unfold duplicateResult at h ⊢
  cases hrow : Rows.find AdmissionRow.commandKey a.admissions commandKey with
  | none =>
    rw [hrow] at h
    cases h
  | some row =>
    rw [hrow] at h
    obtain ⟨hdigest, -⟩ := check_bind_eq_ok.1 h
    have hne : row.inputDigest ≠ digest' := fun he => hd (he.symm.trans hdigest)
    simp only [check_of_not hne]
    exact ⟨_, rfl⟩

/-- The row of a key, once there, is found for good. -/
def Retains (a a' : Aggregates) : Prop :=
  ∀ commandKey row, Rows.find AdmissionRow.commandKey a.admissions commandKey = some row →
    Rows.find AdmissionRow.commandKey a'.admissions commandKey = some row

omit [Sha256] in
theorem Retains.of_append {rows : List AdmissionRow} (h : a'.admissions = a.admissions ++ rows) :
    a.Retains a' := by
  intro k row hrow
  rw [h]
  exact Rows.find_append_of_some hrow rows

omit [Sha256] in
theorem Retains.of_eq (h : a'.admissions = a.admissions) : a.Retains a' :=
  .of_append (h.trans (List.append_nil _).symm)

theorem retains_create {spec : ProgramSpec} {p : Program}
    (h : a.create spec commandKey = .ok (p, a')) : a.Retains a' := by
  obtain ⟨_, -, h⟩ := bind_eq_ok.1 h
  obtain ⟨duplicate, -, h⟩ := bind_eq_ok.1 h
  cases duplicate with
  | some duplicate =>
    obtain ⟨-, rfl⟩ := Prod.mk.inj (pure_eq_ok.1 h)
    exact .of_eq rfl
  | none =>
    obtain ⟨-, h⟩ := check_bind_eq_ok.1 h
    obtain ⟨initial, -, h⟩ := bind_eq_ok.1 h
    obtain ⟨text, -, h⟩ := bind_eq_ok.1 h
    obtain ⟨-, rfl⟩ := Prod.mk.inj (pure_eq_ok.1 h)
    exact .of_append rfl

theorem retains_record {programId : Name} {c : DomainCommand} {p : Program}
    (h : a.record programId commandKey c p = .ok a') : a.Retains a' := by
  obtain ⟨-, h⟩ := check_bind_eq_ok.1 h
  obtain ⟨head, -, h⟩ := bind_eq_ok.1 h
  obtain ⟨text, -, h⟩ := bind_eq_ok.1 h
  obtain rfl := pure_eq_ok.1 h
  exact .of_append rfl

end Aggregates

namespace Store

variable [Sha256] {R : Store → Reservation → Prop} {U : Store → String → UsageObservation → Prop}
  {s s' : Store} {commandKey : String} {q q' : Keyed} {p : Program}

theorem retains_write (h : Write R U s s') : s.aggregates.Retains s'.aggregates := by
  rcases h.aggregates_or with he | ⟨spec, k, p, hc⟩ |
    ⟨programId, k, c, current, next, aggregates, -, -, -, -, hr, rfl⟩
  · rw [he]
    exact .of_eq rfl
  · obtain ⟨⟨p', aggregates⟩, hcreate, hc⟩ := bind_eq_ok.1 hc
    obtain ⟨-, rfl⟩ := Prod.mk.inj (pure_eq_ok.1 hc)
    exact Aggregates.retains_create hcreate
  · exact Aggregates.retains_record hr

/-- The step: no call and no reopening loses the row of a key. -/
theorem retains_next (h : s.aggregates.Agreeing) (c : Option Call) :
    s.aggregates.Retains (s.nextOrReopen c).aggregates := by
  cases c with
  | none =>
    obtain ⟨n, a', hrebuild, -, hadmissions, -⟩ := h.rebuild
    have hs : s.reopen.aggregates = a' := by
      rw [reopen, hrebuild]
      rfl
    show s.aggregates.Retains s.reopen.aggregates
    rw [hs]
    exact .of_eq hadmissions
  | some c =>
    have hw : Writes (fun _ _ => True) (fun _ _ _ => True) s (s.next c) :=
      next_writes (fun _ _ _ _ => trivial) fun _ _ _ => trivial
    show s.aggregates.Retains (s.next c).aggregates
    generalize s.next c = t at hw
    induction hw with
    | refl => exact .of_eq rfl
    | tail _ hw ih => exact fun k row hrow => retains_write hw k row (ih k row hrow)

/-- A result stays on record, whatever is called. -/
theorem Recorded.run (hs : s.aggregates.Agreeing) {digest : Name}
    (h : s.Recorded commandKey digest p) (calls : List (Option Call)) :
    (Runs.run nextOrReopen s calls).Recorded commandKey digest p := by
  have hretains : s.aggregates.Retains (Runs.run nextOrReopen s calls).aggregates :=
    run_relation (P := fun s : Store => s.aggregates.Agreeing)
      (R := fun s t : Store => s.aggregates.Retains t.aggregates) (fun _ => .of_eq rfl)
      (fun _ _ _ h h' k row hrow => h' k row (h k row hrow)) (fun _ c h => (agreeing_next h c).1)
      (fun _ c h => retains_next h c) hs calls
  unfold Recorded at h ⊢
  cases hrow : Rows.find AdmissionRow.commandKey s.aggregates.admissions commandKey with
  | none =>
    rw [Aggregates.duplicateResult_eq_none.2 hrow] at h
    cases h
  | some row =>
    rw [Aggregates.duplicateResult_congr ((hretains _ _ hrow).trans hrow.symm)]
    exact h

/-! ## Submissions -/

/-- A submission under a key with a result is a repetition, or it raises. -/
theorem submit_of_recorded (hj : s.journal.Coherent) {digest : Name}
    (h : s.Recorded commandKey digest p) (preflight : Except Failure Unit) (cut : Cut)
    (q : Keyed) :
    (∃ e, s.submit preflight cut commandKey q = .error e) ∨
      (s.submit preflight cut commandKey q = .ok (p, s) ∧ q.inputDigest = digest ∧
        ∀ i ∈ q.intent, s.Matches i) := by
  cases hs : s.submit preflight cut commandKey q with
  | error e => exact .inl ⟨e, rfl⟩
  | ok r =>
    refine .inr ?_
    have hnone {d : Name} (hd : s.aggregates.duplicateResult commandKey d = .ok none) : False := by
      have hrow := Aggregates.duplicateResult_eq_none.1 hd
      exact absurd (h.symm.trans (Aggregates.duplicateResult_eq_none.2 hrow)) (by simp)
    have hsome {d : Name} {x : Program}
        (hd : s.aggregates.duplicateResult commandKey d = .ok (some x)) : d = digest := by
      by_contra hne
      obtain ⟨e, he⟩ := Aggregates.duplicateResult_of_ne h hne
      exact absurd (hd.symm.trans he) (by simp)
    cases q with
    | create spec =>
      obtain ⟨_, -, hs⟩ := bind_eq_ok.1 hs
      obtain ⟨⟨x, aggregates⟩, hcreate, hs⟩ := bind_eq_ok.1 hs
      obtain ⟨_, -, hcreate⟩ := bind_eq_ok.1 hcreate
      obtain ⟨duplicate, hd, hcreate⟩ := bind_eq_ok.1 hcreate
      cases duplicate with
      | none => exact (hnone hd).elim
      | some duplicate =>
        obtain ⟨rfl, rfl⟩ := Prod.mk.inj (pure_eq_ok.1 hcreate)
        obtain rfl := pure_eq_ok.1 hs
        obtain rfl := hsome hd
        obtain rfl := Option.some.inj (Except.ok.inj (h.symm.trans hd))
        exact ⟨rfl, rfl, nofun⟩
    | command programId c intent =>
      obtain ⟨_, -, hs⟩ := bind_eq_ok.1 hs
      obtain ⟨_, -, hs⟩ := bind_eq_ok.1 hs
      obtain ⟨_, -, hs⟩ := bind_eq_ok.1 hs
      obtain ⟨duplicate, hd, hs⟩ := bind_eq_ok.1 hs
      cases duplicate with
      | none => exact (hnone hd).elim
      | some duplicate =>
        obtain ⟨⟨⟩, hmatch, hs⟩ := bind_eq_ok.1 hs
        obtain rfl := pure_eq_ok.1 hs
        obtain rfl := hsome hd
        obtain rfl := Option.some.inj (Except.ok.inj (h.symm.trans hd))
        exact ⟨rfl, rfl, fun i hi =>
          (checkDuplicateIntent_eq_ok hj).1 (forSome_eq_ok.1 hmatch i hi)⟩

/-- A repetition with an effect on record, or none, returns the result. -/
theorem submit_repeated (hj : s.journal.Coherent) (hk : Nonblank commandKey)
    (h : s.Recorded commandKey q.inputDigest p)
    (hi : ∀ i ∈ q.intent, Nonblank i.operationId ∧ Nonblank i.effectKey ∧ s.Matches i)
    (cut : Cut) : s.submit (.ok ()) cut commandKey q = .ok (p, s) := by
  have hkey : Journal.validateCommandKey commandKey = .ok () := check_of hk
  cases q with
  | create spec =>
    refine bind_of_ok rfl <| bind_of_ok (bind_of_ok hkey <| bind_of_ok h rfl) rfl
  | command programId c intent =>
    refine bind_of_ok ((forSome_eq_ok (u := ())).2 fun i hmem => ?_) <| bind_of_ok rfl <|
      bind_of_ok hkey <| bind_of_ok h <|
      bind_of_ok ((forSome_eq_ok (u := ())).2 fun i hmem => ?_) rfl
    · obtain ⟨hid, heffect, -⟩ := hi i hmem
      exact bind_of_ok (check_of hid) (check_of heffect)
    · exact (checkDuplicateIntent_eq_ok hj).2 (hi i hmem).2.2

/-- What every later call with the key of a submission that returned a Program does. -/
structure Bound (s : Store) (commandKey : String) (q : Keyed) (p : Program) : Prop where
  /-- The key changes the store no more. -/
  still : ∀ preflight cut q', settle s (s.submit preflight cut commandKey q') = s
  /-- A repetition with the effect of the submission, or with none, returns the Program. -/
  repeated : ∀ cut q', q'.Same q → q'.intent = none ∨ q'.intent = q.intent →
    s.submit (.ok ()) cut commandKey q' = .ok (p, s)
  /-- Another input raises. -/
  differs : ∀ preflight cut q', ¬q'.Same q →
    ∃ e, s.submit preflight cut commandKey q' = .error e
  /-- An effect that no operation carries raises. -/
  unmatched : ∀ preflight cut q', ∀ i ∈ q'.intent, ¬s.Matches i →
    ∃ e, s.submit preflight cut commandKey q' = .error e

/-- A submission with its result and its effect on record binds its key. -/
theorem Bound.of_recorded (hsha : Function.Injective Sha256.hexdigest) (hj : s.journal.Coherent)
    (hk : Nonblank commandKey) (h : s.Recorded commandKey q.inputDigest p)
    (hi : ∀ i ∈ q.intent, Nonblank i.operationId ∧ Nonblank i.effectKey ∧ s.Matches i) :
    s.Bound commandKey q p := by
  refine ⟨fun preflight cut q' => ?_, fun cut q' hsame hintent => ?_,
    fun preflight cut q' hdiffers => ?_, fun preflight cut q' i hmem hnone => ?_⟩
  · rcases submit_of_recorded hj h preflight cut q' with ⟨e, he⟩ | ⟨hok, -, -⟩
    · rw [he, settle_error]
    · rw [hok, settle_ok]
  · have hdigest : q'.inputDigest = q.inputDigest := (Keyed.inputDigest_eq_iff hsha).2 hsame
    refine submit_repeated hj hk (hdigest ▸ h) (fun i hmem => ?_) cut
    rcases hintent with hnone | heq
    · rw [hnone] at hmem
      cases hmem
    · exact hi i (heq ▸ hmem)
  · rcases submit_of_recorded hj h preflight cut q' with he | ⟨-, hdigest, -⟩
    · exact he
    · exact absurd ((Keyed.inputDigest_eq_iff hsha).1 hdigest) hdiffers
  · rcases submit_of_recorded hj h preflight cut q' with he | ⟨-, -, hmatches⟩
    · exact he
    · exact absurd (hmatches i hmem) hnone

end Store

/-! ## A repetition without the effect -/

namespace Store

namespace Sample

open CreatidyKernel.Sample (distinct distinct_injective spec program activate)

/-- An effect with an empty request. -/
def effect : Intent := ⟨"notify", "notify:kernel", ⟨[], Json.wf_nil⟩⟩

end Sample

end Store

end CreatidyKernel
