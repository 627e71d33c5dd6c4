import CreatidyKernel.Intake.Histories
import CreatidyKernel.Lib.Runs

set_option relaxedAutoImplicit false
set_option autoImplicit false

/-!
# The namespaces of the intake

Whatever calls are made for whatever tasks, and wherever a process dies, the history of a task is
the list of the drafts prepared for it, each with the digest of the one before, and what one task
records never meets a key of another.

## Main definitions

* `Intake.Call.Writes` — the keys a call may write.
* `Intake.Grown` — the rows grew by some drafts and other records, under keys of a kind.
* `Intake.Separate` — what one call does to the histories.
* `Intake.Namespaces` — what the intake guarantees of a run.

## Main results

* `Intake.prepare_spec`, `Intake.approve_spec` — what the calls record.
* `Intake.namespaces` — the guarantee, for every run.
-/

namespace CreatidyKernel

namespace Intake

open Checked Action

/-- The keys a call may write: a preparation those of the drafts of its task, an approval those
of its decision and of the consumptions of its task; and every call that reads ages may record
a lower one. -/
def Call.Writes : Call → Key → Prop
  | .prepare taskId _ _ _ _, .draft u _ => u = taskId
  | .prepare taskId _ _ _ _, .fallback u _ => u = taskId
  | .approve a, .decision d => d = a.decisionId
  | .approve a, .consumption u _ => u = a.draft.taskId
  | .history _, .age _ _ => False
  | _, .age _ _ => True
  | _, _ => False

/-- A computation that may raise. -/
theorem lift_spec {α : Type} {P : Store → Prop} (x : Except Failure α) :
    Spec P (lift x) (fun a s => P s ∧ x = .ok a) P := by
  refine Spec.of (fun a s hx hs => ⟨hs, ?_⟩) fun _ hs => hs
  cases x with
  | ok b => exact congrArg Except.ok (Except.ok.inj hx)
  | error e => cases hx

/-- A check. -/
theorem check_spec {P : Store → Prop} {p : Prop} [Decidable p] {f : Failure} :
    Spec P (lift (check p f)) (fun _ s => P s ∧ p) P :=
  (lift_spec _).post fun _ _ h => ⟨h.1, Checked.check_eq_ok.1 h.2⟩

theorem fail_spec {α : Type} {P : Store → Prop} {f : Failure} {Q : α → Store → Prop} :
    Spec P (fail f : Op α) Q P := Spec.raise fun _ h => h

section

variable [Sha256]

/-- The rows grew by records that hold the given drafts in this order, under keys of a kind. -/
structure Grown (W : Key → Prop) (c : List (String × Record)) (ds : List Draft) (s : Store) :
    Prop where
  kept : Kept s.rows
  grown : ∃ l, contents s.rows = c ++ l ∧ l.filterMap (fun x => x.2.draft?) = ds ∧
    ∀ x ∈ l, ∃ k : Key, k.Accepted ∧ W k ∧ x.1 = k.text

namespace Grown

variable {W : Key → Prop} {c : List (String × Record)} {ds ds' : List Draft} {s s' : Store}

theorem refl (h : Holds c s) : Grown W c [] s :=
  ⟨h.1, [], by rw [h.2, List.append_nil], rfl, by simp⟩

theorem trans (h : Grown W c ds s) (h' : Grown W (contents s.rows) ds' s') :
    Grown W c (ds ++ ds') s' := by
  obtain ⟨l, hl, hds, hall⟩ := h.grown
  obtain ⟨l', hl', hds', hall'⟩ := h'.grown
  refine ⟨h'.kept, l ++ l', ?_, ?_, ?_⟩
  · rw [hl', hl, List.append_assoc]
  · rw [List.filterMap_append, hds, hds']
  · intro x hx
    rcases List.mem_append.1 hx with hx | hx
    · exact hall x hx
    · exact hall' x hx

/-- The histories grow by the drafts of their tasks. -/
theorem draftsIn_eq (h : Grown W c ds s) (t : String) :
    draftsIn t (contents s.rows) = draftsIn t c ++ ds.filter fun d => d.taskId = t := by
  obtain ⟨l, hl, rfl, -⟩ := h.grown
  rw [hl, draftsIn_append]
  rfl

/-- What an action makes of exactly known records it makes of records that have grown. -/
theorem lift {α : Type} {m : Op α} {Q : α → Prop}
    (h : ∀ c', c <+: c' → Spec (Holds c') m (fun a s => Grown W c' [] s ∧ Q a) (Grown W c' [])) :
    Spec (Grown W c []) m (fun a s => Grown W c [] s ∧ Q a) (Grown W c []) := by
  intro s hs
  have hdraft : c <+: contents s.rows := by
    obtain ⟨l, hl, -⟩ := hs.grown
    exact ⟨l, hl.symm⟩
  obtain ⟨hok, herror⟩ := h _ hdraft s ⟨hs.kept, rfl⟩
  exact ⟨fun a s' hr => ⟨hs.trans (hok a s' hr).1, (hok a s' hr).2⟩,
    fun e s' hr => hs.trans (herror e s' hr)⟩

/-- Reading lets nothing grow. -/
theorem of_spec {α : Type} {m : Op α} {Q : α → Prop}
    (h : ∀ c', Spec (Holds c') m (fun a s => Holds c' s ∧ Q a) (Holds c')) :
    Spec (Grown W c []) m (fun a s => Grown W c [] s ∧ Q a) (Grown W c []) :=
  lift fun c' _ => (h c').weaken (fun _ h => h) (fun _ _ h => ⟨refl h.1, h.2⟩) fun _ h => refl h

/-- Writing another record than a draft. -/
theorem of_recorded {key : String} {r : Record} (hr : r.draft? = none)
    (hkey : (∃ x ∈ c, x.1 = key) ∨ ∃ k : Key, k.Accepted ∧ W k ∧ key = k.text)
    (h : Recorded c key r s) : Grown W c [] s := by
  rcases h with h | ⟨h, hfresh⟩
  · exact refl h
  · rcases hkey with ⟨x, hx, he⟩ | hkey
    · exact absurd he (hfresh x hx)
    · refine ⟨h.1, [(key, r)], h.2, ?_, ?_⟩
      · simp only [List.filterMap_cons, hr, List.filterMap_nil]
      · intro x hx
        rw [List.mem_singleton.1 hx]
        exact hkey

end Grown

/-! ## The shape of an approval -/

namespace Approval

/-- The transactions of an approval keep an invariant, and its checks tell something of the
moments they are made at. -/
structure Keeps (a : Approval) (I : Store → Prop) (T : ℕ → Prop) (Ok : String → Record → Prop) :
    Prop where
  check : ∀ i, Spec I (a.check i) (fun _ s => I s ∧ T i) I
  final : ∀ specDigest i, Spec I (a.final specDigest i) (fun _ s => I s ∧ T i) I
  record : ∀ key r, Ok key r → Spec I (Intake.record key r) (fun _ => I) I
  publish : ∀ records, (∀ x ∈ records, Ok x.1 x.2) →
    Spec I (transact (Approval.publish records)) (fun _ => I) I

namespace Keeps

variable {a : Approval} {I : Store → Prop} {T : ℕ → Prop} {Ok : String → Record → Prop}

theorem confirm (h : a.Keeps I T Ok) (current : Option Program) :
    Spec I (a.confirm current) (fun _ s => I s ∧ T 2) I := by
  cases current with
  | none => exact h.check 2
  | some p =>
    refine (h.final p.spec.digest 2).bind fun _ => ?_
    exact Spec.pure fun _ h => h

theorem acceptBudget (h : a.Keeps I T Ok) (current : Option Program)
    {records : List (String × Record)} (hr : ∀ x ∈ records, Ok x.1 x.2) :
    Spec I (a.acceptBudget current records) (fun _ s => I s ∧ ∃ i, 2 ≤ i ∧ T i) I := by
  refine (Spec.read (Q := fun _ s => I s) fun _ h => h).bind fun before => ?_
  refine (h.confirm current).bind fun _ => Spec.suppose (fun _ h => h.2) fun hT => ?_
  refine (Spec.read (Q := fun _ s => I s) fun _ h => h.1).bind fun after => ?_
  refine (check_spec.post fun _ _ h => h.1).bind fun _ => ?_
  refine ((lift_spec _).post fun _ _ h => h.1).bind fun p => ?_
  refine (h.publish records hr).bind fun _ => ?_
  exact Spec.pure fun _ h => ⟨h, 2, le_rfl, hT⟩

theorem recordBoth (h : a.Keeps I T Ok) {key : String} {d : Consumption}
    (hd : Ok (decisionKey a.decisionId) (.decision a.decision)) (hc : Ok key (.consumption d)) :
    Spec I (a.recordBoth key d) (fun _ s => I s) I := by
  refine ((h.check 2).post fun _ _ h => h.1).bind fun _ => ?_
  refine (h.record _ _ hd).bind fun _ => ?_
  refine (h.record _ _ hc).bind fun _ => ?_
  exact (h.check 3).post fun _ _ h => h.1

theorem replay (h : a.Keeps I T Ok) (p : Program)
    (hd : Ok (decisionKey a.decisionId) (.decision a.decision)) :
    Spec I (a.replay p) (fun _ s => I s ∧ ∃ i, 2 ≤ i ∧ T i) I := by
  show Spec _ (if a.policy.workBudget.isSome then _ else _) _ _
  split
  · refine h.acceptBudget (some p) fun x hx => ?_
    rw [List.mem_singleton.1 hx]
    exact hd
  · refine ((h.check 2).post fun _ _ h => h.1).bind fun _ => ?_
    refine (h.record _ _ hd).bind fun _ => ?_
    refine ((h.check 3).post fun _ _ h => h.1).bind fun _ => ?_
    exact (h.final p.spec.digest 4).post fun _ _ h => ⟨h.1, 4, by omega, h.2⟩

theorem decide (h : a.Keeps I T Ok) (current : Option Program) {key : String}
    (hd : Ok (decisionKey a.decisionId) (.decision a.decision))
    (hc : ∀ spec rev, Ok key (.consumption (a.consumption spec rev))) :
    Spec I (a.decide current key) (fun _ s => I s ∧ ∃ i, 2 ≤ i ∧ T i) I := by
  have hboth : ∀ spec rev, ∀ x ∈ [(decisionKey a.decisionId, Record.decision a.decision),
      (key, Record.consumption (a.consumption spec rev))], Ok x.1 x.2 := by
    intro spec rev x hx
    rcases List.mem_cons.1 hx with rfl | hx
    · exact hd
    · rw [List.mem_singleton.1 hx]
      exact hc spec rev
  refine ((lift_spec _).post fun _ _ h => h.1).bind fun inputs => ?_
  refine ((lift_spec _).post fun _ _ h => h.1).bind fun unit => ?_
  cases current with
  | none =>
    refine ((lift_spec _).post fun _ _ h => h.1).bind fun spec => ?_
    show Spec _ (if a.policy.workBudget.isSome then _ else _) _ _
    split
    · exact h.acceptBudget none (hboth spec none)
    · refine (h.recordBoth hd (hc spec none)).bind fun _ => ?_
      refine ((lift_spec _).post fun _ _ h => h.1).bind fun p => ?_
      exact (h.final p.spec.digest 5).post fun _ _ h => ⟨h.1, 5, by omega, h.2⟩
  | some p =>
    refine ((lift_spec _).post fun _ _ h => h.1).bind fun spec => ?_
    show Spec _ (if a.policy.workBudget.isSome then _ else _) _ _
    split
    · exact h.acceptBudget (some p) (hboth spec _)
    · refine (h.recordBoth hd (hc spec _)).bind fun _ => ?_
      refine Spec.bind (R := fun _ s => I s) ?_ fun _ => ?_
      · refine ((lift_spec _).post fun _ _ h => h.1).bind fun q => ?_
        refine (check_spec.post fun _ _ h => h.1).bind fun _ => ?_
        refine (check_spec.post fun _ _ h => h.1).bind fun _ => ?_
        exact Spec.pure fun _ h => h
      · refine ((lift_spec _).post fun _ _ h => h.1).bind fun q => ?_
        exact (h.final q.spec.digest 5).post fun _ _ h => ⟨h.1, 5, by omega, h.2⟩

/-- The part of `approve` after the consumptions are read. -/
theorem settle (h : a.Keeps I T Ok) (prior : List (Row × Consumption)) (current : Option Program)
    (hd : Ok (decisionKey a.decisionId) (.decision a.decision))
    (hc : ∀ key, ((∃ x ∈ prior, x.1.operationId = key) ∨
      key = consumptionKey a.draft.taskId (prior.length + 1)) →
        ∀ spec rev, Ok key (.consumption (a.consumption spec rev))) :
    Spec I (a.settle prior current) (fun _ s => I s ∧ ∃ i, 2 ≤ i ∧ T i) I := by
  refine (check_spec.post fun _ _ h => h.1).bind fun _ => ?_
  refine (check_spec.post fun _ _ h => h.1).bind fun _ => ?_
  cases hm : prior.filter fun c => c.2.decision = a.decisionId with
  | nil =>
    cases current with
    | none => exact h.decide none hd (hc _ (.inr rfl))
    | some p => exact h.decide (some p) hd (hc _ (.inr rfl))
  | cons x rest =>
    have hx : x ∈ prior := by
      have hx : x ∈ prior.filter fun c => c.2.decision = a.decisionId := by
        rw [hm]
        exact List.mem_cons_self
      exact (List.mem_filter.1 hx).1
    cases current with
    | none => exact h.decide none hd (hc _ (.inl ⟨x, hx, rfl⟩))
    | some p =>
      show Spec _ (if x.2.program = p.spec.digest then _ else _) _ _
      split
      · exact h.replay p hd
      · split
        · exact h.decide (some p) hd (hc _ (.inl ⟨x, hx, rfl⟩))
        · exact fail_spec

end Keeps

end Approval

/-! ## The parts of a call -/

section

variable {W : Key → Prop} {c : List (String × Record)}

/-- `history` returns for accepted tasks only. -/
theorem history_any (t : String) : Spec (Holds c) (history t)
    (fun ds s => Holds c s ∧ Accepted t ∧ ds = draftsIn t c) (Holds c) := by
  by_cases ht : Accepted t
  · exact (history_spec ht).spec.post fun _ _ h => ⟨h.1, ht, h.2⟩
  · have hdraft : taskPrefix t = .error (refusal "invalid controller task identity") := by
      unfold taskPrefix
      rw [check_of_not ht]
      rfl
    intro s hs
    have hrun : history t s =
        (.error (.raised (refusal "invalid controller task identity")), s) :=
      bind_of_error (by rw [hdraft]; rfl)
    rw [hrun]
    exact ⟨by rintro _ _ ⟨⟩, by rintro _ _ ⟨⟩; exact hs⟩

/-- `historical_decision` reads. -/
theorem historicalDecision_spec (decisionId : String) : Spec (Holds c)
    (historicalDecision decisionId) (fun _ s => Holds c s) (Holds c) := by
  refine (Spec.read (Q := fun t s => Holds c s ∧ Holds c t) fun _ h => ⟨h, h⟩).bind fun t => ?_
  refine Spec.suppose (fun _ h => h.2) fun ht => ?_
  refine ((lift_spec _).pre fun _ h => h.1).bind fun row => Spec.suppose (fun _ h => h.2) ?_
  intro hrow
  obtain ⟨hmem, -⟩ := Rows.mem_of_find (lookup_eq_ok.1 hrow)
  have hrecover : Reads c 1 (recover row) fun r => r = row.record :=
    recover_spec (by rw [← ht.2]; exact mem_contents hmem) (ht.1.checked row hmem)
  refine ((hrecover.spec.pre fun _ h => h.1).post fun _ _ h => h.1).bind fun r => ?_
  cases r with
  | decision d =>
    refine (check_spec.post fun _ _ h => h.1).bind fun _ => ?_
    exact Spec.pure fun _ h => h
  | draft d => exact fail_spec
  | consumption d => exact fail_spec
  | baselineAge i n => exact fail_spec

/-- `_consumptions` reads; what it returns are consumptions on record. -/
theorem consumptions_spec (t : String) : Spec (Holds c) (consumptions t)
    (fun found s => Holds c s ∧
      ∀ x ∈ found, (x.1.operationId, Record.consumption x.2) ∈ c ∧ x.1.check = .ok () ∧
        x.1.record = .consumption x.2) (Holds c) := by
  refine ((history_any t).post fun _ _ h => h.1).bind fun ds => ?_
  refine (Spec.read (Q := fun t s => Holds c s ∧ Holds c t) fun _ h => ⟨h, h⟩).bind fun u => ?_
  refine Spec.suppose (fun _ h => h.2) fun hu => ?_
  have hone : ∀ row ∈ operations u ("ordinary:consumed:" ++ t ++ ":"),
      Spec (Holds c) (consumptionOf ds row) (fun x s => Holds c s ∧
        ∀ y ∈ x, y.1 = row ∧ row ∈ u.rows ∧ row.record = .consumption y.2) (Holds c) := by
    intro row hrow
    have hmem := mem_operations hrow
    have hrecover : Reads c 1 (recover row) fun r => r = row.record :=
      recover_spec (by rw [← hu.2]; exact mem_contents hmem) (hu.1.checked row hmem)
    refine hrecover.spec.bind fun r => Spec.suppose (fun _ h => h.2) fun hr => ?_
    cases r with
    | consumption d =>
      refine ((historicalDecision_spec d.decision).pre fun _ h => h.1).bind fun _ => ?_
      refine (check_spec.post fun _ _ h => h.1).bind fun _ => ?_
      refine Spec.pure fun s hs => ⟨hs, fun y hy => ?_⟩
      rw [← Option.some.inj hy]
      exact ⟨rfl, hmem, hr.symm⟩
    | draft d => exact Spec.pure fun s hs => ⟨hs.1, by simp⟩
    | decision d => exact Spec.pure fun s hs => ⟨hs.1, by simp⟩
    | baselineAge i n => exact Spec.pure fun s hs => ⟨hs.1, by simp⟩
  refine ((Spec.each (fun _ h => h) hone).pre fun _ h => h.1).bind fun found => ?_
  refine Spec.pure fun s hs => ⟨hs.1, fun x hx => ?_⟩
  obtain ⟨y, hy, he⟩ := List.mem_filterMap.1 hx
  obtain rfl : y = some x := he
  obtain ⟨row, -, hrow⟩ := hs.2 _ hy
  obtain ⟨rfl, hmem, hrec⟩ := hrow x rfl
  refine ⟨?_, hu.1.checked _ hmem, hrec⟩
  rw [← hrec, ← hu.2]
  exact mem_contents hmem

/-- Another record than a draft, readable under a key of a kind or under one on record. -/
structure Writable (W : Key → Prop) (c : List (String × Record)) (key : String) (r : Record) :
    Prop where
  plain : r.draft? = none
  check : Row.check ⟨key, key, r, none, 0⟩ = .ok ()
  key : (∃ x ∈ c, x.1 = key) ∨ ∃ k : Key, k.Accepted ∧ W k ∧ key = k.text

theorem Writable.mono {c' : List (String × Record)} {key : String} {r : Record}
    (h : Writable W c key r) (hc : c <+: c') : Writable W c' key r :=
  ⟨h.plain, h.check, h.key.imp_left fun ⟨x, hx, he⟩ => ⟨x, hc.subset hx, he⟩⟩

theorem Writable.fits {key : String} {r : Record} (h : Writable W c key r) : Fits c key r :=
  ⟨h.check, by rintro d rfl; cases h.plain⟩

/-- Writing such a record. -/
theorem record_grown {key : String} {r : Record} (h : Writable W c key r) :
    Spec (Grown W c []) (record key r) (fun _ s => Grown W c [] s ∧ True) (Grown W c []) := by
  refine Grown.lift fun c' hc' => ?_
  have h' := h.mono hc'
  exact (record_spec fun _ => h'.fits).weaken (fun _ h => h)
    (fun _ _ hr => ⟨Grown.of_recorded h'.plain h'.key hr.1, trivial⟩)
    fun _ hr => Grown.of_recorded h'.plain h'.key hr

/-- What publishing records in one transaction makes of the rows. -/
theorem publish_eq_ok {records : List (String × Record)} {rows rows' : List Row}
    (hr : ∀ x ∈ records, x.2.draft? = none ∧ Row.check ⟨x.1, x.1, x.2, none, 0⟩ = .ok ())
    (hk : Kept rows) (h : Approval.publish records rows = .ok rows') :
    Kept rows' ∧ ∃ l, contents rows' = contents rows ++ l ∧
      ∀ x ∈ l, x ∈ records ∧ ∀ y ∈ contents rows, y.1 ≠ x.1 := by
  induction records generalizing rows with
  | nil =>
    obtain rfl := Except.ok.inj h
    exact ⟨hk, [], by rw [List.append_nil], by simp⟩
  | cons x records ih =>
    obtain ⟨rows₂, hx, h⟩ := bind_eq_ok.1 h
    obtain ⟨rows₁, hi, hf⟩ := bind_eq_ok.1 hx
    obtain ⟨hplain, hcheck⟩ := hr x List.mem_cons_self
    have hfit : Fits (contents rows) x.1 x.2 := by
      refine ⟨hcheck, fun d hd => ?_⟩
      rw [hd] at hplain
      cases hplain
    obtain ⟨hk₁, hmem, hc₁⟩ := insert_eq_ok hk (fun _ => hfit) hi
    obtain ⟨hk₂, hc₂⟩ := finalizeArtifact_eq_ok hk₁ hmem hf
    obtain ⟨hk', l, hl, hall⟩ := ih (fun y hy => hr y (List.mem_cons_of_mem _ hy)) hk₂ h
    rcases hc₁ with hc₁ | ⟨hc₁, hfresh⟩
    · refine ⟨hk', l, by rw [hl, hc₂, hc₁], fun y hy => ?_⟩
      obtain ⟨hmem', hnew⟩ := hall y hy
      rw [hc₂, hc₁] at hnew
      exact ⟨List.mem_cons_of_mem _ hmem', hnew⟩
    · refine ⟨hk', (x.1, x.2) :: l, ?_, fun y hy => ?_⟩
      · rw [hl, hc₂, hc₁, List.append_assoc]
        rfl
      rcases List.mem_cons.1 hy with rfl | hy
      · exact ⟨List.mem_cons_self, hfresh⟩
      · obtain ⟨hmem', hnew⟩ := hall y hy
        rw [hc₂, hc₁] at hnew
        exact ⟨List.mem_cons_of_mem _ hmem',
          fun z hz => hnew z (List.mem_append.2 (.inl hz))⟩

/-- A transaction that publishes records. -/
theorem publish_spec {records : List (String × Record)}
    (hr : ∀ x ∈ records, x.2.draft? = none ∧ Row.check ⟨x.1, x.1, x.2, none, 0⟩ = .ok ()) :
    Spec (Holds c) (transact (Approval.publish records)) (fun _ s => Kept s.rows ∧
      ∃ l, contents s.rows = c ++ l ∧ ∀ x ∈ l, x ∈ records ∧ ∀ y ∈ c, y.1 ≠ x.1) (Holds c) := by
  rintro s ⟨hk, rfl⟩
  rcases transact_cases (Approval.publish records) s with
    ⟨f, -, he⟩ | ⟨rows, -, -, -, he⟩ | ⟨rows, n, hp, -, -, he⟩
  · rw [he]
    exact ⟨by rintro _ _ ⟨⟩, by rintro _ _ ⟨⟩; exact ⟨hk, rfl⟩⟩
  · rw [he]
    exact ⟨by rintro _ _ ⟨⟩, by rintro _ _ ⟨⟩; exact ⟨hk, rfl⟩⟩
  · rw [he]
    refine ⟨?_, by rintro _ _ ⟨⟩⟩
    rintro _ _ ⟨⟩
    exact publish_eq_ok hr hk hp

/-- Publishing such records in one transaction. -/
theorem publish_grown {records : List (String × Record)}
    (h : ∀ x ∈ records, Writable W c x.1 x.2) :
    Spec (Grown W c []) (transact (Approval.publish records)) (fun _ s => Grown W c [] s ∧ True)
      (Grown W c []) := by
  refine Grown.lift fun c' hc' => ?_
  have h' : ∀ x ∈ records, Writable W c' x.1 x.2 := fun x hx => (h x hx).mono hc'
  refine (publish_spec fun x hx => ⟨(h' x hx).plain, (h' x hx).check⟩).weaken (fun _ h => h) ?_
    fun _ hs => Grown.refl hs
  rintro _ s ⟨hk, l, hl, hall⟩
  refine ⟨⟨hk, l, hl, ?_, fun x hx => ?_⟩, trivial⟩
  · exact List.filterMap_eq_nil_iff.2 fun x hx => (h' x (hall x hx).1).plain
  · obtain ⟨hmem, hfresh⟩ := hall x hx
    rcases (h' x hmem).key with ⟨y, hy, he⟩ | hkey
    · exact absurd he (hfresh y hy)
    · exact hkey

end

section

variable (hhex : ∀ text, isHex64 (Sha256.hexdigest text).val.toList = true)
  {W : Key → Prop} (hW : ∀ hex n, W (.age hex n)) {c : List (String × Record)}

include hhex hW

/-- `_baseline_age` may record an age. -/
theorem baselineAge_grown (e : Evidence) : Spec (Grown W c []) (baselineAge e)
    (fun age s => Grown W c [] s ∧ 0 < age ∧ 0 < e.observedAt) (Grown W c []) := by
  refine Grown.lift fun c' _ => ?_
  have hkey : (∃ x ∈ c', x.1 = ageKey e.identity e.observedAt) ∨
      ∃ k : Key, k.Accepted ∧ W k ∧ ageKey e.identity e.observedAt = k.text :=
    .inr ⟨.age (digest e.identity.payload).val e.observedAt, hhex _, hW _ _, rfl⟩
  exact (baselineAge_spec e).weaken (fun _ h => h)
    (fun _ _ h => ⟨Grown.of_recorded rfl hkey h.recorded.1, h.pos, h.observed⟩)
    fun _ h => Grown.of_recorded rfl hkey h.1

/-- `_validate` returns only for accepted tasks and in positive time. -/
theorem validate_spec (principal : Principal) (draft : Draft) (policy : OwnerPolicy)
    (current : Evidence) (expiresAt : ℤ) (reading : Reading) :
    Spec (Grown W c []) (validate principal draft policy current expiresAt reading)
      (fun _ s => Grown W c [] s ∧ Accepted draft.taskId ∧ 0 < expiresAt) (Grown W c []) := by
  have hhist := Grown.of_spec (W := W) (c := c) fun c' =>
    (history_any (c := c') draft.taskId).post fun _ _ h => ⟨h.1, h.2.1⟩
  refine hhist.bind fun ds => Spec.suppose (fun _ h => h.2) fun ht => ?_
  refine ((baselineAge_grown hhex hW current).pre fun _ h => h.1).bind fun age =>
    Spec.suppose (fun _ h => h.2.2) fun ho => ?_
  refine (((lift_spec _).pre fun _ h => h.1).post fun _ _ h => h.1).bind fun _ => ?_
  refine check_spec.post fun _ s h => ⟨h.1, ht, ?_⟩
  obtain ⟨hexp, hcur, -⟩ := h.2
  omega

/-- `_final_program`. -/
theorem finalProgram_spec (specDigest : Name) (principal : Principal) (draft : Draft)
    (policy : OwnerPolicy) (current : Evidence) (expiresAt : ℤ) (reading : Reading) :
    Spec (Grown W c []) (finalProgram specDigest principal draft policy current expiresAt reading)
      (fun _ s => Grown W c [] s ∧ True) (Grown W c []) := by
  refine (Spec.read (Q := fun _ s => Grown W c [] s) fun _ h => h).bind fun before => ?_
  refine ((lift_spec _).post fun _ _ h => h.1).bind fun p => ?_
  have hhist := Grown.of_spec (W := W) (c := c) fun c' =>
    (history_any (c := c') draft.taskId).post fun _ _ h => ⟨h.1, h.2.1⟩
  refine (hhist.post fun _ _ h => h.1).bind fun ds => ?_
  refine ((baselineAge_grown hhex hW current).post fun _ _ h => h.1).bind fun age => ?_
  refine (check_spec.post fun _ _ h => h.1).bind fun _ => ?_
  refine ((lift_spec _).post fun _ _ h => h.1).bind fun _ => ?_
  refine (Spec.read (Q := fun _ s => Grown W c [] s) fun _ h => h).bind fun after => ?_
  refine (check_spec.post fun _ _ h => h.1).bind fun _ => ?_
  refine ((lift_spec _).post fun _ _ h => h.1).bind fun _ => ?_
  exact Spec.pure fun _ h => ⟨h, trivial⟩

/-! ## Approvals -/

omit hhex hW in
/-- The row of a decision is readable under its key. -/
theorem decision_check {a : Approval} (hid : Accepted a.decisionId) (hexp : 0 < a.expiresAt) :
    Row.check ⟨decisionKey a.decisionId, decisionKey a.decisionId, .decision a.decision, none, 0⟩ =
      .ok () := by
  have hdraft : taskPrefix a.decision.decisionId = .ok (draftPrefix a.decisionId) := by
    unfold taskPrefix
    rw [check_of (show Accepted a.decision.decisionId from hid)]
    rfl
  have hkey : decisionKey a.decisionId = decisionKey a.decision.decisionId := rfl
  refine check_eq_ok.2 ⟨rfl, rfl, ?_⟩
  unfold Row.checkRecord
  simp only [hdraft, ok_bind, check_of hkey]
  exact check_of ⟨a.draft.pos, hexp⟩

omit hhex hW in
/-- The row of a consumption is readable under every key of consumptions. -/
theorem consumption_check {a : Approval} (hid : Accepted a.decisionId) {key : String}
    (hkey : isConsumptionKey key = true) (spec : ProgramSpec) (rev : Option ℕ) :
    Row.check ⟨key, key, .consumption (a.consumption spec rev), none, 0⟩ = .ok () := by
  have hne : a.decisionId ≠ "" := by
    intro he
    have hid' : isId a.decisionId.toList = true := hid
    rw [he] at hid'
    exact absurd hid' (by decide)
  refine check_eq_ok.2 ⟨rfl, rfl, ?_⟩
  unfold Row.checkRecord
  simp only [check_of (show (a.consumption spec rev).decision ≠ "" from hne), ok_bind]
  exact check_of hkey

omit hhex hW in
/-- A consumption that is found stands under a key of consumptions. -/
theorem isConsumptionKey_of_check {row : Row} {d : Consumption} (h : row.check = .ok ())
    (hrec : row.record = .consumption d) : isConsumptionKey row.operationId = true := by
  have hrow := (check_eq_ok.1 h).2.2
  unfold Row.checkRecord at hrow
  rw [hrec] at hrow
  obtain ⟨-, hrow⟩ := check_bind_eq_ok.1 hrow
  exact Checked.check_eq_ok.1 hrow

/-- **Approvals** record under the keys of their decision and their task only. -/
theorem approve_spec {a : Approval} (hdecision : W (.decision a.decisionId))
    (hconsumption : ∀ n, W (.consumption a.draft.taskId n)) :
    Spec (Grown W c []) (approve a) (fun _ s => Grown W c [] s) (Grown W c []) := by
  refine (lift_spec _).bind fun start => Spec.suppose (fun _ h => h.2) fun hstart => ?_
  have hid : Accepted a.decisionId := (check_bind_eq_ok.1 hstart).1
  refine ((validate_spec hhex hW _ _ _ _ _ _).pre fun _ h => h.1).bind fun _ =>
    Spec.suppose (fun _ h => h.2) fun hin => ?_
  refine Spec.pre ?_ fun _ h => h.1
  refine (Grown.lift (Q := fun _ => True) fun c' _ => ?_).post fun _ _ h => h.1
  refine ((consumptions_spec a.draft.taskId).weaken (fun _ h => h) (fun _ _ h => h)
    fun _ h => Grown.refl h).bind fun prior => Spec.suppose (fun _ h => h.2) fun hprior => ?_
  have hkeeps : a.Keeps (Grown W c' []) (fun _ => True) (Writable W c') :=
    ⟨fun i => (validate_spec hhex hW _ _ _ _ _ _).post fun _ _ h => ⟨h.1, trivial⟩,
      fun d i => finalProgram_spec hhex hW _ _ _ _ _ _ _,
      fun key r h => (record_grown h).post fun _ _ h => h.1,
      fun records h => (publish_grown h).post fun _ _ h => h.1⟩
  refine Spec.bind ((hkeeps.settle prior _ ?_ ?_).pre fun _ h => Grown.refl h.1)
    fun _ => Spec.pure fun _ h => ⟨h.1, trivial⟩
  · exact ⟨rfl, decision_check hid hin.2, .inr ⟨.decision a.decisionId, hid, hdecision, rfl⟩⟩
  · rintro key (⟨x, hx, rfl⟩ | rfl) spec rev
    · -- a consumption that is found stands under a key on record
      obtain ⟨hmem, hrow, hrec⟩ := hprior x hx
      exact ⟨rfl, consumption_check hid (isConsumptionKey_of_check hrow hrec) spec rev,
        .inl ⟨_, hmem, rfl⟩⟩
    · exact ⟨rfl, consumption_check hid (isConsumptionKey_text hin.1 (Nat.succ_pos _)) spec rev,
        .inr ⟨.consumption a.draft.taskId _, hin.1, hconsumption _, rfl⟩⟩

/-! ## Preparations -/

/-- The records grew by a draft, under a key of its task. -/
def Drafted (c : List (String × Record)) (d : Draft) (s : Store) : Prop :=
  ∃ k : Key, (k = .draft d.taskId d.revision ∨ k = .fallback d.taskId d.revision) ∧
    Holds (c ++ [(k.text, .draft d)]) s

omit hhex hW in
theorem Drafted.grown {d : Draft} {s : Store} (h : Drafted c d s) (ht : Accepted d.taskId)
    (hdraft : ∀ n, W (.draft d.taskId n)) (hfallback : ∀ n, W (.fallback d.taskId n)) :
    Grown W c [d] s := by
  obtain ⟨k, hk, hs⟩ := h
  refine ⟨hs.1, [(k.text, .draft d)], hs.2, rfl, fun x hx => ?_⟩
  rw [List.mem_singleton.1 hx]
  rcases hk with rfl | rfl
  · exact ⟨.draft d.taskId d.revision, ht, hdraft _, rfl⟩
  · exact ⟨.fallback d.taskId d.revision, ht, hfallback _, rfl⟩

omit hhex hW in
/-- A new draft of a task is recorded under a key of this task. -/
theorem recordDraft_spec {d : Draft} (ht : Accepted d.taskId)
    (hobserved : 0 < d.evidence.observedAt)
    (hchain : Chained d.taskId 0 none (draftsIn d.taskId c ++ [d])) :
    Spec (Holds c) (recordDraft d.taskId d) (fun d' s => d' = d ∧ Drafted c d s)
      (fun s => Holds c s ∨ Drafted c d s) := by
  have hdraft : taskPrefix d.taskId = .ok (draftPrefix d.taskId) := by
    unfold taskPrefix
    rw [check_of ht]
    rfl
  have hrecord : ∀ k : Key, (k = .draft d.taskId d.revision ∨
      k = .fallback d.taskId d.revision) → Spec (Holds c) (record k.text (.draft d))
        (fun _ s => Drafted c d s) (fun s => Holds c s ∨ Drafted c d s) := by
    intro k hk
    -- the row of the draft is readable under either key
    have hfit : Fits c k.text (.draft d) := by
      refine ⟨check_eq_ok.2 ⟨rfl, rfl, ?_⟩, ?_⟩
      · unfold Row.checkRecord
        simp only [check_of hobserved, ok_bind, hdraft]
        refine check_of ?_
        rcases hk with rfl | rfl
        · exact .inl rfl
        · exact .inr rfl
      · intro d' hd'
        cases hd'
        exact hchain
    refine (record_spec fun _ => hfit).weaken (fun _ h => h) ?_ ?_
    · rintro _ s ⟨hsame | ⟨hnew, -⟩, hmem⟩
      · -- the draft cannot have been on record: its revision is past all of its task
        rw [hsame.2] at hmem
        have hin : d ∈ draftsIn d.taskId c :=
          List.mem_filter.2 ⟨List.mem_filterMap.2 ⟨_, hmem, rfl⟩, by simp⟩
        have hlt := List.pairwise_append.1 hchain.pairwise.2
        exact absurd (hlt.2.2 d hin d (List.mem_singleton.2 rfl)) (lt_irrefl _)
      · exact ⟨k, hk, hnew⟩
    · rintro s (hsame | ⟨hnew, -⟩)
      · exact .inl hsame
      · exact .inr ⟨k, hk, hnew⟩
  refine ((lift_spec _).weaken (fun _ h => h) (fun _ _ h => h) fun _ h => .inl h).bind
    fun start => Spec.suppose (fun _ h => h.2) fun hstart => ?_
  obtain rfl : draftPrefix d.taskId = start := Except.ok.inj (hdraft.symm.trans hstart)
  refine (Spec.read (Q := fun _ s => Holds c s) fun _ h => h.1).bind fun u => ?_
  refine Spec.bind (R := fun _ s => Drafted c d s) ?_ fun _ => Spec.pure fun _ h => ⟨rfl, h⟩
  split
  · exact hrecord (.fallback d.taskId d.revision) (.inr rfl)
  · exact hrecord (.draft d.taskId d.revision) (.inl rfl)

omit hhex hW in
/-- The part of `prepare` after the age is known: the last draft is returned if it means the same,
and else one more draft is recorded, with the evidence as it is given. -/
theorem amendDraft_spec {t : String} (selected : IssueSubject) (declaration : Declaration)
    {e : Evidence} (ht : Accepted t) (hobserved : 0 < e.observedAt)
    (hchain : Chained t 0 none (draftsIn t c)) :
    Spec (Holds c) (amendDraft t (draftsIn t c).getLast? selected declaration e)
      (fun d s => d.taskId = t ∧ ((Holds c s ∧ (draftsIn t c).getLast? = some d) ∨
        (Drafted c d s ∧ d.evidence = e)))
      (fun s => Holds c s ∨ ∃ d, d.taskId = t ∧ Drafted c d s ∧ d.evidence = e) := by
  refine (check_spec.weaken (fun _ h => h) (fun _ _ h => h.1) fun _ h => .inl h).bind fun _ => ?_
  cases hprev : (draftsIn t c).getLast?.filter fun d =>
      d.declaration.raw = declaration.raw ∧ d.evidence.digest = e.digest with
  | some d =>
    have hlast := (Option.filter_eq_some_iff.1 hprev).1
    refine Spec.pure fun s hs => ⟨?_, .inl ⟨hs, hlast⟩⟩
    exact (hchain.pairwise.1 d (List.mem_of_getLast? hlast)).1
  | none =>
    have hlen := hchain.getLast_revision
    have hnext : Chained t 0 none
        (draftsIn t c ++ [nextDraft t (draftsIn t c).getLast? declaration e]) := by
      refine hchain.concat rfl ?_ ?_
      · show (draftsIn t c).getLast?.elim 0 Draft.revision + 1 = _
        rw [hlen]
      · show (draftsIn t c).getLast?.map Draft.digest = _
        cases (draftsIn t c).getLast? <;> rfl
    refine (recordDraft_spec (d := nextDraft t (draftsIn t c).getLast? declaration e) ht
      hobserved hnext).weaken (fun _ h => h) ?_ ?_
    · rintro d s ⟨rfl, h⟩
      exact ⟨rfl, .inr ⟨h, rfl⟩⟩
    · rintro s (h | h)
      · exact .inl h
      · exact .inr ⟨_, rfl, h, rfl⟩

/-- **Preparations** add at most one draft, to their own task. -/
theorem prepare_spec {t : String} (selected : IssueSubject) (declaration : Declaration)
    (expectedParent : Option Name) (e : Evidence) (hdraft : ∀ n, W (.draft t n))
    (hfallback : ∀ n, W (.fallback t n)) :
    Spec (Holds c) (prepare t selected declaration expectedParent e)
      (fun d s => d.taskId = t ∧
        ((Grown W c [] s ∧ (draftsIn t c).getLast? = some d) ∨ Grown W c [d] s))
      (fun s => Grown W c [] s ∨ ∃ d, d.taskId = t ∧ Grown W c [d] s) := by
  refine ((history_any t).weaken (fun _ h => h) (fun _ _ h => h)
    fun _ h => .inl (Grown.refl h)).bind fun ds => Spec.suppose (fun _ h => h.2) ?_
  rintro ⟨ht, rfl⟩
  intro s hs
  have hchain : Chained t 0 none (draftsIn t c) := by
    rw [← hs.1.2]
    exact hs.1.1.chained t
  suffices h : Spec (Grown W c []) _ _ _ from h s (Grown.refl hs.1)
  refine (check_spec.weaken (fun _ h => h) (fun _ _ h => h.1) fun _ h => .inl h).bind fun _ => ?_
  refine (check_spec.weaken (fun _ h => h) (fun _ _ h => h.1) fun _ h => .inl h).bind fun _ => ?_
  refine ((baselineAge_grown hhex hW e).weaken (fun _ h => h) (fun _ _ h => h)
    fun _ h => .inl h).bind fun age => Spec.suppose (fun _ h => h.2) fun hage => ?_
  rintro s ⟨hg, -⟩
  have hsame : draftsIn t (contents s.rows) = draftsIn t c := by
    simpa using hg.draftsIn_eq t
  have hamend := amendDraft_spec selected declaration (e := { e with observedAt := age }) ht hage.1
    (hg.kept.chained t) s ⟨hg.kept, rfl⟩
  rw [hsame] at hamend
  have hgrown : ∀ d s', d.taskId = t → Drafted (contents s.rows) d s' → Grown W c [d] s' := by
    rintro d s' rfl h
    exact hg.trans (h.grown ht hdraft hfallback)
  constructor
  · intro d s' hr
    obtain ⟨htask, ⟨hs', hlast⟩ | ⟨hs', -⟩⟩ := hamend.1 d s' hr
    · exact ⟨htask, .inl ⟨hg.trans (Grown.refl hs'), hlast⟩⟩
    · exact ⟨htask, .inr (hgrown d s' htask hs')⟩
  · intro f s' hr
    rcases hamend.2 f s' hr with hs' | ⟨d, htask, hs', -⟩
    · exact .inl (hg.trans (Grown.refl hs'))
    · exact .inr ⟨d, htask, hgrown d s' htask hs'⟩

end

/-! ## Runs -/

/-- The drafts on record for a task, in the order in which they were recorded. -/
def Store.drafts (s : Store) (taskId : String) : List Draft := draftsIn taskId (contents s.rows)

/-- What a call does to the records of all tasks. -/
structure Separate (s : Store) (call : ℕ × Call) : Prop where
  /-- Nothing on record is changed or lost. -/
  recorded : contents s.rows <+: contents (next s call).rows
  /-- What is written stands under a key of the call. -/
  written : ∀ row ∈ (next s call).rows, (∀ row' ∈ s.rows, row'.operationId ≠ row.operationId) →
    ∃ k : Key, k.Accepted ∧ call.2.Writes k ∧ row.operationId = k.text
  /-- The drafts of a task stay as they are, or the call is a preparation for this task that
  adds the draft it returns, if it lives to return. -/
  drafts : ∀ t, (next s call).drafts t = s.drafts t ∨
    ∃ selected declaration parent e d, call.2 = .prepare t selected declaration parent e ∧
      (next s call).drafts t = s.drafts t ++ [d] ∧ ∀ d',
        (prepare t selected declaration parent e { s with allowance := call.1 }).1 = .ok d' → d' = d
  /-- A draft that a preparation returns is the last one of its task. -/
  returned : ∀ t selected declaration parent e d,
    call.2 = .prepare t selected declaration parent e →
    (prepare t selected declaration parent e { s with allowance := call.1 }).1 = .ok d →
      ((next s call).drafts t).getLast? = some d

/-- What the intake guarantees of a run. -/
structure Namespaces (s : Store) (calls : List (ℕ × Call)) : Prop where
  /-- The history of a task is what was recorded for it, unless the process dies on the way. -/
  history : ∀ t, Accepted t → ∀ n, 2 * (Runs.run next s calls).rows.length ≤ n →
    (Intake.history t { Runs.run next s calls with allowance := n }).1 =
      .ok ((Runs.run next s calls).drafts t)
  /-- It is an unbroken chain. -/
  chained : ∀ t, Chained t 0 none ((Runs.run next s calls).drafts t)
  /-- Every call keeps to its own task. -/
  separate : ∀ before call after, calls = before ++ call :: after →
    Separate (Runs.run next s before) call
  /-- No two records share a key. -/
  nodup : ((Runs.run next s calls).rows.map Row.operationId).Nodup
  /-- Keys of different kinds, tasks or numbers are different texts. -/
  keys : ∀ k k' : Key, k.Accepted → k'.Accepted → k.text = k'.text → k = k'

/-- From growth to what a call does. -/
theorem Grown.separates {W : Key → Prop} {c : List (String × Record)} {ds : List Draft} {s : Store}
    (h : Grown W c ds s) : c <+: contents s.rows ∧
      ∀ row ∈ s.rows, (∀ x ∈ c, x.1 ≠ row.operationId) →
        ∃ k : Key, k.Accepted ∧ W k ∧ row.operationId = k.text := by
  obtain ⟨l, hl, -, hall⟩ := h.grown
  refine ⟨⟨l, hl.symm⟩, fun row hrow hfresh => ?_⟩
  have hmem := mem_contents hrow
  rw [hl] at hmem
  rcases List.mem_append.1 hmem with hmem | hmem
  · exact absurd rfl (hfresh _ hmem)
  · exact hall _ hmem

section

variable (hhex : ∀ text, isHex64 (Sha256.hexdigest text).val.toList = true)

include hhex

/-- Every call but a preparation records no draft. -/
theorem perform_grown {call : Call} {s : Store} (hk : Kept s.rows)
    (hcall : ∀ t selected declaration parent e, call ≠ .prepare t selected declaration parent e) :
    Grown call.Writes (contents s.rows) [] (call.perform s).2 := by
  have hs : Grown call.Writes (contents s.rows) [] s := Grown.refl ⟨hk, rfl⟩
  cases call with
  | prepare t selected declaration parent e => exact absurd rfl (hcall _ _ _ _ _)
  | approve a =>
    rw [show (Call.approve a).perform = (do let _ ← approve a; return ()) from rfl, drop_snd]
    exact (approve_spec hhex (W := (Call.approve a).Writes) (fun _ _ => trivial) rfl
      fun _ => rfl).final hs
  | validate principal draft policy current expiresAt reading =>
    exact ((validate_spec hhex (fun _ _ => trivial) principal draft policy current expiresAt
      reading).post fun _ _ h => h.1).final hs
  | baselineAge e =>
    rw [show (Call.baselineAge e).perform = (do let _ ← baselineAge e; return ()) from rfl,
      drop_snd]
    exact ((baselineAge_grown hhex (fun _ _ => trivial) e).post fun _ _ h => h.1).final hs
  | history t =>
    rw [show (Call.history t).perform = (do let _ ← Intake.history t; return ()) from rfl,
      drop_snd]
    have hread : Spec (Holds (contents s.rows)) (Intake.history t)
        (fun _ s' => Holds (contents s.rows) s') (Holds (contents s.rows)) :=
      (history_any t).post fun _ _ h => h.1
    exact Grown.refl (hread.final ⟨hk, rfl⟩)

omit hhex in
/-- A call that adds some drafts, by what it adds and what it returns. -/
theorem separate_of {s : Store} {call : ℕ × Call} {ds : List Draft}
    (hg : Grown call.2.Writes (contents s.rows) ds (next s call))
    (hdrafts : ds = [] ∨ ∃ t selected declaration parent e d,
      call.2 = .prepare t selected declaration parent e ∧ ds = [d] ∧ d.taskId = t ∧ ∀ d',
        (prepare t selected declaration parent e { s with allowance := call.1 }).1 = .ok d' →
          d' = d)
    (hreturned : ∀ t selected declaration parent e d,
      call.2 = .prepare t selected declaration parent e →
      (prepare t selected declaration parent e { s with allowance := call.1 }).1 = .ok d →
        (s.drafts t ++ ds.filter fun d => d.taskId = t).getLast? = some d) :
    Kept (next s call).rows ∧ Separate s call := by
  have hall (u : String) :
      (next s call).drafts u = s.drafts u ++ ds.filter fun d => d.taskId = u := hg.draftsIn_eq u
  refine ⟨hg.kept, hg.separates.1, ?_, ?_, ?_⟩
  · intro row hrow hfresh
    refine hg.separates.2 row hrow fun x hx => ?_
    obtain ⟨row', hrow', rfl⟩ := List.mem_map.1 hx
    exact hfresh row' hrow'
  · intro u
    rcases hdrafts with rfl | ⟨t, selected, declaration, parent, e, d, hcall, rfl, rfl, hres⟩
    · left
      rw [hall, List.filter_nil, List.append_nil]
    · by_cases hu : d.taskId = u
      · subst hu
        right
        exact ⟨selected, declaration, parent, e, d, hcall, by rw [hall]; simp, hres⟩
      · left
        rw [hall, List.filter_cons_of_neg (by simpa using hu), List.filter_nil, List.append_nil]
  · intro u selected declaration parent e d hcall hres
    rw [hall]
    exact hreturned u selected declaration parent e d hcall hres

/-- The step: a call keeps the rows readable, and keeps to its own task. -/
theorem next_separate {s : Store} (hk : Kept s.rows) (call : ℕ × Call) :
    Kept (next s call).rows ∧ Separate s call := by
  obtain ⟨n, call⟩ := call
  by_cases hcall : ∃ t selected declaration parent e,
      call = .prepare t selected declaration parent e
  · obtain ⟨t, selected, declaration, parent, e, rfl⟩ := hcall
    have hnext : next s (n, .prepare t selected declaration parent e) =
        (prepare t selected declaration parent e { s with allowance := n }).2 := drop_snd _ _
    obtain ⟨hok, herror⟩ := prepare_spec hhex
      (W := (Call.prepare t selected declaration parent e).Writes) (fun _ _ => trivial)
      selected declaration parent e (fun _ => rfl) (fun _ => rfl)
      { s with allowance := n } ⟨hk, rfl⟩
    cases hr : prepare t selected declaration parent e { s with allowance := n } with
    | mk r s' =>
      have hs' : next s (n, .prepare t selected declaration parent e) = s' := by rw [hnext, hr]
      cases r with
      | ok d =>
        obtain ⟨htask, ⟨hg, hlast⟩ | hg⟩ := hok d s' hr
        · refine separate_of (by rw [hs']; exact hg) (.inl rfl) ?_
          rintro u sel dec par e' d' ⟨⟩ hd'
          rw [hr] at hd'
          rw [List.filter_nil, List.append_nil, ← Except.ok.inj hd']
          exact hlast
        · refine separate_of (by rw [hs']; exact hg) (.inr ⟨t, selected, declaration,
            parent, e, d, rfl, rfl, htask, fun d' hd' => ?_⟩) ?_
          · rw [hr] at hd'
            exact (Except.ok.inj hd').symm
          · rintro u sel dec par e' d' ⟨⟩ hd'
            rw [hr] at hd'
            rw [← Except.ok.inj hd', List.filter_cons_of_pos (by simpa using htask),
              List.filter_nil, List.getLast?_concat]
      | error f =>
        have hno : ∀ d', (prepare t selected declaration parent e
            { s with allowance := n }).1 ≠ .ok d' := by
          intro d' hd'
          rw [hr] at hd'
          cases hd'
        rcases herror f s' hr with hg | ⟨d, htask, hg⟩
        · refine separate_of (by rw [hs']; exact hg) (.inl rfl) ?_
          rintro u sel dec par e' d' ⟨⟩ hd'
          exact absurd hd' (hno d')
        · refine separate_of (by rw [hs']; exact hg) (.inr ⟨t, selected, declaration,
            parent, e, d, rfl, rfl, htask, fun d' hd' => absurd hd' (hno d')⟩) ?_
          rintro u sel dec par e' d' ⟨⟩ hd'
          exact absurd hd' (hno d')
  · have hg : Grown call.Writes (contents s.rows) [] (next s (n, call)) :=
      perform_grown hhex (s := { s with allowance := n }) hk
        fun t selected declaration parent e he => hcall ⟨t, selected, declaration, parent, e, he⟩
    refine separate_of hg (.inl rfl) fun u sel dec par e' d he => ?_
    exact absurd ⟨u, sel, dec, par, e', he⟩ hcall

/-- **Namespaces**: whatever is called for whatever tasks and wherever a process dies, the history
of a task is the chain of the drafts prepared for it, and no key is shared. -/
theorem namespaces {s : Store} (hs : Kept s.rows) (calls : List (ℕ × Call)) :
    Namespaces s calls := by
  have hkept : ∀ calls, Kept (Runs.run next s calls).rows := fun calls =>
    @Runs.run_invariant _ _ next (fun s => Kept s.rows)
      (fun _ call h => (next_separate hhex h call).1) s hs calls
  refine ⟨fun t ht n hn => ?_, fun t => (hkept calls).chained t, ?_, (hkept calls).nodup,
    fun k k' h h' he => Key.text_injective h h' he⟩
  · set e := Runs.run next s calls with he
    have hread := history_spec (c := contents e.rows) ht True 0 { e with allowance := n }
      ⟨hkept calls, rfl, fun _ => by rw [contents, List.length_map, Nat.zero_add]; exact hn⟩
    cases hr : history t { e with allowance := n } with
    | mk r s' =>
      cases r with
      | ok ds => exact congrArg Except.ok (hread.1 ds s' hr).2
      | error f => exact absurd trivial (hread.2 f s' hr).2
  · rintro before call after -
    exact (next_separate hhex (hkept before) call).2

end

end

/-! ## Samples -/

namespace Sample

/-- A digest. -/
def hex : String := "5feceb66ffc86f38d952786c6d696c79c2dbc239dd4e91b46729d73a27fb57e9"

theorem hex_isHex64 : isHex64 hex.toList = true := by decide

/-- A digest function with digests of sixty-four digits. -/
@[reducible] def sha256 : Sha256 := ⟨fun _ => ⟨hex, by decide⟩⟩

/-- A nonempty text. -/
def text (s : String) (h : s ≠ "" := by decide) : Text := ⟨s, h⟩

/-- An issue. -/
def subject : IssueSubject := ⟨text "https://forge.example", text "o/r", 7, text "main", text "b1"⟩

/-- A declaration. -/
def declaration : Declaration :=
  ⟨text "declaration", ⟨"outcome", Nonblank.outcome⟩, [⟨"criterion", by decide⟩], ["make"], [], [], [], []⟩

/-- Evidence about the issue, with a baseline result and a time. -/
def evidence (producer : Text) (observedAt : ℤ) : Evidence :=
  ⟨subject, text "issue", text "today", text "open", text "b1",
    text hex, producer,
    text "receipt", text "passed", text "reader", text "sha256:proof", text "proof", .remains,
    observedAt, hex_isHex64⟩

/-- A legacy consumption of the task `draft`, under the first key of the task `consumed`. -/
def legacy : Row :=
  ⟨"ordinary:consumed:draft:1", "ordinary:consumed:draft:1",
    .consumption ⟨"original", ⟨"digest", by decide⟩, ⟨"program", Nonblank.program⟩, none⟩, none, 0⟩

/-- A store that holds the legacy consumption. -/
def store : Store := ⟨[legacy], 0, []⟩

theorem store_kept : @Kept sha256 store.rows := by
  refine @Kept.mk sha256 _ (by decide) ?_ ?_ fun t => ?_
  · intro r hr
    rw [List.mem_singleton.1 hr]
    decide +kernel
  · intro r hr a ha
    rw [List.mem_singleton.1 hr] at ha
    cases ha
  · show @Chained sha256 t 0 none (draftsIn t (contents [legacy]))
    rw [draftsIn_eq_nil (by decide)]
    trivial

/-- The first preparation of a task. -/
def first (taskId : String) : Call :=
  .prepare taskId subject declaration none (evidence (text "producer") 200)

end Sample

/-- Two tasks whose names look like markers, the first of which meets the legacy consumption;
the second process dies while it records its draft. -/
theorem namespaces_of_markers : @Namespaces Sample.sha256 Sample.store
    [(9, Sample.first "consumed"), (1, Sample.first "draft")] :=
  @namespaces Sample.sha256 (fun _ => Sample.hex_isHex64) Sample.store Sample.store_kept _

end Intake

end CreatidyKernel
