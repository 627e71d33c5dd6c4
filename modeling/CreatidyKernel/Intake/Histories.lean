import CreatidyKernel.Intake.Ordinary
import CreatidyKernel.Intake.Keys

set_option relaxedAutoImplicit false
set_option autoImplicit false

/-!
# What the intake reads and records

The rows the intake writes stay readable, and reading them gives back what was recorded: the
history of a task is the list of its drafts, and the age of a baseline is the least on record.

## Main definitions

* `Intake.contents`, `Intake.draftsIn`, `Intake.agesIn` — what the rows record.
* `Intake.Kept` — the rows are readable, under distinct keys, and every task has its chain.
* `Intake.Reads` — an action that leaves the records alone and returns.
* `Intake.Recorded`, `Intake.Aged` — what is recorded when an action ends.

## Main results

* `Intake.history_spec` — `history` reads the drafts recorded for the task.
* `Intake.record_spec`, `Intake.baselineAge_spec` — what the writing parts record.
-/

namespace CreatidyKernel

namespace Intake

open Checked Action

/-! ## The records of the rows -/

/-- The keys of the rows with their records, in the order they were written. -/
def contents (rows : List Row) : List (String × Record) :=
  rows.map fun r => (r.operationId, r.record)

/-- The drafts among some records. -/
def draftsIn (taskId : String) (c : List (String × Record)) : List Draft :=
  (c.filterMap fun x => x.2.draft?).filter fun d => d.taskId = taskId

theorem draftsIn_append (t : String) (c c' : List (String × Record)) :
    draftsIn t (c ++ c') = draftsIn t c ++ draftsIn t c' := by
  simp only [draftsIn, List.filterMap_append, List.filter_append]

theorem draftsIn_eq_nil {t : String} {c : List (String × Record)}
    (h : ∀ x ∈ c, x.2.draft? = none) : draftsIn t c = [] := by
  have hnil : c.filterMap (fun x => x.2.draft?) = [] := by
    rw [List.filterMap_eq_nil_iff]
    exact h
  rw [draftsIn, hnil, List.filter_nil]

@[simp] theorem draftsIn_draft (t : String) (key : String) (d : Draft) :
    draftsIn t [(key, .draft d)] = if d.taskId = t then [d] else [] := by
  by_cases h : d.taskId = t <;> simp [draftsIn, Record.draft?, h]

theorem contents_append (rows rows' : List Row) :
    contents (rows ++ rows') = contents rows ++ contents rows' := List.map_append

theorem mem_operations {s : Store} {start : String} {row : Row} (h : row ∈ operations s start) :
    row ∈ s.rows := by
  simpa using (List.mem_filter.1 h).1

theorem mem_contents {rows : List Row} {row : Row} (h : row ∈ rows) :
    (row.operationId, row.record) ∈ contents rows := List.mem_map.2 ⟨row, h, rfl⟩

theorem length_operations (s : Store) (start : String) :
    (operations s start).length ≤ (contents s.rows).length := by
  refine (List.length_filter_le _ _).trans ?_
  rw [(SortedBy.perm_sortBy s.rows).length_eq, contents, List.length_map]

/-- Two scans that share no draft, and find the drafts of a task, give all of them. -/
theorem filterMap_scans {α β : Type} {f : α → Option β} {p q : α → Bool} {r : β → Bool}
    {l : List α} (h : ∀ a ∈ l, ∀ b, f a = some b →
      ((p a = true ∨ q a = true) ↔ r b = true) ∧ ¬(p a = true ∧ q a = true)) :
    ((l.filter p ++ l.filter q).filterMap f).Perm ((l.filterMap f).filter r) := by
  induction l with
  | nil => exact List.Perm.refl _
  | cons a l ih =>
    have ih := ih fun x hx => h x (List.mem_cons_of_mem _ hx)
    rw [List.filterMap_append] at ih ⊢
    cases hf : f a with
    | none =>
      have hdrop (s : α → Bool) :
          ((a :: l).filter s).filterMap f = (l.filter s).filterMap f := by
        by_cases hs : s a = true
        · rw [List.filter_cons_of_pos hs, List.filterMap_cons_none hf]
        · rw [List.filter_cons_of_neg hs]
      rw [hdrop, hdrop, List.filterMap_cons_none hf]
      exact ih
    | some b =>
      obtain ⟨hiff, hdisj⟩ := h a List.mem_cons_self b hf
      rw [List.filterMap_cons_some hf]
      by_cases hp : p a = true
      · have hq : ¬q a = true := fun hq => hdisj ⟨hp, hq⟩
        rw [List.filter_cons_of_pos hp, List.filter_cons_of_neg hq,
          List.filterMap_cons_some hf, List.filter_cons_of_pos (hiff.1 (.inl hp))]
        exact ih.cons b
      · by_cases hq : q a = true
        · rw [List.filter_cons_of_neg hp, List.filter_cons_of_pos hq,
            List.filterMap_cons_some hf, List.filter_cons_of_pos (hiff.1 (.inr hq))]
          exact List.perm_middle.trans (ih.cons b)
        · have hr : ¬r b = true := fun hr => (hiff.2 hr).elim hp hq
          rw [List.filter_cons_of_neg hp, List.filter_cons_of_neg hq,
            List.filter_cons_of_neg hr]
          exact ih

/-- The age a record gives for an identity, be it a draft or an age record. -/
def Record.age (i : Identity) : Record → Option ℤ
  | .draft d => d.ageOf i
  | r => r.ageOf i

/-- The ages on record for an identity. -/
def agesIn (i : Identity) (c : List (String × Record)) : List ℤ := c.filterMap fun x => x.2.age i

theorem mem_agesIn {i : Identity} {c : List (String × Record)} {a : ℤ} :
    a ∈ agesIn i c ↔ (∃ key d, (key, Record.draft d) ∈ c ∧ d.evidence.identity = i ∧
      d.evidence.observedAt = a) ∨ ∃ key, (key, Record.baselineAge i a) ∈ c := by
  simp only [agesIn, List.mem_filterMap, Prod.exists]
  constructor
  · rintro ⟨key, r, hmem, hage⟩
    cases r with
    | draft d =>
      by_cases h : d.evidence.identity = i
      · simp only [Record.age, Draft.ageOf, if_pos h, Option.some.injEq] at hage
        exact .inl ⟨key, d, hmem, h, hage⟩
      · simp only [Record.age, Draft.ageOf, if_neg h, reduceCtorEq] at hage
    | baselineAge j n =>
      by_cases h : j = i
      · simp only [Record.age, Record.ageOf, if_pos h, Option.some.injEq] at hage
        subst h hage
        exact .inr ⟨key, hmem⟩
      · simp only [Record.age, Record.ageOf, if_neg h, reduceCtorEq] at hage
    | decision d => cases hage
    | consumption d => cases hage
  · rintro (⟨key, d, hmem, h, rfl⟩ | ⟨key, hmem⟩)
    · exact ⟨key, _, hmem, by simp only [Record.age, Draft.ageOf, if_pos h]⟩
    · exact ⟨key, _, hmem, by simp only [Record.age, Record.ageOf, if_true]⟩

/-- The earliest age of a list is told by its members. -/
theorem min?_congr {l l' : List ℤ} (h : ∀ a, a ∈ l ↔ a ∈ l') : l.min? = l'.min? := by
  cases hl : l.min? with
  | none =>
    rw [List.min?_eq_none_iff] at hl
    subst hl
    cases l' with
    | nil => rfl
    | cons a l' => exact absurd ((h a).2 List.mem_cons_self) (List.not_mem_nil)
  | some m =>
    rw [List.min?_eq_some_iff] at hl
    symm
    rw [List.min?_eq_some_iff]
    exact ⟨(h m).1 hl.1, fun b hb => hl.2 b ((h b).2 hb)⟩

theorem effectiveAge_pos {known : Option ℤ} {observedAt : ℤ} (hk : ∀ a ∈ known, 0 < a)
    (ho : 0 < observedAt) : 0 < effectiveAge known observedAt := by
  cases known with
  | none => exact ho
  | some a => exact lt_min ho (hk a rfl)

/-- What a transaction does. -/
theorem transact_cases (g : List Row → Except Failure (List Row)) (s : Store) :
    (∃ f, g s.rows = .error f ∧ transact g s = (.error (.raised f), s)) ∨
    (∃ rows, g s.rows = .ok rows ∧ rows ≠ s.rows ∧ s.allowance = 0 ∧
      transact g s = (.error .crashed, s)) ∨
    ∃ rows n, g s.rows = .ok rows ∧ s.allowance ≤ n + 1 ∧ n ≤ s.allowance ∧
      transact g s = (.ok (), { s with rows := rows, allowance := n }) := by
  unfold transact
  cases hg : g s.rows with
  | error f => exact .inl ⟨f, rfl, rfl⟩
  | ok rows =>
    show _ ∨ _ ∨ _
    by_cases heq : rows = s.rows
    · subst heq
      exact .inr (.inr ⟨s.rows, s.allowance, rfl, by omega, le_rfl, if_pos rfl⟩)
    · by_cases hzero : s.allowance = 0
      · refine .inr (.inl ⟨rows, rfl, heq, hzero, ?_⟩)
        simp only [if_neg heq, if_pos hzero]
      · refine .inr (.inr ⟨rows, s.allowance - 1, rfl, by omega, by omega, ?_⟩)
        simp only [if_neg heq, if_neg hzero]

section

variable [Sha256]

/-- The rows of a store the intake can read. -/
structure Kept (rows : List Row) : Prop where
  nodup : (rows.map Row.operationId).Nodup
  checked : ∀ r ∈ rows, r.check = .ok ()
  artifacts : ∀ r ∈ rows, ∀ a ∈ r.artifact, a = r.record
  chained : ∀ t, Chained t 0 none (draftsIn t (contents rows))

/-- A key has one record. -/
theorem Kept.record_unique {rows : List Row} (hk : Kept rows) {row : Row} (hrow : row ∈ rows)
    {r : Record} (h : (row.operationId, r) ∈ contents rows) : row.record = r := by
  obtain ⟨x, hx, he⟩ := List.mem_map.1 h
  obtain ⟨hid, rfl⟩ := Prod.mk.inj he
  rw [List.inj_on_of_nodup_map hk.nodup hx hrow hid]

/-! ## Writing -/

theorem check_eq_ok {row : Row} : row.check = .ok () ↔
    row.attempts = 0 ∧ row.effectKey = row.operationId ∧ row.checkRecord = .ok () := by
  simp only [Row.check, check_bind_eq_ok]

/-- An intent is on record already, or it is appended under a fresh key. -/
theorem insertIntent_eq_ok {rows rows' : List Row} {key : String} {r : Record} (hk : Kept rows)
    (h : insertIntent rows key r = .ok rows') :
    (rows' = rows ∧ (key, r) ∈ contents rows) ∨
      ((∀ x ∈ rows, x.operationId ≠ key) ∧ rows' = rows ++ [⟨key, key, r, none, 0⟩]) := by
  have heffect : ∀ x ∈ rows, x.effectKey = x.operationId := fun x hx =>
    (check_eq_ok.1 (hk.checked x hx)).2.1
  unfold insertIntent at h
  cases hf : rows.filter fun x => x.operationId = key ∨ x.effectKey = key with
  | nil =>
    rw [hf] at h
    right
    constructor
    · intro x hx hkey
      have hmem : x ∈ rows.filter fun x => x.operationId = key ∨ x.effectKey = key :=
        List.mem_filter.2 ⟨hx, by simp [hkey]⟩
      rw [hf] at hmem
      cases hmem
    · exact (Except.ok.inj h).symm
  | cons x existing =>
    rw [hf] at h
    left
    obtain ⟨hall, hrows⟩ := check_bind_eq_ok.1 h
    obtain ⟨-, hid, -, hrec⟩ := hall x List.mem_cons_self
    have hmem : x ∈ rows := by
      have : x ∈ rows.filter fun x => x.operationId = key ∨ x.effectKey = key := by
        rw [hf]
        exact List.mem_cons_self
      exact (List.mem_filter.1 this).1
    refine ⟨(Except.ok.inj hrows).symm, List.mem_map.2 ⟨x, hmem, ?_⟩⟩
    rw [hid, hrec]

/-- Finalizing an artifact leaves the records alone, and keeps the rows readable when the
artifact is the record of its row. -/
theorem finalizeArtifact_eq_ok {rows rows' : List Row} {key : String} {r : Record}
    (hk : Kept rows) (hmem : (key, r) ∈ contents rows)
    (h : finalizeArtifact rows key r = .ok rows') :
    Kept rows' ∧ contents rows' = contents rows := by
  obtain ⟨row, hfind, h⟩ := bind_eq_ok.1 h
  rw [lookup_eq_ok] at hfind
  obtain ⟨hrow, hid⟩ := Rows.mem_of_find hfind
  cases hart : row.artifact with
  | some existing =>
    rw [hart] at h
    obtain ⟨-, h⟩ := check_bind_eq_ok.1 h
    obtain rfl := Except.ok.inj h
    exact ⟨hk, rfl⟩
  | none =>
    rw [hart] at h
    obtain rfl := Except.ok.inj h
    -- the row that is updated is the one the record was written in
    have hrec : row.record = r := hk.record_unique hrow (by rw [hid]; exact hmem)
    have hcont : contents (Rows.update Row.operationId rows { row with artifact := some r }) =
        contents rows := Rows.map_column_update hk.nodup hrow rfl rfl
    have hmemu : ∀ x ∈ Rows.update Row.operationId rows { row with artifact := some r },
        x = { row with artifact := some r } ∨ x ∈ rows := by
      intro x hx
      rcases (Rows.mem_update (by exact ⟨row, hrow, rfl⟩)).1 hx with h | h
      · exact .inl h
      · exact .inr h.1
    refine ⟨⟨?_, ?_, ?_, ?_⟩, hcont⟩
    · rw [Rows.map_key_update]
      exact hk.nodup
    · intro x hx
      rcases hmemu x hx with rfl | hx
      · exact hk.checked row hrow
      · exact hk.checked x hx
    · intro x hx a ha
      rcases hmemu x hx with rfl | hx
      · rw [← Option.some.inj ha]
        exact hrec.symm
      · exact hk.artifacts x hx a ha
    · intro t
      rw [hcont]
      exact hk.chained t

/-! ## Reading -/

/-- The store holds the given records and is readable; if `b` holds, its process lives for `n`
durable writes at least. -/
def At (b : Prop) (n : ℕ) (c : List (String × Record)) (s : Store) : Prop :=
  Kept s.rows ∧ contents s.rows = c ∧ (b → n ≤ s.allowance)

/-- An action that leaves the records alone: with `n` durable writes to spare it returns. -/
def Reads {α : Type} (c : List (String × Record)) (cost : ℕ) (m : Op α) (Q : α → Prop) : Prop :=
  ∀ (b : Prop) (n : ℕ), Spec (At b (n + cost) c) m (fun a s => At b n c s ∧ Q a)
    (fun s => At b 0 c s ∧ ¬b)

theorem At.mono {b : Prop} {n m : ℕ} {c : List (String × Record)} {s : Store} (h : At b n c s)
    (hm : m ≤ n) : At b m c s := ⟨h.1, h.2.1, fun hb => hm.trans (h.2.2 hb)⟩

namespace Reads

variable {α β : Type} {c : List (String × Record)} {m : Op α} {Q : α → Prop} {i j : ℕ}

theorem pure {a : α} (h : Q a) : Reads c 0 (pure a) Q := fun _ _ =>
  Spec.pure fun _ hs => ⟨hs, h⟩

theorem lift {x : Except Failure α} {a : α} (hx : x = .ok a) (h : Q a) : Reads c 0 (lift x) Q := by
  subst hx
  exact pure h

theorem bind {f : α → Op β} {R : β → Prop} (hm : Reads c i m Q)
    (hf : ∀ a, Q a → Reads c j (f a) R) : Reads c (i + j) (m >>= f) R := by
  intro b n
  have hstart := hm b (n + j)
  rw [show n + j + i = n + (i + j) by omega] at hstart
  refine hstart.bind fun a => ?_
  exact Spec.suppose (fun s hs => hs.2) fun ha =>
    (hf a ha b n).weaken (fun s hs => hs.1) (fun _ _ h => h) (fun _ h => h)

theorem weaken {R : α → Prop} (hm : Reads c i m Q) (hR : ∀ a, Q a → R a) (hij : i ≤ j) :
    Reads c j m R := fun b n =>
  (hm b n).weaken (fun s hs => hs.mono (by omega)) (fun a s h => ⟨h.1, hR a h.2⟩) (fun _ h => h)

end Reads

/-- What a store holds is read from the store. -/
theorem reads_read {c : List (String × Record)} :
    Reads c 0 Action.read fun s => Kept s.rows ∧ contents s.rows = c := fun _ _ =>
  Spec.read fun _ hs => ⟨hs, hs.1, hs.2.1⟩

/-- Finalizing the artifact of a record takes one durable write. -/
theorem reads_finalize {c : List (String × Record)} {key : String} {r : Record}
    (hmem : (key, r) ∈ c) (hfind : ∀ s : Store, contents s.rows = c → Kept s.rows →
      ∃ rows, finalizeArtifact s.rows key r = .ok rows) :
    Reads c 1 (finalize key r) fun _ => True := by
  rintro b n s ⟨hk, rfl, hb⟩
  obtain ⟨rows, hrows⟩ := hfind s rfl hk
  obtain ⟨hk', hc⟩ := finalizeArtifact_eq_ok hk hmem hrows
  rcases transact_cases (fun rows => finalizeArtifact rows key r) s with
    ⟨f, hf, -⟩ | ⟨rows', hr, hne, hzero, he⟩ | ⟨rows', m, hr, hm, hm', he⟩
  · rw [hrows] at hf
    cases hf
  · rw [finalize, he]
    refine ⟨by rintro _ _ ⟨⟩, ?_⟩
    rintro _ _ ⟨⟩
    refine ⟨⟨hk, rfl, fun _ => Nat.zero_le _⟩, fun hb' => ?_⟩
    have := hb hb'
    omega
  · rw [hrows] at hr
    obtain rfl := Except.ok.inj hr
    rw [finalize, he]
    refine ⟨?_, by rintro _ _ ⟨⟩⟩
    rintro _ _ ⟨⟩
    refine ⟨⟨hk', hc, fun hb' => ?_⟩, trivial⟩
    have := hb hb'
    show n ≤ m
    omega

/-- `_recover` reads the record of a row, and finalizes its artifact if that is missing. -/
theorem recover_spec {c : List (String × Record)} {row : Row}
    (hmem : (row.operationId, row.record) ∈ c) (hcheck : row.check = .ok ()) :
    Reads c 1 (recover row) fun r => r = row.record := by
  unfold recover
  have hlift := Reads.lift (c := c) (Q := fun _ => True) hcheck trivial
  refine Reads.weaken (Reads.bind hlift fun _ _ => Reads.bind reads_read
    (?_ : ∀ s : Store, Kept s.rows ∧ contents s.rows = c → Reads c 1 _ fun r => r = row.record))
    (fun _ h => h) (by omega)
  rintro s ⟨hk, rfl⟩
  cases hf : findArtifact s row.operationId with
  | none =>
    refine (reads_finalize hmem ?_).bind fun _ _ => Reads.pure (Q := fun r => r = row.record) rfl
    intro t ht hkt
    rw [← ht] at hmem
    obtain ⟨x, hx, he⟩ := List.mem_map.1 hmem
    obtain ⟨hid, hrec⟩ := Prod.mk.inj he
    have hfind : Rows.find Row.operationId t.rows row.operationId = some x := by
      rw [← hid]
      exact Rows.find_of_mem hkt.nodup hx
    unfold finalizeArtifact
    rw [show lookup _ (Rows.find Row.operationId t.rows) row.operationId = .ok x from
      lookup_eq_ok.2 hfind, ok_bind]
    cases hart : x.artifact with
    | none => exact ⟨_, rfl⟩
    | some a =>
      have heq : a = row.record := (hkt.artifacts x hx a hart).trans hrec
      simp only [check_of heq, ok_bind]
      exact ⟨_, rfl⟩
  | some artifact =>
    obtain ⟨x, hx, hart⟩ := Option.bind_eq_some_iff.1 hf
    obtain ⟨hrow, hid⟩ := Rows.mem_of_find hx
    have hrec : x.record = row.record := hk.record_unique hrow (by rw [hid]; exact hmem)
    have heq : artifact = row.record := by
      rw [← hrec]
      exact hk.artifacts x hrow artifact hart
    show Reads _ 1 (if artifact = row.record then _ else _) _
    rw [if_pos heq]
    exact (Reads.pure (Q := fun r => r = row.record) rfl).weaken (fun _ h => h) (Nat.zero_le _)

/-- Reading element by element. -/
theorem reads_each {α β : Type} {c : List (String × Record)} {f : α → Op β} {g : α → β} {k : ℕ}
    {l : List α} (h : ∀ a ∈ l, Reads c k (f a) fun b => b = g a) :
    Reads c (l.length * k) (each f l) fun bs => bs = l.map g := by
  induction l with
  | nil =>
    exact (Reads.pure (Q := fun bs => bs = ([] : List α).map g) rfl).weaken (fun _ h => h)
      (Nat.zero_le _)
  | cons a l ih =>
    have hrest := ih fun x hx => h x (List.mem_cons_of_mem _ hx)
    refine ((h a List.mem_cons_self).bind fun b hb => hrest.bind fun bs hbs =>
      Reads.pure (Q := fun bs => bs = (a :: l).map g) ?_).weaken (fun _ h => h) ?_
    · rw [hb, hbs]
      rfl
    · rw [List.length_cons, Nat.succ_mul]
      omega

/-- Recovering rows one after the other gives their records. -/
theorem each_recover {c : List (String × Record)} {rows : List Row}
    (h : ∀ row ∈ rows, (row.operationId, row.record) ∈ c ∧ row.check = .ok ()) :
    Reads c rows.length (each recover rows) fun rs => rs = rows.map Row.record :=
  (reads_each (k := 1) fun row hrow => recover_spec (h row hrow).1 (h row hrow).2).weaken
    (fun _ h => h) (by omega)

/-! ## Chains -/

/-- The drafts of a chain carry on from its index, in order. -/
theorem Chained.pairwise {t : String} {index : ℕ} {parent : Option Name} {ds : List Draft}
    (h : Chained t index parent ds) :
    (∀ d ∈ ds, d.taskId = t ∧ index < d.revision) ∧
      ds.Pairwise fun d d' => d.revision < d'.revision := by
  induction ds generalizing index parent with
  | nil => exact ⟨by simp, List.Pairwise.nil⟩
  | cons d ds ih =>
    obtain ⟨⟨htask, hrev, -⟩, hrest⟩ := h
    obtain ⟨hall, hpair⟩ := ih hrest
    refine ⟨?_, List.pairwise_cons.2 ⟨fun d' hd' => ?_, hpair⟩⟩
    · intro d' hd'
      rcases List.mem_cons.1 hd' with rfl | hd'
      · exact ⟨htask, by omega⟩
      · exact ⟨(hall d' hd').1, by have := (hall d' hd').2; omega⟩
    · have := (hall d' hd').2
      omega

/-- The revisions of a chain count its drafts. -/
theorem Chained.revision_le {t : String} {index : ℕ} {parent : Option Name} {ds : List Draft}
    (h : Chained t index parent ds) : ∀ d ∈ ds, d.revision ≤ index + ds.length := by
  induction ds generalizing index parent with
  | nil => simp
  | cons d ds ih =>
    obtain ⟨⟨-, hrev, -⟩, hrest⟩ := h
    intro d' hd'
    rw [List.length_cons]
    rcases List.mem_cons.1 hd' with rfl | hd'
    · omega
    · have := ih hrest d' hd'
      omega

/-- The last draft of a chain has the last revision. -/
theorem Chained.getLast_revision {t : String} {index : ℕ} {parent : Option Name}
    {ds : List Draft} (h : Chained t index parent ds) :
    ds.getLast?.elim index Draft.revision = index + ds.length := by
  induction ds generalizing index parent with
  | nil => rfl
  | cons d ds ih =>
    obtain ⟨⟨-, hrev, -⟩, hrest⟩ := h
    have := ih hrest
    cases ds with
    | nil => simpa using hrev
    | cons d' ds =>
      rw [List.getLast?_cons_cons, List.length_cons]
      rw [List.getLast?_eq_some_getLast (List.cons_ne_nil d' ds)] at this ⊢
      simp only [Option.elim_some] at this ⊢
      omega

/-- A draft after the last one extends a chain. -/
theorem Chained.concat {t : String} {index : ℕ} {parent : Option Name} {ds : List Draft}
    (h : Chained t index parent ds) {d : Draft} (htask : d.taskId = t)
    (hrev : d.revision = index + ds.length + 1)
    (hparent : d.parentDigest = ds.getLast?.elim parent fun d => some d.digest) :
    Chained t index parent (ds ++ [d]) := by
  induction ds generalizing index parent with
  | nil => exact ⟨⟨htask, hrev, hparent⟩, trivial⟩
  | cons d' ds ih =>
    obtain ⟨hd', hrest⟩ := h
    refine ⟨hd', ih hrest ?_ ?_⟩
    · rw [hrev, List.length_cons]
      omega
    · rw [hparent]
      cases ds with
      | nil => rfl
      | cons d'' ds => rw [List.getLast?_cons_cons, List.getLast?_eq_some_getLast (by simp)]; rfl

/-- Sorting any reordering of a chain by revision gives the chain. -/
theorem Chained.sortBy_perm {t : String} {index : ℕ} {parent : Option Name}
    {ds ds' : List Draft} (h : Chained t index parent ds) (hp : ds'.Perm ds) :
    SortedBy.sortBy Draft.revision ds' = ds := by
  have hpair := h.pairwise.2
  have hnodup : (ds.map Draft.revision).Nodup :=
    (List.pairwise_map.2 hpair).imp fun h => ne_of_lt h
  have hnodup' : (ds'.map Draft.revision).Nodup := (hp.map _).nodup_iff.2 hnodup
  rw [SortedBy.sortBy_eq_iff.2 ((SortedBy.reorders_iff_perm hnodup').2 hp)]
  exact congrArg SortedBy.toList (SortedBy.ofList_toList (⟨ds, hpair⟩ : SortedBy Draft.revision))

/-! ## Histories -/

/-- The row of a draft stands under a key of its task. -/
theorem Kept.draft_row {rows : List Row} (hk : Kept rows) {row : Row} (hrow : row ∈ rows)
    {d : Draft} (hd : row.record = .draft d) :
    Accepted d.taskId ∧ 0 < d.evidence.observedAt ∧
      ∃ k : Key, (k = .draft d.taskId d.revision ∨ k = .fallback d.taskId d.revision) ∧
        row.operationId = k.text := by
  have hcheck := (check_eq_ok.1 (hk.checked row hrow)).2.2
  unfold Row.checkRecord at hcheck
  rw [hd] at hcheck
  obtain ⟨hpos, hcheck⟩ := check_bind_eq_ok.1 hcheck
  obtain ⟨start, hstart, hcheck⟩ := bind_eq_ok.1 hcheck
  obtain ⟨hacc, hs⟩ := check_bind_eq_ok.1 hstart
  obtain rfl := Except.ok.inj hs
  rw [Checked.check_eq_ok] at hcheck
  refine ⟨hacc, hpos, ?_⟩
  rcases hcheck with hkey | hkey
  · exact ⟨.draft d.taskId d.revision, .inl rfl, hkey⟩
  · exact ⟨.fallback d.taskId d.revision, .inr rfl, hkey⟩

/-- The two scans of `history` find the drafts of the task, each of them once. -/
theorem scans_perm {s : Store} (hk : Kept s.rows) {t : String} (ht : Accepted t) :
    (((operations s (draftPrefix t) ++ operations s (fallbackPrefix t)).map
      Row.record).filterMap Record.draft?).Perm (draftsIn t (contents s.rows)) := by
  have hrows : draftsIn t (contents s.rows) =
      (s.rows.filterMap fun r => r.record.draft?).filter fun d => d.taskId = t := by
    simp only [draftsIn, contents, List.filterMap_map]
    rfl
  rw [hrows, List.filterMap_map]
  have hsort (start : String) : (operations s start).Perm
      (s.rows.filter fun r => start.toList.isPrefixOf r.operationId.toList) :=
    (SortedBy.perm_sortBy s.rows).filter _
  refine (((hsort _).append (hsort _)).filterMap _).trans (filterMap_scans ?_)
  intro row hrow d hd
  have hrec : row.record = .draft d := by
    have hd : row.record.draft? = some d := hd
    cases hr : row.record <;> rw [hr] at hd <;> cases hd
    rfl
  obtain ⟨hacc, -, k, hkey, hid⟩ := hk.draft_row hrow hrec
  rw [hid, draftPrefix_iff ht hacc hkey, fallbackPrefix_iff ht hacc hkey]
  rcases hkey with rfl | rfl
  · simp [eq_comm]
  · simp [eq_comm]

/-- **Histories**: `history` reads the drafts recorded for the task, in the order in which they
were recorded. -/
theorem history_spec {c : List (String × Record)} {t : String} (ht : Accepted t) :
    Reads c (2 * c.length) (history t) fun ds => ds = draftsIn t c := by
  have hstart : taskPrefix t = .ok (draftPrefix t) := by
    unfold taskPrefix
    rw [check_of ht]
    rfl
  refine ((Reads.lift (Q := fun start => start = draftPrefix t) hstart rfl).bind fun start hs =>
    reads_read.bind (j := 2 * c.length) fun s hstore => ?_).weaken (fun _ h => h) (by omega)
  subst hs
  obtain ⟨hk, rfl⟩ := hstore
  have hrows : ∀ row ∈ operations s (draftPrefix t) ++ operations s (fallbackPrefix t),
      (row.operationId, row.record) ∈ contents s.rows ∧ row.check = .ok () := by
    intro row hrow
    have hmem : row ∈ s.rows := by
      rcases List.mem_append.1 hrow with h | h
      · exact mem_operations h
      · exact mem_operations h
    exact ⟨mem_contents hmem, hk.checked row hmem⟩
  have hlen := length_operations s (draftPrefix t)
  have hlen' := length_operations s (fallbackPrefix t)
  refine ((each_recover hrows).bind (R := fun ds => ds = draftsIn t (contents s.rows))
    fun rs hrs => ?_).weaken (fun _ h => h)
      (show _ + 0 ≤ _ by rw [List.length_append]; omega)
  have hdrafts : SortedBy.sortBy Draft.revision (rs.filterMap Record.draft?) =
      draftsIn t (contents s.rows) := by
    rw [hrs]
    exact (hk.chained t).sortBy_perm (scans_perm hk ht)
  have hcheck : check (Chained t 0 none
      (SortedBy.sortBy Draft.revision (rs.filterMap Record.draft?)))
      (refusal "broken immutable draft chain") = .ok () := by
    rw [hdrafts]
    exact check_of (hk.chained t)
  exact (Reads.lift (Q := fun _ => True) hcheck trivial).bind fun _ _ => 
    Reads.pure (Q := fun ds => ds = draftsIn t (contents s.rows)) hdrafts

/-! ## Ages -/

/-- Every row that gives an age is among those `_baseline_age` scans. -/
theorem Kept.mem_ordinary {s : Store} (hk : Kept s.rows) {row : Row} (hrow : row ∈ s.rows)
    {i : Identity} {a : ℤ} (ha : row.record.age i = some a) : row ∈ operations s "ordinary:" := by
  refine List.mem_filter.2 ⟨SortedBy.mem_sortBy.2 hrow, List.isPrefixOf_iff_prefix.2 ?_⟩
  have happend (u v : String) (h : "ordinary:".toList <+: u.toList) :
      "ordinary:".toList <+: (u ++ v).toList := by
    rw [String.toList_append]
    exact h.trans (List.prefix_append _ _)
  cases hr : row.record with
  | draft d =>
    obtain ⟨-, -, k, hkey, hid⟩ := hk.draft_row hrow hr
    rw [hid]
    rcases hkey with rfl | rfl
    · exact happend _ _ (happend _ _ (happend _ _ (List.prefix_refl _)))
    · exact happend _ _ (happend _ _ (happend _ _ (by decide +kernel)))
  | baselineAge j n =>
    have hcheck := (check_eq_ok.1 (hk.checked row hrow)).2.2
    unfold Row.checkRecord at hcheck
    rw [hr] at hcheck
    obtain ⟨-, hcheck⟩ := check_bind_eq_ok.1 hcheck
    obtain ⟨-, hcheck⟩ := check_bind_eq_ok.1 hcheck
    rw [Checked.check_eq_ok.1 hcheck]
    exact happend _ _ (happend _ _ (happend _ _ (by decide +kernel)))
  | decision d =>
    rw [hr] at ha
    cases ha
  | consumption d =>
    rw [hr] at ha
    cases ha

/-- The age `_baseline_age` knows is the earliest on record. -/
theorem knownAge_spec {c : List (String × Record)} (i : Identity) :
    ∃ cost, Reads c cost (knownAge i) fun known => known = (agesIn i c).min? := by
  have hbody : ∀ s : Store, Kept s.rows ∧ contents s.rows = c →
      Reads c (c.length + c.length * (2 * c.length))
        (do
          let records ← each recover (operations s "ordinary:")
          let histories ← each history (taskIds records)
          return (records.filterMap (Record.ageOf i) ++
            histories.flatten.filterMap (Draft.ageOf i)).min?)
        fun known => known = (agesIn i c).min? := by
    rintro s ⟨hk, rfl⟩
    have hrows : ∀ row ∈ operations s "ordinary:",
        (row.operationId, row.record) ∈ contents s.rows ∧ row.check = .ok () := fun row hrow =>
      ⟨mem_contents (mem_operations hrow), hk.checked row (mem_operations hrow)⟩
    refine (each_recover hrows).weaken (fun _ h => h) (length_operations s _) |>.bind
      fun rs hrs => ?_
    subst hrs
    have htasks : ∀ t, t ∈ taskIds ((operations s "ordinary:").map Row.record) ↔
        ∃ row ∈ operations s "ordinary:", ∃ d, row.record = .draft d ∧ d.taskId = t := by
      intro t
      simp only [taskIds, SortedBy.mem_sortBy, List.mem_dedup, List.mem_map, List.mem_filterMap]
      constructor
      · rintro ⟨d, ⟨r, ⟨row, hrow, rfl⟩, hd⟩, rfl⟩
        cases hr : row.record <;> rw [hr] at hd <;> cases hd
        exact ⟨row, hrow, d, hr, rfl⟩
      · rintro ⟨row, hrow, d, hr, rfl⟩
        exact ⟨d, ⟨row.record, ⟨row, hrow, rfl⟩, by rw [hr]; rfl⟩, rfl⟩
    have hlen : (taskIds ((operations s "ordinary:").map Row.record)).length ≤
        (contents s.rows).length := by
      rw [taskIds, (SortedBy.perm_sortBy _).length_eq]
      refine (List.dedup_sublist _).length_le.trans ?_
      rw [List.length_map]
      refine (List.length_filterMap_le _ _).trans ?_
      rw [List.length_map]
      exact length_operations s _
    have hhist : ∀ t ∈ taskIds ((operations s "ordinary:").map Row.record),
        Reads (contents s.rows) (2 * (contents s.rows).length) (history t)
          fun ds => ds = draftsIn t (contents s.rows) := by
      intro t ht
      obtain ⟨row, hrow, d, hr, rfl⟩ := (htasks t).1 ht
      exact history_spec (hk.draft_row (mem_operations hrow) hr).1
    refine ((reads_each hhist).weaken (fun _ h => h) (Nat.mul_le_mul_right _ hlen)).bind (j := 0)
      fun hs hhs => ?_
    subst hhs
    refine Reads.pure (min?_congr fun a => ?_)
    rw [mem_agesIn]
    simp only [List.mem_append, List.mem_filterMap, List.mem_map, List.mem_flatten]
    constructor
    · rintro (⟨r, ⟨row, hrow, rfl⟩, ha⟩ | ⟨d, ⟨ds, ⟨t, -, rfl⟩, hd⟩, ha⟩)
      · right
        cases hr : row.record <;> rw [hr] at ha <;> simp only [Record.ageOf, reduceCtorEq] at ha
        split_ifs at ha with h
        · subst h
          rw [Option.some.inj ha] at hr
          exact ⟨row.operationId, by rw [← hr]; exact mem_contents (mem_operations hrow)⟩
      · left
        obtain ⟨x, hx, hxd⟩ := List.mem_filterMap.1 (List.mem_filter.1 hd).1
        obtain ⟨key, r⟩ := x
        simp only [Draft.ageOf] at ha
        split_ifs at ha with h
        cases r <;> cases hxd
        exact ⟨key, d, hx, h, Option.some.inj ha⟩
    · rintro (⟨key, d, hmem, hid, ha⟩ | ⟨key, hmem⟩)
      · right
        obtain ⟨row, hrow, he⟩ := List.mem_map.1 hmem
        obtain ⟨rfl, hr⟩ := Prod.mk.inj he
        have hord := hk.mem_ordinary hrow (i := i) (a := a) (by
          rw [hr]
          simp only [Record.age, Draft.ageOf, if_pos hid, ha])
        refine ⟨d, ⟨_, ⟨d.taskId, (htasks _).2 ⟨row, hord, d, hr, rfl⟩, rfl⟩, ?_⟩, ?_⟩
        · refine List.mem_filter.2 ⟨List.mem_filterMap.2 ⟨_, hmem, rfl⟩, by simp⟩
        · simp only [Draft.ageOf, if_pos hid, ha]
      · left
        obtain ⟨row, hrow, he⟩ := List.mem_map.1 hmem
        obtain ⟨rfl, hr⟩ := Prod.mk.inj he
        have hord := hk.mem_ordinary hrow (i := i) (a := a) (by
          rw [hr]
          simp only [Record.age, Record.ageOf, if_true])
        exact ⟨_, ⟨row, hord, rfl⟩, by rw [hr]; simp only [Record.ageOf, if_true]⟩
  exact ⟨_, reads_read.bind hbody⟩

/-- The ages on record are positive. -/
theorem Kept.agesIn_pos {rows : List Row} (hk : Kept rows) {i : Identity} :
    ∀ a ∈ agesIn i (contents rows), 0 < a := by
  intro a ha
  rcases mem_agesIn.1 ha with ⟨key, d, hmem, -, rfl⟩ | ⟨key, hmem⟩
  · obtain ⟨row, hrow, he⟩ := List.mem_map.1 hmem
    exact (hk.draft_row hrow (Prod.mk.inj he).2).2.1
  · obtain ⟨row, hrow, he⟩ := List.mem_map.1 hmem
    have hcheck := (check_eq_ok.1 (hk.checked row hrow)).2.2
    unfold Row.checkRecord at hcheck
    rw [(Prod.mk.inj he).2] at hcheck
    obtain ⟨-, hcheck⟩ := check_bind_eq_ok.1 hcheck
    exact (check_bind_eq_ok.1 hcheck).1

/-! ## Recording -/

/-- The readable store holds exactly these records. -/
def Holds (c : List (String × Record)) (s : Store) : Prop := Kept s.rows ∧ contents s.rows = c

theorem Reads.spec {α : Type} {c : List (String × Record)} {m : Op α} {Q : α → Prop} {cost : ℕ}
    (h : Reads c cost m Q) : Spec (Holds c) m (fun a s => Holds c s ∧ Q a) (Holds c) :=
  (h False 0).weaken (fun _ hs => ⟨hs.1, hs.2, False.elim⟩)
    (fun _ _ hs => ⟨⟨hs.1.1, hs.1.2.1⟩, hs.2⟩) (fun _ hs => ⟨hs.1.1, hs.1.2.1⟩)

/-- A record may be written under a key: its row would be readable, and a draft carries the
chain of its task on. -/
structure Fits (c : List (String × Record)) (key : String) (r : Record) : Prop where
  check : Row.check ⟨key, key, r, none, 0⟩ = .ok ()
  chain : ∀ d, r = .draft d → Chained d.taskId 0 none (draftsIn d.taskId c ++ [d])

/-- The records after one more was written, if its key was free. -/
def Recorded (c : List (String × Record)) (key : String) (r : Record) (s : Store) : Prop :=
  Holds c s ∨ (Holds (c ++ [(key, r)]) s ∧ ∀ x ∈ c, x.1 ≠ key)

/-- Appending a record that fits keeps the rows readable. -/
theorem Kept.append {rows : List Row} (hk : Kept rows) {key : String} {r : Record}
    (hfresh : ∀ x ∈ rows, x.operationId ≠ key) (hfit : Fits (contents rows) key r) :
    Kept (rows ++ [⟨key, key, r, none, 0⟩]) := by
  refine ⟨?_, ?_, ?_, ?_⟩
  · rw [List.map_append, List.nodup_append]
    refine ⟨hk.nodup, by simp, ?_⟩
    intro id hid id' hid'
    obtain ⟨x, hx, rfl⟩ := List.mem_map.1 hid
    rw [List.map_singleton, List.mem_singleton] at hid'
    rw [hid']
    exact hfresh x hx
  · intro x hx
    rcases List.mem_append.1 hx with hx | hx
    · exact hk.checked x hx
    · rw [List.mem_singleton.1 hx]
      exact hfit.check
  · intro x hx a ha
    rcases List.mem_append.1 hx with hx | hx
    · exact hk.artifacts x hx a ha
    · rw [List.mem_singleton.1 hx] at ha
      cases ha
  · intro t
    rw [contents_append, draftsIn_append]
    cases r with
    | draft d =>
      show Chained t 0 none (_ ++ draftsIn t [(key, .draft d)])
      rw [draftsIn_draft]
      by_cases ht : d.taskId = t
      · subst ht
        rw [if_pos rfl]
        exact hfit.chain d rfl
      · rw [if_neg ht, List.append_nil]
        exact hk.chained t
    | decision d => simpa [draftsIn, contents, Record.draft?] using hk.chained t
    | consumption d => simpa [draftsIn, contents, Record.draft?] using hk.chained t
    | baselineAge i n => simpa [draftsIn, contents, Record.draft?] using hk.chained t

/-- What `_insert_intent` and `_finalize_artifact` make of the rows, one after the other. -/
theorem insert_eq_ok {rows rows' : List Row} {key : String} {r : Record} (hk : Kept rows)
    (hfit : (∀ x ∈ contents rows, x.1 ≠ key) → Fits (contents rows) key r)
    (h : insertIntent rows key r = .ok rows') :
    Kept rows' ∧ (key, r) ∈ contents rows' ∧ (contents rows' = contents rows ∨
      (contents rows' = contents rows ++ [(key, r)] ∧ ∀ x ∈ contents rows, x.1 ≠ key)) := by
  rcases insertIntent_eq_ok hk h with ⟨rfl, hmem⟩ | ⟨hfresh, rfl⟩
  · exact ⟨hk, hmem, .inl rfl⟩
  · have hfresh' : ∀ x ∈ contents rows, x.1 ≠ key := by
      intro x hx
      obtain ⟨row, hrow, rfl⟩ := List.mem_map.1 hx
      exact hfresh row hrow
    refine ⟨hk.append hfresh (hfit hfresh'), ?_, .inr ⟨contents_append _ _, hfresh'⟩⟩
    rw [contents_append]
    exact List.mem_append.2 (.inr (List.mem_singleton.2 rfl))

/-- `_record` writes a record that fits, or finds it. -/
theorem record_spec {c : List (String × Record)} {key : String} {r : Record}
    (hfit : (∀ x ∈ c, x.1 ≠ key) → Fits c key r) :
    Spec (Holds c) (record key r)
      (fun _ s => Recorded c key r s ∧ (key, r) ∈ contents s.rows) (Recorded c key r) := by
  have hintent : Spec (Holds c) (intent key r)
      (fun _ s => Recorded c key r s ∧ (key, r) ∈ contents s.rows) (Recorded c key r) := by
    rintro s ⟨hk, rfl⟩
    rcases transact_cases (fun rows => insertIntent rows key r) s with
      ⟨f, -, he⟩ | ⟨rows, -, -, -, he⟩ | ⟨rows, n, hr, -, -, he⟩
    · rw [intent, he]
      exact ⟨by rintro _ _ ⟨⟩, by rintro _ _ ⟨⟩; exact .inl ⟨hk, rfl⟩⟩
    · rw [intent, he]
      exact ⟨by rintro _ _ ⟨⟩, by rintro _ _ ⟨⟩; exact .inl ⟨hk, rfl⟩⟩
    · obtain ⟨hk', hmem, hc⟩ := insert_eq_ok hk hfit hr
      rw [intent, he]
      refine ⟨?_, by rintro _ _ ⟨⟩⟩
      rintro _ _ ⟨⟩
      refine ⟨?_, hmem⟩
      rcases hc with hc | ⟨hc, hfresh⟩
      · exact .inl ⟨hk', hc⟩
      · exact .inr ⟨⟨hk', hc⟩, hfresh⟩
  refine hintent.bind fun _ => ?_
  rintro s ⟨hrec, hmem⟩
  -- finalizing the artifact leaves what was recorded alone
  have hkeep : ∀ s' : Store, Kept s'.rows ∧ contents s'.rows = contents s.rows →
      Recorded c key r s' ∧ (key, r) ∈ contents s'.rows := by
    rintro s' ⟨hk', hc'⟩
    refine ⟨?_, hc' ▸ hmem⟩
    rcases hrec with ⟨-, hc⟩ | ⟨⟨-, hc⟩, hfresh⟩
    · exact .inl ⟨hk', hc'.trans hc⟩
    · exact .inr ⟨⟨hk', hc'.trans hc⟩, hfresh⟩
  have hk : Kept s.rows := by
    rcases hrec with h | h
    · exact h.1
    · exact h.1.1
  rcases transact_cases (fun rows => finalizeArtifact rows key r) s with
    ⟨f, -, he⟩ | ⟨rows, -, -, -, he⟩ | ⟨rows, n, hr, -, -, he⟩
  · rw [finalize, he]
    exact ⟨by rintro _ _ ⟨⟩, by rintro _ _ ⟨⟩; exact hrec⟩
  · rw [finalize, he]
    exact ⟨by rintro _ _ ⟨⟩, by rintro _ _ ⟨⟩; exact hrec⟩
  · rw [finalize, he]
    refine ⟨?_, by rintro _ _ ⟨⟩⟩
    rintro _ _ ⟨⟩
    exact hkeep _ (finalizeArtifact_eq_ok hk hmem hr)

/-- The records after `_baseline_age`: at most an age record, of an identity on record. -/
def Learned (c : List (String × Record)) (e : Evidence) (s : Store) : Prop :=
  Recorded c (ageKey e.identity e.observedAt) (.baselineAge e.identity e.observedAt) s ∧
    (agesIn e.identity c = [] → Holds c s)

/-- What `_baseline_age` leaves behind when it returns an age. -/
structure Aged (c : List (String × Record)) (e : Evidence) (age : ℤ) (s : Store) : Prop where
  /-- It is the least of the observed age and the ages on record. -/
  age_eq : age = effectiveAge (agesIn e.identity c).min? e.observedAt
  pos : 0 < age
  observed : 0 < e.observedAt
  recorded : Learned c e s
  /-- A lower age of a resolved identity on record is put on record. -/
  learned : ∀ known ∈ (agesIn e.identity c).min?, e.observedAt < known → e.identity.Resolved →
    (ageKey e.identity e.observedAt, .baselineAge e.identity e.observedAt) ∈ contents s.rows

theorem learnAge_spec {c : List (String × Record)} {e : Evidence} (hn : 0 < e.observedAt) :
    Spec (Holds c) (learnAge e.identity (agesIn e.identity c).min? e.observedAt)
      (fun _ s => Learned c e s ∧ ∀ a ∈ (agesIn e.identity c).min?, e.observedAt < a →
        e.identity.Resolved → (ageKey e.identity e.observedAt,
          .baselineAge e.identity e.observedAt) ∈ contents s.rows) (Learned c e) := by
  cases hk : (agesIn e.identity c).min? with
  | none => exact Spec.pure fun s hs => ⟨⟨.inl hs, fun _ => hs⟩, by simp⟩
  | some a =>
    have hne : agesIn e.identity c ≠ [] := by
      intro hnil
      rw [hnil] at hk
      cases hk
    show Spec _ (if e.observedAt < a ∧ e.identity.Resolved then _ else _) _ _
    by_cases h : e.observedAt < a ∧ e.identity.Resolved
    · rw [if_pos h]
      have hfit : Fits c (ageKey e.identity e.observedAt)
          (.baselineAge e.identity e.observedAt) := by
        refine ⟨check_eq_ok.2 ⟨rfl, rfl, ?_⟩, by rintro _ ⟨⟩⟩
        unfold Row.checkRecord
        simp only [check_of (show e.identity.Resolved ∧
          isHex64 e.identity.recipeDigest.val.toList = true from ⟨h.2, e.recipe_hex⟩),
          check_of hn, ok_bind]
        exact check_of trivial
      exact (record_spec fun _ => hfit).weaken (fun _ h => h)
        (fun _ s hs => ⟨⟨hs.1, fun hnil => absurd hnil hne⟩, fun _ _ _ _ => hs.2⟩)
        fun _ hs => ⟨hs, fun hnil => absurd hnil hne⟩
    · rw [if_neg h]
      refine Spec.pure fun s hs => ⟨⟨.inl hs, fun _ => hs⟩, fun b hb hlt hres => ?_⟩
      rw [← Option.some.inj hb] at hlt
      exact absurd ⟨hlt, hres⟩ h

/-- `_baseline_age`. -/
theorem baselineAge_spec {c : List (String × Record)} (e : Evidence) :
    Spec (Holds c) (baselineAge e) (fun age s => Aged c e age s) (Learned c e) := by
  have hquiet : ∀ s, Holds c s → Learned c e s := fun s hs => ⟨.inl hs, fun _ => hs⟩
  obtain ⟨cost, hknown⟩ := knownAge_spec (c := c) e.identity
  refine (hknown.spec.weaken (fun _ h => h) (fun _ _ h => h) hquiet).bind fun known =>
    Spec.suppose (fun _ h => h.2) fun hk => ?_
  subst hk
  refine Spec.bind (R := fun _ s => Holds c s ∧ 0 < e.observedAt) ?_ fun _ => ?_
  · refine Spec.of (fun _ s hx hs => ⟨hs.1, ?_⟩) fun s hs => hquiet s hs.1
    unfold check at hx
    by_contra hneg
    rw [if_neg hneg] at hx
    cases hx
  · refine Spec.suppose (fun _ h => h.2) fun ho => ?_
    refine ((learnAge_spec ho).pre fun _ h => h.1).bind fun _ => ?_
    refine Spec.bind (R := fun _ s =>
      Aged c e (effectiveAge (agesIn e.identity c).min? e.observedAt) s)
      (Spec.write fun s hs => ?_) fun _ => Spec.pure fun s hs => hs
    have hpos : 0 < effectiveAge (agesIn e.identity c).min? e.observedAt := by
      refine effectiveAge_pos (fun a ha => ?_) ho
      have hmem := (List.min?_eq_some_iff.1 ha).1
      rcases hs.1.1 with ⟨hkept, hc⟩ | ⟨⟨hkept, hc⟩, -⟩
      · exact hkept.agesIn_pos a (by rw [hc]; exact hmem)
      · refine hkept.agesIn_pos (i := e.identity) a ?_
        rw [hc, agesIn, List.filterMap_append]
        exact List.mem_append.2 (.inl hmem)
    exact ⟨rfl, hpos, ho, hs.1, hs.2⟩

end

end Intake

end CreatidyKernel
