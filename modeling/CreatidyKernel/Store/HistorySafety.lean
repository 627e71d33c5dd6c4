import CreatidyKernel.Core.Extension
import CreatidyKernel.Store.Writes

set_option relaxedAutoImplicit false
set_option autoImplicit false

/-!
# The history and its projections agree

Every row of the history is the creation of a Program or one command of it, and the projections
are those of the Program that the rows of its history tell. So the head is the fold of the
decoded commands, and a rebuild from the history finds every table as it was.

## Main definitions

* `Aggregates.Told` — the rows of a history and the Program they tell.
* `Aggregates.part` — the rows of one Program.
* `Aggregates.Agreeing` — the tables hold what the history tells.
* `Aggregates.refold` — the fold of the decoded inputs of a history.

## Main results

* `Aggregates.loadHead_told` — the head of a Program is the one its history tells.
* `Aggregates.rebuild_agreeing` — a rebuild returns, and changes no table.
* `Store.agreeing_run` — the tables agree after every run.
-/

namespace CreatidyKernel

open Checked Codec

namespace Aggregates

variable [Sha256]

/-! ## Histories -/

/-- The text of the facts of a Program. -/
def facts (p : Program) : String := dumps (envelope (programData p))

/-- The rows of the history of one Program, and the Program they tell. -/
inductive Told : List HistoryRow → Program → Prop
  | created {spec : ProgramSpec} {commandKey : String} {p : Program} (hk : Nonblank commandKey)
      (h : Program.create spec = .ok p) : Told [creationRow spec commandKey p (facts p)] p
  | recorded {rows : List HistoryRow} {p q : Program} {commandKey : String} {c : DomainCommand}
      (ht : Told rows p) (hk : Nonblank commandKey) (h : p.apply c = .ok q) :
      Told (rows ++ [commandRow p.programId (rows.length + 1) commandKey c q (facts q)]) q

omit [Sha256] in
/-- A created Program has the identity of its specification. -/
theorem create_programId {spec : ProgramSpec} {p : Program} (h : Program.create spec = .ok p) :
    p.programId = spec.programId ∧ p.revision = 0 ∧ p.status = .draft := by
  unfold Program.create at h
  split_ifs at h
  rw [← Except.ok.inj h]
  exact ⟨rfl, rfl, rfl⟩

namespace Told

variable {rows : List HistoryRow} {p : Program}

theorem reachable (h : Told rows p) : p.Reachable := by
  induction h with
  | created _ h => exact .create h
  | recorded _ _ h ih => exact .step ih _ h

theorem programId (h : Told rows p) : ∀ r ∈ rows, r.programId = p.programId := by
  induction h with
  | created _ h =>
    intro r hr
    rw [List.mem_singleton.1 hr]
    exact (create_programId h).1.symm
  | recorded ht _ h ih =>
    have hsame := Program.apply_programId ht.reachable.coherent h
    intro r hr
    rw [hsame]
    rcases List.mem_append.1 hr with hr | hr
    · exact ih r hr
    · rw [List.mem_singleton.1 hr]
      rfl

/-- The sequence numbers count from one. -/
theorem sequences (h : Told rows p) : rows.map HistoryRow.sequence = List.range' 1 rows.length := by
  induction h with
  | created => rfl
  | recorded _ _ _ ih =>
    rw [List.map_append, ih, List.length_append, List.range'_append_1.symm, Nat.add_comm 1]
    rfl

theorem pairwise (h : Told rows p) : rows.Pairwise fun r r' => r.sequence < r'.sequence := by
  rw [← List.pairwise_map (R := (· < ·)), h.sequences]
  exact List.pairwise_lt_range'

/-- The revisions do not go back. -/
theorem revisions (h : Told rows p) :
    rows.Pairwise (fun r r' => r.aggregateRevision ≤ r'.aggregateRevision) ∧
      ∀ r ∈ rows, r.aggregateRevision ≤ p.revision := by
  induction h with
  | created _ h => exact ⟨List.pairwise_singleton _ _, by simp [creationRow]⟩
  | recorded _ _ h ih =>
    have hle := Program.apply_revision h
    have hall := fun r hr => (ih.2 r hr).trans hle
    constructor
    · refine List.pairwise_append.2 ⟨ih.1, List.pairwise_singleton _ _, ?_⟩
      intro r hr r' hr'
      rw [List.mem_singleton.1 hr']
      exact hall r hr
    · intro r hr
      rcases List.mem_append.1 hr with hr | hr
      · exact hall r hr
      · rw [List.mem_singleton.1 hr]
        exact le_rfl

/-- The last row holds the facts of the Program. -/
theorem getLast (h : Told rows p) : ∃ r, rows.getLast? = some r ∧ r.sequence = rows.length ∧
    r.factsDigest = Sha256.hexdigest (facts p) := by
  cases h with
  | created => exact ⟨_, rfl, rfl, rfl⟩
  | recorded => exact ⟨_, List.getLast?_concat, by simp [commandRow], rfl⟩

theorem ne_nil (h : Told rows p) : rows ≠ [] := by
  cases h <;> simp

/-- Every history with a row more than another one is the other one with a command more. -/
theorem concat {r : HistoryRow} (h : Told (rows ++ [r]) p) :
    (∃ spec commandKey, rows = [] ∧ Nonblank commandKey ∧ Program.create spec = .ok p ∧
      r = creationRow spec commandKey p (facts p)) ∨
    ∃ q c commandKey, Told rows q ∧ Nonblank commandKey ∧ q.apply c = .ok p ∧
      r = commandRow q.programId (rows.length + 1) commandKey c p (facts p) := by
  generalize he : rows ++ [r] = l at h
  cases h with
  | created hk h =>
    obtain ⟨rfl, hr⟩ := List.append_inj' (he.trans (List.nil_append _).symm) rfl
    exact .inl ⟨_, _, rfl, hk, h, List.singleton_injective hr⟩
  | recorded ht hk h =>
    obtain ⟨rfl, hr⟩ := List.append_inj' he rfl
    exact .inr ⟨_, _, _, ht, hk, h, List.singleton_injective hr⟩

/-- The rows up to some row tell a Program too. -/
theorem of_prefix (h : Told rows p) {before after : List HistoryRow} {r : HistoryRow}
    (he : rows = before ++ r :: after) : ∃ q, Told (before ++ [r]) q := by
  induction h generalizing after with
  | created hk h =>
    cases before with
    | nil =>
      obtain ⟨rfl, rfl⟩ := List.cons.inj he
      exact ⟨_, .created hk h⟩
    | cons b before =>
      have hlen := congrArg List.length he
      simp at hlen
  | recorded ht hk h ih =>
    rcases List.eq_nil_or_concat after with rfl | ⟨after, r', rfl⟩
    · rw [← he]
      exact ⟨_, .recorded ht hk h⟩
    · rw [List.concat_eq_append, ← List.cons_append, ← List.append_assoc] at he
      exact ih (List.append_inj' he rfl).1

end Told

/-! ## Decoded inputs -/

/-- The specification of the recorded input of a creation. -/
def creationOf (raw : String) : Except Failure ProgramSpec :=
  match loads raw with
  | some (.obj value) => do
    let spec ← field value "spec"
    specFrom spec
  | _ => .error (refuse "history creation input is not valid JSON")

/-- The command of a recorded input. -/
def commandOf (raw : String) : Except Failure DomainCommand :=
  match loads raw with
  | some (.obj value) => commandFrom value
  | _ => .error (refuse "history command input is not valid JSON")

omit [Sha256] in
theorem creationOf_input (spec : ProgramSpec) : creationOf (createInputJson spec) = .ok spec := by
  unfold creationOf
  rw [createInputJson, loads_dumps (createInput_wf spec)]
  exact bind_of_ok rfl (specFrom_payload spec)

omit [Sha256] in
theorem commandOf_input (programId : Name) (c : DomainCommand) :
    commandOf (commandInputJson programId c) = .ok c.sorted := by
  unfold commandOf
  rw [commandInputJson, loads_dumps (commandInput_wf programId c)]
  exact commandFrom_input rfl

/-- The fold of the decoded inputs of a history, from the creation on. -/
def refold : List HistoryRow → Except Failure Program
  | [] => .error ⟨.corruptHistory, "no creation"⟩
  | row :: rest => do
    let spec ← creationOf row.inputJson
    let p ← Program.create spec
    rest.foldlM (fun p row => do
      let c ← commandOf row.inputJson
      p.apply c) p

/-- A history tells the fold of its decoded inputs. -/
theorem Told.refold {rows : List HistoryRow} {p : Program} (h : Told rows p) :
    Aggregates.refold rows = .ok p := by
  induction h with
  | created _ h => exact bind_of_ok (creationOf_input _) <| bind_of_ok h rfl
  | @recorded rows p q commandKey c ht _ h ih =>
    cases rows with
    | nil => exact absurd rfl ht.ne_nil
    | cons row rest =>
      obtain ⟨spec, hspec, ih⟩ := bind_eq_ok.1 ih
      obtain ⟨p₀, hp₀, ih⟩ := bind_eq_ok.1 ih
      refine bind_of_ok hspec <| bind_of_ok hp₀ ?_
      show List.foldlM _ p₀ (rest ++ [_]) = _
      rw [List.foldlM_append]
      refine bind_of_ok ih ?_
      rw [List.foldlM_cons]
      exact bind_of_ok (bind_of_ok (commandOf_input _ _) (Program.apply_sorted.2 h)) rfl

/-! ## The tables -/

/-- The rows of one Program. -/
def part (a : Aggregates) (programId : Name) : Aggregates :=
  ⟨a.history.filter fun r => r.programId = programId,
    a.admissions.filter fun r => r.programId = programId,
    a.heads.filter fun r => r.programId = programId,
    a.workUnits.filter fun r => r.programId = programId,
    a.attempts.filter fun r => r.programId = programId⟩

/-- The row of the head of a Program after some rows of history. -/
def headRow (p : Program) (sequence : ℕ) : HeadRow :=
  ⟨p.programId, p.revision, sequence, 1, Sha256.hexdigest (facts p), facts p⟩

/-- The tables of one Program by its history. -/
def tell (rows : List HistoryRow) (p : Program) : Aggregates :=
  ⟨rows, rows.map HistoryRow.admission, [headRow p rows.length], workUnitRows p, attemptRows p⟩

/-- The tables hold what the history tells. -/
structure Agreeing (a : Aggregates) : Prop where
  admissions : a.admissions = a.history.map HistoryRow.admission
  nodup : (a.history.map HistoryRow.commandKey).Nodup
  parts : ∀ programId, a.part programId = empty ∨
    ∃ rows p, Told rows p ∧ p.programId = programId ∧ a.part programId = tell rows p

omit [Sha256] in
/-- The rows of one Program among rows of one Program. -/
theorem filter_of_forall {α : Type} {f : α → Name} {l : List α} {i : Name}
    (h : ∀ r ∈ l, f r = i) (j : Name) :
    l.filter (fun r => f r = j) = if i = j then l else [] := by
  by_cases hij : i = j
  · rw [if_pos hij, List.filter_eq_self]
    intro r hr
    simp [h r hr, hij]
  · rw [if_neg hij, List.filter_eq_nil_iff]
    intro r hr
    simp [h r hr, hij]

omit [Sha256] in
theorem filter_workUnitRows (p : Program) (programId : Name) :
    (workUnitRows p).filter (fun r => r.programId = programId) =
      if p.programId = programId then workUnitRows p else [] :=
  filter_of_forall (by simp [workUnitRows]) _

omit [Sha256] in
theorem filter_attemptRows (p : Program) (programId : Name) :
    (attemptRows p).filter (fun r => r.programId = programId) =
      if p.programId = programId then attemptRows p else [] :=
  filter_of_forall (by simp [attemptRows]) _

omit [Sha256] in
theorem filter_ne_of_ne {α : Type} {f : α → Name} (l : List α) {i j : Name} (h : i ≠ j) :
    (l.filter fun r => f r ≠ i).filter (fun r => f r = j) = l.filter fun r => f r = j := by
  rw [List.filter_filter]
  refine List.filter_congr fun r _ => ?_
  by_cases hr : f r = j <;> simp [hr, h.symm]

omit [Sha256] in
theorem filter_ne_self {α : Type} {f : α → Name} (l : List α) (i : Name) :
    (l.filter fun r => f r ≠ i).filter (fun r => f r = i) = [] := by
  rw [List.filter_filter, List.filter_eq_nil_iff]
  intro r _
  simp

omit [Sha256] in
/-- The projections of another Program are left alone. -/
theorem part_writeProjections_of_ne (a : Aggregates) (p : Program) (n : ℕ) (text : String)
    (digest : Name) {programId : Name} (h : p.programId ≠ programId) :
    (a.writeProjections p n text digest).part programId = a.part programId := by
  simp only [part, writeProjections, List.filter_append, filter_ne_of_ne _ h,
    filter_workUnitRows, filter_attemptRows, if_neg h, List.append_nil]
  simp [h]

/-- The projections of the Program are replaced. -/
theorem part_writeProjections_self (a : Aggregates) (p : Program) (n : ℕ) :
    (a.writeProjections p n (facts p) (Sha256.hexdigest (facts p))).part p.programId =
      { a.part p.programId with
        heads := [headRow p n], workUnits := workUnitRows p, attempts := attemptRows p } := by
  simp only [part, writeProjections, List.filter_append, filter_ne_self,
    filter_workUnitRows, filter_attemptRows, if_true, List.nil_append]
  simp [headRow]

/-- A commit adds a row to the history of its Program, and leaves the other Programs alone. -/
theorem part_commit (a : Aggregates) {p : Program} {row : HistoryRow}
    (hid : row.programId = p.programId) (htext : row.factsJson = facts p)
    (hdigest : row.factsDigest = Sha256.hexdigest (facts p)) (programId : Name) :
    (a.commit p row).part programId = if p.programId = programId then
        ⟨(a.part programId).history ++ [row], (a.part programId).admissions ++ [row.admission],
          [headRow p row.sequence], workUnitRows p, attemptRows p⟩
      else a.part programId := by
  have hadmission : row.admission.programId = row.programId := rfl
  have hcommit : (a.commit p row).part programId =
      { ((a.insertHistory row).writeProjections p row.sequence (facts p)
          (Sha256.hexdigest (facts p))).part programId with
        admissions := (a.part programId).admissions ++
          [row.admission].filter fun r => r.programId = programId } := by
    simp only [commit, htext, hdigest, part, writeProjections, insertHistory, List.filter_append]
  rw [hcommit]
  by_cases h : p.programId = programId
  · subst h
    rw [if_pos rfl, part_writeProjections_self]
    simp [part, insertHistory, List.filter_append, hid, hadmission]
  · rw [if_neg h, part_writeProjections_of_ne _ _ _ _ _ h]
    simp [part, insertHistory, List.filter_append, hid, hadmission, h]

theorem agreeing_empty : Agreeing empty := ⟨rfl, List.nodup_nil, fun _ => .inl rfl⟩

namespace Agreeing

variable {a : Aggregates}

/-- A key without an admission is new to the history. -/
theorem fresh (h : a.Agreeing) {commandKey : String}
    (hn : Rows.find AdmissionRow.commandKey a.admissions commandKey = none) :
    commandKey ∉ a.history.map HistoryRow.commandKey := by
  intro hmem
  obtain ⟨r, hr, rfl⟩ := List.mem_map.1 hmem
  have hadmission : r.admission ∈ a.admissions := by
    rw [h.admissions]
    exact List.mem_map_of_mem hr
  exact Rows.find_eq_none_iff.1 hn _ hadmission rfl

/-- A commit of a row that goes on with the history of its Program. -/
theorem commit (h : a.Agreeing) {p : Program} {row : HistoryRow}
    (hn : Rows.find AdmissionRow.commandKey a.admissions row.commandKey = none)
    (htext : row.factsJson = facts p) (hdigest : row.factsDigest = Sha256.hexdigest (facts p))
    (htold : Told ((a.part p.programId).history ++ [row]) p)
    (hadmissions : (a.part p.programId).admissions =
      (a.part p.programId).history.map HistoryRow.admission) :
    (a.commit p row).Agreeing := by
  have hid : row.programId = p.programId :=
    htold.programId row (List.mem_append.2 (.inr (List.mem_singleton.2 rfl)))
  have hseq : row.sequence = ((a.part p.programId).history ++ [row]).length := by
    obtain ⟨r, hr, hseq, -⟩ := htold.getLast
    rw [List.getLast?_concat] at hr
    rw [← Option.some.inj hr] at hseq
    exact hseq
  refine ⟨?_, ?_, fun programId => ?_⟩
  · show a.admissions ++ [row.admission] = (a.history ++ [row]).map _
    rw [List.map_append, h.admissions]
    rfl
  · show ((a.history ++ [row]).map _).Nodup
    rw [List.map_append]
    exact List.nodup_append.2 ⟨h.nodup, List.nodup_singleton _, fun k hk k' hk' he =>
      h.fresh hn (by rw [← List.mem_singleton.1 hk', ← he]; exact hk)⟩
  · rw [part_commit a hid htext hdigest]
    by_cases hp : p.programId = programId
    · subst hp
      rw [if_pos rfl, hadmissions, hseq]
      refine .inr ⟨_, p, htold, rfl, ?_⟩
      rw [tell, List.map_append]
      rfl
    · rw [if_neg hp]
      exact h.parts programId

/-- A Program without a head has no row. -/
theorem part_of_head (h : a.Agreeing) {programId : Name} (hn : a.head programId = none) :
    a.part programId = empty := by
  rcases h.parts programId with he | ⟨rows, p, -, rfl, he⟩
  · exact he
  · have hmem : headRow p rows.length ∈ (a.part p.programId).heads := by
      rw [he]
      exact List.mem_singleton.2 rfl
    exact absurd rfl (Rows.find_eq_none_iff.1 hn _ (List.mem_filter.1 hmem).1)

end Agreeing

/-! ## Reading the head -/

/-- The head of a Program with a history. -/
theorem head_of_part {a : Aggregates} {rows : List HistoryRow} {p : Program}
    (he : a.part p.programId = tell rows p) : a.head p.programId = some (headRow p rows.length) := by
  have hheads : a.heads.filter (fun r => r.programId = p.programId) = [headRow p rows.length] :=
    congrArg Aggregates.heads he
  rw [head, Rows.find, ← List.head?_filter, hheads]
  rfl

theorem decodeFacts_facts {p : Program} (h : p.Coherent) :
    decodeFacts (facts p) p.programId p.revision = .ok p := by
  unfold decodeFacts
  rw [facts, programFromJson_of_coherent h]
  exact bind_of_ok rfl <| bind_of_ok (check_of ⟨rfl, rfl⟩) rfl

/-- The rows of a Program in the order of their numbers are its history. -/
theorem historyOf_of_part {a : Aggregates} {rows : List HistoryRow} {p : Program}
    (ht : Told rows p) (he : a.part p.programId = tell rows p) : a.historyOf p.programId = rows := by
  have hrows : a.history.filter (fun r => r.programId = p.programId) = rows :=
    congrArg Aggregates.history he
  rw [historyOf, hrows]
  exact (SortedBy.sortBy_reorders rows).eq (SortedBy.pairwise_le_sortBy rows)
    (ht.pairwise.imp fun h => h.le)

/-- **The head** of a Program is the one its history tells. -/
theorem loadHead_told {a : Aggregates} {rows : List HistoryRow} {p : Program} (ht : Told rows p)
    (he : a.part p.programId = tell rows p) : a.loadHead p.programId = .ok p := by
  obtain ⟨r, hr, hseq, hdigest⟩ := ht.getLast
  refine bind_of_ok (lookup_eq_ok.2 (head_of_part he)) <| bind_of_ok (check_of rfl) <|
    bind_of_ok (decodeFacts_facts ht.reachable.coherent) ?_
  rw [historyOf_of_part ht he, hr]
  exact bind_of_ok (check_of ⟨hseq, hdigest, rfl⟩) rfl

/-- A head that loads is told by the history of its Program. -/
theorem Agreeing.told {a : Aggregates} (h : a.Agreeing) {programId : Name} {p : Program}
    (hp : a.loadHead programId = .ok p) :
    p.programId = programId ∧ ∃ rows, Told rows p ∧ a.part p.programId = tell rows p := by
  rcases h.parts programId with he | ⟨rows, q, ht, rfl, he⟩
  · obtain ⟨row, hrow, -⟩ := bind_eq_ok.1 hp
    have hmem : row ∈ (a.part programId).heads := by
      obtain ⟨hmem, hid⟩ := Rows.mem_of_find (lookup_eq_ok.1 hrow)
      exact List.mem_filter.2 ⟨hmem, by simpa using hid⟩
    rw [he] at hmem
    cases hmem
  · rw [loadHead_told ht he] at hp
    obtain rfl := Except.ok.inj hp
    exact ⟨rfl, rows, ht, he⟩

omit [Sha256] in
/-- The head of a Program is read from its own rows. -/
theorem head_congr {a a' : Aggregates} {programId : Name} (h : a'.part programId = a.part programId) :
    a'.head programId = a.head programId := by
  have hheads : a'.heads.filter (fun r => r.programId = programId) =
      a.heads.filter fun r => r.programId = programId := congrArg Aggregates.heads h
  rw [head, head, Rows.find, Rows.find, ← List.head?_filter, ← List.head?_filter, hheads]

theorem loadHead_congr {a a' : Aggregates} {programId : Name}
    (h : a'.part programId = a.part programId) : a'.loadHead programId = a.loadHead programId := by
  have hhistory : a'.historyOf programId = a.historyOf programId :=
    congrArg (SortedBy.sortBy HistoryRow.sequence) (congrArg Aggregates.history h)
  have hhead : lookup (notFound programId) a'.head programId =
      lookup (notFound programId) a.head programId := by
    unfold lookup
    rw [head_congr h]
  unfold loadHead
  rw [hhead, hhistory]

/-! ## Writing -/

/-- A creation. -/
theorem Agreeing.create {a a' : Aggregates} (h : a.Agreeing) {spec : ProgramSpec}
    {commandKey : String} {p : Program} (hc : a.create spec commandKey = .ok (p, a')) :
    a' = a ∨ (a'.Agreeing ∧ a.head p.programId = none ∧ p.Reachable ∧
      a'.loadHead p.programId = .ok p ∧
      ∀ programId, programId ≠ p.programId → a'.part programId = a.part programId) := by
  obtain ⟨_, hk, hc⟩ := bind_eq_ok.1 hc
  obtain ⟨duplicate, hd, hc⟩ := bind_eq_ok.1 hc
  cases duplicate with
  | some duplicate => exact .inl (congrArg Prod.snd (pure_eq_ok.1 hc)).symm
  | none =>
    right
    obtain ⟨hn, hc⟩ := check_bind_eq_ok.1 hc
    obtain ⟨initial, hi, hc⟩ := bind_eq_ok.1 hc
    obtain ⟨text, htext, hc⟩ := bind_eq_ok.1 hc
    obtain ⟨rfl, rfl⟩ := Prod.mk.inj (pure_eq_ok.1 hc)
    rw [programJson_of_coherent (Program.Reachable.create hi).coherent] at htext
    obtain rfl := Except.ok.inj htext
    have hid := (create_programId hi).1
    have hempty : a.part initial.programId = empty := h.part_of_head (by rw [hid]; exact hn)
    have htold : Told [creationRow spec commandKey initial (facts initial)] initial :=
      .created (Checked.check_eq_ok.1 hk) hi
    have hagree : (a.commit initial
        (creationRow spec commandKey initial (facts initial))).Agreeing := h.commit
      (duplicateResult_eq_none.1 hd) rfl rfl (by rw [hempty]; exact htold) (by rw [hempty]; rfl)
    refine ⟨hagree, by rw [hid]; exact hn, .create hi, ?_, fun programId hne => ?_⟩
    · refine loadHead_told htold ?_
      refine (part_commit a hid.symm rfl rfl _).trans ?_
      rw [if_pos rfl, hempty]
      rfl
    · exact (part_commit a hid.symm rfl rfl _).trans (if_neg hne.symm)

/-- A command. -/
theorem Agreeing.record {a a' : Aggregates} (h : a.Agreeing) {programId : Name}
    {commandKey : String} {c : DomainCommand} {p q : Program} (hk : Nonblank commandKey)
    (hn : Rows.find AdmissionRow.commandKey a.admissions commandKey = none)
    (hp : a.loadHead programId = .ok p) (hq : p.apply c = .ok q)
    (hr : a.record programId commandKey c q = .ok a') :
    a'.Agreeing ∧ a'.loadHead programId = .ok q ∧
      ∀ j, j ≠ programId → a'.part j = a.part j := by
  obtain ⟨rfl, rows, ht, he⟩ := h.told hp
  have hid : q.programId = p.programId := Program.apply_programId ht.reachable.coherent hq
  obtain ⟨-, hr⟩ := check_bind_eq_ok.1 hr
  obtain ⟨head, hhead, hr⟩ := bind_eq_ok.1 hr
  obtain ⟨text, htext, hr⟩ := bind_eq_ok.1 hr
  obtain rfl := pure_eq_ok.1 hr
  rw [programJson_of_coherent (ht.reachable.step c hq).coherent] at htext
  obtain rfl := Except.ok.inj htext
  rw [lookup_eq_ok, head_of_part he] at hhead
  obtain rfl := Option.some.inj hhead
  set row := commandRow p.programId (rows.length + 1) commandKey c q (facts q) with hrow
  have htold : Told (rows ++ [row]) q := .recorded ht hk hq
  have hpart : a.part q.programId = tell rows p := by rw [hid, he]
  have hagree : (a.commit q row).Agreeing := h.commit hn rfl rfl (by rw [hpart]; exact htold)
    (by rw [hpart]; rfl)
  have hcommit : (a.commit q row).part q.programId = tell (rows ++ [row]) q := by
    refine (part_commit a hid.symm rfl rfl _).trans ?_
    rw [if_pos rfl, hpart]
    show (⟨rows ++ [row], rows.map HistoryRow.admission ++ [row.admission], _, _, _⟩ :
      Aggregates) = _
    rw [tell, List.map_append, List.length_append]
    rfl
  refine ⟨hagree, ?_, fun j hj => ?_⟩
  · have hload := loadHead_told htold hcommit
    rw [hid] at hload
    exact hload
  · exact (part_commit a hid.symm rfl rfl _).trans (if_neg (by rw [hid]; exact hj.symm))

/-! ## Rebuilding -/

/-- What a replay knows of a Program after the rows of its history. -/
def entry (p : Program) (sequence : ℕ) : Replayed :=
  ⟨p, sequence, facts p, Sha256.hexdigest (facts p)⟩

/-- The replay has seen some rows: it knows each of their Programs as the rows tell it. -/
structure Seen (latest : List Replayed) (rows : List HistoryRow) : Prop where
  nodup : (latest.map fun r => r.program.programId).Nodup
  known : ∀ programId, (rows.filter (fun r => r.programId = programId) = [] ∧
      replayed latest programId = none) ∨
    ∃ p, Told (rows.filter fun r => r.programId = programId) p ∧ p.programId = programId ∧
      replayed latest programId = some (entry p (rows.filter fun r => r.programId = programId).length)

omit [Sha256] in
/-- The entry of a Program after another entry is remembered. -/
theorem replayed_remember (latest : List Replayed) (r : Replayed) (programId : Name) :
    replayed (remember latest r) programId =
      if r.program.programId = programId then some r else replayed latest programId := by
  unfold remember
  cases hr : replayed latest r.program.programId with
  | none =>
    show Rows.find _ (latest ++ [r]) programId = _
    rw [Rows.find_append, Rows.find_singleton]
    by_cases h : r.program.programId = programId
    · rw [if_pos h, if_pos h, ← h]
      rw [show Rows.find (fun r : Replayed => r.program.programId) latest r.program.programId =
        none from hr]
      rfl
    · rw [if_neg h, if_neg h, Option.or_none]
      rfl
  | some prior =>
    show Rows.find _ (Rows.update _ latest r) programId = _
    rw [Rows.find_update]
    by_cases h : r.program.programId = programId
    · rw [if_pos h, if_pos h.symm, ← h]
      rw [show Rows.find (fun r : Replayed => r.program.programId) latest r.program.programId =
        some prior from hr]
      rfl
    · rw [if_neg h, if_neg (Ne.symm h)]
      rfl

omit [Sha256] in
theorem nodup_remember {latest : List Replayed} {r : Replayed}
    (h : (latest.map fun r => r.program.programId).Nodup) :
    ((remember latest r).map fun r => r.program.programId).Nodup := by
  unfold remember
  cases hr : replayed latest r.program.programId with
  | none =>
    rw [List.map_append]
    refine List.nodup_append.2 ⟨h, List.nodup_singleton _, fun i hi j hj => ?_⟩
    obtain ⟨x, hx, rfl⟩ := List.mem_map.1 hi
    rw [List.mem_singleton.1 hj]
    exact Rows.find_eq_none_iff.1 hr x hx
  | some prior =>
    show ((Rows.update (fun r : Replayed => r.program.programId) latest r).map _).Nodup
    rw [Rows.map_key_update]
    exact h

/-- The row that comes next in its history passes the checks of the replay. -/
theorem replayRow_told {a : Aggregates} {rows : List HistoryRow} {row : HistoryRow} {p : Program}
    (ht : Told (rows ++ [row]) p) (hadmitted : a.admitted row) {known : Option Replayed}
    (hknown : rows = [] ∧ known = none ∨
      ∃ q, Told rows q ∧ known = some (entry q rows.length)) :
    a.replayRow row known = .ok (entry p (rows ++ [row]).length) := by
  have hdecode := decodeFacts_facts ht.reachable.coherent
  rcases ht.concat with ⟨spec, commandKey, rfl, hk, hc, rfl⟩ | ⟨q, c, commandKey, hq, hk, hc, rfl⟩
  · obtain rfl : known = none := by
      rcases hknown with h | ⟨q, hq, -⟩
      · exact h.2
      · exact absurd rfl hq.ne_nil
    obtain ⟨hid, hrev, hstatus⟩ := create_programId hc
    rw [hid] at hdecode
    have hinput : replayInput (creationRow spec commandKey p (facts p)) none = .ok () :=
      bind_of_ok (check_of ⟨rfl, rfl⟩) (validateCreateInput_self spec)
    exact bind_of_ok (check_of rfl) <| bind_of_ok (check_of hk) <| bind_of_ok (check_of rfl) <|
      bind_of_ok (check_of rfl) <| bind_of_ok hinput <| bind_of_ok hdecode <|
      bind_of_ok (check_of (by simp)) <| bind_of_ok (check_of fun _ => ⟨hrev, hstatus⟩) <|
      bind_of_ok (check_of hadmitted) rfl
  · have hlast : ∃ q', Told rows q' ∧ known = some (entry q' rows.length) := by
      rcases hknown with ⟨rfl, -⟩ | h
      · exact absurd rfl hq.ne_nil
      · exact h
    obtain ⟨q', hq', rfl⟩ := hlast
    -- both histories of the rows so far tell the same Program
    obtain rfl : q = q' := Except.ok.inj (hq.refold.symm.trans hq'.refold)
    have hlen : 0 < rows.length := List.length_pos_iff.2 hq.ne_nil
    have hid := Program.apply_programId hq.reachable.coherent hc
    rw [hid] at hdecode
    have hinput : replayInput (commandRow q.programId (rows.length + 1) commandKey c p (facts p))
        (some (entry q rows.length)) = .ok () := by
      have htype : ¬c.request.action.value = "create_program" := by
        generalize c.request.action = action
        cases action <;> decide
      unfold replayInput
      rw [if_neg (show ¬(commandRow q.programId (rows.length + 1) commandKey c p
        (facts p)).commandType = "create_program" from htype)]
      exact bind_of_ok (check_of rfl) (validateHistoryInput_self q.programId c)
    refine bind_of_ok (check_of rfl) <| bind_of_ok (check_of hk) <| bind_of_ok (check_of rfl) <|
      bind_of_ok (check_of rfl) <| bind_of_ok hinput <| bind_of_ok hdecode <|
      bind_of_ok (check_of ?_) <| bind_of_ok (check_of ?_) <|
      bind_of_ok (check_of hadmitted) ?_
    · rintro r ⟨⟩
      exact Program.apply_revision hc
    · intro hseq
      have hone : rows.length + 1 = 1 := hseq
      omega
    · rw [List.length_append]
      rfl

/-- The step of the replay. -/
theorem Seen.step {a : Aggregates} {latest : List Replayed} {rows : List HistoryRow}
    (h : Seen latest rows) {row : HistoryRow} {p : Program}
    (ht : Told (rows.filter (fun r => r.programId = row.programId) ++ [row]) p)
    (hadmitted : a.admitted row) :
    ∃ r, a.replayRow row (replayed latest row.programId) = .ok r ∧
      Seen (remember latest r) (rows ++ [row]) := by
  have hid : row.programId = p.programId :=
    ht.programId row (List.mem_append.2 (.inr (List.mem_singleton.2 rfl)))
  refine ⟨_, replayRow_told ht hadmitted ?_, nodup_remember h.nodup, fun programId => ?_⟩
  · rcases h.known row.programId with ⟨hnil, hnone⟩ | ⟨q, hq, -, hsome⟩
    · exact .inl ⟨hnil, hnone⟩
    · exact .inr ⟨q, hq, hsome⟩
  · rw [replayed_remember, List.filter_append]
    by_cases hp : row.programId = programId
    · subst hp
      have hone : [row].filter (fun r => r.programId = row.programId) = [row] := by simp
      rw [hone]
      exact .inr ⟨p, ht, hid.symm, if_pos hid.symm⟩
    · have hnone : [row].filter (fun r => r.programId = programId) = [] := by simp [hp]
      have hne : (entry p (rows.filter (fun r => r.programId = row.programId) ++
          [row]).length).program.programId ≠ programId := by
        show p.programId ≠ programId
        rw [← hid]
        exact hp
      rw [hnone, List.append_nil, if_neg hne]
      exact h.known programId

/-- The loop of the replay. -/
theorem Seen.replay {a : Aggregates} {rest : List HistoryRow} {latest : List Replayed}
    {rows : List HistoryRow} (h : Seen latest rows)
    (htold : ∀ programId, (rows ++ rest).filter (fun r => r.programId = programId) = [] ∨
      ∃ p, Told ((rows ++ rest).filter fun r => r.programId = programId) p)
    (hadmitted : ∀ r ∈ rest, a.admitted r) :
    ∃ latest', a.replay latest rest = .ok latest' ∧ Seen latest' (rows ++ rest) := by
  induction rest generalizing latest rows with
  | nil => exact ⟨latest, rfl, by rwa [List.append_nil]⟩
  | cons row rest ih =>
    have hsplit : (rows ++ row :: rest).filter (fun r => r.programId = row.programId) =
        rows.filter (fun r => r.programId = row.programId) ++
          row :: rest.filter fun r => r.programId = row.programId := by
      rw [List.filter_append, List.filter_cons_of_pos (by simp)]
    have hnext : ∃ p, Told (rows.filter (fun r => r.programId = row.programId) ++ [row]) p := by
      rcases htold row.programId with hnil | ⟨p, hp⟩
      · rw [hsplit] at hnil
        simp at hnil
      · exact hp.of_prefix hsplit
    obtain ⟨p, hp⟩ := hnext
    obtain ⟨r, hr, hseen⟩ := h.step hp (hadmitted row List.mem_cons_self)
    obtain ⟨latest', hreplay, hseen'⟩ := ih hseen (by rwa [List.append_assoc])
      fun r hr => hadmitted r (List.mem_cons_of_mem _ hr)
    rw [List.append_assoc] at hseen'
    exact ⟨latest', bind_of_ok hr hreplay, hseen'⟩

omit [Sha256] in
/-- Writing projections keeps the history and the admissions. -/
theorem foldl_tables {α : Type} (latest : List Replayed) (a : Aggregates)
    (f : Aggregates → α) (hf : ∀ (a : Aggregates) (r : Replayed),
      f (a.writeProjections r.program r.sequence r.factsJson r.factsDigest) = f a) :
    f (latest.foldl (fun a r =>
      a.writeProjections r.program r.sequence r.factsJson r.factsDigest) a) = f a := by
  induction latest generalizing a with
  | nil => rfl
  | cons r latest ih => rw [List.foldl_cons, ih, hf]

/-- Writing the projections of the Programs of a replay. -/
theorem part_foldl {latest : List Replayed} (hn : (latest.map fun r => r.program.programId).Nodup)
    (hentry : ∀ r ∈ latest, r = entry r.program r.sequence) (a : Aggregates) (programId : Name) :
    (latest.foldl (fun a r => a.writeProjections r.program r.sequence r.factsJson r.factsDigest)
        a).part programId =
      match replayed latest programId with
      | none => a.part programId
      | some r => { a.part programId with
          heads := [headRow r.program r.sequence], workUnits := workUnitRows r.program,
          attempts := attemptRows r.program } := by
  induction latest generalizing a with
  | nil => rfl
  | cons r latest ih =>
    rw [List.map_cons, List.nodup_cons] at hn
    rw [List.foldl_cons, ih hn.2 fun x hx => hentry x (List.mem_cons_of_mem _ hx)]
    have hr := hentry r List.mem_cons_self
    by_cases h : r.program.programId = programId
    · subst h
      have hnone : replayed latest r.program.programId = none :=
        Rows.find_eq_none_iff.2 fun x hx he => hn.1 (List.mem_map.2 ⟨x, hx, he⟩)
      have hsome : replayed (r :: latest) r.program.programId = some r := by
        simp [replayed, Rows.find]
      rw [hnone, hsome]
      show Aggregates.part _ _ = _
      rw [show r.factsJson = facts r.program by rw [hr]; rfl,
        show r.factsDigest = Sha256.hexdigest (facts r.program) by rw [hr]; rfl,
        part_writeProjections_self]
    · have hsame : replayed (r :: latest) programId = replayed latest programId := by
        simp [replayed, Rows.find, h]
      rw [hsame, part_writeProjections_of_ne _ _ _ _ _ h]

/-- Sorting the whole history keeps the history of each Program. -/
theorem Agreeing.filter_sorted {a : Aggregates} (h : a.Agreeing) (programId : Name) :
    (SortedBy.sortBy (fun r : HistoryRow => toLex (r.programId, r.sequence)) a.history).filter
      (fun r => r.programId = programId) = (a.part programId).history := by
  have hperm : ((SortedBy.sortBy (fun r : HistoryRow => toLex (r.programId, r.sequence))
      a.history).filter fun r => r.programId = programId).Perm (a.part programId).history :=
    (SortedBy.perm_sortBy a.history).filter _
  rcases h.parts programId with he | ⟨rows, p, ht, rfl, he⟩
  · rw [he] at hperm ⊢
    exact hperm.eq_nil
  · rw [he] at hperm ⊢
    have hkeys : (rows.map HistoryRow.sequence).Nodup := by
      rw [ht.sequences]
      exact List.nodup_range'
    refine ((SortedBy.reorders_iff_perm hkeys).2 hperm.symm).eq
      (ht.pairwise.imp fun h => h.le) ?_ |>.symm
    refine (List.Pairwise.filter _ (SortedBy.pairwise_le_sortBy a.history)).imp_of_mem ?_
    intro r r' hr hr' hle
    have hr := (List.mem_filter.1 hr).2
    have hr' := (List.mem_filter.1 hr').2
    rcases Prod.Lex.toLex_le_toLex.1 hle with hlt | ⟨-, hle⟩
    · simp only [decide_eq_true_eq] at hr hr'
      rw [hr, hr'] at hlt
      exact absurd hlt (lt_irrefl _)
    · exact hle

/-- **Rebuilding** raises nothing, and gives the projections of every Program as they were. -/
theorem Agreeing.rebuild {a : Aggregates} (h : a.Agreeing) :
    ∃ n a', a.rebuild = .ok (n, a') ∧ a'.history = a.history ∧ a'.admissions = a.admissions ∧
      ∀ programId, a'.part programId = a.part programId := by
  set rows := SortedBy.sortBy (fun r : HistoryRow => toLex (r.programId, r.sequence)) a.history
    with hrows
  have hadmitted : ∀ r ∈ rows, a.admitted r := by
    intro r hr
    have hmem : r ∈ a.history := SortedBy.mem_sortBy.1 hr
    have hkeys : (a.admissions.map AdmissionRow.commandKey).Nodup := by
      rw [h.admissions, List.map_map]
      exact h.nodup
    refine (Rows.find_eq_some_iff hkeys).2 ⟨?_, rfl⟩
    rw [h.admissions]
    exact List.mem_map_of_mem hmem
  have htold : ∀ programId : Name,
      ([] ++ rows).filter (fun r : HistoryRow => r.programId = programId) = [] ∨
      ∃ p, Told (([] ++ rows).filter fun r : HistoryRow => r.programId = programId) p := by
    intro programId
    rw [List.nil_append, hrows, h.filter_sorted]
    rcases h.parts programId with he | ⟨rows, p, ht, -, he⟩
    · exact .inl (by rw [he]; rfl)
    · exact .inr ⟨p, by rw [he]; exact ht⟩
  have hstart : Seen [] [] := ⟨List.nodup_nil, fun _ => .inl ⟨rfl, rfl⟩⟩
  obtain ⟨latest, hreplay, hseen⟩ := hstart.replay htold hadmitted
  rw [List.nil_append] at hseen
  have hentry : ∀ r ∈ latest, r = entry r.program r.sequence := by
    intro r hr
    have hfind := Rows.find_of_mem hseen.nodup hr
    rcases hseen.known r.program.programId with ⟨-, hnone⟩ | ⟨p, -, -, hsome⟩
    · exact absurd (hnone.symm.trans hfind) (by simp)
    · rw [Option.some.inj (hfind.symm.trans hsome)]
      rfl
  refine ⟨_, _, bind_of_ok hreplay rfl, foldl_tables latest _ Aggregates.history fun _ _ => rfl,
    foldl_tables latest _ Aggregates.admissions fun _ _ => rfl, fun programId => ?_⟩
  rw [part_foldl hseen.nodup hentry]
  rcases hseen.known programId with ⟨hnil, hnone⟩ | ⟨p, ht, rfl, hsome⟩
  · rw [hnone]
    rw [hrows, h.filter_sorted] at hnil
    rcases h.parts programId with he | ⟨rows, p, ht, -, he⟩
    · rw [he]
      have hhistory : a.history.filter (fun r => r.programId = programId) = [] :=
        congrArg Aggregates.history he
      have hadm : a.admissions.filter (fun r => r.programId = programId) = [] :=
        congrArg Aggregates.admissions he
      simp only [part, hhistory, hadm, List.filter_nil]
      rfl
    · rw [he] at hnil
      exact absurd hnil ht.ne_nil
  · rw [hsome]
    rw [hrows, h.filter_sorted] at ht
    rcases h.parts p.programId with he | ⟨rows', q, hq, hid, he⟩
    · rw [he] at ht
      exact absurd rfl ht.ne_nil
    · rw [he] at ht
      obtain rfl : p = q := Except.ok.inj (ht.refold.symm.trans hq.refold)
      have hlen : (rows.filter fun r => r.programId = p.programId).length = rows'.length := by
        rw [hrows, h.filter_sorted, he]
        rfl
      rw [hlen, he]
      have hhistory : a.history.filter (fun r => r.programId = p.programId) = rows' :=
        congrArg Aggregates.history he
      have hadm : a.admissions.filter (fun r => r.programId = p.programId) =
          rows'.map HistoryRow.admission := congrArg Aggregates.admissions he
      simp only [part, hhistory, hadm]
      rfl

end Aggregates

/-- Commands one after the other. -/
theorem Program.run_append [Sha256] {p q : Program} {commands : List DomainCommand}
    (h : p.run commands = .ok q) (rest : List DomainCommand) :
    p.run (commands ++ rest) = q.run rest := by
  induction commands generalizing p with
  | nil =>
    obtain rfl := Except.ok.inj h
    rfl
  | cons c commands ih =>
    obtain ⟨p', hc, h⟩ := bind_eq_ok.1 h
    show (p.apply c >>= fun q => q.run (commands ++ rest)) = _
    rw [hc]
    exact ih h

namespace Store

variable [Sha256] {R : Store → Reservation → Prop} {U : Store → String → UsageObservation → Prop}
  {s s' s'' : Store}

/-! ## Runs -/

/-- The head of a Program after some commands, if it had one before. -/
def Continues (s s' : Store) : Prop :=
  ∀ programId p, s.loadHead programId = .ok p →
    ∃ commands q, s'.loadHead programId = .ok q ∧ p.run commands = .ok q

theorem Continues.refl (s : Store) : Continues s s := fun _ p hp => ⟨[], p, hp, rfl⟩

theorem Continues.trans (h : Continues s s') (h' : Continues s' s'') : Continues s s'' := by
  intro programId p hp
  obtain ⟨commands, q, hq, hrun⟩ := h programId p hp
  obtain ⟨commands', q', hq', hrun'⟩ := h' programId q hq
  exact ⟨commands ++ commands', q', hq', (Program.run_append hrun commands').trans hrun'⟩

/-- Leaving the rows of the Programs alone. -/
theorem Continues.of_part
    (h : ∀ programId, s'.aggregates.part programId = s.aggregates.part programId) :
    Continues s s' := fun programId p hp =>
  ⟨[], p, (Aggregates.loadHead_congr (h programId)).trans hp, rfl⟩

/-- What one write does to the aggregates. -/
theorem agreeing_write (h : s.aggregates.Agreeing) (hw : Write R U s s') :
    s'.aggregates.Agreeing ∧ Continues s s' := by
  rcases hw.aggregates_or with he | ⟨spec, commandKey, p, hc⟩ |
    ⟨programId, commandKey, c, current, next, aggregates, hk, hn, hc, ha, hr, rfl⟩
  · rw [he]
    exact ⟨h, .of_part fun _ => by rw [he]⟩
  · obtain ⟨⟨p', aggregates⟩, hcreate, hc⟩ := bind_eq_ok.1 hc
    obtain ⟨rfl, rfl⟩ := Prod.mk.inj (pure_eq_ok.1 hc)
    rcases h.create hcreate with rfl | ⟨hagree, hhead, -, -, hframe⟩
    · exact ⟨h, .refl _⟩
    · refine ⟨hagree, fun programId p hp => ?_⟩
      by_cases hid : programId = p'.programId
      · -- a Program that is created had no head
        subst hid
        obtain ⟨row, hrow, -⟩ := bind_eq_ok.1 hp
        rw [lookup_eq_ok, hhead] at hrow
        cases hrow
      · exact ⟨[], p, (Aggregates.loadHead_congr (hframe programId hid)).trans hp, rfl⟩
  · obtain ⟨hagree, hload, hframe⟩ := h.record hk hn hc ha hr
    refine ⟨hagree, fun j p hp => ?_⟩
    by_cases hj : j = programId
    · subst hj
      obtain rfl : current = p := Except.ok.inj (hc.symm.trans hp)
      exact ⟨[c], next, hload, bind_of_ok ha rfl⟩
    · exact ⟨[], p, (Aggregates.loadHead_congr (hframe j hj)).trans hp, rfl⟩

/-- What a sequence of writes does to the aggregates. -/
theorem agreeing_writes (h : s.aggregates.Agreeing) (hw : Writes R U s s') :
    s'.aggregates.Agreeing ∧ Continues s s' := by
  induction hw with
  | refl => exact ⟨h, .refl s⟩
  | tail _ hw ih =>
    obtain ⟨hagree, hcontinues⟩ := agreeing_write ih.1 hw
    exact ⟨hagree, ih.2.trans hcontinues⟩

/-- Opening the database again rebuilds the projections. -/
def reopen (s : Store) : Store :=
  Runs.settle s (s.aggregates.rebuild.map fun r => (r.1, { s with aggregates := r.2 }))

/-- The store after a call, or after it was closed and opened again. -/
def nextOrReopen (s : Store) : Option Call → Store
  | none => s.reopen
  | some c => s.next c

/-- A rebuild changes no row. -/
theorem agreeing_reopen (h : s.aggregates.Agreeing) :
    s.reopen.aggregates.Agreeing ∧ Continues s s.reopen := by
  obtain ⟨n, a', hrebuild, hhistory, hadmissions, hparts⟩ := h.rebuild
  have hs : s.reopen = { s with aggregates := a' } := by
    rw [reopen, hrebuild]
    rfl
  rw [hs]
  refine ⟨⟨by rw [hadmissions, hhistory, h.admissions], by rw [hhistory]; exact h.nodup,
    fun programId => ?_⟩, .of_part hparts⟩
  rw [hparts]
  exact h.parts programId

/-- The step: every call and every reopening keeps the tables in agreement. -/
theorem agreeing_next (h : s.aggregates.Agreeing) (c : Option Call) :
    (s.nextOrReopen c).aggregates.Agreeing ∧ Continues s (s.nextOrReopen c) := by
  cases c with
  | none => exact agreeing_reopen h
  | some c =>
    have hw : Writes (fun _ _ => True) (fun _ _ _ => True) s (s.next c) :=
      next_writes (fun _ _ _ _ => trivial) fun _ _ _ => trivial
    exact agreeing_writes h hw

theorem agreeing_run (calls : List (Option Call)) :
    (Runs.run nextOrReopen empty calls).aggregates.Agreeing :=
  @Runs.run_invariant _ _ nextOrReopen (fun s => s.aggregates.Agreeing)
    (fun _ c h => (agreeing_next h c).1) empty Aggregates.agreeing_empty calls

/-- The Programs of a later state continue those of an earlier one. -/
theorem continues_run (h : s.aggregates.Agreeing) (calls : List (Option Call)) :
    Continues s (Runs.run nextOrReopen s calls) :=
  @Runs.run_relation _ _ nextOrReopen (fun s => s.aggregates.Agreeing) Continues Continues.refl
    (fun _ _ _ => Continues.trans) (fun _ c h => (agreeing_next h c).1)
    (fun _ c h => (agreeing_next h c).2) s h calls

/-- What the history guarantees of a store. -/
structure HistoryAgrees (s : Store) : Prop where
  /-- The numbers of the rows of a Program count from one. -/
  contiguous : ∀ programId, (s.aggregates.historyOf programId).map HistoryRow.sequence =
    List.range' 1 (s.aggregates.historyOf programId).length
  revisions : ∀ programId, (s.aggregates.historyOf programId).Pairwise fun r r' =>
    r.aggregateRevision ≤ r'.aggregateRevision
  /-- The head is the fold of the decoded inputs. -/
  refolded : ∀ programId, s.aggregates.historyOf programId ≠ [] →
    ∃ p, s.loadHead programId = .ok p ∧
      Aggregates.refold (s.aggregates.historyOf programId) = .ok p
  /-- Without a history there is no head. -/
  missing : ∀ programId, s.aggregates.historyOf programId = [] →
    s.loadHead programId = .error (Aggregates.notFound programId)
  /-- A rebuild returns and leaves every table as it was. -/
  rebuilt : ∃ n a', s.aggregates.rebuild = .ok (n, a') ∧ a'.history = s.aggregates.history ∧
    a'.admissions = s.aggregates.admissions ∧ a'.heads.Perm s.aggregates.heads ∧
    a'.workUnits.Perm s.aggregates.workUnits ∧ a'.attempts.Perm s.aggregates.attempts

omit [Sha256] in
/-- Tables with the same rows of every Program hold the same rows. -/
theorem perm_of_parts {α : Type} {f : α → Name} {l l' : List α}
    (h : ∀ programId, l.filter (fun r => f r = programId) = l'.filter fun r => f r = programId) :
    l.Perm l' := by
  have hsort : SortedBy.sortBy f l = SortedBy.sortBy f l' := SortedBy.sortBy_eq_iff.2 h
  have hperm : (SortedBy.sortBy f l).Perm l' := by
    rw [hsort]
    exact SortedBy.perm_sortBy l'
  exact (SortedBy.perm_sortBy l).symm.trans hperm

/-- **Agreement**: whatever is called, and however often the database is opened again, the head
of every Program is the fold of its history, and a rebuild changes nothing. -/
theorem history_agrees (calls : List (Option Call)) :
    HistoryAgrees (Runs.run nextOrReopen empty calls) := by
  set s := Runs.run nextOrReopen empty calls with hs
  have h : s.aggregates.Agreeing := agreeing_run calls
  have hcases : ∀ programId, (s.aggregates.part programId = Aggregates.empty ∧
      s.aggregates.historyOf programId = []) ∨ ∃ rows p, Aggregates.Told rows p ∧
        p.programId = programId ∧ s.aggregates.part programId = Aggregates.tell rows p ∧
        s.aggregates.historyOf programId = rows := by
    intro programId
    rcases h.parts programId with he | ⟨rows, p, ht, rfl, he⟩
    · have hnil : s.aggregates.history.filter (fun r => r.programId = programId) = [] :=
        congrArg Aggregates.history he
      refine .inl ⟨he, ?_⟩
      rw [Aggregates.historyOf, hnil]
      rfl
    · exact .inr ⟨rows, p, ht, rfl, he, Aggregates.historyOf_of_part ht he⟩
  obtain ⟨n, a', hrebuild, hhistory, hadmissions, hparts⟩ := h.rebuild
  refine ⟨?_, ?_, ?_, ?_, n, a', hrebuild, hhistory, hadmissions, ?_, ?_, ?_⟩
  · intro programId
    rcases hcases programId with ⟨-, hnil⟩ | ⟨rows, p, ht, -, -, hrows⟩
    · rw [hnil]
      rfl
    · rw [hrows]
      exact ht.sequences
  · intro programId
    rcases hcases programId with ⟨-, hnil⟩ | ⟨rows, p, ht, -, -, hrows⟩
    · rw [hnil]
      exact List.Pairwise.nil
    · rw [hrows]
      exact ht.revisions.1
  · intro programId hne
    rcases hcases programId with ⟨-, hnil⟩ | ⟨rows, p, ht, rfl, he, hrows⟩
    · exact absurd hnil hne
    · rw [hrows]
      exact ⟨p, Aggregates.loadHead_told ht he, ht.refold⟩
  · intro programId hnil
    rcases hcases programId with ⟨he, -⟩ | ⟨rows, p, ht, rfl, he, hrows⟩
    · have hhead : s.aggregates.head programId = none :=
        @Aggregates.head_congr Aggregates.empty s.aggregates programId (by rw [he]; rfl)
      unfold loadHead Aggregates.loadHead
      rw [lookup, hhead]
      rfl
    · rw [hrows] at hnil
      exact absurd hnil ht.ne_nil
  · exact perm_of_parts fun programId => congrArg Aggregates.heads (hparts programId)
  · exact perm_of_parts fun programId => congrArg Aggregates.workUnits (hparts programId)
  · exact perm_of_parts fun programId => congrArg Aggregates.attempts (hparts programId)

end Store

end CreatidyKernel
