import CreatidyKernel.Lib.Delimited
import CreatidyKernel.Runtime.CodexLifecycle

set_option relaxedAutoImplicit false
set_option autoImplicit false

/-!
# Durable handles

A handle joins the ids of a thread and of a turn by a colon, and a later process splits it at the
colons. The ids are any texts of the native server, so a handle is split into the ids it was made
of, and of no others, exactly if no colon stands in them.

## Main definitions

* `Runtime.Starts` — a start accepted the ids and returned the handle.
* `Runtime.Restores` — a fresh adapter binds the handle to the ids.

## Main results

* `Runtime.handle_restorable_iff` — the handles that are restored and not shared.
-/

namespace CreatidyKernel

open Checked Delimited

namespace Codex

/-! ## The ids of a handle -/

/-- An id that is read is not empty. -/
theorem field_ne_empty {value : List (String × Json)} {key id : String}
    (h : field value key = .ok id) : id ≠ "" := by
  unfold field at h
  split at h
  · split at h
    · cases h
    · rename_i hne
      rw [Except.ok.injEq] at h
      rwa [← h]
  · cases h

theorem idIn_ne_empty {answer : Answer (List (String × Json))} {name id : String}
    (h : idIn answer name = .ok id) : id ≠ "" := by
  unfold idIn at h
  obtain ⟨_, -, h⟩ := bind_eq_ok.mp h
  obtain ⟨_, -, h⟩ := bind_eq_ok.mp h
  exact field_ne_empty h

/-- A launch that raises nothing was answered with both ids. -/
theorem launch_ids {inputs : CodexInputs} {answers : StartAnswers} {run : Run}
    (h : (launch inputs answers run).2.2 = .ok ()) :
    ∃ thread turn, thread ≠ "" ∧ turn ≠ "" ∧
      (launch inputs answers run).1.thread = some thread ∧
      (launch inputs answers run).1.turn = some turn := by
  unfold launch at h ⊢
  split at h
  · cases h
  · rename_i thread hthread
    split at h
    · cases h
    · split at h
      · cases h
      · cases h
      · split at h
        · cases h
        · rename_i turn hturn
          exact ⟨thread, turn, idIn_ne_empty hthread, idIn_ne_empty hturn, rfl, rfl⟩

namespace Runtime

/-- The handle of a thread and a turn is split into them exactly if they are not empty and have no
colon. -/
theorem handleParts_eq_some_iff {thread turn : String} :
    handleParts ("codex:" ++ thread ++ ":" ++ turn) = some (thread, turn) ↔
      thread ≠ "" ∧ turn ≠ "" ∧ ':' ∉ thread.toList ∧ ':' ∉ turn.toList := by
  have hlist : ("codex:" ++ thread ++ ":" ++ turn).toList =
      "codex:".toList ++ (thread.toList ++ ':' :: turn.toList) := by
    simp [String.toList_append]
  unfold handleParts
  rw [hlist, if_pos (List.prefix_append _ _), List.drop_left]
  have hempty (s : String) : s ≠ "" ↔ s.toList ≠ [] := by simp
  constructor
  · intro h
    split at h
    · rename_i l r hsplit
      split at h
      · rename_i hne
        simp only [Option.some_inj, Prod.mk.injEq] at h
        obtain ⟨rfl, rfl⟩ := h
        obtain ⟨-, hl, hr⟩ := splitOn_eq_two hsplit
        simp only [hempty, String.toList_ofList]
        exact ⟨hne.1, hne.2, hl, hr⟩
      · cases h
    · cases h
  · rintro ⟨hthread, hturn, hl, hr⟩
    rw [splitOn_two.mpr ⟨hl, hr⟩]
    simp only [String.ofList_toList]
    rw [if_pos ⟨(hempty _).mp hthread, (hempty _).mp hturn⟩]

/-- A handle without further colons is the handle of one pair of ids. -/
theorem handle_inj {thread turn thread' turn' : String} (hthread : ':' ∉ thread.toList)
    (hturn : ':' ∉ turn.toList)
    (h : "codex:" ++ thread' ++ ":" ++ turn' = "codex:" ++ thread ++ ":" ++ turn) :
    thread' = thread ∧ turn' = turn := by
  have hlist := congrArg String.toList h
  simp only [String.toList_append, List.append_assoc, List.append_cancel_left_eq] at hlist
  obtain ⟨hl, hr⟩ := append_mark_inj hthread hturn hlist
  exact ⟨String.toList_inj.mp hl, String.toList_inj.mp hr⟩

/-! ## Starts and restores -/

/-- The key has a run of the thread and the turn. -/
def Binds (s : Runtime) (key : Name) (thread turn : String) : Prop :=
  ∃ run, s.byKey key = some run ∧ run.thread = some thread ∧ run.turn = some turn

/-- A start under a new key accepted the ids and returned the handle. -/
structure Starts (cfg : Config) (s : Runtime) (request : ExecutionRequest) (answers : StartAnswers)
    (thread turn handle : String) : Prop where
  fresh : s.byKey request.operation.effectKey = none
  returned : (start cfg s request answers).1 = .ok handle
  binds : (start cfg s request answers).2.Binds request.operation.effectKey thread turn

/-- A restore by a fresh adapter whose other checks pass binds the handle to the ids. -/
def Restores (request : ExecutionRequest) (thread turn handle : String) : Prop :=
  ∀ cfg receiptIdentity reference answers current,
    checkReceipt cfg request receiptIdentity reference answers = .ok (some current) →
    (restore cfg new request handle receiptIdentity reference answers).2.Binds
        request.operation.effectKey thread turn ∧
      (restore cfg new request handle receiptIdentity reference answers).2.byHandle handle =
        some request.operation.effectKey

/-- What a start under a new key did that returned a handle. -/
theorem Starts.spec {cfg : Config} {s : Runtime} {request : ExecutionRequest}
    {answers : StartAnswers} {thread turn handle : String}
    (h : Starts cfg s request answers thread turn handle) :
    thread ≠ "" ∧ turn ≠ "" ∧ handle = "codex:" ++ thread ++ ":" ++ turn ∧
      ∃ prepared, prepare cfg request answers = .ok prepared := by
  obtain ⟨hfresh, hreturned, run, hrun, hthread, hturn⟩ := h
  unfold start at hreturned hrun
  simp only [hfresh] at hreturned hrun
  cases hprepare : prepare cfg request answers with
  | error e => simp [hprepare] at hreturned
  | ok prepared =>
    obtain ⟨inputs, reference⟩ := prepared
    simp only [hprepare] at hreturned hrun
    cases hlaunch : (launch inputs answers
        { Run.new request reference with uncertain := true }).2.2 with
    | error e => simp [hlaunch] at hreturned
    | ok u =>
      obtain ⟨t, u, ht, hu, hthread', hturn'⟩ := launch_ids hlaunch
      simp only [hlaunch, handle_eq_some hthread' hturn', Except.ok.injEq] at hreturned hrun
      have hown : run.thread = some t ∧ run.turn = some u := by
        have hset : run = { (launch inputs answers
            { Run.new request reference with uncertain := true }).1 with uncertain := false } := by
          simpa [bind, set] using hrun.symm
        rw [hset]
        exact ⟨hthread', hturn'⟩
      rw [hthread, Option.some_inj] at hown
      rw [hturn, Option.some_inj] at hown
      obtain ⟨rfl, rfl⟩ := hown
      exact ⟨ht, hu, hreturned.symm, _, rfl⟩

/-- The checks of a restore that names no group and no identity are among those of the start. -/
theorem checkReceipt_of_prepare {cfg : Config} {request : ExecutionRequest} {answers : StartAnswers}
    {prepared : CodexInputs × Option String} (h : prepare cfg request answers = .ok prepared)
    (read : Answer (List (String × Json))) :
    checkReceipt cfg request none none ⟨answers.resolve, answers.groupReference, read⟩ =
      .ok (some prepared.2) := by
  unfold prepare at h
  obtain ⟨inputs, hinputs, h⟩ := bind_eq_ok.mp h
  obtain ⟨authorized, -, h⟩ := bind_eq_ok.mp h
  obtain ⟨-, h⟩ := check_bind_eq_ok.mp h
  obtain ⟨reference, hreference, h⟩ := bind_eq_ok.mp h
  rw [pure_eq_ok] at h
  subst h
  unfold checkReceipt
  rw [hinputs, ok_bind, check_of (by simp), ok_bind, hreference, ok_bind]
  simp [pure, Except.pure]

/-- What a lookup and a reconciliation do not change. -/
theorem reconcile_binds (s : Runtime) (operation : OperationKey) (handle : Option String)
    (answer : Answer (List (String × Json))) :
    (s.reconcile operation handle answer).2.byKey = s.byKey ∧
      (s.reconcile operation handle answer).2.byHandle = s.byHandle := by
  unfold reconcile lookUp
  repeat' split
  all_goals exact ⟨rfl, rfl⟩

/-- Binding a handle leaves the ids of its run. -/
theorem restoreBound_binds {s : Runtime} {request : ExecutionRequest} {handle thread turn : String}
    {receiptIdentity : Option RuntimeIdentity} {reference : Option String}
    {answer : Answer (List (String × Json))} {key : Name} (hhandle : s.byHandle handle = some key)
    (h : s.Binds key thread turn) :
    (s.restoreBound request handle receiptIdentity reference answer).2.Binds key thread turn ∧
      (s.restoreBound request handle receiptIdentity reference answer).2.byHandle handle =
        some key := by
  obtain ⟨run, hrun, hthread, hturn⟩ := h
  have hrunOf : s.runOf handle = some (key, run) := runOf_eq_some.mpr ⟨hhandle, hrun⟩
  unfold restoreBound
  simp only [hrunOf]
  split
  · exact ⟨⟨run, hrun, hthread, hturn⟩, hhandle⟩
  · obtain ⟨hkeys, hhandles⟩ := reconcile_binds
      (if receiptIdentity = none then s else s.set key { run with receiptIdentity })
      request.operation (some handle) answer
    rw [Binds, hkeys, hhandles]
    split
    · exact ⟨⟨run, hrun, hthread, hturn⟩, hhandle⟩
    · exact ⟨⟨_, set_byKey_self _ _ _, hthread, hturn⟩, hhandle⟩

/-- A fresh adapter binds a handle to the ids it is split into. -/
theorem restores_of_handleParts {request : ExecutionRequest} {handle thread turn : String}
    (h : handleParts handle = some (thread, turn)) : Restores request thread turn handle := by
  intro cfg receiptIdentity reference answers current hcheck
  have hnew : new.byKey request.operation.effectKey = none := rfl
  unfold restore
  simp only [hcheck, h, hnew]
  refine restoreBound_binds ?_ ⟨receiptRun request (thread, turn) receiptIdentity
    (reference.or current), ?_, rfl, rfl⟩
  · simp [bind]
  · simp [bind]

/-- A fresh adapter binds no other ids than those a handle is split into. -/
theorem handleParts_of_binds {cfg : Config} {request : ExecutionRequest}
    {handle thread turn : String} {receiptIdentity : Option RuntimeIdentity}
    {reference : Option String} {answers : RestoreAnswers} {current : Option String}
    (hcheck : checkReceipt cfg request receiptIdentity reference answers = .ok (some current))
    (h : (restore cfg new request handle receiptIdentity reference answers).2.Binds
      request.operation.effectKey thread turn) :
    handleParts handle = some (thread, turn) := by
  cases hparts : handleParts handle with
  | none =>
    obtain ⟨run, hrun, -⟩ := h
    unfold restore at hrun
    simp only [hcheck, hparts] at hrun
    cases hrun
  | some parts =>
    obtain ⟨hbinds, -⟩ := @restores_of_handleParts request _ _ _ hparts cfg receiptIdentity
      reference answers current hcheck
    obtain ⟨run, hrun, hthread, hturn⟩ := h
    obtain ⟨run', hrun', hthread', hturn'⟩ := hbinds
    obtain rfl := Option.some_inj.mp (hrun.symm.trans hrun')
    rw [hthread, Option.some_inj] at hthread'
    rw [hturn, Option.some_inj] at hturn'
    rw [hthread', hturn']

/-- The handle a start returned is restored to the ids it accepted, and shared with no start of
other ids, exactly if no colon stands in them. -/
theorem handle_restorable_iff {cfg : Config} {s : Runtime} {request : ExecutionRequest}
    {answers : StartAnswers} {thread turn handle : String}
    (h : Starts cfg s request answers thread turn handle) :
    (Restores request thread turn handle ∧
        ∀ cfg' s' request' answers' thread' turn',
          Starts cfg' s' request' answers' thread' turn' handle →
            (thread', turn') = (thread, turn)) ↔
      ':' ∉ thread.toList ∧ ':' ∉ turn.toList := by
  obtain ⟨hthread, hturn, hhandle, prepared, hprepare⟩ := h.spec
  constructor
  · rintro ⟨hrestores, -⟩
    have hcheck := checkReceipt_of_prepare hprepare (.error .other)
    obtain ⟨hbinds, -⟩ := hrestores _ _ _ _ _ hcheck
    have hparts := handleParts_of_binds hcheck hbinds
    rw [hhandle] at hparts
    exact (handleParts_eq_some_iff.mp hparts).2.2
  · rintro ⟨hl, hr⟩
    refine ⟨restores_of_handleParts ?_, ?_⟩
    · rw [hhandle]
      exact handleParts_eq_some_iff.mpr ⟨hthread, hturn, hl, hr⟩
    · intro cfg' s' request' answers' thread' turn' h'
      obtain ⟨-, -, hhandle', -⟩ := h'.spec
      obtain ⟨rfl, rfl⟩ := handle_inj hl hr (hhandle'.symm.trans hhandle)
      rfl

end Runtime

/-! ## Ids with colons -/

namespace Sample

/-- The answers to a start of a thread and a turn. -/
def answers (thread turn : String) : StartAnswers where
  resolve := .ok inputs
  authorize := .ok true
  groupReference := .ok none
  threadStart := .ok [("thread", .obj [("id", .str thread)]), ("model", .str "m"),
    ("modelProvider", .str "p")]
  authorizeTurn := .ok true
  turnStart := .ok [("turn", .obj [("id", .str turn)])]

/-- Any ids that are not empty are accepted. -/
theorem starts {thread turn : String} (hthread : thread ≠ "") (hturn : turn ≠ "") :
    Runtime.Starts config Runtime.new request (answers thread turn) thread turn
      ("codex:" ++ thread ++ ":" ++ turn) := by
  have hfresh : Runtime.new.byKey request.operation.effectKey = none := rfl
  have hprepare : Runtime.prepare config request (answers thread turn) = .ok (inputs, none) := by
    have hinputs : config.inputs request (.ok inputs) = .ok inputs := by decide +kernel
    simp only [Runtime.prepare, answers, hinputs, ok_bind]
    rfl
  have hids : idIn (answers thread turn).threadStart "thread" = .ok thread ∧
      idIn (answers thread turn).turnStart "turn" = .ok turn := by
    have hfield {id : String} (hid : id ≠ "") : field [("id", .str id)] "id" = .ok id := by
      have hget : Codec.getField [("id", .str id)] "id" = .str id := rfl
      unfold field
      rw [hget]
      exact if_neg hid
    exact ⟨hfield hthread, hfield hturn⟩
  have hidentity : resolvedIdentity inputs (answers thread turn).threadStart =
      .ok ("m", "p", none) := rfl
  have hlaunch : launch inputs (answers thread turn) { Run.new request none with uncertain := true } =
      ({ Run.new request none with
        uncertain := true, thread := some thread, turn := some turn
        identityModel := some "m", identityProvider := some "p", identityEffort := none },
        [.threadStart, .turnStart], .ok ()) := by
    simp only [launch, hids.1, hids.2, hidentity]
    rfl
  refine ⟨hfresh, ?_, ?_⟩
  · simp only [Runtime.start, hfresh, hprepare, hlaunch]
    rfl
  · simp only [Runtime.start, hfresh, hprepare, hlaunch]
    exact ⟨{ Run.new request none with
      thread := some thread, turn := some turn
      identityModel := some "m", identityProvider := some "p" }, rfl, rfl, rfl⟩

end Sample

/-- The handle of a thread and a turn without colons. -/
theorem Runtime.handle_restorable_sample :
    Runtime.Restores Sample.request "t" "u" "codex:t:u" :=
  ((Runtime.handle_restorable_iff (@Sample.starts "t" "u" (by decide) (by decide))).mpr
    ⟨by decide, by decide⟩).1

/-- Two starts whose ids differ return one handle, which is restored to neither. -/
theorem Runtime.handle_shared :
    Runtime.Starts Sample.config Runtime.new Sample.request (Sample.answers "a:b" "c") "a:b" "c"
        "codex:a:b:c" ∧
      Runtime.Starts Sample.config Runtime.new Sample.request (Sample.answers "a" "b:c") "a" "b:c"
        "codex:a:b:c" ∧
      ¬Runtime.Restores Sample.request "a:b" "c" "codex:a:b:c" ∧
      ¬Runtime.Restores Sample.request "a" "b:c" "codex:a:b:c" := by
  have hstart := @Sample.starts "a:b" "c" (by decide) (by decide)
  have hstart' := @Sample.starts "a" "b:c" (by decide) (by decide)
  obtain ⟨-, -, -, prepared, hprepare⟩ := hstart.spec
  have hcheck := Runtime.checkReceipt_of_prepare hprepare (.error .other)
  have hparts : Runtime.handleParts "codex:a:b:c" = none := by decide +kernel
  have hnot (thread turn : String) : ¬Runtime.Restores Sample.request thread turn "codex:a:b:c" := by
    intro h
    have := Runtime.handleParts_of_binds hcheck (h _ _ _ _ _ hcheck).1
    rw [hparts] at this
    cases this
  exact ⟨hstart, hstart', hnot _ _, hnot _ _⟩

end Codex

end CreatidyKernel
