import CreatidyKernel.Core.Closure
import CreatidyKernel.Lib.Once
import CreatidyKernel.Runtime.Codex

set_option relaxedAutoImplicit false
set_option autoImplicit false

/-!
# The life of a Codex run

A run is recorded before anything is sent for it and never forgotten, so nothing is sent twice.
What an operation writes into a run stays: a failed start stays uncertain, an accepted terminal
status, a returned candidate and a cancellation stay, and the settlement of a cancelled run does.

## Main definitions

* `Run.Evolves` — what no operation takes back.
* `Runtime.Inv` — the invariant of the adapter.
* `Runtime.Steps` — what one call does.
* `Runtime.Accepts`, `Runtime.ReturnsCandidate`, `Runtime.Cancels`, `Runtime.FailsStart` — the
  events of a run.

## Main results

* `Runtime.next_steps` — the step lemma, from one lemma for each operation.
* `Runtime.lifecycle` — the guarantees over every run of calls.
-/

namespace CreatidyKernel

open Checked Runs

namespace Codex

/-! ## What stays in a run -/

/-- What no operation takes back. -/
structure Run.Evolves (r r' : Run) : Prop where
  request : r'.request = r.request
  thread : r'.thread = r.thread
  turn : r'.turn = r.turn
  uncertain : r'.uncertain = r.uncertain
  cancelled : r.cancelled = true → r'.cancelled = true
  settled : r.cancelled = true → r'.ownedGroupSettled = r.ownedGroupSettled
  status : ∀ st, r.terminalStatus = some st → r'.terminalStatus = some st
  candidate : ∀ c, r.candidate = some c → r'.candidate = some c

namespace Run.Evolves

theorem refl (r : Run) : r.Evolves r :=
  ⟨rfl, rfl, rfl, rfl, fun h => h, fun _ => rfl, fun _ h => h, fun _ h => h⟩

theorem trans {r r' r'' : Run} (h : r.Evolves r') (h' : r'.Evolves r'') : r.Evolves r'' where
  request := h'.request.trans h.request
  thread := h'.thread.trans h.thread
  turn := h'.turn.trans h.turn
  uncertain := h'.uncertain.trans h.uncertain
  cancelled := fun hc => h'.cancelled (h.cancelled hc)
  settled := fun hc => (h'.settled (h.cancelled hc)).trans (h.settled hc)
  status := fun st hst => h'.status st (h.status st hst)
  candidate := fun c hc => h'.candidate c (h.candidate c hc)

end Run.Evolves

/-- A run's terminal status is one, and the run is marked. -/
def Run.Marked (r : Run) : Prop :=
  ∀ st, r.terminalStatus = some st → st ∈ terminalStatuses ∧ r.terminal = true

theorem handle_eq_some {r : Run} {thread turn : String} (ht : r.thread = some thread)
    (hu : r.turn = some turn) : r.handle = some ("codex:" ++ thread ++ ":" ++ turn) := by
  rw [Run.handle, ht, hu]

namespace Runtime

/-! ## The invariant and the step -/

/-- The dictionaries agree, every message was sent for a recorded run, and no message twice. -/
structure Inv (s : Runtime) : Prop where
  bound : ∀ handle key, s.byHandle handle = some key →
    ∃ run, s.byKey key = some run ∧ run.uncertain = false ∧ run.thread ≠ none ∧ run.turn ≠ none
  marked : ∀ key run, s.byKey key = some run → run.Marked
  once : Once (fun p : Name × Method => s.byKey p.1 ≠ none) s.sent

/-- What a call does: it keeps the invariant, runs only evolve, and a settlement is new only for
the keys of `settles`. -/
structure Steps (settles : Name → Prop) (s s' : Runtime) : Prop where
  inv : Inv s'
  evolves : ∀ key run, s.byKey key = some run → ∃ run', s'.byKey key = some run' ∧ run.Evolves run'
  settled : ∀ key run', s'.byKey key = some run' → run'.ownedGroupSettled = some true →
    settles key ∨ ∃ run, s.byKey key = some run ∧ run.ownedGroupSettled = some true

theorem Steps.refl {settles : Name → Prop} {s : Runtime} (hs : Inv s) : Steps settles s s :=
  ⟨hs, fun _ run h => ⟨run, h, .refl run⟩, fun _ run h hset => .inr ⟨run, h, hset⟩⟩

theorem Steps.trans {settles : Name → Prop} {s s' s'' : Runtime} (h : Steps settles s s')
    (h' : Steps settles s' s'') : Steps settles s s'' := by
  refine ⟨h'.inv, fun key run hrun => ?_, fun key run'' hrun'' hset => ?_⟩
  · obtain ⟨run', hrun', he⟩ := h.evolves key run hrun
    obtain ⟨run'', hrun'', he'⟩ := h'.evolves key run' hrun'
    exact ⟨run'', hrun'', he.trans he'⟩
  · rcases h'.settled key run'' hrun'' hset with hset | ⟨run', hrun', hset'⟩
    · exact .inl hset
    · exact h.settled key run' hrun' hset'

@[simp] theorem set_byKey_self (s : Runtime) (key : Name) (run : Run) :
    (s.set key run).byKey key = some run := by simp [set]

theorem set_byKey_of_ne (s : Runtime) {key key' : Name} (h : key' ≠ key) (run : Run) :
    (s.set key run).byKey key' = s.byKey key' := by simp [set, h]

@[simp] theorem set_byHandle (s : Runtime) (key : Name) (run : Run) :
    (s.set key run).byHandle = s.byHandle := rfl

@[simp] theorem set_sent (s : Runtime) (key : Name) (run : Run) : (s.set key run).sent = s.sent := rfl

@[simp] theorem set_reads (s : Runtime) (key : Name) (run : Run) :
    (s.set key run).reads = s.reads := rfl

@[simp] theorem noteRead_byKey (s : Runtime) (key : Name) (status : Option String) :
    (s.noteRead key status).byKey = s.byKey := rfl

/-- A run that is known is the one its handle is bound to. -/
theorem runOf_eq_some {s : Runtime} {handle : String} {key : Name} {run : Run} :
    s.runOf handle = some (key, run) ↔ s.byHandle handle = some key ∧ s.byKey key = some run := by
  rw [runOf]
  cases hb : s.byHandle handle with
  | none => simp
  | some key' =>
    simp only [Option.map_eq_some_iff, Prod.mk.injEq, Option.some.injEq]
    constructor
    · rintro ⟨run', hrun, rfl, rfl⟩
      exact ⟨rfl, hrun⟩
    · rintro ⟨rfl, hrun⟩
      exact ⟨run, hrun, rfl, rfl⟩

/-- Noting what was read changes no run. -/
theorem Steps.noteRead {settles : Name → Prop} {s s' : Runtime} (h : Steps settles s s')
    (key : Name) (status : Option String) : Steps settles s (s'.noteRead key status) :=
  ⟨⟨h.inv.bound, h.inv.marked, h.inv.once⟩, h.evolves, h.settled⟩

/-- A known run is replaced by an evolved one. -/
theorem Steps.set {settles : Name → Prop} {s : Runtime} (hs : Inv s) {key : Name} {run run' : Run}
    (hrun : s.byKey key = some run) (he : run.Evolves run') (hm : run'.Marked)
    (hset : run'.ownedGroupSettled = some true →
      settles key ∨ run.ownedGroupSettled = some true) :
    Steps settles s (s.set key run') := by
  have hpresent : ∀ k, s.byKey k ≠ none → (s.set key run').byKey k ≠ none := by
    intro k hk
    by_cases hkey : k = key
    · simp [hkey]
    · rwa [set_byKey_of_ne s hkey]
  refine ⟨⟨fun handle k hb => ?_, fun k r hr => ?_, hs.once.mono fun p hp => hpresent p.1 hp⟩,
    fun k r hr => ?_, fun k r hr hsettled => ?_⟩
  · obtain ⟨r, hr, hu, ht, htu⟩ := hs.bound handle k hb
    by_cases hkey : k = key
    · subst hkey
      obtain rfl := Option.some.inj (hr.symm.trans hrun)
      exact ⟨run', by simp, he.uncertain.trans hu, he.thread ▸ ht, he.turn ▸ htu⟩
    · exact ⟨r, (set_byKey_of_ne s hkey run').trans hr, hu, ht, htu⟩
  · by_cases hkey : k = key
    · subst hkey
      obtain rfl := Option.some.inj ((set_byKey_self s k run').symm.trans hr)
      exact hm
    · exact hs.marked k r ((set_byKey_of_ne s hkey run').symm.trans hr)
  · by_cases hkey : k = key
    · subst hkey
      obtain rfl := Option.some.inj (hr.symm.trans hrun)
      exact ⟨run', by simp, he⟩
    · exact ⟨r, (set_byKey_of_ne s hkey run').trans hr, .refl r⟩
  · by_cases hkey : k = key
    · subst hkey
      obtain rfl := Option.some.inj ((set_byKey_self s k run').symm.trans hr)
      exact (hset hsettled).imp_right fun h => ⟨run, hrun, h⟩
    · exact .inr ⟨r, (set_byKey_of_ne s hkey run').symm.trans hr, hsettled⟩

/-- A run is recorded under a new key, and messages were sent for it. -/
theorem Steps.record {settles : Name → Prop} {s : Runtime} (hs : Inv s) {key : Name} {run : Run}
    (hnew : s.byKey key = none) (hm : run.terminalStatus = none) (hset : run.ownedGroupSettled = none)
    {methods : List Method} (hn : methods.Nodup) :
    Steps settles s
      (Runtime.set { s with sent := s.sent ++ methods.map fun method => (key, method) } key run) := by
  have hkeep : ∀ k r, s.byKey k = some r → k ≠ key := by
    rintro k r hr rfl
    rw [hnew] at hr
    cases hr
  refine ⟨⟨fun handle k hb => ?_, fun k r hr => ?_, ?_⟩, fun k r hr => ?_, fun k r hr hsettled => ?_⟩
  · obtain ⟨r, hr, h⟩ := hs.bound handle k hb
    exact ⟨r, (set_byKey_of_ne _ (hkeep k r hr) run).trans hr, h⟩
  · by_cases hkey : k = key
    · subst hkey
      obtain rfl := Option.some.inj ((set_byKey_self _ k run).symm.trans hr)
      intro st hst
      rw [hm] at hst
      cases hst
    · exact hs.marked k r ((set_byKey_of_ne _ hkey run).symm.trans hr)
  · apply hs.once.append
    · intro p hp
      obtain ⟨r, hr⟩ := Option.ne_none_iff_exists'.1 hp
      rw [set_byKey_of_ne _ (hkeep p.1 r hr)]
      exact hp
    · exact hn.map fun _ _ h => (Prod.mk.inj h).2
    · intro p hp
      obtain ⟨method, -, rfl⟩ := List.mem_map.1 hp
      exact fun h => h hnew
    · intro p hp
      obtain ⟨method, -, rfl⟩ := List.mem_map.1 hp
      simp
  · exact ⟨r, (set_byKey_of_ne _ (hkeep k r hr) run).trans hr, .refl r⟩
  · by_cases hkey : k = key
    · subst hkey
      obtain rfl := Option.some.inj ((set_byKey_self _ k run).symm.trans hr)
      rw [hset] at hsettled
      cases hsettled
    · exact .inr ⟨r, (set_byKey_of_ne _ hkey run).symm.trans hr, hsettled⟩

/-- A handle is bound to a certain run with a thread and a turn. -/
theorem Steps.bind {settles : Name → Prop} {s s' : Runtime} (h : Steps settles s s')
    {handle : String} {key : Name} {run : Run} (hrun : s'.byKey key = some run)
    (hu : run.uncertain = false) (ht : run.thread ≠ none) (htu : run.turn ≠ none) :
    Steps settles s (s'.bind handle key) := by
  refine ⟨⟨fun handle' k hb => ?_, h.inv.marked, h.inv.once⟩, h.evolves, h.settled⟩
  by_cases hh : handle' = handle
  · subst hh
    obtain rfl : key = k := by simpa [Runtime.bind] using hb
    exact ⟨run, hrun, hu, ht, htu⟩
  · exact h.inv.bound handle' k (by simpa [Runtime.bind, hh] using hb)

/-! ## The operations -/

variable {settles : Name → Prop} {s : Runtime}

theorem lookUp_steps (hs : Inv s) (key : Name) (run : Run) (handle : String)
    (answer : Answer (List (String × Json))) : Steps settles s (s.lookUp key run handle answer).2 := by
  rw [lookUp]
  cases run.read answer with
  | error e => exact .refl hs
  | ok status => exact (Steps.refl hs).noteRead key status

theorem reconcile_steps (hs : Inv s) (operation : OperationKey) (handle : Option String)
    (answer : Answer (List (String × Json))) :
    Steps settles s (s.reconcile operation handle answer).2 := by
  rw [reconcile]
  split
  · exact .refl hs
  · split
    · exact .refl hs
    · split
      · split
        · exact .refl hs
        · exact lookUp_steps hs _ _ _ _
      · exact .refl hs

theorem restoreBound_steps (hs : Inv s) (request : ExecutionRequest) (handle : String)
    (receiptIdentity : Option RuntimeIdentity) (reference : Option String)
    (answer : Answer (List (String × Json))) :
    Steps settles s (s.restoreBound request handle receiptIdentity reference answer).2 := by
  rw [restoreBound]
  cases hrun : s.runOf handle with
  | none => exact .refl hs
  | some bound =>
    obtain ⟨key, run⟩ := bound
    obtain ⟨-, hkey⟩ := runOf_eq_some.1 hrun
    simp only
    split
    · exact .refl hs
    · split
      · exact reconcile_steps hs _ _ _
      · have hset : Steps settles s (s.set key { run with receiptIdentity }) :=
          .set hs hkey ⟨rfl, rfl, rfl, rfl, fun h => h, fun _ => rfl, fun _ h => h, fun _ h => h⟩
            (hs.marked key run hkey) fun h => .inr h
        exact hset.trans (reconcile_steps hset.inv _ _ _)

theorem restore_steps (cfg : Config) (hs : Inv s) (request : ExecutionRequest) (handle : String)
    (receiptIdentity : Option RuntimeIdentity) (reference : Option String)
    (answers : RestoreAnswers) :
    Steps settles s (restore cfg s request handle receiptIdentity reference answers).2 := by
  rw [restore]
  split
  · exact .refl hs
  · exact .refl hs
  · rename_i current _
    split
    · exact .refl hs
    · rename_i parts _
      cases hkey : s.byKey request.operation.effectKey with
      | some existing =>
        simp only [hkey]
        split
        · exact .refl hs
        · exact restoreBound_steps hs _ _ _ _ _
      | none =>
        simp only [hkey]
        have hset : Steps settles s (s.set request.operation.effectKey
            (receiptRun request parts receiptIdentity (reference.or current))) := by
          have h := @Steps.record settles s hs _ (receiptRun request parts receiptIdentity
            (reference.or current)) hkey rfl rfl [] List.nodup_nil
          simpa using h
        have hbind := @Steps.bind settles s _ hset handle _ _ (set_byKey_self _ _ _) rfl
          (by simp [receiptRun]) (by simp [receiptRun])
        exact hbind.trans (restoreBound_steps hbind.inv _ _ _ _ _)

theorem observe_steps (cfg : Config) (hs : Inv s) (handle : String) (now : ℤ)
    (answer : Answer (List (String × Json))) (clock : Answer ℤ) :
    Steps settles s (observe cfg s handle now answer clock).2 := by
  rw [observe]
  cases hrun : s.runOf handle with
  | none => exact .refl hs
  | some bound =>
    obtain ⟨key, run⟩ := bound
    obtain ⟨-, hkey⟩ := runOf_eq_some.1 hrun
    have hnote : ∀ state, Steps settles s (s.noteRead key state) :=
      fun state => (Steps.refl hs).noteRead key state
    simp only
    split
    · exact .refl hs
    · split
      · exact .refl hs
      · rename_i state _
        split
        · exact hnote state
        · split
          · exact hnote none
          · rename_i status _
            split
            · next hterminal =>
              split
              · exact hnote (some status)
              · next hknown =>
                have he : run.Evolves { run with terminal := true, terminalStatus := some status } := by
                  refine ⟨rfl, rfl, rfl, rfl, fun h => h, fun _ => rfl, fun st hst => ?_, fun _ h => h⟩
                  -- a known status is the one that was read
                  by_contra hne
                  exact hknown ⟨st, hst, fun h => hne (congrArg some h.symm)⟩
                refine (hnote (some status)).trans (.set (hnote (some status)).inv hkey he ?_
                  fun h => .inr h)
                intro st hst
                obtain rfl := Option.some.inj hst
                exact ⟨hterminal, rfl⟩
            · split
              · exact hnote (some status)
              · exact hnote (some status)

theorem cancel_steps (cfg : Config) (hs : Inv s) (handle : String) (answers : CancelAnswers)
    (hsettles : ∀ key run, s.runOf handle = some (key, run) → run.cancelled = false →
      settle cfg { run with cancelled := true } answers = .ok (some true) →
        settles key ∨ run.ownedGroupSettled = some true) :
    Steps settles s (cancel cfg s handle answers).2 := by
  rw [cancel]
  cases hrun : s.runOf handle with
  | none => exact .refl hs
  | some bound =>
    obtain ⟨key, run⟩ := bound
    obtain ⟨-, hkey⟩ := runOf_eq_some.1 hrun
    simp only
    split
    · exact .refl hs
    · split
      · exact .refl hs
      · next hcancelled =>
        have hfalse : run.cancelled = false := by simpa using hcancelled
        split
        · exact .set hs hkey ⟨rfl, rfl, rfl, rfl, fun _ => rfl, fun _ => rfl, fun _ h => h,
            fun _ h => h⟩ (hs.marked key run hkey) fun h => .inr h
        · next settlement hsettle =>
          refine .set hs hkey ⟨rfl, rfl, rfl, rfl, fun _ => rfl, fun h => absurd h hcancelled,
            fun _ h => h, fun _ h => h⟩ (hs.marked key run hkey) fun h => ?_
          obtain rfl : settlement = some true := h
          exact hsettles key run hrun hfalse hsettle

variable [Sha256]

theorem collect_steps {key : Name} {run : Run} (run' : Run) (hs : Inv s) (hkey : s.byKey key = some run)
    (he : run.Evolves run') (hm : run'.Marked)
    (hset : run'.ownedGroupSettled = run.ownedGroupSettled) (answer : Answer (Option Candidate)) :
    Steps settles s (s.collect key run' answer).2 := by
  have hrun : Steps settles s (s.set key run') :=
    .set hs hkey he hm fun h => .inr (hset ▸ h)
  cases answer with
  | error e => exact hrun
  | ok candidate =>
    simp only [collect]
    cases hcheck : checkCandidate run' candidate with
    | error e => exact hrun
    | ok u =>
      simp only
      split
      · exact hrun
      · obtain ⟨-, h⟩ := check_bind_eq_ok.1 hcheck
        have hsame := check_eq_ok.1 h
        refine hrun.trans (.set hrun.inv (set_byKey_self _ _ _)
          ⟨rfl, rfl, rfl, rfl, fun h => h, fun _ => rfl, fun _ h => h, fun c hc => ?_⟩ hm
          fun h => .inr h)
        rcases hsame with hnone | hsame
        · rw [hnone] at hc
          cases hc
        · exact hsame.trans hc

theorem candidate_steps (hs : Inv s) (handle : String) (answer : Answer (List (String × Json)))
    (collected : Answer (Option Candidate)) :
    Steps settles s (s.candidate handle answer collected).2 := by
  rw [Runtime.candidate]
  cases hrun : s.runOf handle with
  | none => exact .refl hs
  | some bound =>
    obtain ⟨key, run⟩ := bound
    obtain ⟨-, hkey⟩ := runOf_eq_some.1 hrun
    have hnote : ∀ state, Steps settles s (s.noteRead key state) :=
      fun state => (Steps.refl hs).noteRead key state
    simp only
    split
    · exact .refl hs
    · split
      · exact .refl hs
      · next hstatus =>
        split
        · exact .refl hs
        · rename_i state _
          split
          · exact hnote state
          · split
            · split
              · exact hnote state
              · exact hnote state
            · refine (hnote state).trans ?_
              refine collect_steps _ (hnote state).inv hkey ?_ ?_ ?_ collected
              · refine ⟨rfl, rfl, rfl, rfl, fun h => h, fun _ => rfl, fun st hst => ?_, fun _ h => h⟩
                -- neither failed nor interrupted is left
                have hmem := (hs.marked key run hkey st hst).1
                simp only [terminalStatuses, List.mem_cons, List.not_mem_nil, or_false] at hmem
                rcases hmem with rfl | rfl | rfl
                · rfl
                · exact absurd (.inl hst) hstatus
                · exact absurd (.inr hst) hstatus
              · intro st hst
                obtain rfl := Option.some.inj hst
                exact ⟨by decide, rfl⟩
              · rfl

omit [Sha256] in
/-- What `launch` does to a run: it learns the ids and the identity, and when nothing is raised
both ids are known. -/
theorem launch_spec (inputs : CodexInputs) (answers : StartAnswers) (run : Run) :
    (launch inputs answers run).2.1.Nodup ∧
      (launch inputs answers run).1.uncertain = run.uncertain ∧
      (launch inputs answers run).1.terminalStatus = run.terminalStatus ∧
      (launch inputs answers run).1.ownedGroupSettled = run.ownedGroupSettled ∧
      ((launch inputs answers run).2.2 = .ok () →
        (launch inputs answers run).1.thread ≠ none ∧ (launch inputs answers run).1.turn ≠ none) := by
  have hone : [Method.threadStart].Nodup := List.nodup_singleton _
  have htwo : [Method.threadStart, Method.turnStart].Nodup := by decide
  rw [launch]
  split
  · exact ⟨hone, rfl, rfl, rfl, nofun⟩
  · split
    · exact ⟨hone, rfl, rfl, rfl, nofun⟩
    · split
      · exact ⟨hone, rfl, rfl, rfl, nofun⟩
      · exact ⟨hone, rfl, rfl, rfl, nofun⟩
      · split
        · exact ⟨htwo, rfl, rfl, rfl, nofun⟩
        · exact ⟨htwo, rfl, rfl, rfl, fun _ => ⟨by simp, by simp⟩⟩

omit [Sha256] in
/-- A start under a new key that passes its checks. -/
theorem start_new {cfg : Config} {request : ExecutionRequest} {answers : StartAnswers}
    (hs : Inv s) (hnew : s.byKey request.operation.effectKey = none)
    {prepared : CodexInputs × Option String} (hprepare : prepare cfg request answers = .ok prepared) :
    Steps settles s (start cfg s request answers).2 ∧
      ((∃ e, (start cfg s request answers).1 = .error e) →
        ∃ run, (start cfg s request answers).2.byKey request.operation.effectKey = some run ∧
          run.uncertain = true) := by
  obtain ⟨inputs, reference⟩ := prepared
  obtain ⟨hn, hu, hstatus, hsettled, hids⟩ :=
    launch_spec inputs answers { Run.new request reference with uncertain := true }
  simp only [start, hnew, hprepare]
  cases hr : (launch inputs answers { Run.new request reference with uncertain := true }).2.2 with
  | error e =>
    refine ⟨.record hs hnew hstatus hsettled hn, fun _ => ⟨_, set_byKey_self _ _ _, hu⟩⟩
  | ok u =>
    obtain ⟨thread, ht⟩ := Option.ne_none_iff_exists'.1 (hids hr).1
    obtain ⟨turn, htu⟩ := Option.ne_none_iff_exists'.1 (hids hr).2
    simp only [handle_eq_some ht htu]
    refine ⟨?_, fun he => by simp at he⟩
    have hrecord := @Steps.record settles s hs _
      { (launch inputs answers { Run.new request reference with uncertain := true }).1 with
        uncertain := false } hnew hstatus hsettled _ hn
    exact hrecord.bind (set_byKey_self _ _ _) rfl (hids hr).1 (hids hr).2

omit [Sha256] in
theorem start_steps (cfg : Config) (hs : Inv s) (request : ExecutionRequest)
    (answers : StartAnswers) : Steps settles s (start cfg s request answers).2 := by
  cases hkey : s.byKey request.operation.effectKey with
  | some previous =>
    simp only [start, hkey]
    split
    · exact .refl hs
    · split
      · exact .refl hs
      · exact .refl hs
  | none =>
    cases hprepare : prepare cfg request answers with
    | error e =>
      simp only [start, hkey, hprepare]
      exact .refl hs
    | ok prepared => exact (start_new hs hkey hprepare).1

/-! ## Events -/

/-- The call is the first cancellation of the run, and retired its process with a proof. -/
def Settles (cfg : Config) (key : Name) (s : Runtime) (c : Call) : Prop :=
  ∃ handle answers run, c = .cancel handle answers ∧ s.runOf handle = some (key, run) ∧
    run.cancelled = false ∧ cfg.retires = true ∧ answers.retire = .ok () ∧
    answers.settled = .ok (some true)

/-- The call is a cancellation of the run. -/
def Cancels (key : Name) (s : Runtime) (c : Call) : Prop :=
  ∃ handle answers, c = .cancel handle answers ∧ s.byHandle handle = some key

/-- The call is a start under a new key that passes its checks and then fails. -/
def FailsStart (cfg : Config) (key : Name) (s : Runtime) (c : Call) : Prop :=
  ∃ request answers prepared e, c = .start request answers ∧ request.operation.effectKey = key ∧
    s.byKey key = none ∧ prepare cfg request answers = .ok prepared ∧
    (start cfg s request answers).1 = .error e

/-- The call returns an observation of the run. -/
def Observes (cfg : Config) (key : Name) (o : RuntimeObservation) (s : Runtime) (c : Call) : Prop :=
  ∃ handle, s.byHandle handle = some key ∧
    ((∃ now answer clock, c = .observe handle now answer clock) ∨
      ∃ answers, c = .cancel handle answers) ∧
    (serve cfg s c).1 = .observation o

/-- The call returns a candidate of the run. -/
def ReturnsCandidate (cfg : Config) (key : Name) (x : Candidate) (s : Runtime) (c : Call) : Prop :=
  ∃ handle answer collected, c = .candidate handle answer collected ∧
    s.byHandle handle = some key ∧ (serve cfg s c).1 = .candidate (some x)

/-- The call reads a status of the run. -/
def Reads (cfg : Config) (key : Name) (status : String) (s : Runtime) (c : Call) : Prop :=
  (next cfg s c).reads = s.reads ++ [(key, status)]

/-- The call accepts a terminal status of the run: `observe` read it and returned, or `candidate`
read that the run is completed. -/
def Accepts (cfg : Config) (key : Name) (status : String) (s : Runtime) (c : Call) : Prop :=
  status ∈ terminalStatuses ∧ Reads cfg key status s c ∧
    ((∃ handle now answer clock o, c = .observe handle now answer clock ∧
        (serve cfg s c).1 = .observation o) ∨
      ((∃ handle answer collected, c = .candidate handle answer collected) ∧ status = "completed"))

omit [Sha256] in
theorem settle_eq_some_true {cfg : Config} {run : Run} {answers : CancelAnswers}
    (h : settle cfg run answers = .ok (some true)) :
    (cfg.retires = true ∧ answers.retire = .ok () ∧ answers.settled = .ok (some true)) ∨
      run.ownedGroupSettled = some true := by
  obtain ⟨_, -, h⟩ := bind_eq_ok.1 h
  split at h
  · next hretires =>
    obtain ⟨_, hretire, h⟩ := bind_eq_ok.1 h
    exact .inl ⟨hretires, hretire, h⟩
  · exact .inr (pure_eq_ok.1 h)

/-- Every call is a step. -/
theorem next_steps (cfg : Config) (hs : Inv s) (c : Call) :
    Steps (fun key => Settles cfg key s c) s (next cfg s c) := by
  cases c with
  | start request answers => exact start_steps cfg hs request answers
  | restore request handle receiptIdentity reference answers =>
    exact restore_steps cfg hs request handle receiptIdentity reference answers
  | observe handle now answer clock => exact observe_steps cfg hs handle now answer clock
  | candidate handle answer collected => exact candidate_steps hs handle answer collected
  | cancel handle answers =>
    apply cancel_steps cfg hs handle answers
    intro key run hrun hcancelled hsettle
    rcases settle_eq_some_true hsettle with ⟨hretires, hretire, hsettled⟩ | hold
    · exact .inl ⟨handle, answers, run, rfl, hrun, hcancelled, hretires, hretire, hsettled⟩
    · exact .inr hold
  | reconcile operation handle answer => exact reconcile_steps hs operation handle answer

omit [Sha256] in
theorem new_inv : Inv new := by
  refine ⟨fun handle key h => ?_, fun key run h => ?_, Once.nil _⟩
  · cases h
  · cases h

theorem run_inv (cfg : Config) (calls : List Call) : Inv (run (next cfg) new calls) :=
  @run_invariant _ _ (next cfg) Inv (fun _ c hs => (next_steps cfg hs c).inv) new new_inv calls

theorem run_evolves (cfg : Config) (hs : Inv s) (calls : List Call) {key : Name} {r : Run}
    (h : s.byKey key = some r) :
    ∃ r', (run (next cfg) s calls).byKey key = some r' ∧ r.Evolves r' := by
  have hsteps : Steps (fun _ => True) s (run (next cfg) s calls) := by
    refine @run_relation _ _ (next cfg) Inv (fun s s' => Inv s → Steps (fun _ => True) s s')
      (fun s hs => .refl hs) (fun s t u hst htu hs => (hst hs).trans (htu (hst hs).inv))
      (fun s c hs => (next_steps cfg hs c).inv) (fun s c hs _ => ?_) s hs calls hs
    obtain ⟨hinv, hevolves, -⟩ := next_steps cfg hs c
    exact ⟨hinv, hevolves, fun _ _ _ _ => .inl trivial⟩
  exact hsteps.evolves key r h

/-- What an event writes into a run, and no operation takes back, is there at the end. -/
theorem of_occurs {cfg : Config} {E : Runtime → Call → Prop} {P : Run → Prop} {key : Name}
    (hstable : ∀ r r' : Run, P r → r.Evolves r' → P r')
    (hE : ∀ s c, Inv s → E s c → ∃ r, (next cfg s c).byKey key = some r ∧ P r)
    {calls : List Call} (h : Occurs (next cfg) E new calls) :
    ∃ r, (run (next cfg) new calls).byKey key = some r ∧ P r := by
  obtain ⟨before, c, after, rfl, hc⟩ := h
  have hbefore := run_inv cfg before
  obtain ⟨r, hr, hP⟩ := hE _ c hbefore hc
  obtain ⟨r', hr', he⟩ := run_evolves cfg (next_steps cfg hbefore c).inv after hr
  rw [run_append, run_cons]
  exact ⟨r', hr', hstable r r' hP he⟩

/-- A run known to be settled was settled by its first cancellation. -/
theorem settled_occurs (cfg : Config) (calls : List Call) :
    ∀ key r, (run (next cfg) new calls).byKey key = some r → r.ownedGroupSettled = some true →
      Occurs (next cfg) (Settles cfg key) new calls := by
  refine @run_induction _ _ (next cfg) (fun calls s => ∀ key r, s.byKey key = some r →
    r.ownedGroupSettled = some true → Occurs (next cfg) (Settles cfg key) new calls) new ?_ ?_ calls
  · intro key r hr
    cases hr
  intro calls c ih key r hr hset
  rw [occurs_concat]
  rcases (next_steps cfg (run_inv cfg calls) c).settled key r hr hset with h | ⟨r', hr', hset'⟩
  · exact .inr h
  · exact .inl (ih key r' hr' hset')

/-! ## What an event leaves, and what follows from it -/

omit [Sha256] in
theorem reply_eq {α : Type} {f : α → Reply} {r : Except Error α × Runtime} {a : α}
    (h : r.1 = .ok a) : (reply f r).1 = f a := by
  simp only [reply, h]

theorem FailsStart.uncertain {cfg : Config} {key : Name} {c : Call} (hs : Inv s)
    (h : FailsStart cfg key s c) : ∃ r, (next cfg s c).byKey key = some r ∧ r.uncertain = true := by
  obtain ⟨request, answers, prepared, e, rfl, rfl, hnew, hprepare, he⟩ := h
  exact (@start_new (fun _ => True) s _ _ _ hs hnew prepared hprepare).2 ⟨e, he⟩

/-- The start of an uncertain run is refused, and nothing is sent. -/
theorem start_of_uncertain (cfg : Config) {request : ExecutionRequest} {answers : StartAnswers}
    {r : Run} (hr : s.byKey request.operation.effectKey = some r) (hu : r.uncertain = true) :
    ∃ e, serve cfg s (.start request answers) = (.raised e, s) := by
  simp only [serve, start, hr]
  by_cases hreq : r.request ≠ request
  · rw [if_pos hreq]
    exact ⟨_, rfl⟩
  · rw [if_neg hreq, hu]
    cases r.handle with
    | none => exact ⟨_, rfl⟩
    | some handle => exact ⟨_, rfl⟩

omit [Sha256] in
/-- An observation that was returned is the one that was built. -/
theorem init_eq_ok {o o' : RuntimeObservation} (h : o.init = .ok o') : o' = o := by
  obtain ⟨-, h⟩ := check_bind_eq_ok.1 h
  obtain ⟨-, h⟩ := check_bind_eq_ok.1 h
  exact (pure_eq_ok.1 h).symm

omit [Sha256] in
/-- The report of a cancelled run is never that it runs, and that it ended only when settled. -/
theorem observeCancelled_spec {cfg : Config} {r : Run} {handle : String} {now : ℤ}
    {clock : Answer ℤ} {o : RuntimeObservation}
    (h : observeCancelled cfg r handle now clock = .ok o) :
    o.activity ≠ .running ∧
      (o.activity = .terminal → o.ownedGroupSettled = some true ∧ r.ownedGroupSettled = some true) := by
  obtain ⟨t, -, h⟩ := bind_eq_ok.1 h
  obtain rfl := init_eq_ok h
  by_cases hset : r.ownedGroupSettled = some true
  · simp [hset]
  · simp [hset]

omit [Sha256] in
theorem observeRun_activity {cfg : Config} {r : Run} {handle : String} {activity : Activity}
    {fresh : Bool} {observedAt : ℤ} {o : RuntimeObservation}
    (h : observeRun cfg r handle activity fresh observedAt = .ok o) : o.activity = activity := by
  obtain rfl := init_eq_ok h
  rfl

omit [Sha256] in
theorem ne_append_singleton {α : Type} (l : List α) (a : α) : l ≠ l ++ [a] := by
  intro h
  have := congrArg List.length h
  simp at this

omit [Sha256] in
/-- Only a status that was read is in the record of reads. -/
theorem noteRead_reads {key key' : Name} {state : Option String} {status : String}
    (h : (s.noteRead key state).reads = s.reads ++ [(key', status)]) :
    key = key' ∧ state = some status := by
  have h := List.append_cancel_left h
  cases state with
  | none => cases h
  | some st =>
    obtain ⟨rfl, rfl⟩ : key = key' ∧ st = status := by simpa using h
    exact ⟨rfl, rfl⟩

omit [Sha256] in
/-- The outcomes of `observe`: the report of a cancelled run, a failure, a report that is not about
a terminal status, and a report that accepts one. -/
theorem observe_cases (cfg : Config) (handle : String) (now : ℤ)
    (answer : Answer (List (String × Json))) (clock : Answer ℤ) {key : Name} {r : Run}
    (hrun : s.runOf handle = some (key, r)) :
    (r.cancelled = true ∧
        observe cfg s handle now answer clock = (observeCancelled cfg r handle now clock, s)) ∨
      r.cancelled = false ∧
        ((∃ e s', observe cfg s handle now answer clock = (.error e, s')) ∨
          (∃ state activity fresh t, (r.terminal = true → activity ≠ .running) ∧
            (∀ st ∈ state, st ∉ terminalStatuses) ∧
            observe cfg s handle now answer clock =
              (observeRun cfg r handle activity fresh t, s.noteRead key state)) ∨
          ∃ st t, st ∈ terminalStatuses ∧ observe cfg s handle now answer clock =
            (observeRun cfg r handle .terminal true t, (s.noteRead key (some st)).set key
              { r with terminal := true, terminalStatus := some st })) := by
  simp only [observe, hrun]
  by_cases hcancelled : r.cancelled = true
  · exact .inl ⟨hcancelled, if_pos hcancelled⟩
  refine .inr ⟨by simpa using hcancelled, ?_⟩
  simp only [if_neg hcancelled]
  cases r.read answer with
  | error e => exact .inl ⟨e, s, rfl⟩
  | ok state =>
    cases cfg.time now clock with
    | error e => exact .inl ⟨e, _, rfl⟩
    | ok t =>
      cases state with
      | none =>
        refine .inr (.inl ⟨none, _, _, t, fun hterminal => ?_, by simp, rfl⟩)
        rw [if_pos hterminal]
        exact nofun
      | some st =>
        simp only
        by_cases hst : st ∈ terminalStatuses
        · rw [if_pos hst]
          by_cases hknown : ∃ known ∈ r.terminalStatus, known ≠ st
          · rw [if_pos hknown]
            exact .inl ⟨_, _, rfl⟩
          · rw [if_neg hknown]
            exact .inr (.inr ⟨st, t, hst, rfl⟩)
        · rw [if_neg hst]
          have hother : ∀ st' ∈ some st, st' ∉ terminalStatuses := by simpa using hst
          by_cases hprogress : st = "inProgress"
          · rw [if_pos hprogress]
            refine .inr (.inl ⟨some st, _, _, t, fun hterminal => ?_, hother, rfl⟩)
            rw [if_pos hterminal]
            exact nofun
          · rw [if_neg hprogress]
            exact .inr (.inl ⟨some st, .unknown, true, t, fun _ => nofun, hother, rfl⟩)

/-- The outcomes of `candidate`: nothing is collected, or the run is completed and the candidate
is collected. -/
theorem candidate_cases (handle : String) (answer : Answer (List (String × Json)))
    (collected : Answer (Option Candidate)) {key : Name} {r : Run}
    (hrun : s.runOf handle = some (key, r)) :
    ((∀ x, (s.candidate handle answer collected).1 ≠ .ok (some x)) ∧
        ∀ key', (s.candidate handle answer collected).2.reads ≠ s.reads ++ [(key', "completed")]) ∨
      r.cancelled = false ∧ r.terminalStatus ≠ some "failed" ∧
        r.terminalStatus ≠ some "interrupted" ∧
        s.candidate handle answer collected =
          (s.noteRead key (some "completed")).collect key
            { r with terminal := true, terminalStatus := some "completed" } collected := by
  simp only [Runtime.candidate, hrun]
  by_cases hcancelled : r.cancelled = true
  · rw [if_pos hcancelled]
    exact .inl ⟨nofun, fun _ => ne_append_singleton _ _⟩
  rw [if_neg hcancelled]
  by_cases hstatus : r.terminalStatus = some "failed" ∨ r.terminalStatus = some "interrupted"
  · rw [if_pos hstatus]
    exact .inl ⟨nofun, fun _ => ne_append_singleton _ _⟩
  rw [if_neg hstatus]
  cases r.read answer with
  | error e => exact .inl ⟨nofun, fun _ => ne_append_singleton _ _⟩
  | ok state =>
    simp only
    by_cases hended : state = some "failed" ∨ state = some "interrupted"
    · rw [if_pos hended]
      refine .inl ⟨nofun, fun key' hreads => ?_⟩
      rw [(noteRead_reads hreads).2] at hended
      exact absurd hended (by decide)
    · rw [if_neg hended]
      by_cases hcompleted : state ≠ some "completed"
      · rw [if_pos hcompleted]
        refine .inl ⟨?_, fun key' hreads => ?_⟩
        · split
          · exact nofun
          · exact nofun
        · apply hcompleted
          split at hreads
          · exact (noteRead_reads hreads).2
          · exact (noteRead_reads hreads).2
      · rw [if_neg hcompleted]
        obtain rfl := not_not.1 hcompleted
        exact .inr ⟨by simpa using hcancelled, fun h => hstatus (.inl h),
          fun h => hstatus (.inr h), rfl⟩

/-- What `collect` leaves: the completed run, with the candidate it returned. -/
theorem collect_spec {key : Name} {r : Run} {answer : Answer (Option Candidate)} :
    ∃ r', (s.collect key r answer).2.byKey key = some r' ∧ r'.terminalStatus = r.terminalStatus ∧
      ∀ x, (s.collect key r answer).1 = .ok (some x) → r'.candidate = some x := by
  cases answer with
  | error e => exact ⟨r, set_byKey_self _ _ _, rfl, nofun⟩
  | ok candidate =>
    simp only [collect]
    cases checkCandidate r candidate with
    | error e => exact ⟨r, set_byKey_self _ _ _, rfl, nofun⟩
    | ok u =>
      cases candidate with
      | none => exact ⟨r, set_byKey_self _ _ _, rfl, nofun⟩
      | some x =>
        refine ⟨{ r with candidate := some x }, set_byKey_self _ _ _, rfl, fun y hy => ?_⟩
        exact Except.ok.inj hy

theorem collect_reads (s : Runtime) (key : Name) (r : Run) (answer : Answer (Option Candidate)) :
    (s.collect key r answer).2.reads = s.reads := by
  cases answer with
  | error e => rfl
  | ok candidate =>
    simp only [collect]
    cases checkCandidate r candidate with
    | error e => rfl
    | ok u =>
      simp only
      split
      · rfl
      · rfl

omit [Sha256] in
/-- The run a bound handle belongs to. -/
theorem Inv.runOf {handle : String} {key : Name} (hs : Inv s) (h : s.byHandle handle = some key) :
    ∃ r, s.runOf handle = some (key, r) ∧ s.byKey key = some r ∧ r.thread ≠ none ∧ r.turn ≠ none := by
  obtain ⟨r, hr, -, ht, htu⟩ := hs.bound handle key h
  exact ⟨r, runOf_eq_some.2 ⟨h, hr⟩, hr, ht, htu⟩

theorem candidate_of_serve {cfg : Config} {handle : String} {answer : Answer (List (String × Json))}
    {collected : Answer (Option Candidate)} {x : Option Candidate}
    (h : (serve cfg s (.candidate handle answer collected)).1 = .candidate x) :
    (s.candidate handle answer collected).1 = .ok x := by
  simp only [serve, reply] at h
  cases hres : (s.candidate handle answer collected).1 with
  | error e => rw [hres] at h; cases h
  | ok y =>
    rw [hres] at h
    rw [Reply.candidate.inj h]

omit [Sha256] in
theorem observation_of_reply {r : Except Error RuntimeObservation × Runtime}
    {o : RuntimeObservation} (h : (reply Reply.observation r).1 = .observation o) : r.1 = .ok o := by
  simp only [reply] at h
  cases hres : r.1 with
  | error e => rw [hres] at h; cases h
  | ok y =>
    rw [hres] at h
    rw [Reply.observation.inj h]

theorem ReturnsCandidate.latched {cfg : Config} {key : Name} {x : Candidate} {c : Call} (hs : Inv s)
    (h : ReturnsCandidate cfg key x s c) :
    ∃ r, (next cfg s c).byKey key = some r ∧ r.candidate = some x := by
  obtain ⟨handle, answer, collected, rfl, hbound, hreply⟩ := h
  obtain ⟨r, hrun, -⟩ := hs.runOf hbound
  have hx := candidate_of_serve hreply
  rcases candidate_cases handle answer collected hrun with ⟨hnone, -⟩ | ⟨-, -, -, heq⟩
  · exact absurd hx (hnone x)
  · obtain ⟨r', hr', -, hcandidate⟩ := @collect_spec (s.noteRead key (some "completed")) _ key
      { r with terminal := true, terminalStatus := some "completed" } collected
    refine ⟨r', ?_, hcandidate x (heq ▸ hx)⟩
    show (s.candidate handle answer collected).2.byKey key = some r'
    rw [heq]
    exact hr'

/-- No candidate is returned for a cancelled run, nor for one known to have failed or to have been
interrupted. -/
theorem not_returnsCandidate {cfg : Config} {key : Name} {x : Candidate} {c : Call} {r : Run}
    (hr : s.byKey key = some r)
    (h : r.cancelled = true ∨ r.terminalStatus = some "failed" ∨
      r.terminalStatus = some "interrupted") : ¬ReturnsCandidate cfg key x s c := by
  rintro ⟨handle, answer, collected, rfl, hbound, hreply⟩
  have hrun := runOf_eq_some.2 ⟨hbound, hr⟩
  rcases candidate_cases handle answer collected hrun with ⟨hnone, -⟩ | ⟨hc, hf, hi, -⟩
  · exact hnone x (candidate_of_serve hreply)
  · rcases h with h | h | h
    · rw [hc] at h
      cases h
    · exact hf h
    · exact hi h

theorem Accepts.latched {cfg : Config} {key : Name} {status : String} {c : Call}
    (h : Accepts cfg key status s c) :
    ∃ r, (next cfg s c).byKey key = some r ∧ r.terminalStatus = some status := by
  obtain ⟨hmem, hreads, ⟨handle, now, answer, clock, o, rfl, hreply⟩ |
    ⟨⟨handle, answer, collected, rfl⟩, rfl⟩⟩ := h
  · have ho := observation_of_reply hreply
    have hreads : (observe cfg s handle now answer clock).2.reads = s.reads ++ [(key, status)] :=
      hreads
    show ∃ r, (observe cfg s handle now answer clock).2.byKey key = some r ∧ _
    cases hrun : s.runOf handle with
    | none =>
      simp only [observe, hrun] at ho
      cases ho
    | some bound =>
      obtain ⟨key', r⟩ := bound
      rcases observe_cases cfg handle now answer clock hrun with ⟨-, heq⟩ |
        ⟨-, ⟨e, s', heq⟩ | ⟨state, activity, fresh, t, -, hother, heq⟩ | ⟨st, t, -, heq⟩⟩
      · rw [heq] at hreads
        exact absurd hreads (ne_append_singleton _ _)
      · rw [heq] at ho
        cases ho
      · rw [heq] at hreads
        exact absurd hmem (hother status (noteRead_reads hreads).2)
      · rw [heq] at hreads ⊢
        obtain ⟨rfl, hst⟩ := noteRead_reads hreads
        exact ⟨_, set_byKey_self _ _ _, hst⟩
  · have hreads : (s.candidate handle answer collected).2.reads = s.reads ++ [(key, "completed")] :=
      hreads
    show ∃ r, (s.candidate handle answer collected).2.byKey key = some r ∧ _
    cases hrun : s.runOf handle with
    | none =>
      simp only [Runtime.candidate, hrun] at hreads
      exact absurd hreads (ne_append_singleton _ _)
    | some bound =>
      obtain ⟨key', r⟩ := bound
      rcases candidate_cases handle answer collected hrun with ⟨-, hnone⟩ | ⟨-, -, -, heq⟩
      · exact absurd hreads (hnone key)
      · obtain ⟨r', hr', hstatus, -⟩ := @collect_spec (s.noteRead key' (some "completed")) _ key'
          { r with terminal := true, terminalStatus := some "completed" } collected
        have hkey : key' = key := by
          rw [heq] at hreads
          have hnote : (s.noteRead key' (some "completed")).reads =
              s.reads ++ [(key, "completed")] := by
            rw [← hreads]
            exact (collect_reads _ _ _ _).symm
          exact (noteRead_reads hnote).1
        rw [heq, ← hkey]
        exact ⟨r', hr', hstatus⟩

theorem Cancels.latched {cfg : Config} {key : Name} {c : Call} (hs : Inv s)
    (h : Cancels key s c) : ∃ r, (next cfg s c).byKey key = some r ∧ r.cancelled = true := by
  obtain ⟨handle, answers, rfl, hbound⟩ := h
  obtain ⟨r, hrun, hr, ht, htu⟩ := hs.runOf hbound
  show ∃ r, (cancel cfg s handle answers).2.byKey key = some r ∧ _
  simp only [cancel, hrun]
  rw [if_neg (by simp [ht, htu])]
  by_cases hcancelled : r.cancelled = true
  · rw [if_pos hcancelled]
    exact ⟨r, hr, hcancelled⟩
  · rw [if_neg hcancelled]
    cases settle cfg { r with cancelled := true } answers with
    | error e => exact ⟨_, set_byKey_self _ _ _, rfl⟩
    | ok settlement => exact ⟨_, set_byKey_self _ _ _, rfl⟩

/-- What `cancel` reports: never that the run runs, and that it ended only when the run it leaves
is settled. -/
theorem cancel_reply {cfg : Config} {key : Name} {handle : String} {answers : CancelAnswers}
    {o : RuntimeObservation} {r : Run} (hr : s.byKey key = some r)
    (hbound : s.byHandle handle = some key)
    (h : (serve cfg s (.cancel handle answers)).1 = .observation o) :
    o.activity ≠ .running ∧ (o.activity = .terminal → o.ownedGroupSettled = some true ∧
      ∃ r', (next cfg s (.cancel handle answers)).byKey key = some r' ∧
        r'.ownedGroupSettled = some true) := by
  have ho := observation_of_reply h
  have hnext : next cfg s (.cancel handle answers) = (cancel cfg s handle answers).2 := rfl
  rw [hnext]
  simp only [cancel, runOf_eq_some.2 ⟨hbound, hr⟩] at ho ⊢
  by_cases hunknown : r.thread = none ∨ r.turn = none
  · rw [if_pos hunknown] at ho
    cases ho
  rw [if_neg hunknown] at ho ⊢
  by_cases hcancelled : r.cancelled = true
  · rw [if_pos hcancelled] at ho ⊢
    obtain ⟨hrunning, hspec⟩ := observeCancelled_spec ho
    exact ⟨hrunning, fun ht => ⟨(hspec ht).1, r, hr, (hspec ht).2⟩⟩
  · rw [if_neg hcancelled] at ho ⊢
    cases hsettle : settle cfg { r with cancelled := true } answers with
    | error e =>
      rw [hsettle] at ho
      cases ho
    | ok settlement =>
      rw [hsettle] at ho
      obtain ⟨hrunning, hspec⟩ := observeCancelled_spec ho
      exact ⟨hrunning, fun ht => ⟨(hspec ht).1, _, set_byKey_self _ _ _, (hspec ht).2⟩⟩

/-- An observation of a run that ended does not say that it runs. -/
theorem Observes.not_running {cfg : Config} {key : Name} {o : RuntimeObservation} {c : Call} {r : Run}
    (hr : s.byKey key = some r) (hterminal : r.terminal = true) (h : Observes cfg key o s c) :
    o.activity ≠ .running := by
  obtain ⟨handle, hbound, ⟨now, answer, clock, rfl⟩ | ⟨answers, rfl⟩, hreply⟩ := h
  · have hrun := runOf_eq_some.2 ⟨hbound, hr⟩
    have ho := observation_of_reply hreply
    rcases observe_cases cfg handle now answer clock hrun with ⟨-, heq⟩ |
      ⟨-, ⟨e, s', heq⟩ | ⟨state, activity, fresh, t, hactivity, -, heq⟩ | ⟨st, t, -, heq⟩⟩
    · rw [heq] at ho
      exact (observeCancelled_spec ho).1
    · rw [heq] at ho
      cases ho
    · rw [heq] at ho
      rw [observeRun_activity ho]
      exact hactivity hterminal
    · rw [heq] at ho
      rw [observeRun_activity ho]
      exact nofun
  · exact (cancel_reply hr hbound hreply).1

/-- An observation of a cancelled run says that it ended only with a settlement on record. -/
theorem Observes.settled {cfg : Config} {key : Name} {o : RuntimeObservation} {c : Call} (hs : Inv s)
    (hc : (∃ r, s.byKey key = some r ∧ r.cancelled = true) ∨ Cancels key s c)
    (h : Observes cfg key o s c) (hterminal : o.activity = .terminal) :
    o.ownedGroupSettled = some true ∧
      ∃ r, (next cfg s c).byKey key = some r ∧ r.ownedGroupSettled = some true := by
  obtain ⟨handle, hbound, ⟨now, answer, clock, rfl⟩ | ⟨answers, rfl⟩, hreply⟩ := h
  · have hcancelled : ∃ r, s.byKey key = some r ∧ r.cancelled = true := by
      rcases hc with hc | ⟨_, _, hc, -⟩
      · exact hc
      · cases hc
    obtain ⟨r, hr, hcancelled⟩ := hcancelled
    have ho := observation_of_reply hreply
    rcases observe_cases cfg handle now answer clock (runOf_eq_some.2 ⟨hbound, hr⟩) with
      ⟨-, heq⟩ | ⟨hfalse, -⟩
    · have hnext : next cfg s (.observe handle now answer clock) = s := by
        show (observe cfg s handle now answer clock).2 = s
        rw [heq]
      rw [heq] at ho
      obtain ⟨hset, hset'⟩ := (observeCancelled_spec ho).2 hterminal
      rw [hnext]
      exact ⟨hset, r, hr, hset'⟩
    · rw [hfalse] at hcancelled
      cases hcancelled
  · obtain ⟨r, -, hr, -⟩ := hs.runOf hbound
    exact (cancel_reply hr hbound hreply).2 hterminal

/-! ## The guarantees -/

/-- What holds of an adapter after a run of calls, whatever call comes next. A handle stands for the
run it was bound to last. -/
structure Lifecycle (cfg : Config) (calls : List Call) : Prop where
  /-- `thread/start` and `turn/start` are each sent at most once for an effect key. -/
  once : (run (next cfg) new calls).sent.Nodup
  /-- A start that failed after its run was recorded is never delivered again. -/
  failed : ∀ key, Occurs (next cfg) (FailsStart cfg key) new calls →
    ∀ request answers, request.operation.effectKey = key →
      ∃ e, serve cfg (run (next cfg) new calls) (.start request answers) =
        (.raised e, run (next cfg) new calls)
  /-- An accepted terminal status is final. -/
  terminal : ∀ key status, Occurs (next cfg) (Accepts cfg key status) new calls → ∀ c,
    (∀ o, Observes cfg key o (run (next cfg) new calls) c → o.activity ≠ .running) ∧
      (∀ status', Accepts cfg key status' (run (next cfg) new calls) c → status' = status) ∧
      (status = "failed" ∨ status = "interrupted" →
        ∀ x, ¬ReturnsCandidate cfg key x (run (next cfg) new calls) c)
  /-- A returned candidate is the only one. -/
  candidate : ∀ key x, Occurs (next cfg) (ReturnsCandidate cfg key x) new calls →
    ∀ c y, ReturnsCandidate cfg key y (run (next cfg) new calls) c → y = x
  /-- After a cancellation there is no candidate. -/
  cancelled : ∀ key, Occurs (next cfg) (Cancels key) new calls →
    ∀ c x, ¬ReturnsCandidate cfg key x (run (next cfg) new calls) c
  /-- From a cancellation on, its own report included, the run is reported ended only when its
  process group was proved settled. -/
  settled : ∀ key c, Occurs (next cfg) (Cancels key) new (calls ++ [c]) →
    ∀ o, Observes cfg key o (run (next cfg) new calls) c → o.activity = .terminal →
      o.ownedGroupSettled = some true ∧ Occurs (next cfg) (Settles cfg key) new (calls ++ [c])

/-- **The life of a Codex run**, over every sequence of calls with any native answers.

**Proof idea.** Every event writes a fact into the run that no later operation takes back, and what
a later call returns is bounded by the facts in the run. -/
theorem lifecycle (cfg : Config) (calls : List Call) : Lifecycle cfg calls := by
  have hs := run_inv cfg calls
  refine ⟨hs.once.nodup, ?_, ?_, ?_, ?_, ?_⟩
  · rintro key hocc request answers rfl
    obtain ⟨r, hr, hu⟩ := of_occurs (fun r r' hu he => he.uncertain.trans hu)
      (fun s c hs h => FailsStart.uncertain hs h) hocc
    exact start_of_uncertain cfg hr hu
  · intro key status hocc c
    obtain ⟨r, hr, hstatus⟩ := of_occurs (fun r r' h he => he.status status h)
      (fun s c _ h => Accepts.latched h) hocc
    refine ⟨fun o ho => ?_, fun status' h => ?_, fun hended x => ?_⟩
    · exact ho.not_running hr (hs.marked key r hr status hstatus).2
    · -- the status that is accepted and the one that stays are both in the run
      obtain ⟨r', hr', hstatus'⟩ := h.latched
      obtain ⟨r'', hr'', he⟩ := (next_steps cfg hs c).evolves key r hr
      obtain rfl := Option.some.inj (hr'.symm.trans hr'')
      exact Option.some.inj (hstatus'.symm.trans (he.status status hstatus))
    · apply not_returnsCandidate hr
      rcases hended with rfl | rfl
      · exact .inr (.inl hstatus)
      · exact .inr (.inr hstatus)
  · intro key x hocc c y hy
    obtain ⟨r, hr, hx⟩ := of_occurs (fun r r' h he => he.candidate x h)
      (fun s c hs h => ReturnsCandidate.latched hs h) hocc
    obtain ⟨r', hr', hy'⟩ := hy.latched hs
    obtain ⟨r'', hr'', he⟩ := (next_steps cfg hs c).evolves key r hr
    obtain rfl := Option.some.inj (hr'.symm.trans hr'')
    exact Option.some.inj (hy'.symm.trans (he.candidate x hx))
  · intro key hocc c x
    obtain ⟨r, hr, hc⟩ := of_occurs (fun r r' h he => he.cancelled h)
      (fun s c hs h => Cancels.latched hs h) hocc
    exact not_returnsCandidate hr (.inl hc)
  · intro key c hocc o ho hterminal
    have hcancelled : (∃ r, (run (next cfg) new calls).byKey key = some r ∧ r.cancelled = true) ∨
        Cancels key (run (next cfg) new calls) c := by
      rcases occurs_concat.1 hocc with hocc | hc
      · exact .inl (of_occurs (fun r r' h he => he.cancelled h)
          (fun s c hs h => Cancels.latched hs h) hocc)
      · exact .inr hc
    obtain ⟨hset, r, hr, hr'⟩ := ho.settled hs hcancelled hterminal
    rw [← run_concat (next cfg)] at hr
    exact ⟨hset, settled_occurs cfg (calls ++ [c]) key r hr hr'⟩

/-! ## A status that was only looked up -/

/-- Any status that was read is final, by whichever call it was read. -/
def EveryReadIsFinal (cfg : Config) : Prop :=
  ∀ calls key status, status ∈ terminalStatuses →
    Occurs (next cfg) (Reads cfg key status) new calls → ∀ c,
      (∀ o, Observes cfg key o (run (next cfg) new calls) c → o.activity ≠ .running) ∧
        (∀ status', Accepts cfg key status' (run (next cfg) new calls) c → status' = status) ∧
        (status = "failed" ∨ status = "interrupted" →
          ∀ x, ¬ReturnsCandidate cfg key x (run (next cfg) new calls) c)

end Runtime

namespace Sample

/-- An adapter without a clock that cannot retire its process. -/
def config : Config := ⟨30, [], false, false, by decide⟩

def operation : OperationKey := ⟨⟨"runtime:a1", by decide⟩, ⟨"runtime:a1", by decide⟩,
  ⟨"d", Nonblank.d⟩⟩

def request : ExecutionRequest where
  operation := operation
  attempt := CreatidyKernel.Sample.attempt
  workspace := ⟨⟨"w", by decide⟩, ⟨⟨"repo", Nonblank.repo⟩, ⟨"base", Nonblank.base⟩, [],
    ⟨"tools", by decide⟩, ⟨"profile", by decide⟩, .trustedDevelopment, .empty, .empty⟩⟩
  contextReference := ⟨"context", by decide⟩
  allocationReference := ⟨"allocation", by decide⟩
  capabilityReference := ⟨"capability", by decide⟩
  identity := ⟨"m", none, none, "1", none, none, none, none, none, none⟩
  fence := 1
  allocation := none

def inputs : CodexInputs :=
  ⟨"w", "context", "allocation", "capability", "/work", "do it", "m", "p", "workspace-write", "never",
    none⟩

/-- A start of thread `t` and turn `u`. -/
def start : Runtime.Call := .start request {
  resolve := .ok inputs
  authorize := .ok true
  groupReference := .ok none
  threadStart := .ok [("thread", .obj [("id", .str "t")]), ("model", .str "m"),
    ("modelProvider", .str "p")]
  authorizeTurn := .ok true
  turnStart := .ok [("turn", .obj [("id", .str "u")])] }

/-- The answer that the turn has a status. -/
def status (status : String) : Answer (List (String × Json)) :=
  .ok [("thread", .obj [("id", .str "t"),
    ("turns", .arr [.obj [("id", .str "u"), ("status", .str status)]])])]

/-- What `observe` reports after the start when the turn is in progress. -/
def running : RuntimeObservation where
  handle := "codex:t:u"
  activity := .running
  observedAt := 5
  freshUntil := 35
  identity := { request.identity with resolved := some "m", resolvedProvider := some "p" }
  cancellationRequested := false
  ownedGroupSettled := none
  ownedGroupReference := none

end Sample

/-- A lookup asks only whether the turn is there: a status it saw on the way is not kept, and the
run may be reported running afterwards. -/
theorem Runtime.lookup_keeps_no_status :
    ¬@Runtime.EveryReadIsFinal CreatidyKernel.Sample.sha256 Sample.config := by
  intro h
  have hreads : Occurs (@Runtime.next CreatidyKernel.Sample.sha256 Sample.config)
      (@Runtime.Reads CreatidyKernel.Sample.sha256 Sample.config ⟨"runtime:a1", by decide⟩
        "completed") Runtime.new
      [Sample.start, .reconcile Sample.operation none (Sample.status "completed")] := by
    refine ⟨[Sample.start], _, [], rfl, ?_⟩
    show _ = _
    decide +kernel
  have hobserves : @Runtime.Observes CreatidyKernel.Sample.sha256 Sample.config
      ⟨"runtime:a1", by decide⟩ Sample.running
      (run (@Runtime.next CreatidyKernel.Sample.sha256 Sample.config) Runtime.new
        [Sample.start, .reconcile Sample.operation none (Sample.status "completed")])
      (.observe "codex:t:u" 5 (Sample.status "inProgress") (.ok 5)) :=
    ⟨"codex:t:u", by decide +kernel, .inl ⟨_, _, _, rfl⟩, by decide +kernel⟩
  exact (h _ _ _ (by decide) hreads _).1 _ hobserves rfl

end Codex

end CreatidyKernel
