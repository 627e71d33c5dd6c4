import CreatidyKernel.Lib.Trace
import CreatidyKernel.Runtime.Bubblewrap

set_option relaxedAutoImplicit false
set_option autoImplicit false

/-!
# The gate and the settlement of a sandbox

The token releases code that nobody trusts, and the kernel chooses the order in which the loop
learns anything. The argument has one invariant: each variable stands for something in the trace,
whatever the order. A branch that sets a condition may leave the other variables as they fall, since
from then on the gate is not looked at any more.

## Main definitions

* `rule` — what may be done after what: when a process is owned, and when the token is written.
* `Inv`, `Going`, `Owned` — what the variables stand for in the trace.
* `Final` — what is left of it after the loop.

## Main results

* `loop_spec` — the invariant of the loop.
* `gate_and_settlement` — the token is written under the rule, a receipt is completed for the
  reasons it claims, and settled exactly when both ends were seen.
-/

namespace CreatidyKernel

namespace Bubblewrap

open Action Checked

/-! ## The rule -/

/-- The bytes that were read from a source, read by read. -/
def bytesOf (source : Source) (trace : List Event) : List Bytes :=
  trace.filterMap fun
    | .delivered s data => if s = source ∧ data ≠ [] then some data else none
    | _ => none

/-- What a run may do after what it has done: it owns the process that the whole info document
names, if its parent is the process that was launched, and it writes the token once, while there
is no cause to stop, after the one byte `R`, and directly after it has seen the reaper of the owned
process armed and then the process running, not cancelled and authorized. -/
def rule (w : World) (before : List Event) : Event → Prop
  | .owned pid parent =>
    .delivered .info [] ∈ before ∧
      (w.loads (bytesOf .info before).flatten >>= childPid) = .ok pid ∧ parent = w.process
  | .token =>
    .token ∉ before ∧ (∀ c, .cause c ∉ before) ∧ bytesOf .ready before = [[82]] ∧
      ∃ pid parent b, .owned pid parent ∈ before ∧
        before = b ++ [.armed pid true, .running true, .cancelled false, .authorized true]
  | _ => True

variable {w : World} {s : State} {e : Event} {source : Source} {trace : List Event}

theorem bytesOf_concat :
    bytesOf source (trace ++ [e]) = bytesOf source trace ++ bytesOf source [e] :=
  List.filterMap_append

/-! ## What the variables stand for -/

/-- What the variables stand for in the trace, at any time before the end of the loop. -/
structure Inv (w : World) (s : State) : Prop where
  follows : Trace.Follows (rule w) s.trace
  released : s.released = true ↔ .token ∈ s.trace
  condition : s.condition = .completed ↔ ∀ c, .cause c ∉ s.trace
  info : s.info = (bytesOf .info s.trace).flatten
  lifetime : s.lifetimeClosed = true ↔ .delivered .lifetime [] ∈ s.trace
  exited : s.initExited = true ↔ .delivered .init [] ∈ s.trace
  settled : s.settled = (s.lifetimeClosed && s.initExited)
  untimed : .timedOut ∉ s.trace

/-- No answer was a reason to stop. -/
def Clean (s : State) : Prop :=
  s.condition = .completed → .cancelled true ∉ s.trace ∧ .authorized false ∉ s.trace

/-- What holds as long as there is no cause to stop. -/
structure Going (s : State) : Prop where
  stopping : s.stopping = none → s.condition = .completed
  clean : Clean s
  ready : s.condition = .completed →
    bytesOf .ready s.trace = if s.bootstrapReady = true then [[82]] else []

/-- The process that is owned is the init process. -/
def Owned (s : State) : Prop :=
  s.condition = .completed → s.ownedInit = true →
    ∃ pid parent, s.initPid = some pid ∧ .owned pid parent ∈ s.trace

/-- The invariant of the loop. -/
structure Loop (w : World) (s : State) : Prop where
  inv : Inv w s
  going : Going s
  owned : Owned s

/-- There is a cause to stop. -/
def Blamed (w : World) (s : State) : Prop := Inv w s ∧ s.condition ≠ .completed

/-- Events that no variable stands for. -/
def Aside (e : Event) : Prop :=
  e ≠ .token ∧ (∀ c, e ≠ .cause c) ∧ e ≠ .timedOut ∧ e ≠ .delivered .lifetime [] ∧
    e ≠ .delivered .init [] ∧ bytesOf .info [e] = []

theorem Inv.note (h : Inv w s) (hrule : rule w s.trace e) (he : Aside e) :
    Inv w { s with trace := s.trace ++ [e] } := by
  obtain ⟨htoken, hcause, htimed, hlifetime, hexited, hinfo⟩ := he
  have hmem {a : Event} (ha : e ≠ a) : a ∈ s.trace ++ [e] ↔ a ∈ s.trace := by
    simp [ha.symm]
  refine ⟨Trace.follows_concat.mpr ⟨h.follows, hrule⟩, h.released.trans (hmem htoken).symm, ?_, ?_,
    h.lifetime.trans (hmem hlifetime).symm, h.exited.trans (hmem hexited).symm, h.settled,
    fun ht => h.untimed ((hmem htimed).mp ht)⟩
  · exact h.condition.trans (forall_congr' fun c => not_congr (hmem (hcause c)).symm)
  · show s.info = _
    rw [bytesOf_concat, hinfo, List.append_nil]
    exact h.info

/-- Events that give no reason to stop. -/
def Quiet : Event → Prop
  | .cancelled answer => answer = false
  | .authorized answer => answer = true
  | .running _ | .armed _ _ => True
  | _ => False

/-- Answers to questions, which the invariant does not depend on. -/
def Plain : Event → Prop
  | .cancelled _ | .authorized _ | .running _ | .armed _ _ => True
  | _ => False

theorem Quiet.plain (h : Quiet e) : Plain e := by
  cases e with
  | cancelled | authorized | running | armed => trivial
  | delivered | owned | token | cause | timedOut => cases h

theorem Inv.plain (h : Inv w s) (he : Plain e) : Inv w { s with trace := s.trace ++ [e] } := by
  cases e with
  | cancelled | authorized | running | armed =>
    exact h.note trivial ⟨nofun, nofun, nofun, nofun, nofun, rfl⟩
  | delivered | owned | token | cause | timedOut => cases he

theorem Going.note (h : Going s) (hclean : e ≠ .cancelled true ∧ e ≠ .authorized false)
    (hready : bytesOf .ready [e] = []) : Going { s with trace := s.trace ++ [e] } := by
  refine ⟨h.stopping, fun hc => ?_, fun hc => ?_⟩
  · simpa [hclean.1.symm, hclean.2.symm] using h.clean hc
  · rw [bytesOf_concat, hready, List.append_nil]
    exact h.ready hc

theorem Going.quiet (h : Going s) (he : Quiet e) : Going { s with trace := s.trace ++ [e] } := by
  cases e with
  | cancelled | authorized =>
    cases he
    exact h.note ⟨nofun, nofun⟩ rfl
  | running | armed => exact h.note ⟨nofun, nofun⟩ rfl
  | delivered | owned | token | cause | timedOut => cases he

theorem Owned.note (h : Owned s) : Owned { s with trace := s.trace ++ [e] } := by
  intro hc ho
  obtain ⟨pid, parent, hpid, hmem⟩ := h hc ho
  exact ⟨pid, parent, hpid, List.mem_append_left _ hmem⟩

/-- The invariant concerns some of the variables. -/
theorem Inv.same {t : State} (h : Inv w s)
    (ht : (t.trace, t.released, t.condition, t.info, t.lifetimeClosed, t.initExited, t.settled) =
      (s.trace, s.released, s.condition, s.info, s.lifetimeClosed, s.initExited, s.settled)) :
    Inv w t := by
  simp only [Prod.mk.injEq] at ht
  obtain ⟨htrace, hreleased, hcondition, hinfo, hlifetime, hexited, hsettled⟩ := ht
  constructor
  · rw [htrace]
    exact h.follows
  · rw [htrace, hreleased]
    exact h.released
  · rw [htrace, hcondition]
    exact h.condition
  · rw [htrace, hinfo]
    exact h.info
  · rw [htrace, hlifetime]
    exact h.lifetime
  · rw [htrace, hexited]
    exact h.exited
  · rw [hsettled, hlifetime, hexited]
    exact h.settled
  · rw [htrace]
    exact h.untimed

/-- A run that is stopped has nothing left to lose. -/
theorem Blamed.loop (h : Blamed w s) (hstopping : s.stopping ≠ none) : Loop w s :=
  ⟨h.1, ⟨fun hs => absurd hs hstopping, fun hc => absurd hc h.2, fun hc => absurd hc h.2⟩,
    fun hc => absurd hc h.2⟩

/-! ## Questions -/

/-- Predicates that asking does not change. -/
structure Stable (P : State → Prop) : Prop where
  asked : ∀ s n, P s → P { s with asked := n }
  returncode : ∀ s code, P s → P { s with returncode := code }
  quiet : ∀ s e, Quiet e → P s → P { s with trace := s.trace ++ [e] }

variable {P Q E : State → Prop} {α : Type}

theorem Stable.and (hP : Stable P) (hQ : Stable Q) : Stable fun s => P s ∧ Q s :=
  ⟨fun s n h => ⟨hP.asked s n h.1, hQ.asked s n h.2⟩,
    fun s code h => ⟨hP.returncode s code h.1, hQ.returncode s code h.2⟩,
    fun s e he h => ⟨hP.quiet s e he h.1, hQ.quiet s e he h.2⟩⟩

theorem stable_inv : Stable (Inv w) :=
  ⟨fun _ _ h => h.same rfl, fun _ _ h => h.same rfl, fun _ _ he h => h.plain he.plain⟩

theorem stable_going : Stable Going :=
  ⟨fun _ _ h => ⟨h.1, h.2, h.3⟩, fun _ _ h => ⟨h.1, h.2, h.3⟩, fun _ _ he h => h.quiet he⟩

theorem stable_loop : Stable (Loop w) :=
  ⟨fun s n h => ⟨stable_inv.asked s n h.inv, stable_going.asked s n h.going, h.owned⟩,
    fun s c h => ⟨stable_inv.returncode s c h.inv, stable_going.returncode s c h.going, h.owned⟩,
    fun s e he h =>
      ⟨stable_inv.quiet s e he h.inv, stable_going.quiet s e he h.going, h.owned.note⟩⟩

theorem stable_mem : Stable fun s => e ∈ s.trace :=
  ⟨fun _ _ h => h, fun _ _ h => h, fun _ _ _ h => List.mem_append_left _ h⟩

/-- An action that keeps `P`, however it ends. -/
abbrev Keeps (P : State → Prop) (m : Act α) : Prop := Spec P m (fun _ => P) P

namespace Stable

/-- A question leaves the trace as it is. -/
theorem asks (hP : Stable P) (hE : ∀ s, P s → E s) (answer : ℕ → Except Exn α) (τ : List Event) :
    Spec (fun s => P s ∧ s.trace = τ) (ask answer) (fun _ s => P s ∧ s.trace = τ) E :=
  (Spec.read fun _ h => h).bind fun _ =>
    (Spec.write fun s h => ⟨hP.asked s _ h.1, h.2⟩).bind fun _ =>
      Spec.of (fun _ _ _ h => h) fun s h => hE s h.1

theorem ask (hP : Stable P) (answer : ℕ → Except Exn α) : Keeps P (ask answer) := fun s hs =>
  ((hP.asks (fun _ h => h) answer s.trace).post fun _ _ h => h.1) s ⟨hs, rfl⟩

theorem monotonic (hP : Stable P) : Keeps P (monotonic w) := hP.ask _

/-- Asking whether the process is running. -/
theorem poll (hP : Stable P) (τ : List Event) :
    Spec (fun s => P s ∧ s.trace = τ) (poll w)
      (fun code s => P s ∧ s.trace = τ ++ [.running code.isNone]) P := by
  refine (Spec.read (Q := fun _ s => P s ∧ s.trace = τ) fun _ h => h).bind fun a => ?_
  cases a.returncode with
  | some code =>
    refine (Spec.write (Q := fun _ s => P s ∧ s.trace = τ ++ [.running false]) ?_).bind fun _ =>
      Spec.pure fun _ h => h
    rintro s ⟨h, rfl⟩
    exact ⟨hP.quiet s _ trivial h, rfl⟩
  | none =>
    refine (hP.asks (fun _ h => h) _ τ).bind fun code => (Spec.write
      (Q := fun _ s => P s ∧ s.trace = τ) fun s h => ⟨hP.returncode s code h.1, h.2⟩).bind fun _ =>
        (Spec.write (Q := fun _ s => P s ∧ s.trace = τ ++ [.running code.isNone]) ?_).bind fun _ =>
          Spec.pure fun _ h => h
    rintro s ⟨h, rfl⟩
    exact ⟨hP.quiet s _ trivial h, rfl⟩

theorem poll_keeps (hP : Stable P) : Keeps P (Bubblewrap.poll w) := fun s hs =>
  ((hP.poll s.trace).post fun _ _ h => h.1) s ⟨hs, rfl⟩

theorem kill (hP : Stable P) : Keeps P (kill w) := by
  refine hP.poll_keeps.bind fun code => ?_
  cases code with
  | some code => exact Spec.pure fun _ h => h
  | none => exact hP.ask _

theorem wait (hP : Stable P) : Keeps P (wait w) := by
  refine (Spec.read fun _ h => h).bind fun a => ?_
  cases a.returncode with
  | some code => exact Spec.pure fun _ h => h
  | none =>
    exact (hP.ask _).bind fun code =>
      (Spec.write fun s h => hP.returncode s code h).bind fun _ => Spec.pure fun _ h => h

theorem stopped (hP : Stable P) : Keeps P (stopped w) := by
  refine (Spec.read fun _ h => h).bind fun a => ?_
  cases a.stopping with
  | none => exact Spec.pure fun _ h => h
  | some until_ => exact hP.monotonic.bind fun _ => Spec.pure fun _ h => h

theorem select (hP : Stable P) : Keeps P (select w) :=
  (hP.ask _).bind fun _ => (Spec.read fun _ h => h).bind fun _ => Spec.pure fun _ h => h

theorem of (x : Except Exn α) : Keeps P (of x) := Spec.of (fun _ _ _ h => h) fun _ h => h

theorem checkAlive (hP : Stable P) : Keeps P (checkAlive w) := by
  refine hP.poll_keeps.bind fun code => ?_
  cases code with
  | some code => exact Spec.raise fun _ h => h
  | none => exact (hP.ask _).bind fun _ => Stable.of _

/-- The reaper of a process was looked at. -/
theorem reaperArmed (hP : Stable P) (pid inherited : ℤ) :
    Spec P (reaperArmed w pid inherited)
      (fun armed s => P s ∧ ∃ b, s.trace = b ++ [.armed pid armed]) P := by
  refine hP.checkAlive.bind fun _ => (hP.ask _).bind fun parent => (hP.ask _).bind fun reaper =>
    (Stable.of _).bind fun count => hP.checkAlive.bind fun _ => (Spec.write
      (Q := fun _ s => P s ∧ ∃ b, s.trace = b ++ [.armed pid (count = inherited + 1)])
      fun s h => ?_).bind fun _ => Spec.pure fun _ h => h
  exact ⟨hP.quiet s _ trivial h, s.trace, rfl⟩

/-- Asking whether the run is cancelled: if it is, the answer is in the trace. -/
theorem cancelled (hP : Stable P) (hinv : ∀ s, P s → Inv w s) (τ : List Event) :
    Spec (fun s => P s ∧ s.trace = τ) (cancelled w)
      (fun answer s => if answer = true then Inv w s else P s ∧ s.trace = τ ++ [.cancelled false])
      (Inv w) := by
  refine (hP.asks hinv _ τ).bind fun answer => (Spec.write
    (Q := fun _ s => if answer = true then Inv w s else P s ∧ s.trace = τ ++ [.cancelled false])
    ?_).bind fun _ => Spec.pure fun _ h => h
  rintro s ⟨h, rfl⟩
  cases answer with
  | true => exact (hinv s h).plain trivial
  | false => exact ⟨hP.quiet s _ rfl h, rfl⟩

/-- Asking whether the run is authorized: if it is not, the answer is in the trace. -/
theorem authorizeAt (hP : Stable P) (hE : ∀ s, P s → E s)
    (hplain : ∀ s e, Plain e → E s → E { s with trace := s.trace ++ [e] }) (now : ℤ)
    (τ : List Event) :
    Spec (fun s => P s ∧ s.trace = τ) (authorizeAt w now)
      (fun answer s => if answer = true then P s ∧ s.trace = τ ++ [.authorized true] else E s) E := by
  refine (hP.asks hE _ τ).bind fun answer => (Spec.write
    (Q := fun _ s => if answer = true then P s ∧ s.trace = τ ++ [.authorized true] else E s)
    ?_).bind fun _ => Spec.pure fun _ h => h
  rintro s ⟨h, rfl⟩
  cases answer with
  | true => exact ⟨hP.quiet s _ rfl h, rfl⟩
  | false => exact hplain s _ trivial (hE s h)

theorem authorize (hP : Stable P) (hinv : ∀ s, P s → Inv w s) (τ : List Event) :
    Spec (fun s => P s ∧ s.trace = τ) (authorize w)
      (fun answer s => if answer = true then P s ∧ s.trace = τ ++ [.authorized true] else Inv w s)
      (Inv w) :=
  (hP.asks hinv _ τ).bind fun now => hP.authorizeAt hinv (fun _ _ he h => h.plain he) now τ

/-- Whether the token has to be kept back. -/
theorem lost (hP : Stable P) (hinv : ∀ s, P s → Inv w s) (τ : List Event) :
    Spec (fun s => P s ∧ s.trace = τ) (lost w)
      (fun answer s => if answer = true then Inv w s else
        P s ∧ s.trace = τ ++ [.running true, .cancelled false, .authorized true]) (Inv w) := by
  refine ((hP.poll τ).weaken (fun _ h => h) (fun _ _ h => h) hinv).bind fun code => ?_
  cases code with
  | some code => exact Spec.pure fun s h => hinv s h.1
  | none =>
    refine (hP.cancelled hinv _).bind fun answer => ?_
    cases answer with
    | true => exact Spec.pure fun _ h => h
    | false =>
      refine (hP.authorize hinv _).bind fun answer => Spec.pure fun s h => ?_
      cases answer with
      | false => exact h
      | true =>
        obtain ⟨h, htrace⟩ := h
        exact ⟨h, by simpa using htrace⟩

end Stable

/-! ## Stopping -/

theorem Inv.blame (h : Inv w s) {condition : Condition} (hc : condition ≠ .completed) :
    Blamed w { s with condition, trace := s.trace ++ [.cause condition] } := by
  refine ⟨⟨Trace.follows_concat.mpr ⟨h.follows, trivial⟩, ?_, ?_, ?_, ?_, ?_, h.settled, ?_⟩, hc⟩
  · simpa using h.released
  · exact ⟨fun he => absurd he hc, fun hall => absurd (by simp) (hall condition)⟩
  · show s.info = _
    rw [bytesOf_concat, List.flatten_append]
    exact h.info.trans (List.append_nil _).symm
  · simpa using h.lifetime
  · simpa using h.exited
  · simpa using h.untimed

theorem blame_spec (condition : Condition) (hc : condition ≠ .completed) :
    Spec (Inv w) (blame condition) (fun _ => Blamed w) E :=
  Spec.write fun _ h => h.blame hc

/-- The run goes on, or there is a cause to stop it. -/
abbrev Judged (w : World) (s : State) : Prop := Loop w s ∨ Blamed w s

theorem blame_judged (condition : Condition) (hc : condition ≠ .completed)
    (hP : ∀ s, P s → Inv w s) : Spec P (blame condition) (fun _ => Judged w) E :=
  (blame_spec condition hc).weaken hP (fun _ _ h => .inr h) fun _ h => h

theorem stable_blamed : Stable (Blamed w) :=
  stable_inv.and ⟨fun _ _ h => h, fun _ _ h => h, fun _ _ _ h => h⟩

theorem stop_spec : Spec (Blamed w) (stop w) (fun _ => Loop w) (Inv w) := by
  refine Spec.bind (R := fun _ => Blamed w) ?_ fun _ => Spec.bind (R := fun _ => Blamed w) ?_
    fun now => Spec.write fun s h => ?_
  · exact stable_blamed.kill.weaken (fun _ h => h) (fun _ _ h => h) fun _ h => h.1
  · exact stable_blamed.monotonic.weaken (fun _ h => h) (fun _ _ h => h) fun _ h => h.1
  · exact Blamed.loop ⟨h.1.same rfl, h.2⟩ nofun

theorem blame_stop (condition : Condition) (hc : condition ≠ .completed)
    (hP : ∀ s, P s → Inv w s) :
    Spec P (do blame condition; stop w) (fun _ => Loop w) (Inv w) :=
  Spec.bind (R := fun _ => Blamed w) ((blame_spec condition hc).pre hP) fun _ => stop_spec

theorem stopIfBlamed_spec : Spec (Judged w) (stopIfBlamed w) (fun _ => Loop w) (Inv w) := by
  refine (Spec.read (Q := fun a s => a = s ∧ Judged w s) fun s h => ⟨rfl, h⟩).bind fun a => ?_
  by_cases hc : a.condition ≠ .completed
  · rw [if_pos hc]
    refine stop_spec.pre ?_
    rintro s ⟨rfl, h⟩
    exact ⟨h.elim Loop.inv And.left, hc⟩
  · rw [if_neg hc]
    refine Spec.pure ?_
    rintro s ⟨rfl, h⟩
    exact h.resolve_right fun hb => hc hb.2

/-- An exception that is handled is a cause to stop. -/
theorem handle_spec {handled : List Exn} {m : Act Unit}
    (hm : Spec P m (fun _ => Judged w) (Inv w)) :
    Spec P (handle handled m) (fun _ => Judged w) (Inv w) := by
  refine Spec.bind (R := fun r s => match r with
    | .ok _ => Judged w s
    | .error _ => Inv w s) (Spec.attempt (hm.weaken (fun _ h => h) (fun _ _ h => h) fun _ h _ => h))
    fun r => ?_
  cases r with
  | ok _ => exact Spec.pure fun _ h => h
  | error e =>
    by_cases he : e ∈ handled
    · show Spec _ (if e ∈ handled then _ else _) _ _
      rw [if_pos he]
      exact blame_judged _ nofun fun _ h => h
    · show Spec _ (if e ∈ handled then _ else _) _ _
      rw [if_neg he]
      exact Spec.raise fun _ h => h

/-! ## The gate -/

/-- The gate may be opened. -/
def Poised (w : World) (s : State) : Prop :=
  Loop w s ∧ s.condition = .completed ∧ s.bootstrapReady = true ∧ s.released = false

/-- The gate may be opened for a process. -/
def Held (w : World) (pid : ℤ) (s : State) : Prop :=
  Poised w s ∧ ∃ parent, .owned pid parent ∈ s.trace

theorem stable_held {pid : ℤ} : Stable (Held w pid) := by
  refine (stable_loop.and ⟨fun _ _ h => h, fun _ _ h => h, fun _ _ _ h => h⟩).and
    ⟨fun _ _ h => h, fun _ _ h => h, fun s e _ h => ?_⟩
  obtain ⟨parent, hparent⟩ := h
  exact ⟨parent, List.mem_append_left _ hparent⟩

/-- The token is written under the rule. -/
theorem Held.token {pid : ℤ} {b : List Event} (h : Held w pid s)
    (htrace : s.trace =
      b ++ [.armed pid true, .running true, .cancelled false, .authorized true]) :
    Loop w { s with released := true, trace := s.trace ++ [.token] } := by
  obtain ⟨⟨hloop, hcondition, hready, hreleased⟩, parent, howned⟩ := h
  have hinv := hloop.inv
  have hfree : .token ∉ s.trace := by
    rw [← hinv.released, hreleased]
    exact Bool.false_ne_true
  have hbytes := hloop.going.ready hcondition
  rw [if_pos hready] at hbytes
  have hrule : rule w s.trace .token :=
    ⟨hfree, hinv.condition.mp hcondition, hbytes, pid, parent, b, howned, htrace⟩
  have hgoing := hloop.going.note (e := .token) ⟨nofun, nofun⟩ rfl
  refine ⟨⟨Trace.follows_concat.mpr ⟨hinv.follows, hrule⟩, ?_, ?_, ?_, ?_, ?_, hinv.settled, ?_⟩,
    ⟨hgoing.stopping, hgoing.clean, hgoing.ready⟩, hloop.owned.note⟩
  · simp
  · simpa using hinv.condition
  · show s.info = _
    rw [bytesOf_concat, List.flatten_append]
    exact hinv.info.trans (List.append_nil _).symm
  · simpa using hinv.lifetime
  · simpa using hinv.exited
  · simpa using hinv.untimed

theorem writeToken_spec {pid : ℤ} {b : List Event} :
    Spec (fun s => Held w pid s ∧ s.trace =
        b ++ [.armed pid true, .running true, .cancelled false, .authorized true])
      (writeToken w) (fun _ => Loop w) (Inv w) :=
  (stable_held.asks (fun _ h => h.1.1.inv) _ _).bind fun _ =>
    Spec.write fun _ h => h.1.token h.2

theorem openGate_spec :
    Spec (fun s => Poised w s ∧ s.ownedInit = true) (openGate w) (fun _ => Judged w) (Inv w) := by
  refine (Spec.read (Q := fun a s => a = s ∧ Poised w s ∧ s.ownedInit = true)
    fun s h => ⟨rfl, h⟩).bind fun a => ?_
  split
  · next pid _ inherited hpid _ _ =>
    have hinv {s : State} (h : Held w pid s) : Inv w s := h.1.1.inv
    refine Spec.bind (R := fun armed s => Held w pid s ∧ ∃ b, s.trace = b ++ [.armed pid armed])
      ((stable_held.reaperArmed pid inherited).weaken ?_ (fun _ _ h => h) fun _ h => hinv h)
      fun armed => ?_
    · rintro s ⟨rfl, hpoised, howned⟩
      obtain ⟨pid', parent, hpid', hmem⟩ := hpoised.1.owned hpoised.2.1 howned
      obtain rfl := Option.some.inj (hpid'.symm.trans hpid)
      exact ⟨hpoised, parent, hmem⟩
    · rintro s ⟨hheld, b, hb⟩
      refine (((stable_held.lost (fun _ h => hinv h) _).bind fun answer => ?_)) s ⟨hheld, hb⟩
      cases answer with
      | true => exact blame_judged _ nofun fun _ h => h
      | false =>
        cases armed with
        | false => exact Spec.pure fun _ h => .inl h.1.1.1
        | true =>
          refine (writeToken_spec (b := b)).weaken (fun s h => ⟨h.1, ?_⟩) (fun _ _ h => .inl h)
            fun _ h => h
          simpa using h.2
  · exact Spec.raise fun s h => h.2.1.1.inv

theorem checkGate_spec : Spec (Loop w) (checkGate w) (fun _ => Loop w) (Inv w) := by
  refine (Spec.read (Q := fun a s => a = s ∧ Loop w s) fun s h => ⟨rfl, h⟩).bind fun a => ?_
  split_ifs with hgate
  · refine (handle_spec (openGate_spec.pre ?_)).bind fun _ => stopIfBlamed_spec
    rintro s ⟨rfl, h⟩
    obtain ⟨hstopping, hready, howned, hreleased⟩ := hgate
    exact ⟨⟨h, h.going.stopping hstopping, hready, hreleased⟩, howned⟩
  · exact Spec.pure fun _ h => h.2

/-! ## The head of the loop -/

theorem checkCauses_spec {deadline : ℚ} :
    Spec (Loop w) (checkCauses w deadline) (fun _ => Judged w) (Inv w) := by
  intro s hs
  refine ((stable_loop.cancelled (fun _ h => h.inv) s.trace).bind fun answer => ?_) s ⟨hs, rfl⟩
  cases answer with
  | true => exact blame_judged _ nofun fun _ h => h
  | false =>
    refine (stable_loop.authorize (fun _ h => h.inv) _).bind fun answer => ?_
    cases answer with
    | false => exact blame_judged _ nofun fun _ h => h
    | true =>
      refine Spec.bind (R := fun _ => Loop w) (stable_loop.monotonic.weaken (fun _ h => h.1)
        (fun _ _ h => h) fun _ h => h.inv) fun now => ?_
      split_ifs with hdeadline
      · exact blame_judged _ nofun fun _ h => h.inv
      · exact Spec.pure fun _ h => .inl h

theorem checkRun_spec {deadline : ℚ} :
    Spec (Loop w) (checkRun w deadline) (fun _ => Loop w) (Inv w) := by
  refine (Spec.read (Q := fun _ => Loop w) fun _ h => h).bind fun a => ?_
  split_ifs with hstopping
  · exact checkCauses_spec.bind fun _ => stopIfBlamed_spec
  · exact Spec.pure fun _ h => h

/-! ## Events -/

theorem unregister_spec : Spec (Loop w) (unregister source) (fun _ => Loop w) E :=
  Spec.write fun _ h => ⟨h.inv.same rfl, ⟨h.going.1, h.going.2, h.going.3⟩, h.owned⟩

theorem Loop.note (h : Loop w s) (hrule : rule w s.trace e) (he : Aside e)
    (hclean : e ≠ .cancelled true ∧ e ≠ .authorized false) (hready : bytesOf .ready [e] = []) :
    Loop w { s with trace := s.trace ++ [e] } :=
  ⟨h.inv.note hrule he, h.going.note hclean hready, h.owned.note⟩

theorem deliverLifetime_spec {data : Bytes} :
    Spec (Loop w) (deliverLifetime data) (fun _ => Loop w) (Inv w) := by
  unfold deliverLifetime
  split_ifs with hdata
  · subst hdata
    refine unregister_spec.bind fun _ => Spec.write fun s h => ?_
    have hgoing := h.going.note (e := .delivered .lifetime []) ⟨nofun, nofun⟩ rfl
    refine ⟨⟨Trace.follows_concat.mpr ⟨h.inv.follows, trivial⟩, ?_, ?_, ?_, ?_, ?_, ?_, ?_⟩,
      ⟨hgoing.1, hgoing.2, hgoing.3⟩, h.owned.note⟩
    · simpa using h.inv.released
    · simpa using h.inv.condition
    · show s.info = _
      rw [bytesOf_concat, List.flatten_append]
      exact h.inv.info.trans (List.append_nil _).symm
    · simp
    · simpa using h.inv.exited
    · exact (Bool.true_and _).symm
    · simpa using h.inv.untimed
  · refine Spec.write fun s h => h.note trivial ⟨nofun, nofun, nofun, ?_, nofun, ?_⟩
      ⟨nofun, nofun⟩ ?_
    · rintro ⟨⟩
      exact hdata rfl
    · simp [bytesOf]
    · simp [bytesOf]

theorem deliverInit_spec : Spec (Loop w) deliverInit (fun _ => Loop w) (Inv w) := by
  refine Spec.bind (R := fun _ => Loop w) (Spec.write fun s h => ?_) fun _ => unregister_spec
  have hgoing := h.going.note (e := .delivered .init []) ⟨nofun, nofun⟩ rfl
  refine ⟨⟨Trace.follows_concat.mpr ⟨h.inv.follows, trivial⟩, ?_, ?_, ?_, ?_, ?_, ?_, ?_⟩,
    ⟨hgoing.1, hgoing.2, hgoing.3⟩, h.owned.note⟩
  · simpa using h.inv.released
  · simpa using h.inv.condition
  · show s.info = _
    rw [bytesOf_concat, List.flatten_append]
    exact h.inv.info.trans (List.append_nil _).symm
  · simpa using h.inv.lifetime
  · simp
  · exact (Bool.and_true _).symm
  · simpa using h.inv.untimed

theorem deliverOutput_spec {data : Bytes} (hsource : source = .stdout ∨ source = .stderr) :
    Spec (Loop w) (deliverOutput source data) (fun _ => Loop w) (Inv w) := by
  refine Spec.bind (R := fun _ => Loop w) (Spec.write fun s h => ?_) fun _ => ?_
  · rcases hsource with rfl | rfl <;>
      exact h.note trivial ⟨nofun, nofun, nofun, nofun, nofun, by simp [bytesOf]⟩ ⟨nofun, nofun⟩
        (by simp [bytesOf])
  · split_ifs with hdata hs
    · exact unregister_spec
    · exact Spec.write fun s h =>
        ⟨h.inv.same rfl, ⟨h.going.1, h.going.2, h.going.3⟩, h.owned⟩
    · exact Spec.write fun s h =>
        ⟨h.inv.same rfl, ⟨h.going.1, h.going.2, h.going.3⟩, h.owned⟩

theorem deliverReady_spec {data : Bytes} :
    Spec (Loop w) (deliverReady w data) (fun _ => Loop w) (Inv w) := by
  refine (Spec.read (Q := fun a s => a = s ∧ Loop w s) fun s h => ⟨rfl, h⟩).bind fun a => ?_
  have haside : Aside (.delivered .ready data) := ⟨nofun, nofun, nofun, nofun, nofun, rfl⟩
  split_ifs with hdata hready hbyte
  · subst hdata
    exact Spec.bind (R := fun _ => Loop w) (Spec.write fun s h =>
      h.2.note trivial haside ⟨nofun, nofun⟩ rfl) fun _ => unregister_spec.bind fun _ =>
        blame_stop _ nofun fun _ h => h.inv
  · subst hdata
    exact Spec.bind (R := fun _ => Loop w) (Spec.write fun s h =>
      h.2.note trivial haside ⟨nofun, nofun⟩ rfl) fun _ => unregister_spec.bind fun _ =>
        Spec.pure fun _ h => h
  · obtain ⟨rfl, hready⟩ := hbyte
    refine Spec.write ?_
    rintro _ ⟨rfl, h⟩
    have hinv := h.inv.note (e := .delivered .ready [82]) trivial haside
    refine ⟨hinv.same rfl, ⟨h.going.stopping, fun hc => ?_, fun hc => ?_⟩, h.owned.note⟩
    · simpa using h.going.clean hc
    · have hbytes := h.going.ready hc
      rw [hready] at hbytes
      show bytesOf .ready (a.trace ++ _) = _
      rw [bytesOf_concat, hbytes]
      rfl
  · exact Spec.bind (R := fun _ => Inv w) (Spec.write fun s h => h.2.inv.note trivial haside)
      fun _ => blame_stop _ nofun fun _ h => h

/-! ## The info document -/

/-- The info document was read to its end. -/
def Documented (w : World) (s : State) : Prop :=
  Inv w s ∧ Going s ∧ .delivered .info [] ∈ s.trace

/-- The info document names a process. -/
def Named (w : World) (pid : ℤ) (s : State) : Prop :=
  Documented w s ∧ (w.loads s.info >>= childPid) = .ok pid

theorem stable_named {pid : ℤ} : Stable (Named w pid) :=
  (stable_inv.and (stable_going.and stable_mem)).and
    ⟨fun _ _ h => h, fun _ _ h => h, fun _ _ _ h => h⟩

/-- The process that the info document names is owned. -/
theorem Named.own {pid : ℤ} (h : Named w pid s) (hpid : s.initPid = some pid) :
    Loop w { s with
      trace := s.trace ++ [.owned pid w.process]
      registered := s.registered ++ [.init]
      ownedInit := true } := by
  obtain ⟨⟨hinv, hgoing, hend⟩, hnamed⟩ := h
  have hrule : rule w s.trace (.owned pid w.process) := by
    refine ⟨hend, ?_, rfl⟩
    rw [← hinv.info]
    exact hnamed
  have hgoing := hgoing.note (e := .owned pid w.process) ⟨nofun, nofun⟩ rfl
  exact ⟨(hinv.note hrule ⟨nofun, nofun, nofun, nofun, nofun, rfl⟩).same rfl,
    ⟨hgoing.1, hgoing.2, hgoing.3⟩, fun _ _ => ⟨pid, w.process, hpid, by simp⟩⟩

theorem ownInit_spec : Spec (Documented w) (ownInit w) (fun _ => Loop w) (Inv w) := by
  refine (Spec.read (Q := fun a s => a = s ∧ Documented w s) fun s h => ⟨rfl, h⟩).bind fun a => ?_
  refine Spec.bind (R := fun native s => (a = s ∧ Documented w s) ∧ w.loads a.info = .ok native)
    (Spec.of (fun native s hn h => ⟨h, hn⟩) fun s h => h.2.1) fun native => ?_
  refine Spec.bind (R := Named w) (Spec.of ?_ fun s h => h.1.2.1) fun pid => ?_
  · rintro pid s hpid ⟨⟨rfl, h⟩, hnative⟩
    exact ⟨h, by rw [hnative]; exact hpid⟩
  have hinv : ∀ s, Named w pid s → Inv w s := fun s h => h.1.1
  have hask {α : Type} (answer : ℕ → Except Exn α) :
      Spec (Named w pid) (ask answer) (fun _ => Named w pid) (Inv w) :=
    (stable_named.ask answer).weaken (fun _ h => h) (fun _ _ h => h) hinv
  have hof {α : Type} (x : Except Exn α) :
      Spec (Named w pid) (Action.of x) (fun _ => Named w pid) (Inv w) :=
    Spec.of (fun _ _ _ h => h) hinv
  refine (hask _).bind fun pidfd => Spec.bind (R := fun _ => Named w pid) (Spec.write fun s h =>
    ⟨⟨h.1.1.same rfl, ⟨h.1.2.1.1, h.1.2.1.2, h.1.2.1.3⟩, h.1.2.2⟩, h.2⟩) fun _ =>
      (hask _).bind fun status => (hof _).bind fun parent => ?_
  refine Spec.bind (R := fun _ s => Named w pid s ∧ parent = w.process)
    (Spec.of (fun _ s hc h => ⟨h, Checked.check_eq_ok.mp hc⟩) hinv) fun _ => ?_
  refine Spec.suppose (fun _ h => h.2) fun hparent => ?_
  subst hparent
  refine Spec.bind (R := fun _ => Named w pid) ((hask _).pre fun _ h => h.1) fun own =>
    (hof _).bind fun inherited => ?_
  have hnamed : Stable fun s => Named w pid s ∧ s.initPid = some pid :=
    stable_named.and ⟨fun _ _ h => h, fun _ _ h => h, fun _ _ _ h => h⟩
  refine Spec.bind (R := fun _ s => Named w pid s ∧ s.initPid = some pid) (Spec.write fun s h =>
    ⟨⟨⟨h.1.1.same rfl, ⟨h.1.2.1.1, h.1.2.1.2, h.1.2.1.3⟩, h.1.2.2⟩, h.2⟩, rfl⟩) fun _ => ?_
  refine Spec.bind (R := fun _ s => Named w pid s ∧ s.initPid = some pid)
    ((hnamed.ask _).weaken (fun _ h => h) (fun _ _ h => h) fun s h => hinv s h.1) fun _ => ?_
  intro s h
  exact ⟨by rintro _ _ ⟨⟩; exact h.1.own h.2, by rintro _ _ ⟨⟩⟩

theorem deliverInfo_spec {data : Bytes} :
    Spec (Loop w) (deliverInfo w data) (fun _ => Loop w) (Inv w) := by
  unfold deliverInfo
  split_ifs with hdata
  · subst hdata
    refine Spec.bind (R := fun _ => Documented w) (Spec.write fun s h => ?_) fun _ =>
      Spec.bind (R := fun _ => Documented w) (Spec.write fun s h => ?_) fun _ =>
        (handle_spec (ownInit_spec.post fun _ _ h => .inl h)).bind fun _ => stopIfBlamed_spec
    · have hloop := h.note (e := .delivered .info []) trivial
        ⟨nofun, nofun, nofun, nofun, nofun, rfl⟩ ⟨nofun, nofun⟩ rfl
      exact ⟨hloop.inv, hloop.going, by simp⟩
    · exact ⟨h.1.same rfl, ⟨h.2.1.1, h.2.1.2, h.2.1.3⟩, h.2.2⟩
  · refine Spec.bind (R := fun _ => Loop w) (Spec.write fun s h => ?_) fun _ =>
      (Spec.read (Q := fun _ => Loop w) fun _ h => h).bind fun a => ?_
    · have hgoing := h.going.note (e := .delivered .info data) ⟨nofun, nofun⟩ (by simp [bytesOf])
      refine ⟨⟨Trace.follows_concat.mpr ⟨h.inv.follows, trivial⟩, ?_, ?_, ?_, ?_, ?_,
        h.inv.settled, ?_⟩, ⟨hgoing.1, hgoing.2, hgoing.3⟩, h.owned.note⟩
      · simpa using h.inv.released
      · simpa using h.inv.condition
      · show s.info ++ data = (bytesOf .info (s.trace ++ [.delivered .info data])).flatten
        rw [bytesOf_concat, List.flatten_append, ← h.inv.info]
        simp [bytesOf, hdata]
      · simpa using h.inv.lifetime
      · simpa using h.inv.exited
      · simpa using h.inv.untimed
    · split_ifs with hlong
      · exact Spec.bind (R := fun _ => Blamed w) ((blame_spec .enforcementUnavailable nofun).pre
          fun _ h => h.inv) fun _ => stop_spec.bind fun _ => unregister_spec
      · exact Spec.pure fun _ h => h

/-! ## The loop -/

theorem deliver_spec : Spec (Loop w) (deliver w source) (fun _ => Loop w) (Inv w) := by
  have hread : Spec (Loop w) (ask w.read) (fun _ => Loop w) (Inv w) :=
    (stable_loop.ask _).weaken (fun _ h => h) (fun _ _ h => h) fun _ h => h.inv
  cases source with
  | init => exact deliverInit_spec
  | stdout => exact hread.bind fun _ => deliverOutput_spec (.inl rfl)
  | stderr => exact hread.bind fun _ => deliverOutput_spec (.inr rfl)
  | lifetime => exact hread.bind fun _ => deliverLifetime_spec
  | info => exact hread.bind fun _ => deliverInfo_spec
  | ready => exact hread.bind fun _ => deliverReady_spec

theorem deliverAll_spec {batch : List Source} :
    Spec (Loop w) (deliverAll w batch) (fun _ => Loop w) (Inv w) := by
  induction batch with
  | nil => exact Spec.pure fun _ h => h
  | cons source batch ih => exact deliver_spec.bind fun _ => ih

theorem turn_spec {deadline : ℚ} :
    Spec (Loop w) (turn w deadline) (fun _ => Loop w) (Inv w) := by
  have hkeeps {α : Type} {m : Act α} (h : Keeps (Loop w) m) :
      Spec (Loop w) m (fun _ => Loop w) (Inv w) :=
    h.weaken (fun _ h => h) (fun _ _ h => h) fun _ h => h.inv
  refine checkRun_spec.bind fun _ => checkGate_spec.bind fun _ =>
    (hkeeps stable_loop.stopped).bind fun answer => ?_
  cases answer with
  | true => exact Spec.pure fun _ h => h
  | false =>
    exact (hkeeps stable_loop.select).bind fun _ => deliverAll_spec.bind fun _ =>
      Spec.pure fun _ h => h

/-- The invariant of the loop, in whatever order the events are delivered. -/
theorem loop_spec {deadline : ℚ} {fuel : ℕ} :
    Spec (Loop w) (loop w deadline fuel) (fun _ => Loop w) (Inv w) := by
  induction fuel with
  | zero => exact Spec.raise fun _ h => h.inv
  | succ fuel ih =>
    refine (Spec.read (Q := fun _ => Loop w) fun _ h => h).bind fun a => ?_
    split_ifs with hdone
    · exact Spec.pure fun _ h => h
    · refine turn_spec.bind fun more => ?_
      cases more with
      | false => exact Spec.pure fun _ h => h
      | true => exact ih

/-! ## The receipt -/

/-- What the variables stand for after the loop. -/
structure Final (w : World) (s : State) : Prop where
  follows : Trace.Follows (rule w) s.trace
  released : s.released = true ↔ .token ∈ s.trace
  condition : s.condition = .completed ↔ ∀ c, .cause c ∉ s.trace
  settled : s.settled = true ↔
    .delivered .lifetime [] ∈ s.trace ∧ .delivered .init [] ∈ s.trace ∧ .timedOut ∉ s.trace

theorem Inv.final (h : Inv w s) : Final w s := by
  refine ⟨h.follows, h.released, h.condition, ?_⟩
  rw [h.settled, Bool.and_eq_true, h.lifetime, h.exited]
  exact ⟨fun hs => ⟨hs.1, hs.2, h.untimed⟩, fun hs => ⟨hs.1, hs.2.1⟩⟩

theorem Final.plain (h : Final w s) (he : Plain e) :
    Final w { s with trace := s.trace ++ [e] } := by
  cases e with
  | cancelled | authorized | running | armed =>
    refine ⟨Trace.follows_concat.mpr ⟨h.follows, trivial⟩, ?_, ?_, ?_⟩
    · simpa using h.released
    · simpa using h.condition
    · simpa using h.settled
  | delivered | owned | token | cause | timedOut => cases he

theorem Clean.quiet (h : Clean s) (he : Quiet e) : Clean { s with trace := s.trace ++ [e] } := by
  intro hc
  cases e with
  | cancelled | authorized =>
    cases he
    simpa using h hc
  | running | armed => simpa using h hc
  | delivered | owned | token | cause | timedOut => cases he

/-- The state of a run that was waited for. -/
def Done (w : World) (s : State) : Prop := Final w s ∧ Clean s

theorem stable_done : Stable (Done w) :=
  ⟨fun _ _ h => ⟨⟨h.1.1, h.1.2, h.1.3, h.1.4⟩, h.2⟩,
    fun _ _ h => ⟨⟨h.1.1, h.1.2, h.1.3, h.1.4⟩, h.2⟩,
    fun _ _ he h => ⟨h.1.plain he.plain, h.2.quiet he⟩⟩

/-- A process that could not be waited for leaves the run unsettled. -/
theorem Done.unsettle (h : Done w s) :
    Done w { s with settled := false, trace := s.trace ++ [.timedOut] } := by
  refine ⟨⟨Trace.follows_concat.mpr ⟨h.1.follows, trivial⟩, ?_, ?_, ?_⟩, fun hc => ?_⟩
  · simpa using h.1.released
  · simpa using h.1.condition
  · simp
  · simpa using h.2 hc

theorem unsettle_spec
    (hunsettle : ∀ s, P s → P { s with settled := false, trace := s.trace ++ [.timedOut] }) :
    Keeps P unsettle := by
  intro s hs
  exact ⟨by rintro _ _ ⟨⟩; exact hunsettle s hs, by rintro _ _ ⟨⟩⟩

theorem body_spec {deadline : ℚ} {fuel : ℕ} :
    Spec (Loop w) (body w deadline fuel) (fun _ => Done w)
      fun s => Trace.Follows (rule w) s.trace := by
  have hdone {α : Type} {m : Act α} (h : Keeps (Done w) m) :
      Spec (Done w) m (fun _ => Done w) fun s => Trace.Follows (rule w) s.trace :=
    h.weaken (fun _ h => h) (fun _ _ h => h) fun _ h => h.1.follows
  refine Spec.bind (R := fun _ => Done w) (loop_spec.weaken (fun _ h => h)
    (fun _ _ h => ⟨h.inv.final, h.going.clean⟩) fun _ h => h.follows) fun _ =>
      (hdone stable_done.wait).bind fun code => ?_
  cases code with
  | some code => exact Spec.pure fun _ h => h
  | none =>
    exact (hdone (unsettle_spec fun _ h => Done.unsettle h)).bind fun _ => Spec.pure fun _ h => h

theorem reap_spec (hP : Stable P)
    (hunsettle : ∀ s, P s → P { s with settled := false, trace := s.trace ++ [.timedOut] }) :
    Keeps P (reap w) := by
  refine hP.poll_keeps.bind fun code => ?_
  cases code with
  | some code => exact Spec.pure fun _ h => h
  | none =>
    refine hP.kill.bind fun _ => hP.wait.bind fun code => ?_
    cases code with
    | some code => exact Spec.pure fun _ h => h
    | none => exact unsettle_spec hunsettle

theorem stable_follows : Stable fun s => Trace.Follows (rule w) s.trace := by
  refine ⟨fun _ _ h => h, fun _ _ h => h, fun s e he h => Trace.follows_concat.mpr ⟨h, ?_⟩⟩
  cases e with
  | cancelled | authorized | running | armed => trivial
  | delivered | owned | token | cause | timedOut => cases he

/-- A run that may say that it is completed. -/
structure Earned (exitCode : Option ℤ) (s : State) : Prop where
  condition : s.condition = .completed
  clean : .cancelled true ∉ s.trace ∧ .authorized false ∉ s.trace
  exitCode : exitCode = some 0
  released : s.released = true
  authorized : ∃ b, s.trace = b ++ [.authorized true]

theorem judge_spec {exitCode : Option ℤ} {observedAt : ℤ} :
    Spec (Done w) (judge w exitCode observedAt)
      (fun c s => Final w s ∧ (c = .completed → Earned exitCode s)) (Final w) := by
  refine (Spec.read (Q := fun a s => a = s ∧ Done w s) fun s h => ⟨rfl, h⟩).bind fun a => ?_
  extract_lets condition judged
  have hjudged : judged = .completed →
      a.condition = .completed ∧ exitCode = some 0 ∧ a.released = true := by
    intro h
    simp only [judged, condition] at h
    split_ifs at h with h1 h2 h2
    simp_all
  split_ifs with hc
  · obtain ⟨hcondition, hexit, hreleased⟩ := hjudged hc
    rintro s ⟨rfl, h⟩
    have hstable : Stable fun s => Done w s ∧ s.condition = .completed ∧ s.released = true :=
      stable_done.and ⟨fun _ _ h => h, fun _ _ h => h, fun _ _ _ h => h⟩
    refine ((hstable.authorizeAt (E := Final w) (fun s h => h.1.1) (fun s e he h => h.plain he)
      observedAt a.trace).bind fun answer => ?_) a ⟨⟨h, hcondition, hreleased⟩, rfl⟩
    cases answer with
    | true =>
      refine Spec.pure fun s h => ⟨h.1.1.1, fun _ => ?_⟩
      obtain ⟨⟨hdone, hcondition, hreleased⟩, htrace⟩ := h
      exact ⟨hcondition, hdone.2 hcondition, hexit, hreleased, a.trace, htrace⟩
    | false => exact Spec.pure fun s h => ⟨h, nofun⟩
  · exact Spec.pure fun s h => ⟨h.2.1, fun he => absurd he hc⟩

/-- What a receipt says of the run. -/
def Truthful (w : World) (r : Receipt) (s : State) : Prop :=
  Final w s ∧ (r.condition = .completed → r.settled = true ∧ Earned r.exitCode s) ∧
    r.settled = s.settled

theorem receipt_spec {exitCode : Option ℤ} :
    Spec (Done w) (receipt w exitCode) (Truthful w) (Final w) := by
  refine Spec.bind (R := fun _ => Done w) ((stable_done.ask _).weaken (fun _ h => h)
    (fun _ _ h => h) fun _ h => h.1) fun observedAt => judge_spec.bind fun condition =>
      (Spec.read (Q := fun a s => a = s ∧ Final w s ∧ (condition = .completed → Earned exitCode s))
        fun s h => ⟨rfl, h⟩).bind fun a => Spec.pure ?_
  rintro s ⟨rfl, hfinal, hearned⟩
  refine ⟨hfinal, fun hc => ?_, rfl⟩
  change (if a.settled = true then condition else _) = _ at hc
  split_ifs at hc with hsettled
  exact ⟨hsettled, hearned hc⟩

theorem run_spec {fuel : ℕ} :
    Spec (Loop w) (run w fuel) (Truthful w) fun s => Trace.Follows (rule w) s.trace := by
  refine Spec.bind (R := fun _ => Loop w) (stable_loop.monotonic.weaken (fun _ h => h)
    (fun _ _ h => h) fun _ h => h.inv.follows) fun now => ?_
  refine Spec.bind (R := fun r s => match r with
    | .ok _ => Done w s
    | .error _ => Trace.Follows (rule w) s.trace)
    (Spec.attempt (body_spec.weaken (fun _ h => h) (fun _ _ h => h) fun _ h _ => h)) fun r => ?_
  have hfollows : Keeps (fun s => Trace.Follows (rule w) s.trace) (reap w) :=
    reap_spec stable_follows fun _ h => Trace.follows_concat.mpr ⟨h, trivial⟩
  cases r with
  | error e =>
    cases e with
    | unfinished => exact Spec.raise fun _ h => h
    | os | value | key | index | type | stopIteration | other =>
      exact hfollows.bind fun _ => Spec.raise fun _ h => h
  | ok exitCode =>
    exact Spec.bind (R := fun _ => Done w) ((reap_spec stable_done fun _ h => Done.unsettle h).weaken
      (fun _ h => h) (fun _ _ h => h) fun _ h => h.1.follows) fun _ =>
        receipt_spec.weaken (fun _ h => h) (fun _ _ h => h) fun _ h => h.follows

theorem initial_loop : Loop w .initial := by
  refine ⟨⟨Trace.follows_nil, ?_, ?_, rfl, ?_, ?_, rfl, ?_⟩, ⟨fun _ => rfl, fun _ => ?_, fun _ => rfl⟩,
    nofun⟩ <;> simp [State.initial]

/-- The gate and the settlement of a run, whatever the processes, the pipes, the clocks and the
authorizer answer, in whatever batches: what is done follows the rule, and the token is written at
most once; a completed receipt belongs to a run that wrote the token, ended with code 0, had no
cause to stop, was authorized at its end and is settled; and a run is settled exactly if it has
seen the end of the lifetime pipe and the exit of the init process, and waiting did not time out. -/
theorem gate_and_settlement (w : World) (fuel : ℕ) :
    let r := run w fuel .initial
    Trace.Follows (rule w) r.2.trace ∧
      (∀ before after, r.2.trace = before ++ .token :: after → .token ∉ before ∧ .token ∉ after) ∧
      ∀ receipt, r.1 = .ok receipt →
        (receipt.condition = .completed →
          .token ∈ r.2.trace ∧ receipt.exitCode = some 0 ∧ (∀ c, .cause c ∉ r.2.trace) ∧
            .cancelled true ∉ r.2.trace ∧ .authorized false ∉ r.2.trace ∧
            (∃ b, r.2.trace = b ++ [.authorized true]) ∧ receipt.settled = true) ∧
        (receipt.settled = true ↔ .delivered .lifetime [] ∈ r.2.trace ∧
          .delivered .init [] ∈ r.2.trace ∧ .timedOut ∉ r.2.trace) := by
  intro r
  obtain ⟨hok, herror⟩ := @run_spec w fuel .initial initial_loop
  have hfollows : Trace.Follows (rule w) r.2.trace := by
    cases hr : run w fuel .initial with
    | mk result s =>
      have hr' : r = (result, s) := hr
      rw [hr']
      cases result with
      | ok receipt => exact (hok receipt s hr).1.follows
      | error e => exact herror e s hr
  refine ⟨hfollows, fun before after h => ?_, fun receipt h => ?_⟩
  · rw [h] at hfollows
    exact hfollows.not_mem_after fun _ h => h.1
  · obtain ⟨hfinal, hearned, hsettled⟩ := hok receipt r.2 (Prod.ext h rfl)
    refine ⟨fun hc => ?_, hsettled ▸ hfinal.settled⟩
    obtain ⟨hs, hc, hclean, hexit, hreleased, hauthorized⟩ := hearned hc
    exact ⟨hfinal.released.mp hreleased, hexit, hfinal.condition.mp hc, hclean.1, hclean.2,
      hauthorized, hs⟩

namespace Sample

/-- The launched process is 10, its init process is 11, and the filter of the reaper is in place. -/
def world : World :=
  { process := 10
    controller := 1
    timeoutSeconds := 60
    loads := fun _ => .ok (.obj [("child-pid", .int 11)])
    cancelled := fun _ => .ok false
    clock := fun n => .ok n
    authorize := fun _ _ => .ok true
    monotonic := fun _ => 0
    poll := fun _ => none
    kill := fun _ => .ok ()
    wait := fun _ => .ok (some 0)
    select := fun n =>
      if n < 8 then [.ready] else if n < 20 then [.info]
      else [.init, .lifetime, .stdout, .ready, .stderr]
    read := fun n => .ok (if n < 8 then [82] else [])
    pidfdOpen := fun _ _ => .ok 3
    register := fun _ => .ok ()
    status := fun _ pid => .ok <|
      if pid = 10 then ⟨.ok 10, .ok 1, .ok [10], .ok 0, .ok 0⟩
      else ⟨.ok 11, .ok 10, .ok [11, 1], .ok 1, .ok 2⟩
    exited := fun _ => .ok false
    write := fun _ => .ok () }

end Sample

/-- A run is completed also when the exit of the init process is seen before the lifetime pipe. -/
example : (run Sample.world 9 .initial).1 = .ok ⟨38, some 0, .completed, true, [], []⟩ := by
  decide +kernel

end Bubblewrap

end CreatidyKernel
