import Mathlib.Data.List.DropRight
import CreatidyKernel.Core.Values
import CreatidyKernel.Lib.Runs

set_option relaxedAutoImplicit false
set_option autoImplicit false

/-!
# Progress streams

A progress buffer keeps the last events of one producer in one scope, up to a capacity, under
consecutive sequence numbers. A reader holds a position and reads the events after it; when an
event it has not seen is gone, or must not be trusted, the batch says that there is a gap.

## Main definitions

* `ProgressPosition`, `ProgressEvent`, `ProgressBatch` — the values.
* `ProgressBuffer` — the buffer, with `append` and `read`.
* `ProgressBuffer.Logged` — the buffer holds the end of a log of events.
* `ProgressBuffer.follow` — a reader that goes on from the position of its last batch.

## Main results

* `ProgressBuffer.Logged.read` — what a read of a logged buffer returns.
* `ProgressBuffer.Logged.follow` — a reader without gaps sees every event once and in order.
* `ProgressBuffer.no_silent_loss` — both, for every run of a new buffer.
-/

namespace CreatidyKernel

open Checked

/-- `ProgressRefused`. -/
structure ProgressRefused where
  message : String
deriving DecidableEq, Repr

/-! ## Values -/

/-- `re.fullmatch(r"[0-9a-f]{32}", producer)`. -/
def IsProducer (producer : String) : Prop :=
  producer.toList.length = 32 ∧
    ∀ c ∈ producer.toList, ('0' ≤ c ∧ c ≤ '9') ∨ ('a' ≤ c ∧ c ≤ 'f')

instance (producer : String) : Decidable (IsProducer producer) :=
  inferInstanceAs (Decidable (_ ∧ _))

/-- The largest sequence number, `2**63 - 1`. -/
def maxSequence : ℕ := 2 ^ 63 - 1

/-- A place in the stream of a producer in a scope. -/
@[ext] structure ProgressPosition where
  producer : String
  scope : String
  sequence : ℕ
  producer_valid : IsProducer producer
  scope_valid : Nonblank scope
  sequence_le : sequence ≤ maxSequence
deriving DecidableEq

/-- The kinds of events. -/
inductive ProgressKind
  | snapshotChanged | decisionRequired | resyncRequired
deriving DecidableEq, Repr

/-- The kind with a text. -/
def progressKindOf? : String → Option ProgressKind
  | "snapshot-changed" => some .snapshotChanged
  | "decision-required" => some .decisionRequired
  | "resync-required" => some .resyncRequired
  | _ => none

/-- A hint that something changed. -/
structure ProgressEvent where
  position : ProgressPosition
  kind : ProgressKind
  revision : ℕ
  positive : 1 ≤ position.sequence
deriving DecidableEq

/-- What a read returns. -/
structure ProgressBatch where
  events : List ProgressEvent
  position : ProgressPosition
  gap : Bool
deriving DecidableEq

/-- The constructor of a position. -/
def ProgressPosition.init (producer scope : String) (sequence : ℕ) :
    Except ProgressRefused ProgressPosition :=
  if h : IsProducer producer ∧ Nonblank scope ∧ sequence ≤ maxSequence then
    .ok ⟨producer, scope, sequence, h.1, h.2.1, h.2.2⟩
  else .error ⟨"invalid producer-scoped progress position"⟩

/-- The constructor of an event. -/
def ProgressEvent.init (position : ProgressPosition) (kind : String) (revision : ℤ) :
    Except ProgressRefused ProgressEvent :=
  match progressKindOf? kind with
  | none => .error ⟨"invalid bounded progress event"⟩
  | some kind =>
    if h : 1 ≤ position.sequence ∧ 0 ≤ revision then
      .ok ⟨position, kind, revision.toNat, h.1⟩
    else .error ⟨"invalid bounded progress event"⟩

/-! ## The buffer -/

/-- The last events of a producer in a scope; `capacity` is the `maxlen` of the deque. -/
structure ProgressBuffer where
  position : ProgressPosition
  events : List ProgressEvent
  capacity : ℕ
  capacity_valid : 1 ≤ capacity ∧ capacity ≤ 4096

namespace ProgressBuffer

/-- The constructor of a buffer. -/
def init (producer scope : String) (capacity : ℕ) : Except ProgressRefused ProgressBuffer :=
  if h : 1 ≤ capacity ∧ capacity ≤ 4096 then do
    let position ← ProgressPosition.init producer scope 0
    return ⟨position, [], capacity, h⟩
  else .error ⟨"progress capacity outside supported bound"⟩

/-- `append`: a full deque drops its oldest event. -/
def append (b : ProgressBuffer) (kind : String) (revision : ℤ) :
    Except ProgressRefused (ProgressEvent × ProgressBuffer) := do
  let position ← ProgressPosition.init b.position.producer b.position.scope
    (b.position.sequence + 1)
  let event ← ProgressEvent.init position kind revision
  return (event, { b with
    events := (b.events ++ [event]).rtake b.capacity
    position })

/-- `read`. -/
def read (b : ProgressBuffer) (after : ProgressPosition) (limit : ℤ) :
    Except ProgressRefused ProgressBatch :=
  if ¬(1 ≤ limit ∧ limit ≤ 4096) then .error ⟨"invalid progress read"⟩
  else if (after.producer, after.scope) ≠ (b.position.producer, b.position.scope) ∨
      b.position.sequence < after.sequence then .ok ⟨[], b.position, true⟩
  else if ∃ oldest ∈ b.events.head?, after.sequence + 1 < oldest.position.sequence then
    .ok ⟨[], b.position, true⟩
  else
    let events := (b.events.filter fun e => after.sequence < e.position.sequence).take limit.toNat
    if ∃ e ∈ events, e.kind = .resyncRequired then
      .ok ⟨events.filter fun e => e.kind = .resyncRequired, b.position, true⟩
    else .ok ⟨events, (events.getLast?.map ProgressEvent.position).getD after, false⟩

/-- The buffer after a call of `append`. -/
def next (b : ProgressBuffer) (call : String × ℤ) : ProgressBuffer :=
  Runs.settle b (b.append call.1 call.2)

/-- The events a run of appends returned. -/
def accepted (b : ProgressBuffer) : List (String × ℤ) → List ProgressEvent
  | [] => []
  | call :: calls =>
    match b.append call.1 call.2 with
    | .ok (event, b') => event :: b'.accepted calls
    | .error _ => b.accepted calls

/-! ## Logs -/

/-- The buffer holds the end of a log, in which the events have consecutive numbers. -/
structure Logged (b : ProgressBuffer) (log : List ProgressEvent) : Prop where
  position : b.position.sequence = log.length
  numbered : log.map (fun e => e.position.sequence) = List.range' 1 log.length
  source : ∀ e ∈ log, e.position.producer = b.position.producer ∧
    e.position.scope = b.position.scope
  events : b.events = log.rtake b.capacity

variable {b b' : ProgressBuffer} {log : List ProgressEvent}

/-- Keeping the end of a list can be done at every step. -/
theorem rtake_rtake_concat {α : Type} (l : List α) (a : α) {n : ℕ} (hn : 1 ≤ n) :
    (l.rtake n ++ [a]).rtake n = (l ++ [a]).rtake n := by
  obtain ⟨n, rfl⟩ : ∃ m, n = m + 1 := ⟨n - 1, by omega⟩
  rw [List.rtake_concat_succ, List.rtake_concat_succ]
  congr 1
  simp only [List.rtake, List.length_drop, List.drop_drop]
  congr 1
  omega

/-- An accepted event has the next number, and the buffer keeps it. -/
theorem append_spec {kind : String} {revision : ℤ} {e : ProgressEvent}
    (h : b.append kind revision = .ok (e, b')) :
    e.position.producer = b.position.producer ∧ e.position.scope = b.position.scope ∧
      e.position.sequence = b.position.sequence + 1 ∧
      b' = { b with events := (b.events ++ [e]).rtake b.capacity, position := e.position } := by
  obtain ⟨position, hp, h⟩ := bind_eq_ok.1 h
  obtain ⟨event, he, h⟩ := bind_eq_ok.1 h
  cases pure_eq_ok.1 h
  have hpos : e.position = position := by
    unfold ProgressEvent.init at he
    split at he
    · cases he
    · split_ifs at he
      obtain rfl := Except.ok.inj he
      rfl
  unfold ProgressPosition.init at hp
  split_ifs at hp
  obtain rfl := Except.ok.inj hp
  rw [hpos]
  exact ⟨rfl, rfl, rfl, rfl⟩

/-- An append extends the log. -/
theorem Logged.append (h : b.Logged log) {kind : String} {revision : ℤ} {e : ProgressEvent}
    (ha : b.append kind revision = .ok (e, b')) : b'.Logged (log ++ [e]) := by
  obtain ⟨hp, hs, hn, rfl⟩ := append_spec ha
  have hn' : e.position.sequence = log.length + 1 := by rw [hn, h.position]
  refine ⟨?_, ?_, ?_, ?_⟩
  · rw [List.length_append]
    exact hn'
  · rw [List.map_append, h.numbered, List.length_append, List.length_singleton,
      List.range'_concat, List.map_singleton, hn', one_mul, add_comm 1]
  · intro x hx
    show x.position.producer = e.position.producer ∧ x.position.scope = e.position.scope
    rw [hp, hs]
    cases List.mem_append.1 hx with
    | inl hx => exact h.source x hx
    | inr hx =>
      obtain rfl := List.mem_singleton.1 hx
      exact ⟨hp, hs⟩
  · show (b.events ++ [e]).rtake b.capacity = _
    rw [h.events]
    exact rtake_rtake_concat log e b.capacity_valid.1

/-- A run of appends extends the log by the events it returned. -/
theorem Logged.run (h : b.Logged log) (calls : List (String × ℤ)) :
    (Runs.run next b calls).Logged (log ++ b.accepted calls) := by
  induction calls generalizing b log with
  | nil => simpa [accepted] using h
  | cons call calls ih =>
    rw [Runs.run_cons, next, accepted]
    cases ha : b.append call.1 call.2 with
    | error e => exact ih h
    | ok r =>
      obtain ⟨event, b'⟩ := r
      show (Runs.run next b' calls).Logged (log ++ event :: b'.accepted calls)
      rw [List.append_cons]
      exact ih (h.append ha)

theorem init_logged {producer scope : String} {capacity : ℕ}
    (h : init producer scope capacity = .ok b) : b.Logged [] := by
  unfold init at h
  split_ifs at h
  obtain ⟨position, hp, h⟩ := bind_eq_ok.1 h
  cases pure_eq_ok.1 h
  unfold ProgressPosition.init at hp
  split_ifs at hp
  obtain rfl := Except.ok.inj hp
  exact ⟨rfl, rfl, nofun, by simp⟩

/-! ## Reading -/

/-- With consecutive numbers the items above a number are the end of the list. -/
theorem filter_lt_of_numbered {α : Type} {f : α → ℕ} {l : List α} {s : ℕ}
    (h : l.map f = List.range' s l.length) (a : ℕ) :
    l.filter (fun x => a < f x) = l.drop (a + 1 - s) := by
  induction l generalizing s with
  | nil => simp
  | cons x l ih =>
    rw [List.map_cons, List.length_cons, List.range'_succ, List.cons.injEq] at h
    have hl := ih h.2
    by_cases ha : a < f x
    · have hz : a + 1 - (s + 1) = 0 := by omega
      have hz' : a + 1 - s = 0 := by omega
      rw [hz, List.drop_zero] at hl
      rw [List.filter_cons_of_pos (by simpa using ha), hl, hz', List.drop_zero]
    · have hs : a + 1 - s = (a + 1 - (s + 1)) + 1 := by omega
      rw [List.filter_cons_of_neg (by simpa using ha), hl, hs, List.drop_succ_cons]

/-- The oldest retained event is the one after those that were dropped. -/
theorem Logged.numbered_events (h : b.Logged log) :
    b.events.map (fun e => e.position.sequence) =
      List.range' (1 + (log.length - b.capacity)) b.events.length := by
  rw [h.events, List.rtake, List.map_drop, h.numbered, List.length_drop, List.drop_range', mul_one]

/-- An event the reader has not seen was dropped exactly when the oldest retained one is not the
next one of the reader. -/
theorem Logged.dropped_iff (h : b.Logged log) (after : ℕ) :
    (∃ oldest ∈ b.events.head?, after + 1 < oldest.position.sequence) ↔
      after < log.length - b.capacity := by
  have hnum := h.numbered_events
  have hlen : b.events.length = log.length - (log.length - b.capacity) := by
    rw [h.events, List.rtake, List.length_drop]
  have hcap := b.capacity_valid.1
  cases hb : b.events with
  | nil =>
    rw [hb, List.length_nil] at hlen
    simp only [List.head?_nil, Option.mem_def, reduceCtorEq, false_and, exists_false, false_iff]
    omega
  | cons oldest rest =>
    rw [hb, List.map_cons, List.length_cons, List.range'_succ, List.cons.injEq] at hnum
    simp only [List.head?_cons, Option.mem_def, Option.some.injEq, exists_eq_left', hnum.1]
    omega

/-- The events above a retained position are the end of the log. -/
theorem Logged.filter_events (h : b.Logged log) {after : ℕ}
    (ha : ¬after < log.length - b.capacity) :
    b.events.filter (fun e => after < e.position.sequence) = log.drop after := by
  rw [filter_lt_of_numbered h.numbered_events, h.events, List.rtake, List.drop_drop]
  congr 1
  omega

theorem Logged.getElem_sequence (h : b.Logged log) {i : ℕ} (hi : i < log.length) :
    log[i].position.sequence = i + 1 := by
  have hget := congrArg (fun l => l[i]?) h.numbered
  simp only [List.getElem?_map, List.getElem?_eq_getElem hi, Option.map_some,
    List.getElem?_range' hi, Option.some.injEq] at hget
  omega

/-- The dropped events are those below the retained ones. -/
theorem Logged.exists_dropped_iff (h : b.Logged log) (after : ℕ) :
    (∃ e ∈ log, after < e.position.sequence ∧ e ∉ b.events) ↔
      after < log.length - b.capacity := by
  constructor
  · rintro ⟨e, he, hlt, hout⟩
    obtain ⟨i, hi, rfl⟩ := List.mem_iff_getElem.1 he
    rw [h.getElem_sequence hi] at hlt
    by_contra hk
    refine hout ?_
    rw [h.events, List.rtake, List.mem_iff_getElem]
    refine ⟨i - (log.length - b.capacity), by rw [List.length_drop]; omega, ?_⟩
    rw [List.getElem_drop]
    congr 1
    omega
  · intro hk
    have hi : after < log.length := by omega
    refine ⟨log[after], List.getElem_mem hi, by rw [h.getElem_sequence hi]; omega, fun hin => ?_⟩
    rw [h.events, List.rtake] at hin
    obtain ⟨j, hj, hje⟩ := List.mem_iff_getElem.1 hin
    rw [List.getElem_drop] at hje
    have hseq := congrArg (fun e => e.position.sequence) hje
    simp only [h.getElem_sequence] at hseq
    omega

/-- What a reader has to be told: the position is of another stream or was never issued, an event
it has not seen was dropped, or it has to take a fresh snapshot. -/
def Gap (b : ProgressBuffer) (log : List ProgressEvent) (after : ProgressPosition) (limit : ℤ) :
    Prop :=
  (after.producer, after.scope) ≠ (b.position.producer, b.position.scope) ∨
    b.position.sequence < after.sequence ∨
    (∃ e ∈ log, after.sequence < e.position.sequence ∧ e ∉ b.events) ∨
    ∃ e ∈ (log.drop after.sequence).take limit.toNat, e.kind = .resyncRequired

/-- The next events of a reader, with the position after them. -/
structure Continues (log : List ProgressEvent) (after : ProgressPosition) (limit : ℤ)
    (batch : ProgressBatch) : Prop where
  events : batch.events = (log.drop after.sequence).take limit.toNat
  last : batch.position = (batch.events.getLast?.map ProgressEvent.position).getD after
  sequence : batch.position.sequence = min (after.sequence + limit.toNat) log.length
  source : batch.position.producer = after.producer ∧ batch.position.scope = after.scope

/-- A read reports a gap exactly when there is one, and otherwise returns the next events. -/
theorem Logged.read (h : b.Logged log) {after : ProgressPosition} {limit : ℤ}
    {batch : ProgressBatch} (hr : b.read after limit = .ok batch) :
    (batch.gap = true ↔ b.Gap log after limit) ∧
      (batch.gap = false → Continues log after limit batch) := by
  rw [ProgressBuffer.read] at hr
  by_cases hlimit : 1 ≤ limit ∧ limit ≤ 4096
  swap
  · simp [hlimit] at hr
  rw [if_neg (not_not.2 hlimit)] at hr
  by_cases hforeign : (after.producer, after.scope) ≠ (b.position.producer, b.position.scope) ∨
      b.position.sequence < after.sequence
  · rw [if_pos hforeign, Except.ok.injEq] at hr
    subst hr
    refine ⟨⟨fun _ => ?_, fun _ => rfl⟩, nofun⟩
    exact hforeign.imp_right Or.inl
  rw [if_neg hforeign] at hr
  by_cases hdropped : ∃ oldest ∈ b.events.head?, after.sequence + 1 < oldest.position.sequence
  · rw [if_pos hdropped, Except.ok.injEq] at hr
    subst hr
    have hd := (h.exists_dropped_iff _).2 ((h.dropped_iff _).1 hdropped)
    exact ⟨⟨fun _ => .inr (.inr (.inl hd)), fun _ => rfl⟩, nofun⟩
  rw [if_neg hdropped] at hr
  have hkept := mt (h.dropped_iff _).2 hdropped
  simp only [h.filter_events hkept] at hr
  by_cases hresync : ∃ e ∈ (log.drop after.sequence).take limit.toNat, e.kind = .resyncRequired
  · rw [if_pos hresync, Except.ok.injEq] at hr
    subst hr
    exact ⟨⟨fun _ => .inr (.inr (.inr hresync)), fun _ => rfl⟩, nofun⟩
  rw [if_neg hresync, Except.ok.injEq] at hr
  subst hr
  rw [not_or, not_not, not_lt] at hforeign
  obtain ⟨hsource, hpast⟩ := hforeign
  have hno : ¬b.Gap log after limit := by
    rintro (hf | hf | hf | hf)
    · exact hf hsource
    · exact absurd hf (not_lt.2 hpast)
    · exact hkept ((h.exists_dropped_iff _).1 hf)
    · exact hresync hf
  rw [h.position] at hpast
  refine ⟨⟨nofun, fun hg => absurd hg hno⟩, fun _ => ?_⟩
  -- the last of the next events, if there is one
  have hlen : ((log.drop after.sequence).take limit.toNat).length =
      min limit.toNat (log.length - after.sequence) := by
    rw [List.length_take, List.length_drop]
  cases hlast : ((log.drop after.sequence).take limit.toNat).getLast? with
  | none =>
    rw [List.getLast?_eq_none_iff] at hlast
    rw [hlast, List.length_nil] at hlen
    refine ⟨rfl, by rw [hlast]; rfl, ?_, rfl, rfl⟩
    show after.sequence = _
    omega
  | some e =>
    refine ⟨rfl, by rw [hlast], ?_, ?_⟩
    · rw [List.getLast?_eq_getElem?, hlen, List.getElem?_take, List.getElem?_drop] at hlast
      split_ifs at hlast with hlt
      obtain ⟨hi, he⟩ := List.getElem?_eq_some_iff.1 hlast
      show e.position.sequence = _
      rw [← he, h.getElem_sequence hi]
      omega
    · have he : e ∈ log :=
        List.mem_of_mem_drop (List.mem_of_mem_take (List.mem_of_getLast? hlast))
      rw [Prod.mk.injEq] at hsource
      exact ⟨(h.source e he).1.trans hsource.1.symm, (h.source e he).2.trans hsource.2.symm⟩

/-- A read with a supported limit returns. -/
theorem read_ok (b : ProgressBuffer) (after : ProgressPosition) {limit : ℤ}
    (hl : 1 ≤ limit ∧ limit ≤ 4096) : ∃ batch, b.read after limit = .ok batch := by
  unfold ProgressBuffer.read
  rw [if_neg (not_not.2 hl)]
  dsimp only
  split_ifs <;> exact ⟨_, rfl⟩

/-! ## Readers -/

/-- What happens while a reader follows a stream. -/
inductive Step
  | append (kind : String) (revision : ℤ)
  | read (limit : ℤ)

/-- The events a reader sees that goes on from the position of its last batch, and where it ends;
it stops at a gap. -/
def follow (b : ProgressBuffer) (after : ProgressPosition) :
    List Step → Option (List ProgressEvent × ProgressPosition × ProgressBuffer)
  | [] => some ([], after, b)
  | .append kind revision :: steps => (b.next (kind, revision)).follow after steps
  | .read limit :: steps =>
    match b.read after limit with
    | .error _ => b.follow after steps
    | .ok batch =>
      if batch.gap then none
      else (b.follow batch.position steps).map fun r => (batch.events ++ r.1, r.2)

/-- The appends among some steps. -/
def appends (steps : List Step) : List (String × ℤ) :=
  steps.filterMap fun
    | .append kind revision => some (kind, revision)
    | .read _ => none

/-- Two adjoining parts of a list. -/
theorem drop_take_append {α : Type} (l : List α) {i j k : ℕ} (hij : i ≤ j) (hjk : j ≤ k) :
    (l.take j).drop i ++ (l.take k).drop j = (l.take k).drop i := by
  have hk : k - i = (j - i) + (k - j) := by omega
  have hj : i + (j - i) = j := by omega
  rw [List.drop_take, List.drop_take, List.drop_take, hk, List.take_add, List.drop_drop, hj]

/-- A reader without gaps sees the events of the log between its first and its last position. -/
theorem Logged.follow (h : b.Logged log) {after position : ProgressPosition} {steps : List Step}
    {seen : List ProgressEvent} (hf : b.follow after steps = some (seen, position, b')) :
    b' = Runs.run next b (appends steps) ∧ after.sequence ≤ position.sequence ∧
      position.sequence ≤ max after.sequence (log ++ b.accepted (appends steps)).length ∧
      seen = ((log ++ b.accepted (appends steps)).take position.sequence).drop after.sequence := by
  induction steps generalizing b log after seen with
  | nil =>
    rw [ProgressBuffer.follow, Option.some.injEq, Prod.mk.injEq, Prod.mk.injEq] at hf
    obtain ⟨rfl, rfl, rfl⟩ := hf
    refine ⟨rfl, le_rfl, le_max_left _ _, ?_⟩
    rw [List.drop_eq_nil_of_le]
    rw [List.length_take]
    omega
  | cons step steps ih =>
    cases step with
    | append kind revision =>
      rw [ProgressBuffer.follow, next] at hf
      rw [show appends (.append kind revision :: steps) = (kind, revision) :: appends steps from rfl,
        accepted, Runs.run_cons, next]
      cases hap : b.append kind revision with
      | error e =>
        rw [hap] at hf
        exact ih h hf
      | ok r =>
        obtain ⟨event, b₁⟩ := r
        rw [hap] at hf
        have hend := ih (h.append hap) hf
        rwa [← List.append_cons] at hend
    | read limit =>
      rw [ProgressBuffer.follow] at hf
      rw [show appends (.read limit :: steps) = appends steps from rfl]
      cases hr : b.read after limit with
      | error e =>
        rw [hr] at hf
        exact ih h hf
      | ok batch =>
        rw [hr] at hf
        simp only at hf
        by_cases hg : batch.gap = true
        · simp [hg] at hf
        rw [if_neg hg] at hf
        obtain ⟨⟨seen', p, c⟩, hf', he⟩ := Option.map_eq_some_iff.1 hf
        simp only [Prod.mk.injEq] at he
        obtain ⟨rfl, rfl, rfl⟩ := he
        obtain ⟨hevents, -, hseq, -⟩ := (h.read hr).2 (by simpa using hg)
        have hpast : ¬b.position.sequence < after.sequence := fun hf =>
          hg ((h.read hr).1.2 (.inr (.inl hf)))
        rw [h.position] at hpast
        have hle : batch.position.sequence ≤ log.length := by omega
        obtain ⟨hb, hmono, hlast, rfl⟩ := ih h hf'
        refine ⟨hb, by omega, ?_, ?_⟩
        · rw [List.length_append] at hlast ⊢
          omega
        -- the batch is the part up to its position, the rest comes after it
        have hbatch : batch.events = ((log ++ b.accepted (appends steps)).take
            batch.position.sequence).drop after.sequence := by
          rw [List.take_append_of_le_length hle, hevents, List.take_drop, hseq,
            ← List.take_eq_take_min]
        rw [hbatch]
        exact drop_take_append _ (by omega) hmono

/-- At the last sequence number nothing is appended. -/
theorem append_refused (h : b.position.sequence = maxSequence) (kind : String) (revision : ℤ) :
    b.append kind revision = .error ⟨"invalid producer-scoped progress position"⟩ ∧
      b.next (kind, revision) = b := by
  have hp : ProgressPosition.init b.position.producer b.position.scope (b.position.sequence + 1) =
      .error ⟨"invalid producer-scoped progress position"⟩ := by
    unfold ProgressPosition.init
    rw [dif_neg]
    rintro ⟨-, -, hle⟩
    omega
  have ha : b.append kind revision = .error ⟨"invalid producer-scoped progress position"⟩ := by
    rw [append, hp, error_bind]
  exact ⟨ha, by rw [next, ha, Runs.settle_error]⟩

/-- In every run of a new buffer the accepted events have the numbers from 1 on; a read with a
supported limit reports a gap exactly when there is one and otherwise returns exactly the next
events; a reader without gaps sees every event between its positions once and in order; and at
the last sequence number an append is refused and changes nothing. -/
theorem no_silent_loss {producer scope : String} {capacity : ℕ} {b₀ : ProgressBuffer}
    (h₀ : init producer scope capacity = .ok b₀) (calls : List (String × ℤ)) :
    let b := Runs.run next b₀ calls
    let log := b₀.accepted calls
    (b.position.sequence = log.length ∧
      log.map (fun e => e.position.sequence) = List.range' 1 log.length ∧
      b.events = log.rtake b.capacity) ∧
    (∀ after limit, 1 ≤ limit → limit ≤ 4096 → ∃ batch, b.read after limit = .ok batch ∧
      (batch.gap = true ↔ b.Gap log after limit) ∧
      (batch.gap = false → Continues log after limit batch)) ∧
    (∀ after steps seen position b',
      b.follow after steps = some (seen, position, b') →
      b' = Runs.run next b (appends steps) ∧
      after.sequence ≤ position.sequence ∧
      position.sequence ≤ max after.sequence (log ++ b.accepted (appends steps)).length ∧
      seen = ((log ++ b.accepted (appends steps)).take position.sequence).drop after.sequence) ∧
    (b.position.sequence = maxSequence → ∀ kind revision,
      b.append kind revision = .error ⟨"invalid producer-scoped progress position"⟩ ∧
        b.next (kind, revision) = b) := by
  intro b log
  have hlog : b.Logged log := by
    have hrun := (init_logged h₀).run calls
    rwa [List.nil_append] at hrun
  refine ⟨⟨hlog.position, hlog.numbered, hlog.events⟩, ?_, ?_, ?_⟩
  · intro after limit hl hu
    obtain ⟨batch, hr⟩ := b.read_ok after ⟨hl, hu⟩
    exact ⟨batch, hr, hlog.read hr⟩
  · intro after steps seen position b' hf
    exact hlog.follow hf
  · exact fun hmax kind revision => append_refused hmax kind revision

/-- A buffer of two events that took three. -/
theorem no_silent_loss_of_three :
    ∃ b₀, init "0123456789abcdef0123456789abcdef" "program" 2 = .ok b₀ ∧
      (Runs.run next b₀ [("snapshot-changed", 1), ("decision-required", 2),
        ("snapshot-changed", 3)]).position.sequence = 3 := by
  have h₀ : init "0123456789abcdef0123456789abcdef" "program" 2 =
      .ok ⟨⟨"0123456789abcdef0123456789abcdef", "program", 0, by decide, by decide, by decide⟩, [],
        2, by decide⟩ := by
    unfold init ProgressPosition.init
    rw [dif_pos (by decide), dif_pos (by decide)]
    rfl
  refine ⟨_, h₀, ?_⟩
  have h := (no_silent_loss h₀ [("snapshot-changed", 1), ("decision-required", 2),
    ("snapshot-changed", 3)]).1.1
  rw [h]
  decide

end ProgressBuffer

end CreatidyKernel
