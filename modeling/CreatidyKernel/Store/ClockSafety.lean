import Mathlib.Tactic
import CreatidyKernel.Store.Clock

set_option relaxedAutoImplicit false
set_option autoImplicit false

/-!
# Safety of the clock protocol

Whatever the clocks answer and wherever the process dies, the committed floors only rise, and a
decision is the time its floor shows. So the decisions of a Program never go back, a deadline
once reached stays reached, and a read that was lost leaves its floor pending for ever, which
refuses every later decision.

## Main definitions

* `ClockRow.Le` — a floor has risen.
* `Clocked.Sound` — the invariant of the machine.
* `Clocked.Advances` — what one action can do to the committed floors.
* `Clocked.Reached`, `Clocked.Lost` — the two ways a Program loses time authority for good.

## Main results

* `Clocked.decision_of_sound` — a decision is the time its floor shows.
* `Clocked.next_sound`, `Clocked.next_advances` — the step lemmas.
* `Clocked.deadline_authority` — the safety of every run.
-/

namespace CreatidyKernel

open Checked Runs

/-! ## Floors rise -/

/-- The floor has risen: the same Program and boot, later clocks. -/
structure ClockRow.Le (row row' : ClockRow) : Prop where
  programId : row'.programId = row.programId
  bootId : row'.bootId = row.bootId
  wall : row.wall ≤ row'.wall
  bootNs : row.bootNs ≤ row'.bootNs

namespace ClockRow

theorem Le.refl (row : ClockRow) : row.Le row := ⟨rfl, rfl, le_rfl, le_rfl⟩

theorem Le.trans {a b c : ClockRow} (h : a.Le b) (h' : b.Le c) : a.Le c :=
  ⟨h'.programId.trans h.programId, h'.bootId.trans h.bootId, h.wall.trans h'.wall,
    h.bootNs.trans h'.bootNs⟩

theorem le_pending (row : ClockRow) (pending : Bool) : row.Le { row with pending := pending } :=
  ⟨rfl, rfl, le_rfl, le_rfl⟩

theorem le_observe (row : ClockRow) (reading : Option BootClockReading) :
    row.Le (row.observe reading) := by
  cases reading with
  | none => exact le_pending row false
  | some r =>
    rw [observe]
    split
    · exact ⟨rfl, rfl, le_max_left _ _, le_max_left _ _⟩
    · exact le_pending row false

theorem le_flushed (captures : Captures) (row : ClockRow) : row.Le (row.flushed captures) := by
  rw [flushed]
  split
  · exact le_observe row _
  · exact .refl row

@[simp] theorem flushed_programId (captures : Captures) (row : ClockRow) :
    (row.flushed captures).programId = row.programId := (le_flushed captures row).programId

/-- The floor a captured reading of the same boot leaves. -/
theorem flushed_of_reading {captures : Captures} {row : ClockRow} {r : BootClockReading}
    (h : captures.lookup row.programId = some (some r)) (hboot : r.bootId = row.bootId) :
    r.wall ≤ (row.flushed captures).wall ∧ r.bootNs ≤ (row.flushed captures).bootNs := by
  simp [flushed, h, observe, hboot]

end ClockRow

/-! ## The marking transaction -/

@[simp] theorem Envelope.floor_programId (e : Envelope) : e.floor.programId = e.programId := rfl

/-- What marking does to the floor of a Program. -/
structure Marked (envelopes : List Envelope) (before after : Option ClockRow) (takes : Prop) :
    Prop where
  /-- A floor stays, and a pending one does not take part. -/
  kept : ∀ row, before = some row → ∃ row', after = some row' ∧ row.Le row' ∧
    (row.pending = true → row'.pending = true ∧ ¬takes)
  /-- A new floor is of the boot of its envelope. -/
  inserted : ∀ row, before = none → after = some row →
    ∃ e ∈ envelopes, e.programId = row.programId ∧ row.bootId = e.projection.bootId
  /-- Who takes part has a pending floor. -/
  pending : takes → ∃ row, after = some row ∧ row.pending = true

/-- Marking in two steps. -/
theorem Marked.trans {es es' : List Envelope} {a b c : Option ClockRow} {t t' : Prop}
    (h : Marked es a b t) (h' : Marked es' b c t') : Marked (es ++ es') a c (t ∨ t') where
  kept := by
    intro row hrow
    obtain ⟨row', hrow', hle, hp⟩ := h.kept row hrow
    obtain ⟨row'', hrow'', hle', hp'⟩ := h'.kept row' hrow'
    refine ⟨row'', hrow'', hle.trans hle', fun hpend => ?_⟩
    obtain ⟨hpend', ht⟩ := hp hpend
    exact ⟨(hp' hpend').1, not_or.2 ⟨ht, (hp' hpend').2⟩⟩
  inserted := by
    intro row ha hc
    cases hb : b with
    | none =>
      obtain ⟨e, he, hid⟩ := h'.inserted row hb hc
      exact ⟨e, List.mem_append_right _ he, hid⟩
    | some row' =>
      obtain ⟨e, he, hid, hboot⟩ := h.inserted row' ha hb
      obtain ⟨row'', hrow'', hle, -⟩ := h'.kept row' hb
      obtain rfl : row'' = row := Option.some.inj (hrow''.symm.trans hc)
      exact ⟨e, List.mem_append_left _ he, hid.trans hle.programId.symm, hle.bootId.trans hboot⟩
  pending := by
    rintro (ht | ht)
    · obtain ⟨row', hrow', hp⟩ := h.pending ht
      obtain ⟨row'', hrow'', -, hp'⟩ := h'.kept row' hrow'
      exact ⟨row'', hrow'', (hp' hp).1⟩
    · exact h'.pending ht

/-- Marking one envelope. -/
theorem markOne_marked (rows : List ClockRow) (e : Envelope) (p : Name) :
    Marked [e] (Rows.find ClockRow.programId rows p)
      (Rows.find ClockRow.programId (markOne rows e).1 p)
      ((markOne rows e).2 = true ∧ p = e.programId) := by
  unfold markOne
  split
  · next hnone =>
    -- a first floor is inserted
    by_cases hp : p = e.programId
    · subst hp
      have hfind : Rows.find ClockRow.programId (rows ++ [e.floor]) e.programId = some e.floor := by
        rw [Rows.find_append, hnone, Rows.find_singleton, Envelope.floor_programId, if_pos rfl]
        rfl
      rw [hfind, hnone]
      refine ⟨fun _ h => (by cases h), ?_, fun _ => ⟨_, rfl, rfl⟩⟩
      rintro row - h
      obtain rfl := Option.some.inj h
      exact ⟨e, List.mem_singleton_self _, rfl, rfl⟩
    · have hfind : Rows.find ClockRow.programId (rows ++ [e.floor]) p =
          Rows.find ClockRow.programId rows p := by
        rw [Rows.find_append, Rows.find_singleton, Envelope.floor_programId, if_neg (Ne.symm hp),
          Option.or_none]
      rw [hfind]
      exact ⟨fun row h => ⟨row, h, .refl row, fun h => ⟨h, fun ht => hp ht.2⟩⟩,
        fun row h h' => absurd (h.symm.trans h') (by simp), fun ht => absurd ht.2 hp⟩
  · next row hrow =>
    split
    · -- a pending floor is left alone
      exact ⟨fun row h => ⟨row, h, .refl row, fun h => ⟨h, fun ht => by cases ht.1⟩⟩,
        fun row h h' => absurd (h.symm.trans h') (by simp), fun ht => by cases ht.1⟩
    · next hpend =>
      have hid : row.programId = e.programId := (Rows.mem_of_find hrow).2
      rw [Rows.find_update]
      by_cases hp : p = e.programId
      · rw [if_pos (hp.trans hid.symm), hp, hrow]
        refine ⟨fun row' h => ?_, fun _ h => (by cases h), fun _ => ⟨_, rfl, rfl⟩⟩
        obtain rfl := Option.some.inj h
        exact ⟨_, rfl, ClockRow.le_pending row true, fun h => absurd h hpend⟩
      · rw [if_neg fun h => hp (h.trans hid)]
        exact ⟨fun row h => ⟨row, h, .refl row, fun h => ⟨h, fun ht => hp ht.2⟩⟩,
          fun row h h' => absurd (h.symm.trans h') (by simp), fun ht => absurd ht.2 hp⟩

/-- Marking all envelopes. -/
theorem mark_marked (rows : List ClockRow) (envelopes : List Envelope) (p : Name) :
    Marked envelopes (Rows.find ClockRow.programId rows p)
      (Rows.find ClockRow.programId (mark rows envelopes).1 p) (p ∈ (mark rows envelopes).2) := by
  induction envelopes generalizing rows with
  | nil =>
    exact ⟨fun row h => ⟨row, h, .refl row, fun h => ⟨h, List.not_mem_nil⟩⟩,
      fun row h h' => absurd (h.symm.trans h') (by simp), fun ht => absurd ht List.not_mem_nil⟩
  | cons e rest ih =>
    have h := (markOne_marked rows e p).trans (ih (markOne rows e).1)
    have hmem : p ∈ (mark rows (e :: rest)).2 ↔
        ((markOne rows e).2 = true ∧ p = e.programId) ∨ p ∈ (mark (markOne rows e).1 rest).2 := by
      show p ∈ (if (markOne rows e).2 = true then
        e.programId :: (mark (markOne rows e).1 rest).2 else (mark (markOne rows e).1 rest).2) ↔ _
      by_cases ht : (markOne rows e).2 = true
      · simp [ht]
      · simp [ht]
    rw [propext hmem]
    exact h

/-! ## The invariant -/

namespace Clocked

variable {β : Type}

/-- The floor of a Program is pending. -/
def Pending (m : Clocked β) (p : Name) : Prop := ∃ row, m.row p = some row ∧ row.pending = true

/-- What the program counter says of the floors and of the captured readings. -/
def InPhase (m : Clocked β) : Prop :=
  match m.process.phase with
  | .idle => True
  | .flushed => m.process.captures = []
  | .marked eligible => m.process.captures = [] ∧ ∀ p ∈ eligible, m.Pending p
  | .captured eligible reading _ =>
    (∀ p, m.process.captures.lookup p = if p ∈ eligible then some reading else none) ∧
      ∀ p ∈ eligible, m.Pending p

/-- The invariant of the machine. -/
structure Sound (m : Clocked β) : Prop where
  envelopes : (m.envelopes.map Envelope.programId).Nodup
  /-- A floor is of the boot its Program's deadline is bound to. -/
  booted : ∀ p row, m.row p = some row →
    ∃ e, m.envelope p = some e ∧ row.bootId = e.projection.bootId
  inPhase : m.InPhase
  /-- A reading handed out for the boot of a floor is at or below it, and the floor is known. -/
  handed : ∀ p r, m.process.readings p = some (some r) → ∀ row, m.row p = some row →
    r.bootId = row.bootId →
      m.process.watermarks p = some row.reading ∧ r.wall ≤ row.wall ∧ r.bootNs ≤ row.bootNs

theorem opened_sound (business : β) : (opened business).Sound :=
  ⟨List.nodup_nil, fun _ _ h => (nomatch h), trivial, fun _ _ h => (nomatch h)⟩

/-- A decision is the time its floor shows. -/
theorem decision_of_sound {m : Clocked β} (hm : m.Sound) {p : Name} {t : ℕ}
    (h : m.workDecisionTime p = .ok t) :
    ∃ e row, m.envelope p = some e ∧ m.row p = some row ∧ row.pending = false ∧
      t = e.projection.elapsedTime row.reading := by
  obtain ⟨e, he, h⟩ := bind_eq_ok.1 h
  obtain ⟨row, hrow, h⟩ := bind_eq_ok.1 h
  obtain ⟨hpending, h⟩ := check_bind_eq_ok.1 h
  obtain ⟨captured, hcaptured, h⟩ := bind_eq_ok.1 h
  rw [lookup_eq_ok] at he hrow hcaptured
  have henv : m.envelope p = some e := (Option.filter_eq_some_iff.1 he).1
  cases captured with
  | none => cases h
  | some r =>
    obtain ⟨hverifiable, h⟩ := check_bind_eq_ok.1 h
    obtain ⟨previous, hprevious, h⟩ := bind_eq_ok.1 h
    obtain ⟨⟨hwall, hboot⟩, ht⟩ := check_bind_eq_ok.1 h
    obtain ⟨e', he', hbootId⟩ := hm.booted p row hrow
    obtain rfl : e = e' := Option.some.inj (henv.symm.trans he')
    obtain ⟨hmark, hrwall, hrboot⟩ :=
      hm.handed p r hcaptured row hrow (hverifiable.1.trans hbootId.symm)
    obtain rfl : previous = row.reading :=
      Option.some.inj ((subscript_eq_ok.1 hprevious).symm.trans hmark)
    -- at or below the floor and not below the watermark, the reading is the floor
    have hr : r = row.reading := by
      obtain ⟨w, b, i⟩ := r
      have h1 : w = row.wall := le_antisymm hrwall hwall
      have h2 : b = row.bootNs := le_antisymm hrboot hboot
      have h3 : i = row.bootId := hverifiable.1.trans hbootId.symm
      rw [ClockRow.reading, h1, h2, h3]
    refine ⟨e, row, henv, hrow, hpending, ?_⟩
    rw [← pure_eq_ok.1 ht, DeadlineProjection.decisionTime, if_pos hverifiable, hr]

/-! ## What an action does to one Program -/

/-- The reading captured for a Program and not yet committed. -/
def capture (m : Clocked β) (p : Name) : Option (Option BootClockReading) :=
  m.process.captures.lookup p

/-- The Program takes part in the reading under way. -/
def Takes (m : Clocked β) (p : Name) : Prop :=
  ∃ eligible, m.process.phase = .marked eligible ∧ p ∈ eligible

/-- The floor after a flush that captured `c` for the Program. -/
def floorAfter (row : Option ClockRow) : Option (Option BootClockReading) → Option ClockRow
  | some reading => row.map fun row => row.observe reading
  | none => row

/-- The ways an action touches the floor and the capture of a Program. -/
inductive Effect (m m' : Clocked β) (p : Name) : Prop
  /-- The floor stays; the capture stays or is forgotten. -/
  | keep (hrow : m'.row p = m.row p) (hcapture : m'.capture p = m.capture p ∨ m'.capture p = none)
      (htakes : ¬m'.Takes p)
  /-- The capture is flushed into the floor. -/
  | flush (hrow : m'.row p = floorAfter (m.row p) (m.capture p))
      (hcapture : m'.capture p = none ∨ m'.capture p = m.capture p) (htakes : ¬m'.Takes p)
  /-- The floor is marked. -/
  | mark (hrow : Marked m.envelopes (m.row p) (m'.row p) (m'.Takes p))
      (hcapture : m'.capture p = m.capture p)
  /-- The clocks answer, for the Programs that take part. -/
  | answer (reading : Option BootClockReading) (hrow : m'.row p = m.row p)
      (htaken : m.Takes p → m'.capture p = some reading)
      (hcapture : ¬m.Takes p → m'.capture p = m.capture p)
      (htakes : ¬m'.Takes p)

theorem lookup_eligible (eligible : List Name) (reading : Option BootClockReading) (p : Name) :
    (eligible.map fun q => (q, reading)).lookup p = if p ∈ eligible then some reading else none := by
  induction eligible with
  | nil => rfl
  | cons q eligible ih =>
    rw [List.map_cons, List.lookup_cons]
    by_cases h : p = q
    · simp [h]
    · rw [beq_false_of_ne h]
      simp [h, ih]

/-- What a flush that commits leaves. -/
structure Flushed (m m' : Clocked β) : Prop where
  envelopes : m'.envelopes = m.envelopes
  business : m'.business = m.business
  phase : m'.process.phase = m.process.phase
  captures : m'.process.captures = []
  row : ∀ p, m'.row p = floorAfter (m.row p) (m.capture p)
  watermarks : ∀ p, m'.process.watermarks p =
    if (m.capture p).isSome then (m'.row p).map ClockRow.reading else m.process.watermarks p

/-- What a flush that raises leaves. -/
structure Unflushed (m m' : Clocked β) : Prop where
  envelopes : m'.envelopes = m.envelopes
  business : m'.business = m.business
  process : m'.process = m.process
  row : (∀ p, m'.row p = m.row p) ∨ ∀ p, m'.row p = floorAfter (m.row p) (m.capture p)

theorem flushRows_row {m : Clocked β} {rows : List ClockRow}
    (h : flushRows m.rows m.process.captures = some rows) (p : Name) :
    Rows.find ClockRow.programId rows p = floorAfter (m.row p) (m.capture p) := by
  rw [flushRows] at h
  split at h
  · obtain rfl := Option.some.inj h
    rw [Rows.find_map (ClockRow.flushed_programId _)]
    show (m.row p).map _ = _
    cases hrow : m.row p with
    | none => cases m.capture p <;> rfl
    | some row =>
      have hid : row.programId = p := (Rows.mem_of_find hrow).2
      show some (row.flushed _) = _
      rw [ClockRow.flushed, hid]
      show some (match m.capture p with
        | some reading => row.observe reading
        | none => row) = _
      cases m.capture p <;> rfl
  · cases h

/-- A flush commits or raises. -/
theorem flush_cases (m : Clocked β) (outcome : FlushOutcome) :
    (∃ m', m.flush outcome = (m', true) ∧ Flushed m m') ∨
      ∃ m', m.flush outcome = (m', false) ∧ Unflushed m m' := by
  unfold flush
  by_cases hempty : m.process.captures = []
  · have hcapture : ∀ p, m.capture p = none := fun p => by rw [capture, hempty]; rfl
    rw [if_pos hempty]
    exact .inl ⟨m, rfl, rfl, rfl, rfl, hempty, fun p => by rw [hcapture p]; rfl,
      fun p => by rw [hcapture p]; rfl⟩
  · rw [if_neg hempty]
    cases hrows : flushRows m.rows m.process.captures with
    | none => cases outcome <;> exact .inr ⟨m, rfl, rfl, rfl, rfl, .inl fun _ => rfl⟩
    | some rows =>
      cases outcome with
      | committed =>
        exact .inl ⟨_, rfl, rfl, rfl, rfl, rfl, flushRows_row hrows, fun _ => rfl⟩
      | rolledBack => exact .inr ⟨m, rfl, rfl, rfl, rfl, .inl fun _ => rfl⟩
      | interrupted => exact .inr ⟨_, rfl, rfl, rfl, rfl, .inr (flushRows_row hrows)⟩

theorem not_takes_of_phase {m : Clocked β} {phase : ClockPhase} (h : m.process.phase = phase)
    (hphase : ∀ eligible, phase ≠ .marked eligible) (p : Name) : ¬m.Takes p := by
  rintro ⟨eligible, he, -⟩
  exact hphase eligible (h.symm.trans he)

/-- An action that ends in the given phase with the captures of `m'` and its floors. -/
theorem Flushed.effect {m m' m'' : Clocked β} (h : Flushed m m') (p : Name)
    (hrow : m''.row p = m'.row p) (hcapture : m''.capture p = m'.capture p)
    (htakes : ¬m''.Takes p) : Effect m m'' p := by
  refine .flush (hrow.trans (h.row p)) (.inl ?_) htakes
  rw [hcapture, capture, h.captures]
  rfl

theorem Unflushed.effect {m m' m'' : Clocked β} (h : Unflushed m m') (p : Name)
    (hrow : m''.row p = m'.row p) (hcapture : m''.capture p = m'.capture p)
    (htakes : ¬m''.Takes p) : Effect m m'' p := by
  have hsame : m''.capture p = m.capture p := by rw [hcapture, capture, h.process]; rfl
  rcases h.row with hr | hr
  · exact .keep (hrow.trans (hr p)) (.inl hsame) htakes
  · exact .flush (hrow.trans (hr p)) (.inr hsame) htakes

/-- Every action touches a Program in one of the ways. -/
theorem next_effect (standing : Standing β) {m : Clocked β} (hm : m.Sound) (a : Action β)
    (p : Name) : m.next standing a = m ∨ Effect m (m.next standing a) p := by
  cases a with
  | configure e =>
    simp only [next]
    split
    · next h => exact .inr (.keep rfl (.inl rfl) (not_takes_of_phase h.1 (by simp) p))
    · exact .inl rfl
  | bind q =>
    simp only [next]
    split
    · next hidle he => exact .inr (.keep rfl (.inl rfl) (not_takes_of_phase hidle (by simp) p))
    · exact .inl rfl
  | begin outcome =>
    simp only [next]
    split
    · rcases flush_cases m outcome with ⟨m', h, hf⟩ | ⟨m', h, hf⟩
      · rw [h]
        exact .inr (hf.effect p rfl rfl (not_takes_of_phase rfl (by simp) p))
      · rw [h]
        exact .inr (hf.effect p rfl rfl (not_takes_of_phase rfl (by simp) p))
    · exact .inl rfl
  | mark commits =>
    simp only [next]
    split
    · split
      · refine .inr (.mark ?_ rfl)
        have htakes : ∀ m' : Clocked β, m'.process.phase =
            .marked (CreatidyKernel.mark m.rows m.envelopes).2 →
            (m'.Takes p ↔ p ∈ (CreatidyKernel.mark m.rows m.envelopes).2) := by
          intro m' hphase
          refine ⟨fun ⟨eligible, he, hp⟩ => ?_, fun hp => ⟨_, hphase, hp⟩⟩
          rw [ClockPhase.marked.inj (hphase.symm.trans he)]
          exact hp
        rw [propext (htakes _ rfl)]
        exact mark_marked m.rows m.envelopes p
      · exact .inr (.keep rfl (.inl rfl) (not_takes_of_phase rfl (by simp) p))
    · exact .inl rfl
  | capture reading changed =>
    simp only [next]
    split
    · next eligible hphase =>
      split
      · exact .inr (.keep rfl (.inl rfl) (not_takes_of_phase rfl (by simp) p))
      · have hin := hm.inPhase
        rw [InPhase, hphase] at hin
        have htakes : m.Takes p ↔ p ∈ eligible :=
          ⟨fun ⟨_, he, hp⟩ => ClockPhase.marked.inj (hphase.symm.trans he) ▸ hp, fun hp => ⟨_, hphase, hp⟩⟩
        refine .inr (.answer reading rfl (fun ht => ?_) (fun ht => ?_)
          (not_takes_of_phase rfl (by simp) p))
        · rw [htakes] at ht
          simp only [Clocked.capture, hin.1, List.filter_nil, List.nil_append, lookup_eligible,
            if_pos ht]
        · rw [htakes] at ht
          simp only [Clocked.capture, hin.1, List.filter_nil, List.nil_append, lookup_eligible,
            if_neg ht, List.lookup_nil]
    · exact .inl rfl
  | publish outcome =>
    simp only [next]
    split
    · rcases flush_cases m outcome with ⟨m', h, hf⟩ | ⟨m', h, hf⟩
      · rw [h]
        exact .inr (hf.effect p rfl rfl (not_takes_of_phase rfl (by simp) p))
      · rw [h]
        exact .inr (hf.effect p rfl rfl (not_takes_of_phase rfl (by simp) p))
    · exact .inl rfl
  | transact authority body =>
    simp only [next]
    split
    · exact .inr (.keep rfl (.inl rfl) (not_takes_of_phase rfl (by simp) p))
    · exact .inl rfl
  | crash =>
    exact .inr (.keep rfl (.inr rfl) (not_takes_of_phase rfl (by simp [next, Process.fresh]) p))

/-! ## The step lemmas -/

/-- What is on record about deadlines and floors only grows. -/
structure Advances (m m' : Clocked β) : Prop where
  envelopes : ∀ p e, m.envelope p = some e →
    ∃ e', m'.envelope p = some e' ∧ e'.projection = e.projection
  rows : ∀ p row, m.row p = some row → ∃ row', m'.row p = some row' ∧ row.Le row'

theorem Advances.refl (m : Clocked β) : Advances m m :=
  ⟨fun _ e he => ⟨e, he, rfl⟩, fun _ row hrow => ⟨row, hrow, .refl row⟩⟩

theorem Advances.trans (m m' m'' : Clocked β) (h : Advances m m') (h' : Advances m' m'') :
    Advances m m'' where
  envelopes := by
    intro p e he
    obtain ⟨e', he', hp⟩ := h.envelopes p e he
    obtain ⟨e'', he'', hp'⟩ := h'.envelopes p e' he'
    exact ⟨e'', he'', hp'.trans hp⟩
  rows := by
    intro p row hrow
    obtain ⟨row', hrow', hle⟩ := h.rows p row hrow
    obtain ⟨row'', hrow'', hle'⟩ := h'.rows p row' hrow'
    exact ⟨row'', hrow'', hle.trans hle'⟩

theorem floorAfter_of_some {row : ClockRow} (c : Option (Option BootClockReading)) :
    ∃ row', floorAfter (some row) c = some row' ∧ row.Le row' := by
  cases c with
  | none => exact ⟨row, rfl, .refl row⟩
  | some reading => exact ⟨_, rfl, ClockRow.le_observe row reading⟩

/-- Every way of touching a Program raises its floor. -/
theorem Effect.rows {m m' : Clocked β} {p : Name} (h : Effect m m' p) {row : ClockRow}
    (hrow : m.row p = some row) : ∃ row', m'.row p = some row' ∧ row.Le row' := by
  cases h with
  | keep hr _ _ => exact ⟨row, hr.trans hrow, .refl row⟩
  | flush hr _ _ =>
    rw [hr, hrow]
    exact floorAfter_of_some _
  | mark hr _ =>
    obtain ⟨row', hrow', hle, -⟩ := hr.kept row hrow
    exact ⟨row', hrow', hle⟩
  | answer _ hr _ _ _ => exact ⟨row, hr.trans hrow, .refl row⟩

/-- The envelopes after an action. -/
theorem next_envelopes (standing : Standing β) (m : Clocked β) (a : Action β) :
    (m.next standing a).envelopes = m.envelopes ∨
      (∃ e, m.envelope e.programId = none ∧ (m.next standing a).envelopes = m.envelopes ++ [e]) ∨
        ∃ e, m.envelope e.programId = some e ∧
          (m.next standing a).envelopes =
            Rows.update Envelope.programId m.envelopes { e with bound := true } := by
  cases a with
  | configure e =>
    simp only [next]
    split
    · next h => exact .inr (.inl ⟨e, h.2, rfl⟩)
    · exact .inl rfl
  | bind q =>
    simp only [next]
    split
    · next he =>
      obtain ⟨-, rfl⟩ := Rows.mem_of_find he
      exact .inr (.inr ⟨_, he, rfl⟩)
    · exact .inl rfl
  | begin outcome =>
    simp only [next]
    split
    · rcases flush_cases m outcome with ⟨m', h, hf⟩ | ⟨m', h, hf⟩ <;> rw [h] <;> exact .inl hf.envelopes
    · exact .inl rfl
  | mark commits =>
    simp only [next]
    split
    · split <;> exact .inl rfl
    · exact .inl rfl
  | capture reading changed =>
    simp only [next]
    split
    · split <;> exact .inl rfl
    · exact .inl rfl
  | publish outcome =>
    simp only [next]
    split
    · rcases flush_cases m outcome with ⟨m', h, hf⟩ | ⟨m', h, hf⟩ <;> rw [h] <;> exact .inl hf.envelopes
    · exact .inl rfl
  | transact authority body =>
    simp only [next]
    split <;> exact .inl rfl
  | crash => exact .inl rfl

/-- Every action only adds to what is on record. -/
theorem next_advances (standing : Standing β) (m : Clocked β) (a : Action β) (hm : m.Sound) :
    Advances m (m.next standing a) where
  envelopes := by
    intro p e he
    rcases next_envelopes standing m a with h | ⟨e', -, h⟩ | ⟨e', he', h⟩
    · exact ⟨e, by rw [envelope, h]; exact he, rfl⟩
    · exact ⟨e, by rw [envelope, h]; exact Rows.find_append_of_some he _, rfl⟩
    · rw [envelope, h, Rows.find_update]
      by_cases hp : p = e'.programId
      · subst hp
        obtain rfl : e = e' := Option.some.inj (he.symm.trans he')
        rw [if_pos rfl]
        exact ⟨_, congrArg (Option.map _) he, rfl⟩
      · rw [if_neg hp]
        exact ⟨e, he, rfl⟩
  rows := by
    intro p row hrow
    rcases next_effect standing hm a p with h | h
    · rw [h]
      exact ⟨row, hrow, .refl row⟩
    · exact h.rows hrow

/-- A floor after a way of touching a Program is of the boot of its envelope. -/
theorem Effect.booted {m m' : Clocked β} {p : Name} (h : Effect m m' p) (hm : m.Sound)
    {row' : ClockRow} (hrow' : m'.row p = some row') :
    ∃ e, m.envelope p = some e ∧ row'.bootId = e.projection.bootId := by
  cases hrow : m.row p with
  | some row =>
    obtain ⟨row'', hrow'', hle⟩ := h.rows hrow
    obtain rfl : row'' = row' := Option.some.inj (hrow''.symm.trans hrow')
    obtain ⟨e, he, hboot⟩ := hm.booted p row hrow
    exact ⟨e, he, hle.bootId.trans hboot⟩
  | none =>
    cases h with
    | keep hr _ _ => exact absurd ((hr.symm.trans hrow').symm.trans hrow) (by simp)
    | flush hr _ _ =>
      rw [hr, hrow] at hrow'
      cases hc : m.capture p <;> rw [hc] at hrow' <;> cases hrow'
    | mark hr _ =>
      obtain ⟨e, he, hid, hboot⟩ := hr.inserted row' hrow hrow'
      refine ⟨e, ?_, hboot⟩
      rw [← (Rows.mem_of_find hrow').2, ← hid]
      exact Rows.find_of_mem hm.envelopes he
    | answer _ hr _ _ _ => exact absurd ((hr.symm.trans hrow').symm.trans hrow) (by simp)

theorem inPhase_of_idle {m : Clocked β} (h : m.process.phase = .idle) : m.InPhase := by
  rw [InPhase, h]
  trivial

/-- Every action keeps the program counter honest. -/
theorem next_inPhase (standing : Standing β) {m : Clocked β} (hm : m.Sound) (a : Action β) :
    (m.next standing a).InPhase := by
  have hin := hm.inPhase
  cases a with
  | configure e =>
    simp only [next]
    split
    · next h => exact inPhase_of_idle h.1
    · exact hin
  | bind q =>
    simp only [next]
    split
    · next hidle _ => exact inPhase_of_idle hidle
    · exact hin
  | begin outcome =>
    simp only [next]
    split
    · rcases flush_cases m outcome with ⟨m', h, hf⟩ | ⟨m', h, -⟩
      · rw [h]
        exact hf.captures
      · rw [h]
        exact inPhase_of_idle rfl
    · exact hin
  | mark commits =>
    simp only [next]
    split
    · next hphase =>
      rw [InPhase, hphase] at hin
      split
      · exact ⟨hin, fun p hp => (mark_marked m.rows m.envelopes p).pending hp⟩
      · exact inPhase_of_idle rfl
    · exact hin
  | capture reading changed =>
    simp only [next]
    split
    · next eligible hphase =>
      rw [InPhase, hphase] at hin
      split
      · exact inPhase_of_idle rfl
      · refine ⟨fun p => ?_, hin.2⟩
        show List.lookup p (_ ++ _) = _
        rw [hin.1, List.filter_nil, List.nil_append, lookup_eligible]
    · exact hin
  | publish outcome =>
    simp only [next]
    split
    · rcases flush_cases m outcome with ⟨m', h, -⟩ | ⟨m', h, -⟩ <;> rw [h] <;>
        exact inPhase_of_idle rfl
    · exact hin
  | transact authority body =>
    simp only [next]
    split
    · exact inPhase_of_idle rfl
    · exact hin
  | crash => exact inPhase_of_idle rfl

/-- The readings handed out at the end of a protocol are at or below the floors. -/
def Handed (m : Clocked β) : Prop :=
  ∀ p r, m.process.readings p = some (some r) → ∀ row, m.row p = some row → r.bootId = row.bootId →
    m.process.watermarks p = some row.reading ∧ r.wall ≤ row.wall ∧ r.bootNs ≤ row.bootNs

theorem handed_of_none {m : Clocked β} (h : ∀ p r, m.process.readings p ≠ some (some r)) :
    m.Handed := fun p r hr => absurd hr (h p r)

theorem noReadings_ne (m : Clocked β) (p : Name) (r : BootClockReading) :
    m.noReadings p ≠ some (some r) := by
  rw [noReadings]
  cases m.envelope p <;> simp

/-- A reading captured, flushed and handed out is at or below the floor it left. -/
theorem Flushed.handed {m m' : Clocked β} (h : Flushed m m') {eligible : List Name}
    {reading : Option BootClockReading} {changed : Bool}
    (hcaptures : ∀ p, m.capture p = if p ∈ eligible then some reading else none) :
    (m'.finish (m'.takenReadings eligible reading changed)).Handed := by
  intro p r hr row' hrow' hboot
  have hr : m'.takenReadings eligible reading changed p = some (some r) := hr
  have hrow' : m'.row p = some row' := hrow'
  obtain ⟨e, -, hr⟩ := Option.map_eq_some_iff.1 hr
  by_cases htakes : p ∈ eligible ∧ changed = false
  · rw [if_pos htakes] at hr
    have hcapture : m.capture p = some (some r) := by rw [hcaptures p, if_pos htakes.1, hr]
    rw [h.row p, hcapture] at hrow'
    obtain ⟨row, -, rfl⟩ := Option.map_eq_some_iff.1 hrow'
    have hsame : r.bootId = row.bootId := hboot.trans (ClockRow.le_observe row _).bootId
    refine ⟨?_, ?_, ?_⟩
    · show m'.process.watermarks p = _
      rw [h.watermarks p, hcapture, h.row p, hcapture, hrow']
      rfl
    · simp [ClockRow.observe, hsame]
    · simp [ClockRow.observe, hsame]
  · rw [if_neg htakes] at hr
    cases hr

/-- Every action hands out only readings at or below the floors. -/
theorem next_handed (standing : Standing β) {m : Clocked β} (hm : m.Sound) (a : Action β) :
    (m.next standing a).Handed := by
  have hold : m.Handed := hm.handed
  cases a with
  | configure e =>
    simp only [next]
    split <;> exact hold
  | bind q =>
    simp only [next]
    split <;> exact hold
  | begin outcome =>
    simp only [next]
    split
    · rcases flush_cases m outcome with ⟨m', h, -⟩ | ⟨m', h, -⟩ <;> rw [h]
      · exact handed_of_none fun _ _ h => (nomatch h)
      · exact handed_of_none m'.noReadings_ne
    · exact hold
  | mark commits =>
    simp only [next]
    split
    · split
      · exact handed_of_none fun _ _ h => (nomatch h)
      · exact handed_of_none m.noReadings_ne
    · exact hold
  | capture reading changed =>
    simp only [next]
    split
    · split
      · exact handed_of_none m.noReadings_ne
      · exact hold
    · exact hold
  | publish outcome =>
    have hin := hm.inPhase
    simp only [next]
    split
    · next eligible reading changed hphase =>
      rw [InPhase, hphase] at hin
      rcases flush_cases m outcome with ⟨m', h, hf⟩ | ⟨m', h, -⟩ <;> rw [h]
      · exact hf.handed hin.1
      · exact handed_of_none m'.noReadings_ne
    · exact hold
  | transact authority body =>
    simp only [next]
    split
    · exact handed_of_none fun _ _ h => (nomatch h)
    · exact hold
  | crash => exact handed_of_none fun _ _ h => (nomatch h)

/-- Every action keeps the invariant. -/
theorem next_sound (standing : Standing β) (m : Clocked β) (a : Action β) (hm : m.Sound) :
    (m.next standing a).Sound where
  envelopes := by
    rcases next_envelopes standing m a with h | ⟨e, hnone, h⟩ | ⟨e, -, h⟩ <;> rw [h]
    · exact hm.envelopes
    · rw [List.map_append]
      refine hm.envelopes.append (List.nodup_singleton _) (List.disjoint_singleton.2 fun hmem => ?_)
      obtain ⟨x, hx, hid⟩ := List.mem_map.1 hmem
      exact Rows.find_eq_none_iff.1 hnone x hx hid
    · rw [Rows.map_key_update]
      exact hm.envelopes
  booted := by
    intro p row' hrow'
    have hstep : ∃ e, m.envelope p = some e ∧ row'.bootId = e.projection.bootId := by
      rcases next_effect standing hm a p with h | h
      · rw [h] at hrow'
        exact hm.booted p row' hrow'
      · exact h.booted hm hrow'
    obtain ⟨e, he, hboot⟩ := hstep
    obtain ⟨e', he', hprojection⟩ := (next_advances standing m a hm).envelopes p e he
    exact ⟨e', he', by rw [hprojection, hboot]⟩
  inPhase := next_inPhase standing hm a
  handed := next_handed standing hm a

/-! ## Losing time authority for good -/

/-- A read of the Program's clocks was marked pending and nothing is left to flush. -/
def Lost (m : Clocked β) (p : Name) : Prop :=
  ∃ row, m.row p = some row ∧ row.pending = true ∧ m.capture p = none ∧ ¬m.Takes p

/-- The floor is at or past a reading of its boot, or waits for just that reading. -/
def Reached (m : Clocked β) (p : Name) (r : BootClockReading) : Prop :=
  ∃ row, m.row p = some row ∧ r.bootId = row.bootId ∧
    ((r.wall ≤ row.wall ∧ r.bootNs ≤ row.bootNs) ∨
      (row.pending = true ∧ ¬m.Takes p ∧ ∀ c, m.capture p = some c → c = some r))

/-- A lost read stays lost. -/
theorem Effect.lost {m m' : Clocked β} {p : Name} (h : Effect m m' p) (hm : m.Lost p) :
    m'.Lost p := by
  obtain ⟨row, hrow, hpending, hcapture, htakes⟩ := hm
  cases h with
  | keep hr hc ht =>
    exact ⟨row, hr.trans hrow, hpending, hc.elim (fun h => h.trans hcapture) id, ht⟩
  | flush hr hc ht =>
    rw [hcapture] at hr hc
    exact ⟨row, hr.trans hrow, hpending, hc.elim id id, ht⟩
  | mark hr hc =>
    obtain ⟨row', hrow', -, hp⟩ := hr.kept row hrow
    exact ⟨row', hrow', (hp hpending).1, hc.trans hcapture, (hp hpending).2⟩
  | answer _ hr _ hc ht => exact ⟨row, hr.trans hrow, hpending, (hc htakes).trans hcapture, ht⟩

/-- What the floor reached stays reached. -/
theorem Effect.reached {m m' : Clocked β} {p : Name} {r : BootClockReading} (h : Effect m m' p)
    (hm : m.Reached p r) : m'.Reached p r := by
  obtain ⟨row, hrow, hboot, hwaits⟩ := hm
  obtain ⟨row', hrow', hle⟩ := h.rows hrow
  refine ⟨row', hrow', hboot.trans hle.bootId.symm, ?_⟩
  rcases hwaits with ⟨hwall, hns⟩ | ⟨hpending, htakes, hcapture⟩
  · exact .inl ⟨hwall.trans hle.wall, hns.trans hle.bootNs⟩
  · cases h with
    | keep hr hc ht =>
      obtain rfl : row = row' := Option.some.inj (hrow.symm.trans (hr.symm.trans hrow'))
      refine .inr ⟨hpending, ht, fun c h => ?_⟩
      rcases hc with hc | hc
      · exact hcapture c (hc.symm.trans h)
      · exact absurd (hc.symm.trans h) (by simp)
    | flush hr hc ht =>
      cases hmc : m.capture p with
      | none =>
        rw [hmc] at hr hc
        obtain rfl : row = row' := Option.some.inj (hrow.symm.trans (hr.symm.trans hrow'))
        exact .inr ⟨hpending, ht, fun c h => absurd ((hc.elim id id).symm.trans h) (by simp)⟩
      | some c =>
        -- the reading itself is flushed
        rw [hmc, hcapture c hmc, hrow] at hr
        obtain rfl : row.observe (some r) = row' := Option.some.inj (hr.symm.trans hrow')
        simp [ClockRow.observe, hboot]
    | mark hr hc =>
      obtain ⟨row'', hrow'', -, hp⟩ := hr.kept row hrow
      obtain rfl : row'' = row' := Option.some.inj (hrow''.symm.trans hrow')
      exact .inr ⟨(hp hpending).1, (hp hpending).2, fun c h => hcapture c (hc.symm.trans h)⟩
    | answer _ hr _ hc ht =>
      obtain rfl : row = row' := Option.some.inj (hrow.symm.trans (hr.symm.trans hrow'))
      exact .inr ⟨hpending, ht, fun c h => hcapture c ((hc htakes).symm.trans h)⟩

theorem next_lost (standing : Standing β) {m : Clocked β} (hm : m.Sound) (a : Action β) {p : Name}
    (h : m.Lost p) : (m.next standing a).Lost p := by
  rcases next_effect standing hm a p with he | he
  · rwa [he]
  · exact he.lost h

theorem next_reached (standing : Standing β) {m : Clocked β} (hm : m.Sound) (a : Action β)
    {p : Name} {r : BootClockReading} (h : m.Reached p r) : (m.next standing a).Reached p r := by
  rcases next_effect standing hm a p with he | he
  · rwa [he]
  · exact he.reached h

/-- The death of the process loses a pending read. -/
theorem crash_lost (standing : Standing β) {m : Clocked β} {p : Name} (h : m.Pending p) :
    (m.next standing .crash).Lost p := by
  obtain ⟨row, hrow, hpending⟩ := h
  exact ⟨row, hrow, hpending, rfl, not_takes_of_phase rfl (by simp [next, Process.fresh]) p⟩

/-- A reading of the bound boot is reached once it is captured. -/
theorem capture_reached (standing : Standing β) {m : Clocked β} (hm : m.Sound) {p : Name}
    {e : Envelope} (he : m.envelope p = some e) (htakes : m.Takes p) {r : BootClockReading}
    (hboot : r.bootId = e.projection.bootId) (changed : Bool) :
    (m.next standing (.capture (some r) changed)).Reached p r := by
  obtain ⟨eligible, hphase, hp⟩ := htakes
  have hin := hm.inPhase
  rw [InPhase, hphase] at hin
  obtain ⟨row, hrow, hpending⟩ := hin.2 p hp
  obtain ⟨e', he', hrowBoot⟩ := hm.booted p row hrow
  obtain rfl : e = e' := Option.some.inj (he.symm.trans he')
  simp only [next, hphase, if_neg (List.ne_nil_of_mem hp)]
  refine ⟨row, hrow, hboot.trans hrowBoot.symm, .inr ⟨hpending,
    not_takes_of_phase rfl (by simp) p, fun c hc => ?_⟩⟩
  simp only [Clocked.capture, hin.1, List.filter_nil, List.nil_append, lookup_eligible,
    if_pos hp] at hc
  exact (Option.some.inj hc).symm

/-! ## Safety of every run -/

/-- The authority check needs a decision before the deadline. -/
theorem authority_decision {standing : Standing β} {m : Clocked β} {p : Name}
    (h : m.checkWorkAuthority standing p = .ok ()) :
    ∃ e t, m.envelope p = some e ∧ m.workDecisionTime p = .ok t ∧ t < e.projection.wallDeadline := by
  obtain ⟨e, he, h⟩ := bind_eq_ok.1 h
  obtain ⟨-, h⟩ := check_bind_eq_ok.1 h
  obtain ⟨t, ht, h⟩ := bind_eq_ok.1 h
  obtain ⟨hlt, -⟩ := check_bind_eq_ok.1 h
  exact ⟨e, t, (Option.filter_eq_some_iff.1 (lookup_eq_ok.1 he)).1, ht, hlt⟩

/-- The machine after actions on a freshly created database. -/
def after (standing : Standing β) (business : β) (actions : List (Action β)) : Clocked β :=
  run (next standing) (opened business) actions

theorem after_sound (standing : Standing β) (business : β) (actions : List (Action β)) :
    (after standing business actions).Sound :=
  run_invariant (next_sound standing) (opened_sound business) actions

theorem run_advances (standing : Standing β) {m : Clocked β} (hm : m.Sound)
    (later : List (Action β)) : Advances m (run (next standing) m later) :=
  run_relation Advances.refl Advances.trans (next_sound standing) (next_advances standing) hm later

/-- Decisions do not go back along a run. -/
theorem decision_mono (standing : Standing β) {m : Clocked β} (hm : m.Sound)
    (later : List (Action β)) {p : Name} {t t' : ℕ} (h : m.workDecisionTime p = .ok t)
    (h' : (run (next standing) m later).workDecisionTime p = .ok t') : t ≤ t' := by
  obtain ⟨e, row, he, hrow, -, rfl⟩ := decision_of_sound hm h
  obtain ⟨e', row', he', hrow', -, rfl⟩ :=
    decision_of_sound (run_invariant (next_sound standing) hm later) h'
  have hadv := run_advances standing hm later
  obtain ⟨e'', he'', hprojection⟩ := hadv.envelopes p e he
  obtain rfl : e'' = e' := Option.some.inj (he''.symm.trans he')
  obtain ⟨row'', hrow'', hle⟩ := hadv.rows p row hrow
  obtain rfl : row'' = row' := Option.some.inj (hrow''.symm.trans hrow')
  rw [hprojection]
  exact e.projection.elapsedTime_mono hle.wall hle.bootNs

/-- Once a deadline is reached by a floor, authority is refused. -/
theorem no_authority_of_reached {standing : Standing β} {m : Clocked β} (hm : m.Sound) {p : Name}
    {e : Envelope} (he : m.envelope p = some e) {r : BootClockReading} (h : m.Reached p r)
    (hdeadline : e.projection.wallDeadline ≤ e.projection.elapsedTime r) :
    m.checkWorkAuthority standing p ≠ .ok () := by
  intro hok
  obtain ⟨e', t, he', ht, hlt⟩ := authority_decision hok
  obtain rfl : e = e' := Option.some.inj (he.symm.trans he')
  obtain ⟨e', row, he', hrow, hpending, rfl⟩ := decision_of_sound hm ht
  obtain rfl : e = e' := Option.some.inj (he.symm.trans he')
  obtain ⟨row', hrow', -, hwaits⟩ := h
  obtain rfl : row = row' := Option.some.inj (hrow.symm.trans hrow')
  rcases hwaits with ⟨hwall, hns⟩ | ⟨hp, -⟩
  · have helapsed : e.projection.elapsedTime r ≤ e.projection.elapsedTime row.reading :=
      e.projection.elapsedTime_mono hwall hns
    omega
  · exact absurd (hpending.symm.trans hp) (by simp)

/-- What holds of the clocks after a run, whatever comes later. -/
structure DeadlineSafe (standing : Standing β) (m : Clocked β) : Prop where
  /-- The committed floors never decrease. -/
  floors : ∀ later p row, m.row p = some row →
    ∃ row', (run (next standing) m later).row p = some row' ∧ row.Le row'
  /-- A transaction leaves the floors as they are, committed or rolled back. -/
  rollback : ∀ authority body, (m.next standing (.transact authority body)).rows = m.rows
  /-- Decision times do not decrease. -/
  decisions : ∀ later p t t', m.workDecisionTime p = .ok t →
    (run (next standing) m later).workDecisionTime p = .ok t' → t ≤ t'
  /-- After a decision at or past the deadline no authority is granted. -/
  decided : ∀ later p e t, m.envelope p = some e → m.workDecisionTime p = .ok t →
    e.projection.wallDeadline ≤ t →
      (run (next standing) m later).checkWorkAuthority standing p ≠ .ok ()
  /-- Nor after the protocol captured a reading of the bound boot at or past the deadline. -/
  observed : ∀ later p e r changed, m.envelope p = some e → m.Takes p →
    r.bootId = e.projection.bootId → e.projection.wallDeadline ≤ e.projection.elapsedTime r →
      (run (next standing) (m.next standing (.capture (some r) changed)) later).checkWorkAuthority
        standing p ≠ .ok ()
  /-- When the process dies with a read pending, no later process decides a time. -/
  lost : ∀ later p t, m.Pending p →
    (run (next standing) (m.next standing .crash) later).workDecisionTime p ≠ .ok t

/-- Deadline authority is monotone and survives crashes. -/
theorem deadline_authority (standing : Standing β) (business : β) (actions : List (Action β)) :
    DeadlineSafe standing (after standing business actions) := by
  have hm := after_sound standing business actions
  generalize after standing business actions = m at hm
  refine ⟨fun later => (run_advances standing hm later).rows, fun authority body => ?_,
    fun later p t t' => decision_mono standing hm later, fun later p e t he ht hdeadline hok => ?_,
    fun later p e r changed he htakes hboot hdeadline => ?_, fun later p t hpending ht => ?_⟩
  · simp only [next]
    split <;> rfl
  · obtain ⟨e', t', he', ht', hlt⟩ := authority_decision hok
    obtain ⟨e'', he'', hprojection⟩ := (run_advances standing hm later).envelopes p e he
    obtain rfl : e'' = e' := Option.some.inj (he''.symm.trans he')
    have hmono := decision_mono standing hm later ht ht'
    rw [hprojection] at hlt
    omega
  · have hm' := next_sound standing m (.capture (some r) changed) hm
    have hreached := capture_reached standing hm he htakes hboot changed
    obtain ⟨e', he', hprojection⟩ :=
      ((next_advances standing m _ hm).trans _ _ _ (run_advances standing hm' later)).envelopes p e he
    refine no_authority_of_reached (run_invariant (next_sound standing) hm' later) he' ?_
      (hprojection ▸ hdeadline)
    exact (run_invariant (P := fun m => m.Sound ∧ m.Reached p r)
      (fun m a h => ⟨next_sound standing m a h.1, next_reached standing h.1 a h.2⟩)
      ⟨hm', hreached⟩ later).2
  · have hm' := next_sound standing m .crash hm
    obtain ⟨hsound, row, hrow, hlost, -⟩ := run_invariant (P := fun m => m.Sound ∧ m.Lost p)
      (fun m a h => ⟨next_sound standing m a h.1, next_lost standing h.1 a h.2⟩)
      ⟨hm', crash_lost standing hpending⟩ later
    obtain ⟨-, row', -, hrow', hclear, -⟩ := decision_of_sound hsound ht
    obtain rfl : row = row' := Option.some.inj (hrow.symm.trans hrow')
    exact absurd (hclear.symm.trans hlost) (by simp)

/-! ## A reading of another boot -/

namespace Sample

def program : Name := ⟨"program", Nonblank.program⟩

def boot : Name := ⟨"boot", Nonblank.boot⟩

def reboot : Name := ⟨"reboot", by decide⟩

/-- A deadline at 100 seconds, bound at the origin of both clocks. -/
def envelope : Envelope :=
  ⟨program, ⟨100, 0, 0, 100000000000, boot, by decide, rfl⟩, true, []⟩

/-- Nothing but the clocks restricts authority. -/
def standing : Standing Unit := ⟨fun _ _ => true, fun _ _ => false⟩

/-- The Program is bound and its read is marked. -/
def marked : List (Action Unit) := [.configure envelope, .begin .committed, .mark true]

/-- The reading is published, and the next protocol reads 50 seconds on the bound boot. -/
def later : List (Action Unit) :=
  [.publish .committed, .begin .committed, .mark true,
    .capture (some ⟨50, 50000000000, boot⟩) false, .publish .committed]

end Sample

/-- A reading of another boot past the deadline does not raise the floor: a later reading of the
bound boot before the deadline is granted authority. -/
theorem observed_reboot_not_final :
    ¬∀ (actions later : List (Action Unit)) (p : Name) (e : Envelope) (r : BootClockReading),
      (after Sample.standing () actions).envelope p = some e →
      (after Sample.standing () actions).Takes p →
      e.projection.wallDeadline ≤ r.wall →
        (run (next Sample.standing)
          ((after Sample.standing () actions).next Sample.standing (.capture (some r) false))
          later).checkWorkAuthority Sample.standing p ≠ .ok () := by
  intro h
  refine h Sample.marked Sample.later Sample.program Sample.envelope ⟨200, 0, Sample.reboot⟩ rfl
    ⟨[Sample.program], rfl, List.mem_singleton_self _⟩ (by decide) ?_
  rfl

end Clocked

end CreatidyKernel
