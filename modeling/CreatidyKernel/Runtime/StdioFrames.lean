import CreatidyKernel.Lib.Delimited
import CreatidyKernel.Lib.JsonText
import CreatidyKernel.Runtime.Stdio

set_option relaxedAutoImplicit false
set_option autoImplicit false

/-!
# Frames and answers

The two consumers of the buffer take the same lines from it: those of the stream, in order. A line
that is a notification is kept until one call returns it, a request returns the result of the line
that carries its identifier, and any other line closes the connection, unless its decoder raises
a plain `ValueError` in a request.

## Main definitions

* `Stdio.noteOf` — the notification a line is.
* `Stdio.Took` — what an operation did that took some lines.
* `Stdio.RequestSpec`, `Stdio.DrainSpec` — what one call does.

## Main results

* `Stdio.await_ends`, `Stdio.exchange_ends`, `Stdio.collect_ends` — the loops.
* `Stdio.framing` — the lines, the notifications and the answers of every run.
-/

namespace CreatidyKernel

open Checked Delimited Runs

namespace Stdio

/-! ## Lines -/

/-- The lines the app-server writes that were not taken yet. -/
def CodexStdio.ahead (s : CodexStdio) : List Bytes := frames newline (s.pending ++ s.unread)

/-- The notification a line is. -/
def noteOf (cfg : Config) (line : Bytes) : Option Fields :=
  match decode cfg line with
  | .ok obj => if checkNotification obj = .ok () then some obj else none
  | .error _ => none

/-- The line is the answer to a request: a result or an error of the native server. -/
def Own (cfg : Config) (identifier : ℕ) (line : Bytes) : Prop :=
  ∃ obj, decode cfg line = .ok obj ∧ ¬has obj "method" ∧
    ((∃ result, answer identifier obj = .ok result) ∨
      ∃ code message, answer identifier obj = .error (.rpc code message))

/-- The exceptions on which a request closes the connection. -/
def Raised.closes : Raised → Prop
  | .rpc _ _ => False
  | .value _ => False
  | _ => True

/-- What an operation did, from a state before it, that took some lines. -/
structure Took (s₀ : CodexStdio) (lines : List Bytes) (s : CodexStdio) : Prop where
  taken : s.taken = s₀.taken ++ lines
  ahead : s₀.ahead = lines ++ s.ahead
  nextId : s.nextId = s₀.nextId
  isOpen : s.isOpen = s₀.isOpen
  written : s.written = s₀.written
  returned : s.returned = s₀.returned

/-- The notifications among some lines are kept. -/
def Kept (cfg : Config) (s₀ : CodexStdio) (lines : List Bytes) (s : CodexStdio) : Prop :=
  s.notifications = s₀.notifications ++ lines.filterMap (noteOf cfg)

theorem Took.refl (s : CodexStdio) : Took s [] s :=
  ⟨by simp, rfl, rfl, rfl, rfl, rfl⟩

theorem Kept.refl (cfg : Config) (s : CodexStdio) : Kept cfg s [] s := by
  rw [Kept, List.filterMap_nil, List.append_nil]

/-- The bytes a read returns are the first of those ahead. -/
theorem chunk_append (s : CodexStdio) (count limit : ℕ) :
    chunk s count limit ++ s.unread.drop (chunk s count limit).length = s.unread := by
  unfold chunk
  rw [List.length_take]
  rcases le_total (min count (min 8192 limit)) s.unread.length with h | h
  · rw [min_eq_left h, List.take_append_drop]
  · rw [min_eq_right h, List.take_of_length_le h, List.drop_length, List.append_nil]

/-- A read takes no line. -/
theorem Took.receive {s₀ s : CodexStdio} {lines : List Bytes} (h : Took s₀ lines s)
    (count limit : ℕ) : Took s₀ lines (s.receive (chunk s count limit)) where
  taken := h.taken
  ahead := by
    have hsame : (s.receive (chunk s count limit)).ahead = s.ahead := by
      unfold CodexStdio.ahead CodexStdio.receive
      rw [List.append_assoc, chunk_append]
    rw [hsame, h.ahead]
  nextId := h.nextId
  isOpen := h.isOpen
  written := h.written
  returned := h.returned

/-- A line that is taken is the first of those ahead. -/
theorem Took.takeLine {s₀ s : CodexStdio} {lines : List Bytes} (h : Took s₀ lines s)
    (hline : newline ∈ s.pending) :
    Took s₀ (lines ++ [s.pending.takeWhile (· ≠ newline)]) s.takeLine where
  taken := by
    unfold CodexStdio.takeLine
    rw [h.taken, List.append_assoc]
  ahead := by
    have hfirst : s.ahead = s.pending.takeWhile (· ≠ newline) :: s.takeLine.ahead := by
      unfold CodexStdio.ahead CodexStdio.takeLine
      conv_lhs => rw [← takeWhile_append_tail hline]
      rw [List.append_assoc, List.cons_append, frames_append notMem_takeWhile]
    rw [h.ahead, hfirst, List.append_assoc, List.singleton_append]
  nextId := h.nextId
  isOpen := h.isOpen
  written := h.written
  returned := h.returned

/-- What is kept of the notifications is no line. -/
theorem Took.noted {s₀ s : CodexStdio} {lines : List Bytes} (h : Took s₀ lines s)
    (notifications : List Fields) (notificationBytes : ℕ) :
    Took s₀ lines { s with notifications, notificationBytes } :=
  ⟨h.taken, h.ahead, h.nextId, h.isOpen, h.written, h.returned⟩

/-! ## Reading -/

/-- The reads until the buffer holds a line. -/
theorem fill_ends (cfg : Config) (s₀ : CodexStdio) (lines : List Bytes) (n : List Fields)
    (b : ℕ) (polls : List Poll) :
    Action.Ends (fun s => Took s₀ lines s ∧ s.notifications = n ∧ s.notificationBytes = b)
      (fill cfg polls)
      (fun _ s => newline ∈ s.pending ∧ Took s₀ lines s ∧ s.notifications = n ∧
        s.notificationBytes = b)
      fun e s => e.closes ∧ Took s₀ lines s ∧ s.notifications = n ∧ s.notificationBytes = b := by
  induction polls with
  | nil =>
    refine .bind .read fun a => ?_
    split
    · rename_i hline
      exact .pure fun s hs => ⟨hs.1 ▸ hline, hs.2⟩
    · exact .raise fun s hs => ⟨trivial, hs.2⟩
  | cons poll polls ih =>
    refine .bind .read fun a => ?_
    dsimp only
    split
    · rename_i hline
      exact .pure fun s hs => ⟨hs.1 ▸ hline, hs.2⟩
    · cases poll with
      | broken b =>
        refine .raise fun s hs => ⟨?_, hs.2⟩
        cases b <;> trivial
      | ready count =>
        dsimp only
        refine .bind (.of (fun _ _ s hs => hs) fun e he s hs => ?_) fun _ => ?_
        · rw [check_eq_error] at he
          exact ⟨he.2 ▸ trivial, hs.2⟩
        · refine .bind (.write (Q := fun _ s => Took s₀ lines s ∧ s.notifications = n ∧
            s.notificationBytes = b) fun s hs => ?_) fun _ => ?_
          · obtain ⟨rfl, htook, hn, hb⟩ := hs
            exact ⟨htook.receive _ _, hn, hb⟩
          · refine .bind (.of (fun _ _ s hs => hs) fun e he s hs => ?_) fun _ => ih
            rw [check_eq_error] at he
            exact ⟨he.2 ▸ trivial, hs⟩

/-- The first line is taken off the buffer. -/
theorem readLine_ends (cfg : Config) (s₀ : CodexStdio) (lines : List Bytes) (n : List Fields)
    (b : ℕ) (polls : List Poll) :
    Action.Ends (fun s => Took s₀ lines s ∧ s.notifications = n ∧ s.notificationBytes = b)
      (readLine cfg polls)
      (fun r s => Took s₀ (lines ++ [r.1]) s ∧ s.notifications = n ∧ s.notificationBytes = b)
      fun e s => e.closes ∧ Took s₀ lines s ∧ s.notifications = n ∧ s.notificationBytes = b := by
  refine .bind .read fun a => ?_
  refine .bind (.of (fun _ _ s hs => hs.2) fun e he s hs => ?_) fun _ => ?_
  · rw [check_eq_error] at he
    exact ⟨he.2 ▸ trivial, hs.2⟩
  · refine .bind (fill_ends cfg s₀ lines n b polls) fun polls => ?_
    refine .bind (R := fun line s => Took s₀ (lines ++ [line]) s ∧ s.notifications = n ∧
      s.notificationBytes = b) ?_ fun line => .pure fun s hs => hs
    refine .bind .read fun a => .bind (.write (Q := fun _ s =>
      Took s₀ (lines ++ [a.pending.takeWhile (· ≠ newline)]) s ∧ s.notifications = n ∧
        s.notificationBytes = b) fun s hs => ?_) fun _ => .pure fun s hs => hs
    obtain ⟨rfl, hline, htook, hn, hb⟩ := hs
    exact ⟨htook.takeLine hline, hn, hb⟩

/-! ## Messages -/

/-- A decoded object that passes the checks is the notification of its line. -/
theorem noteOf_eq_some {cfg : Config} {line : Bytes} {obj : Fields} (hdecode : decode cfg line = .ok obj)
    (hcheck : checkNotification obj = .ok ()) : noteOf cfg line = some obj := by
  unfold noteOf
  rw [hdecode]
  exact if_pos hcheck

/-- A line that is not decoded is no notification. -/
theorem noteOf_of_error {cfg : Config} {line : Bytes} {e : Raised}
    (hdecode : decode cfg line = .error e) : noteOf cfg line = none := by
  unfold noteOf
  rw [hdecode]

/-- A decoded object that fails a check is no notification. -/
theorem noteOf_of_check {cfg : Config} {line : Bytes} {obj : Fields} {e : Raised}
    (hdecode : decode cfg line = .ok obj) (hcheck : checkNotification obj = .error e) :
    noteOf cfg line = none := by
  unfold noteOf
  rw [hdecode]
  refine if_neg fun hok => ?_
  rw [hcheck] at hok
  cases hok

/-- The checks of a notification raise what closes the connection. -/
theorem checkNotification_closes {obj : Fields} {e : Raised}
    (h : checkNotification obj = .error e) : e.closes := by
  unfold checkNotification at h
  rcases bind_eq_error.mp h with h | ⟨_, -, h⟩
  · rw [check_eq_error] at h
    exact h.2 ▸ trivial
  · rw [check_eq_error] at h
    exact h.2 ▸ trivial

/-- A notification has a method. -/
theorem has_method {obj : Fields} (h : checkNotification obj = .ok ()) : has obj "method" := by
  unfold checkNotification at h
  obtain ⟨⟨htext, -⟩, -⟩ := check_bind_eq_ok.mp h
  by_contra hnot
  have hfind : obj.find? (fun f => f.1 = "method") = none := by
    rw [List.find?_eq_none]
    intro f hf heq
    exact hnot (List.mem_map.mpr ⟨f, hf, by simpa using heq⟩)
  rw [Codec.getField, hfind] at htext
  cases htext

/-- What `decode` raises: what the decoder raised, or what closes the connection. -/
theorem decode_eq_error {cfg : Config} {line : Bytes} {e : Raised} (h : decode cfg line = .error e) :
    e.closes ∨ cfg.loads line = .error .value := by
  unfold decode at h
  split at h
  · rename_i f hf
    rw [Except.error.injEq] at h
    subst h
    cases f with
    | value => exact .inr hf
    | malformed => exact .inl trivial
    | unicode => exact .inl trivial
    | other => exact .inl trivial
  · rcases bind_eq_error.mp h with h | ⟨_, -, h⟩
    · rw [check_eq_error] at h
      exact .inl (h.2 ▸ trivial)
    · cases h
  · rw [Except.error.injEq] at h
    exact .inl (h ▸ trivial)

section

variable {cfg : Config} {s₀ : CodexStdio} {lines : List Bytes}

/-- A notification whose line was taken is kept, or the connection is closed. -/
theorem bufferNotification_ends (hretain : cfg.retainNotifications = true) {line : Bytes}
    {obj : Fields} (hdecode : decode cfg line = .ok obj) :
    Action.Ends (fun s => Took s₀ (lines ++ [line]) s ∧ Kept cfg s₀ lines s)
      (bufferNotification cfg obj (line.length + 1))
      (fun _ s => noteOf cfg line ≠ none ∧ Took s₀ (lines ++ [line]) s ∧
        Kept cfg s₀ (lines ++ [line]) s)
      fun e s => e.closes ∧ Took s₀ (lines ++ [line]) s ∧
        ((∀ text, e ≠ .overflow text) → Kept cfg s₀ (lines ++ [line]) s) := by
  refine .bind (R := fun _ s => checkNotification obj = .ok () ∧ Took s₀ (lines ++ [line]) s ∧
    Kept cfg s₀ lines s) (.of (fun _ hok s hs => ⟨hok, hs⟩) fun e he s hs => ?_) fun _ => ?_
  · refine ⟨checkNotification_closes he, hs.1, fun _ => ?_⟩
    unfold Kept
    rw [List.filterMap_append, hs.2]
    simp [noteOf_of_check hdecode he]
  · rw [if_neg (by simp [hretain])]
    refine .suppose (fun _ hs => hs.1) fun hcheck => ?_
    refine .bind .read fun a => ?_
    refine .bind (.write (Q := fun _ s => Took s₀ (lines ++ [line]) s ∧ Kept cfg s₀ lines s)
      fun s hs => ?_) fun _ => ?_
    · obtain ⟨-, -, htook, hkept⟩ := hs
      exact ⟨htook.noted _ _, hkept⟩
    · refine .bind (.of (fun _ _ s hs => hs) fun e he s hs => ?_) fun _ => .write fun s hs => ?_
      · rw [check_eq_error] at he
        obtain ⟨-, rfl⟩ := he
        exact ⟨trivial, hs.1, fun hnot => absurd rfl (hnot _)⟩
      · obtain ⟨htook, hkept⟩ := hs
        refine ⟨by simp [noteOf_eq_some hdecode hcheck], htook.noted _ _, ?_⟩
        unfold Kept at hkept ⊢
        dsimp only
        rw [hkept, List.filterMap_append, List.append_assoc]
        simp [noteOf_eq_some hdecode hcheck]

/-- A notification does not touch the buffer. -/
theorem bufferNotification_pending (cfg : Config) (obj : Fields) (size : ℕ) (s : CodexStdio) :
    (bufferNotification cfg obj size s).2.pending = s.pending := by
  let R (s s' : CodexStdio) : Prop := s'.pending = s.pending
  have hrefl (s : CodexStdio) : R s s := rfl
  have htrans (s t u : CodexStdio) (h : R s t) (h' : R t u) : R s u := h'.trans h
  have hkeeps : Action.Moves R (bufferNotification cfg obj size) := by
    refine .bind htrans (.of hrefl _) fun _ => ?_
    split
    · exact .pure hrefl _
    · refine .bind htrans (.read hrefl) fun _ => ?_
      refine .bind htrans hrefl fun _ => ?_
      exact .bind htrans (.of hrefl _) fun _ => hrefl
  exact hkeeps s

/-- Lines before which only notifications were taken. -/
def Notes (cfg : Config) (lines : List Bytes) : Prop := ∀ l ∈ lines, noteOf cfg l ≠ none

theorem Notes.concat {line : Bytes} (h : Notes cfg lines) (hline : noteOf cfg line ≠ none) :
    Notes cfg (lines ++ [line]) := by
  intro l hl
  rcases List.mem_append.mp hl with hl | hl
  · exact h l hl
  · rw [List.mem_singleton.mp hl]
    exact hline

/-- A line without a method is no notification. -/
theorem noteOf_of_not_has {line : Bytes} {obj : Fields} (hdecode : decode cfg line = .ok obj)
    (hmethod : ¬has obj "method") : noteOf cfg line = none := by
  unfold noteOf
  rw [hdecode]
  exact if_neg fun hok => hmethod (has_method hok)

/-- A line that is no notification keeps what is kept. -/
theorem Kept.concat {s : CodexStdio} {line : Bytes} (h : Kept cfg s₀ lines s)
    (hline : noteOf cfg line = none) : Kept cfg s₀ (lines ++ [line]) s := by
  unfold Kept at h ⊢
  rw [h, List.filterMap_append]
  simp [hline]

/-- What the answer to a request raises: an error of the native server, or what closes. -/
theorem answer_eq_error {identifier : ℕ} {obj : Fields} {e : Raised}
    (h : answer identifier obj = .error e) : e.closes ∨ ∃ code message, e = .rpc code message := by
  unfold answer at h
  rcases bind_eq_error.mp h with h | ⟨_, -, h⟩
  · rw [check_eq_error] at h
    exact .inl (h.2 ▸ trivial)
  · split at h
    · split at h
      · split at h
        · rw [Except.error.injEq] at h
          exact .inr ⟨_, _, h.symm⟩
        · rw [Except.error.injEq] at h
          exact .inl (h ▸ trivial)
      · rw [Except.error.injEq] at h
        exact .inl (h ▸ trivial)
    · split at h
      · cases h
      · rw [Except.error.injEq] at h
        exact .inl (h ▸ trivial)

/-- What a wait for an answer leaves when it raises. -/
def Failed (cfg : Config) (s₀ : CodexStdio) (identifier : ℕ) (e : Raised) (s : CodexStdio) : Prop :=
  ∃ lines, Took s₀ lines s ∧ ((∀ text, e ≠ .overflow text) → Kept cfg s₀ lines s) ∧
    (e.closes ∨ (∃ l ∈ lines, cfg.loads l = .error .value) ∨
      ∀ l ∈ lines, noteOf cfg l ≠ none ∨ Own cfg identifier l)

/-- What a wait for an answer leaves when it returns. -/
def Answered (cfg : Config) (s₀ : CodexStdio) (identifier : ℕ) (result : Fields) (s : CodexStdio) :
    Prop :=
  ∃ lines line obj, Took s₀ (lines ++ [line]) s ∧ Kept cfg s₀ (lines ++ [line]) s ∧
    Notes cfg lines ∧ decode cfg line = .ok obj ∧ ¬has obj "method" ∧
    answer identifier obj = .ok result

/-- The wait for an answer, by induction on the lines it may still take. -/
theorem await_ends (hretain : cfg.retainNotifications = true) (identifier fuel : ℕ)
    (polls : List Poll) (consumed : ℕ) (hnotes : Notes cfg lines) :
    Action.Ends (fun s => Took s₀ lines s ∧ Kept cfg s₀ lines s)
      (await cfg identifier fuel polls consumed) (Answered cfg s₀ identifier)
      (Failed cfg s₀ identifier) := by
  induction fuel generalizing lines polls consumed with
  | zero => exact .raise fun s hs => ⟨lines, hs.1, fun _ => hs.2, .inl trivial⟩
  | succ fuel ih =>
    refine .bind (R := fun r s => Took s₀ (lines ++ [r.1]) s ∧ Kept cfg s₀ lines s) ?_ fun r => ?_
    · intro s hs
      obtain ⟨hok, herror⟩ := readLine_ends cfg s₀ lines s.notifications s.notificationBytes polls s
        ⟨hs.1, rfl, rfl⟩
      refine ⟨fun r s' hr => ?_, fun e s' hr => ?_⟩
      · obtain ⟨htook, hn, -⟩ := hok r s' hr
        exact ⟨htook, hn.trans hs.2⟩
      · obtain ⟨hcloses, htook, hn, -⟩ := herror e s' hr
        exact ⟨lines, htook, fun _ => hn.trans hs.2, .inl hcloses⟩
    · obtain ⟨line, polls'⟩ := r
      dsimp only
      refine .bind (.of (fun _ _ s hs => hs) fun e he s hs => ?_) fun _ => ?_
      · rw [check_eq_error] at he
        obtain ⟨-, rfl⟩ := he
        exact ⟨_, hs.1, fun hnot => absurd rfl (hnot _), .inl trivial⟩
      · refine .bind (R := fun obj s => decode cfg line = .ok obj ∧
          Took s₀ (lines ++ [line]) s ∧ Kept cfg s₀ lines s)
          (.of (fun obj hok s hs => ⟨hok, hs⟩) fun e he s hs => ?_) fun obj => ?_
        · refine ⟨_, hs.1, fun _ => hs.2.concat (noteOf_of_error he), ?_⟩
          rcases decode_eq_error he with hcloses | hvalue
          · exact .inl hcloses
          · exact .inr (.inl ⟨line, by simp, hvalue⟩)
        · refine .suppose (fun _ hs => hs.1) fun hdecode => ?_
          split
          · refine .bind (R := fun _ s => noteOf cfg line ≠ none ∧ Took s₀ (lines ++ [line]) s ∧
              Kept cfg s₀ (lines ++ [line]) s) ?_ fun _ => ?_
            · refine (bufferNotification_ends hretain hdecode).weaken (fun _ hs => hs.2)
                (fun _ _ hs => hs) fun e s he => ?_
              exact ⟨_, he.2.1, he.2.2, .inl he.1⟩
            · refine .suppose (fun _ hs => hs.1) fun hline => ?_
              exact (ih polls' _ (hnotes.concat hline)).pre fun _ hs => hs.2
          · rename_i hmethod
            have hnone := noteOf_of_not_has hdecode hmethod
            refine .of (fun result hok s hs => ?_) fun e he s hs => ?_
            · exact ⟨lines, line, obj, hs.2.1, hs.2.2.concat hnone, hnotes, hdecode, hmethod, hok⟩
            · refine ⟨_, hs.2.1, fun _ => hs.2.2.concat hnone, ?_⟩
              rcases answer_eq_error he with hcloses | ⟨code, message, rfl⟩
              · exact .inl hcloses
              · refine .inr (.inr fun l hl => ?_)
                rcases List.mem_append.mp hl with hl | hl
                · exact .inl (hnotes l hl)
                · rw [List.mem_singleton.mp hl]
                  exact .inr ⟨obj, hdecode, hmethod, .inr ⟨code, message, he⟩⟩

end

/-! ## Requests -/

/-- A request took the next identifier and wrote bytes of its own message. -/
def Sent (method : String) (params : Except Fault Json) (s₀ s : CodexStdio) : Prop :=
  ∃ data, s = { s₀ with nextId := s₀.nextId + 1, written := s₀.written ++ data } ∧
    (data ≠ [] → ∃ p, params = .ok p ∧ data <+:
      encode [("method", .str method), ("id", .int s₀.nextId), ("params", p)])

section

variable {cfg : Config} {s₀ : CodexStdio}

theorem send_ends (method : String) (params : Except Fault Json) (delivery : Delivery) :
    Action.Ends (fun s => s = { s₀ with nextId := s₀.nextId + 1 })
      (send cfg (params.map fun params =>
        [("method", .str method), ("id", .int s₀.nextId), ("params", params)]) delivery)
      (fun _ s => Sent method params s₀ s) fun _ s => Sent method params s₀ s := by
  have hnone : ∀ s, s = { s₀ with nextId := s₀.nextId + 1 } → Sent method params s₀ s := by
    rintro s rfl
    exact ⟨[], by simp, nofun⟩
  refine .bind .read fun a => ?_
  refine .bind (.of (fun _ _ s hs => hs.2) fun e _ s hs => hnone s hs.2) fun _ => ?_
  cases params with
  | error f =>
    exact .bind (.of (fun _ hok => by cases hok) fun e _ s hs => hnone s hs) fun _ =>
      .suppose (P := fun _ => False) (fun _ h => h) nofun
  | ok p =>
    have hprefix (data : Bytes) (hdata : data <+: encode [("method", .str method),
        ("id", .int s₀.nextId), ("params", p)]) :
        Sent method (.ok p) s₀ { s₀ with
          nextId := s₀.nextId + 1, written := s₀.written ++ data } :=
      ⟨data, rfl, fun _ => ⟨p, rfl, hdata⟩⟩
    refine .bind (R := fun message s => message = [("method", .str method),
        ("id", .int s₀.nextId), ("params", p)] ∧ s = { s₀ with nextId := s₀.nextId + 1 })
      (.of (fun message hok s hs => ⟨(Except.ok.inj hok).symm, hs⟩) fun e he => by cases he)
      fun message => .suppose (fun _ hs => hs.1) ?_
    rintro rfl
    refine .bind (.of (fun _ _ s hs => hs.2) fun e _ s hs => hnone s hs.2) fun _ => ?_
    cases delivery.broken with
    | none =>
      refine .write ?_
      rintro s rfl
      exact hprefix _ List.prefix_rfl
    | some b =>
      refine .bind (.write (Q := fun _ s => Sent method (.ok p) s₀ s) ?_) fun _ =>
        .raise fun s hs => hs
      rintro s rfl
      exact hprefix _ (List.take_prefix _ _)

/-- The whole exchange. -/
theorem exchange_ends (hretain : cfg.retainNotifications = true) (method : String)
    (params : Except Fault Json) (delivery : Delivery) (polls : List Poll) :
    Action.Ends (fun s => s = s₀) (exchange cfg method params delivery polls)
      (fun result s => ∃ s₁, Sent method params s₀ s₁ ∧ Answered cfg s₁ s₀.nextId result s)
      fun e s => ∃ s₁, Sent method params s₀ s₁ ∧ Failed cfg s₁ s₀.nextId e s := by
  refine .bind .read fun a => .suppose (fun _ hs => hs.1.trans hs.2) ?_
  rintro rfl
  refine .bind (.write (Q := fun _ s => s = { a with nextId := a.nextId + 1 }) ?_) fun _ => ?_
  · rintro s ⟨rfl, -⟩
    rfl
  · refine .bind ((send_ends method params delivery).weaken (fun _ h => h) (fun _ _ h => h)
      fun e s hs => ?_) fun _ => ?_
    · exact ⟨s, hs, [], .refl s, fun _ => .refl cfg s, .inr (.inr (by simp))⟩
    · intro s hs
      have hnotes : Notes cfg [] := by simp [Notes]
      have hwait := await_ends hretain a.nextId (cfg.maxBytes + 1) polls 0 hnotes s
        ⟨.refl s, .refl cfg s⟩
      exact ⟨fun result s' hr => ⟨s, hs, hwait.1 result s' hr⟩,
        fun e s' hr => ⟨s, hs, hwait.2 e s' hr⟩⟩

/-- A request from a state: it was refused, it returned, or it raised and closed or did not. -/
theorem request_cases (hretain : cfg.retainNotifications = true) (method : String)
    (params : Except Fault Json) (delivery : Delivery) (polls : List Poll) (s₀ : CodexStdio) :
    Action.Ends (fun s => s = s₀) (request cfg method params delivery polls)
      (fun result s => s₀.isOpen = true ∧
        ∃ s₁, Sent method params s₀ s₁ ∧ Answered cfg s₁ s₀.nextId result s)
      fun e s => s = s₀ ∨ ∃ s₁ s₂, Sent method params s₀ s₁ ∧ Failed cfg s₁ s₀.nextId e s₂ ∧
        (e.closes → s = { s₂ with isOpen := false }) ∧ (¬e.closes → s = s₂) := by
  refine .bind (.of (fun _ _ s hs => hs) fun e _ s hs => .inl hs) fun _ => ?_
  refine .bind .read fun a => ?_
  refine .bind (R := fun _ s => s = s₀ ∧ s₀.isOpen = true) (.of (fun _ hok s hs => ?_)
    fun e _ s hs => .inl hs.2) fun _ => .suppose (fun _ hs => hs.2) fun hopen => ?_
  · rw [check_eq_ok] at hok
    obtain ⟨rfl, rfl⟩ := hs
    exact ⟨rfl, hok⟩
  · refine .bind (R := fun r s => match r with
      | .ok result => ∃ s₁, Sent method params s₀ s₁ ∧ Answered cfg s₁ s₀.nextId result s
      | .error e => ∃ s₁, Sent method params s₀ s₁ ∧ Failed cfg s₁ s₀.nextId e s)
      (.attempt ((exchange_ends hretain method params delivery polls).pre fun _ hs => hs.1))
      fun r => ?_
    cases r with
    | ok result => exact .pure fun s hs => ⟨hopen, hs⟩
    | error e =>
      have hraise (hclose : ¬e.closes) : Action.Ends
          (fun s => ∃ s₁, Sent method params s₀ s₁ ∧ Failed cfg s₁ s₀.nextId e s)
          (Action.raise e : Do Fields) (fun _ _ => False) fun e s => s = s₀ ∨ ∃ s₁ s₂,
            Sent method params s₀ s₁ ∧ Failed cfg s₁ s₀.nextId e s₂ ∧
            (e.closes → s = { s₂ with isOpen := false }) ∧ (¬e.closes → s = s₂) := by
        refine .raise ?_
        rintro s ⟨s₁, hsent, hfailed⟩
        exact .inr ⟨s₁, s, hsent, hfailed, fun h => absurd h hclose, fun _ => rfl⟩
      have hclose (hcloses : e.closes) : Action.Ends
          (fun s => ∃ s₁, Sent method params s₀ s₁ ∧ Failed cfg s₁ s₀.nextId e s)
          (do close; Action.raise e : Do Fields) (fun _ _ => False) fun e s => s = s₀ ∨ ∃ s₁ s₂,
            Sent method params s₀ s₁ ∧ Failed cfg s₁ s₀.nextId e s₂ ∧
            (e.closes → s = { s₂ with isOpen := false }) ∧ (¬e.closes → s = s₂) := by
        refine .bind (.write (Q := fun _ s => ∃ s₁ s₂, Sent method params s₀ s₁ ∧
          Failed cfg s₁ s₀.nextId e s₂ ∧ s = { s₂ with isOpen := false }) ?_) fun _ => .raise ?_
        · rintro s ⟨s₁, hsent, hfailed⟩
          exact ⟨s₁, s, hsent, hfailed, rfl⟩
        · rintro s ⟨s₁, s₂, hsent, hfailed, rfl⟩
          exact .inr ⟨s₁, s₂, hsent, hfailed, fun _ => rfl, fun h => absurd hcloses h⟩
      cases e with
      | rpc code message => exact (hraise id).weaken (fun _ h => h) nofun fun _ _ h => h
      | value message => exact (hraise id).weaken (fun _ h => h) nofun fun _ _ h => h
      | malformed => exact (hclose trivial).weaken (fun _ h => h) nofun fun _ _ h => h
      | unicode => exact (hclose trivial).weaken (fun _ h => h) nofun fun _ _ h => h
      | os message => exact (hclose trivial).weaken (fun _ h => h) nofun fun _ _ h => h
      | timeout message => exact (hclose trivial).weaken (fun _ h => h) nofun fun _ _ h => h
      | overflow message => exact (hclose trivial).weaken (fun _ h => h) nofun fun _ _ h => h
      | other => exact (hclose trivial).weaken (fun _ h => h) nofun fun _ _ h => h

end

/-! ## Notifications -/

section

variable {cfg : Config} {s₀ : CodexStdio}

/-- The reads of `notifications` take no line. -/
theorem drain_ends (cfg : Config) (s₀ : CodexStdio) (n : List Fields) (polls : List Poll)
    (received : ℕ) :
    Action.Ends (fun s => Took s₀ [] s ∧ s.notifications = n) (drain cfg polls received)
      (fun _ s => Took s₀ [] s ∧ s.notifications = n)
      fun _ s => Took s₀ [] s ∧ s.notifications = n := by
  induction polls generalizing received with
  | nil => exact .pure fun s hs => hs
  | cons poll polls ih =>
    cases poll with
    | broken b => exact .raise fun s hs => hs
    | ready count =>
      refine .bind .read fun a => ?_
      refine .bind (.of (fun _ _ s hs => hs) fun e _ s hs => hs.2) fun _ => ?_
      refine .bind (.write (Q := fun _ s => Took s₀ [] s ∧ s.notifications = n) ?_) fun _ => ?_
      · rintro s ⟨rfl, htook, hn⟩
        exact ⟨htook.receive _ _, hn⟩
      · exact .bind (.of (fun _ _ s hs => hs) fun e _ s hs => hs) fun _ => ih _

/-- A line that is taken leaves less in the buffer. -/
theorem takeLine_length {s : CodexStdio} (h : newline ∈ s.pending) :
    s.takeLine.pending.length < s.pending.length := by
  have hsplit := congrArg List.length (takeWhile_append_tail h)
  rw [List.length_append, List.length_cons] at hsplit
  unfold CodexStdio.takeLine
  dsimp only
  omega

/-- The lines of the buffer, by induction on how many bytes it holds. -/
theorem takeAll_ends (hretain : cfg.retainNotifications = true) (fuel : ℕ) {lines : List Bytes}
    (hnotes : Notes cfg lines) :
    Action.Ends (fun s => Took s₀ lines s ∧ Kept cfg s₀ lines s ∧ s.pending.length ≤ fuel)
      (takeAll cfg fuel)
      (fun _ s => ∃ lines, Took s₀ lines s ∧ Kept cfg s₀ lines s ∧ Notes cfg lines ∧
        newline ∉ s.pending)
      fun e s => ∃ lines, Took s₀ lines s ∧
        ((∀ text, e ≠ .overflow text) → Kept cfg s₀ lines s) := by
  induction fuel generalizing lines with
  | zero =>
    refine .pure fun s hs => ⟨lines, hs.1, hs.2.1, hnotes, ?_⟩
    rw [List.length_eq_zero_iff.mp (Nat.le_zero.mp hs.2.2)]
    exact List.not_mem_nil
  | succ fuel ih =>
    refine .bind .read fun a => ?_
    split
    · rename_i hline
      refine .bind (R := fun line s => Took s₀ (lines ++ [line]) s ∧ Kept cfg s₀ lines s ∧
        s.pending.length ≤ fuel) ?_ fun line => ?_
      · rintro s ⟨rfl, htook, hkept, hlength⟩
        refine ⟨?_, by rintro _ _ ⟨⟩⟩
        rintro _ _ ⟨⟩
        have hless := takeLine_length hline
        exact ⟨htook.takeLine hline, hkept, by omega⟩
      · refine .bind (R := fun obj s => decode cfg line = .ok obj ∧ Took s₀ (lines ++ [line]) s ∧
          Kept cfg s₀ lines s ∧ s.pending.length ≤ fuel)
          (.of (fun obj hok s hs => ⟨hok, hs⟩) fun e he s hs => ?_) fun obj => ?_
        · exact ⟨_, hs.1, fun _ => hs.2.1.concat (noteOf_of_error he)⟩
        · refine .suppose (fun _ hs => hs.1) fun hdecode => ?_
          refine .bind (R := fun _ s => noteOf cfg line ≠ none ∧ Took s₀ (lines ++ [line]) s ∧
            Kept cfg s₀ (lines ++ [line]) s ∧ s.pending.length ≤ fuel) ?_ fun _ => ?_
          · rintro s ⟨-, htook, hkept, hlength⟩
            have hpending := bufferNotification_pending cfg obj (line.length + 1) s
            obtain ⟨hok, herror⟩ := bufferNotification_ends hretain hdecode s ⟨htook, hkept⟩
            refine ⟨fun u s' hr => ?_, fun e s' hr => ⟨_, (herror e s' hr).2⟩⟩
            rw [hr] at hpending
            obtain ⟨hline, htook', hkept'⟩ := hok u s' hr
            exact ⟨hline, htook', hkept', by rw [hpending]; exact hlength⟩
          · refine .suppose (fun _ hs => hs.1) fun hline => ?_
            exact (ih (hnotes.concat hline)).pre fun _ hs => hs.2
    · rename_i hline
      refine .pure ?_
      rintro s ⟨rfl, htook, hkept, -⟩
      exact ⟨lines, htook, hkept, hnotes, hline⟩

/-- The notifications were returned. -/
def CodexStdio.handOver (s : CodexStdio) : CodexStdio :=
  { s with
    notifications := [], notificationBytes := 0, returned := s.returned ++ s.notifications }

/-- A call of `notifications` from a state. -/
theorem drainNotifications_cases (hretain : cfg.retainNotifications = true) (polls : List Poll)
    (s₀ : CodexStdio) :
    Action.Ends (fun s => s = s₀) (drainNotifications cfg polls)
      (fun notes s => ∃ lines s₁, Took s₀ lines s₁ ∧ Kept cfg s₀ lines s₁ ∧ Notes cfg lines ∧
        (s₀.isOpen = true → newline ∉ s₁.pending) ∧ notes = s₁.notifications ∧ s = s₁.handOver)
      fun e s => ∃ lines s₁, Took s₀ lines s₁ ∧
        ((∀ text, e ≠ .overflow text) → Kept cfg s₀ lines s₁) ∧
        s = { s₁ with isOpen := false } := by
  refine .bind .read fun a => .suppose (fun _ hs => hs.1.trans hs.2) ?_
  rintro rfl
  have hreturn : Action.Ends (fun s => ∃ lines, Took a lines s ∧ Kept cfg a lines s ∧
        Notes cfg lines ∧ (a.isOpen = true → newline ∉ s.pending))
      (do
        let s ← Action.read
        Action.write fun s => { s with
          notifications := [], notificationBytes := 0, returned := s.returned ++ s.notifications }
        return s.notifications : Do (List Fields))
      (fun notes s => ∃ lines s₁, Took a lines s₁ ∧ Kept cfg a lines s₁ ∧ Notes cfg lines ∧
        (a.isOpen = true → newline ∉ s₁.pending) ∧ notes = s₁.notifications ∧ s = s₁.handOver)
      fun e s => ∃ lines s₁, Took a lines s₁ ∧
        ((∀ text, e ≠ .overflow text) → Kept cfg a lines s₁) ∧
        s = { s₁ with isOpen := false } := by
    rintro s ⟨lines, htook, hkept, hnotes, hpending⟩
    refine ⟨?_, by rintro _ _ ⟨⟩⟩
    rintro _ _ ⟨⟩
    exact ⟨lines, s, htook, hkept, hnotes, hpending, rfl, rfl⟩
  split
  · refine .bind ?_ fun _ => hreturn
    refine .bind (R := fun r s => Except.rec (motive := fun _ => Prop)
      (fun e => ∃ lines, Took a lines s ∧ ((∀ text, e ≠ .overflow text) → Kept cfg a lines s))
      (fun _ => ∃ lines, Took a lines s ∧ Kept cfg a lines s ∧ Notes cfg lines ∧
        newline ∉ s.pending) r) (.attempt ?_) fun r => ?_
    · refine .bind ((drain_ends cfg a a.notifications polls 0).weaken ?_ (fun _ _ hs => hs)
        fun e s hs => ?_) fun _ => ?_
      · rintro s ⟨rfl, -⟩
        exact ⟨.refl a, rfl⟩
      · refine ⟨[], hs.1, fun _ => ?_⟩
        rw [Kept, hs.2, List.filterMap_nil, List.append_nil]
      · refine .bind .read fun b => ?_
        have hnotes : Notes cfg [] := by simp [Notes]
        refine (takeAll_ends hretain b.pending.length hnotes).pre ?_
        rintro s ⟨rfl, htook, hn⟩
        refine ⟨htook, ?_, le_rfl⟩
        rw [Kept, hn, List.filterMap_nil, List.append_nil]
    · cases r with
      | ok u =>
        refine .pure ?_
        rintro s ⟨lines, htook, hkept, hnotes, hpending⟩
        exact ⟨lines, htook, hkept, hnotes, fun _ => hpending⟩
      | error e =>
        refine .bind (.write (Q := fun _ s => ∃ lines s₁, Took a lines s₁ ∧
          ((∀ text, e ≠ .overflow text) → Kept cfg a lines s₁) ∧
          s = { s₁ with isOpen := false }) ?_) fun _ => .raise fun s hs => hs
        rintro s ⟨lines, htook, hkept⟩
        exact ⟨lines, s, htook, hkept, rfl⟩
  · rename_i hclosed
    refine hreturn.pre ?_
    rintro s ⟨rfl, -⟩
    exact ⟨[], .refl a, .refl cfg a, by simp [Notes], fun h => absurd h hclosed⟩

end

/-! ## Runs -/

/-- What holds of the lines of a stream and of their notifications. -/
structure Accounted (cfg : Config) (stream : Bytes) (s : CodexStdio) : Prop where
  /-- The lines that were taken are the first lines of the stream. -/
  lines : s.taken ++ s.ahead = frames newline stream
  /-- Their notifications were returned, or will be. -/
  notes : s.returned ++ s.notifications = s.taken.filterMap (noteOf cfg)

/-- What a request does at a state. -/
structure RequestSpec (cfg : Config) (s : CodexStdio) (method : String)
    (params : Except Fault Json) (delivery : Delivery) (polls : List Poll) : Prop where
  /-- The result is that of a line with the request's own identifier. -/
  result : ∀ result s', request cfg method params delivery polls s = (.ok result, s') →
    s'.isOpen = true ∧ ∃ lines line obj, s'.taken = s.taken ++ (lines ++ [line]) ∧
      Notes cfg lines ∧ decode cfg line = .ok obj ∧ ¬has obj "method" ∧
      Codec.getField obj "id" = .int s.nextId ∧ Codec.getField obj "result" = .obj result
  /-- A line that is neither a notification nor the answer closes the connection. -/
  closes : ∀ lines, (request cfg method params delivery polls s).2.taken = s.taken ++ lines →
    ∀ line ∈ lines, noteOf cfg line ≠ none ∨ Own cfg s.nextId line ∨
      (request cfg method params delivery polls s).2.isOpen = false
  /-- What is written is the request's own message, under an identifier that is not used again. -/
  sent : ∃ data, (request cfg method params delivery polls s).2.written = s.written ++ data ∧
    (data ≠ [] → (request cfg method params delivery polls s).2.nextId = s.nextId + 1 ∧
      ∃ p, params = .ok p ∧ data <+:
        encode [("method", .str method), ("id", .int s.nextId), ("params", p)])
  /-- No notification is returned. -/
  returned : (request cfg method params delivery polls s).2.returned = s.returned

/-- What a call of `notifications` does at a state. -/
structure DrainSpec (cfg : Config) (s : CodexStdio) (polls : List Poll) : Prop where
  /-- All that is kept is returned, with the notifications of every line that arrived. -/
  result : ∀ notes s', drainNotifications cfg polls s = (.ok notes, s') →
    s'.returned = s.returned ++ notes ∧ s'.notifications = [] ∧
      (s.isOpen = true → newline ∉ s'.pending)
  /-- Nothing is returned otherwise. -/
  raised : ∀ e s', drainNotifications cfg polls s = (.error e, s') → s'.returned = s.returned
  /-- A line that is no notification closes the connection. -/
  closes : ∀ lines, (drainNotifications cfg polls s).2.taken = s.taken ++ lines →
    ∀ line ∈ lines, noteOf cfg line ≠ none ∨ (drainNotifications cfg polls s).2.isOpen = false
  /-- Nothing is written. -/
  sent : (drainNotifications cfg polls s).2.written = s.written

section

variable {cfg : Config} {stream : Bytes} {s : CodexStdio}

/-- What was taken and what is ahead after an operation that took lines. -/
theorem Took.accounted {s₀ s₁ : CodexStdio} {lines : List Bytes} (h : Took s₀ lines s₁)
    (hs : s₀.taken ++ s₀.ahead = frames newline stream) :
    s₁.taken ++ s₁.ahead = frames newline stream := by
  rw [← hs, h.taken, h.ahead, List.append_assoc]

/-- The notifications after an operation that kept those it took. -/
theorem Took.noted_of_kept {s₀ s₁ : CodexStdio} {lines : List Bytes} (h : Took s₀ lines s₁)
    (hkept : Kept cfg s₀ lines s₁)
    (hs : s₀.returned ++ s₀.notifications = s₀.taken.filterMap (noteOf cfg)) :
    s₁.returned ++ s₁.notifications = s₁.taken.filterMap (noteOf cfg) := by
  rw [h.returned, hkept, h.taken, List.filterMap_append, ← hs, List.append_assoc]

/-- What a request took, kept and wrote, however it ended. -/
theorem request_took (hretain : cfg.retainNotifications = true) (method : String)
    (params : Except Fault Json) (delivery : Delivery) (polls : List Poll) (s : CodexStdio)
    {r : Except Raised Fields} {s' : CodexStdio}
    (hr : request cfg method params delivery polls s = (r, s')) :
    s' = s ∧ (∃ e, r = .error e) ∨ ∃ s₁ s₂ lines, Sent method params s s₁ ∧ Took s₁ lines s₂ ∧
      ((∀ text, r ≠ .error (.overflow text)) → Kept cfg s₁ lines s₂) ∧
      (s' = s₂ ∨ s' = { s₂ with isOpen := false }) := by
  obtain ⟨hok, herror⟩ := request_cases hretain method params delivery polls s s rfl
  cases r with
  | ok result =>
    obtain ⟨-, s₁, hsent, lines, line, obj, htook, hkept, -⟩ := hok result s' hr
    exact .inr ⟨s₁, s', _, hsent, htook, fun _ => hkept, .inl rfl⟩
  | error e =>
    rcases herror e s' hr with hsame | ⟨s₁, s₂, hsent, ⟨lines, htook, hkept, -⟩, hcloses, hstays⟩
    · exact .inl ⟨hsame, e, rfl⟩
    · refine .inr ⟨s₁, s₂, lines, hsent, htook, fun hnot => hkept fun text heq => ?_, ?_⟩
      · exact hnot text (by rw [heq])
      · by_cases hc : e.closes
        · exact .inr (hcloses hc)
        · exact .inl (hstays hc)

/-- What `notifications` took and kept, however it ended. -/
theorem drainNotifications_took (hretain : cfg.retainNotifications = true) (polls : List Poll)
    (s : CodexStdio) {r : Except Raised (List Fields)} {s' : CodexStdio}
    (hr : drainNotifications cfg polls s = (r, s')) :
    ∃ s₁ lines, Took s lines s₁ ∧ ((∀ text, r ≠ .error (.overflow text)) → Kept cfg s lines s₁) ∧
      (s' = s₁.handOver ∧ Notes cfg lines ∨ s' = { s₁ with isOpen := false }) := by
  obtain ⟨hok, herror⟩ := drainNotifications_cases hretain polls s s rfl
  cases r with
  | ok notes =>
    obtain ⟨lines, s₁, htook, hkept, hnotes, -, -, hs'⟩ := hok notes s' hr
    exact ⟨s₁, lines, htook, fun _ => hkept, .inl ⟨hs', hnotes⟩⟩
  | error e =>
    obtain ⟨lines, s₁, htook, hkept, hs'⟩ := herror e s' hr
    refine ⟨s₁, lines, htook, fun hnot => hkept fun text heq => ?_, .inr hs'⟩
    exact hnot text (by rw [heq])

/-- A request took no line that it did not account for. -/
theorem requestSpec (hretain : cfg.retainNotifications = true)
    (hloads : ∀ line ∈ frames newline stream, cfg.loads line ≠ .error .value)
    (hs : Accounted cfg stream s) (method : String) (params : Except Fault Json)
    (delivery : Delivery) (polls : List Poll) : RequestSpec cfg s method params delivery polls where
  result := by
    intro result s' hr
    obtain ⟨hok, -⟩ := request_cases hretain method params delivery polls s s rfl
    obtain ⟨hopen, s₁, ⟨data, rfl, -⟩, lines, line, obj, htook, -, hnotes, hdecode, hmethod,
      hanswer⟩ := hok result s' hr
    refine ⟨htook.isOpen.trans hopen, lines, line, obj, htook.taken, hnotes, hdecode, hmethod, ?_⟩
    unfold answer at hanswer
    obtain ⟨hid, hanswer⟩ := check_bind_eq_ok.mp hanswer
    refine ⟨hid, ?_⟩
    split at hanswer
    · repeat' split at hanswer
      all_goals cases hanswer
    · split at hanswer
      · rename_i fields hfields
        rw [hfields, Except.ok.inj hanswer]
      · cases hanswer
  closes := by
    intro lines hlines line hline
    obtain ⟨hok, herror⟩ := request_cases hretain method params delivery polls s s rfl
    cases hr : request cfg method params delivery polls s with
    | mk r s' =>
      rw [hr] at hlines
      dsimp only at hlines ⊢
      cases r with
      | ok result =>
        obtain ⟨-, s₁, ⟨data, rfl, -⟩, init, last, obj, htook, -, hnotes, hdecode, hmethod,
          hanswer⟩ := hok result s' hr
        obtain rfl := List.append_cancel_left (hlines.symm.trans htook.taken)
        rcases List.mem_append.mp hline with hline | hline
        · exact .inl (hnotes line hline)
        · rw [List.mem_singleton.mp hline]
          exact .inr (.inl ⟨obj, hdecode, hmethod, .inl ⟨result, hanswer⟩⟩)
      | error e =>
        rcases herror e s' hr with rfl | ⟨s₁, s₂, ⟨data, rfl, -⟩, ⟨took, htook, -, hcause⟩, hcloses,
          hstays⟩
        · obtain rfl : lines = [] := by simpa using hlines.symm
          cases hline
        · have htaken : s'.taken = s.taken ++ took := by
            by_cases hc : e.closes
            · rw [hcloses hc]
              exact htook.taken
            · rw [hstays hc]
              exact htook.taken
          obtain rfl := List.append_cancel_left (hlines.symm.trans htaken)
          rcases hcause with hc | ⟨l, hl, hvalue⟩ | hown
          · rw [hcloses hc]
            exact .inr (.inr rfl)
          · refine absurd hvalue (hloads l ?_)
            rw [← hs.lines]
            have hahead : s.ahead = lines ++ s₂.ahead := htook.ahead
            rw [hahead]
            exact List.mem_append_right _ (List.mem_append_left _ hl)
          · rcases hown line hline with hnote | hown
            · exact .inl hnote
            · exact .inr (.inl hown)
  sent := by
    cases hr : request cfg method params delivery polls s with
    | mk r s' =>
      rcases request_took hretain method params delivery polls s hr with
        ⟨rfl, -⟩ | ⟨s₁, s₂, lines, ⟨data, rfl, hdata⟩, htook, -, rfl | rfl⟩
      · exact ⟨[], by simp, nofun⟩
      · exact ⟨data, htook.written, fun h => ⟨htook.nextId, hdata h⟩⟩
      · exact ⟨data, htook.written, fun h => ⟨htook.nextId, hdata h⟩⟩
  returned := by
    cases hr : request cfg method params delivery polls s with
    | mk r s' =>
      rcases request_took hretain method params delivery polls s hr with
        ⟨rfl, -⟩ | ⟨s₁, s₂, lines, ⟨data, rfl, -⟩, htook, -, rfl | rfl⟩
      · rfl
      · exact htook.returned
      · exact htook.returned

/-- A call of `notifications` returns what is kept. -/
theorem drainSpec (hretain : cfg.retainNotifications = true) (s : CodexStdio) (polls : List Poll) :
    DrainSpec cfg s polls where
  result := by
    intro notes s' hr
    obtain ⟨hok, -⟩ := drainNotifications_cases hretain polls s s rfl
    obtain ⟨lines, s₁, htook, -, -, hpending, rfl, rfl⟩ := hok notes s' hr
    refine ⟨?_, rfl, hpending⟩
    unfold CodexStdio.handOver
    dsimp only
    rw [htook.returned]
  raised := by
    intro e s' hr
    obtain ⟨-, herror⟩ := drainNotifications_cases hretain polls s s rfl
    obtain ⟨lines, s₁, htook, -, rfl⟩ := herror e s' hr
    exact htook.returned
  closes := by
    intro lines hlines line hline
    cases hr : drainNotifications cfg polls s with
    | mk r s' =>
      rw [hr] at hlines
      obtain ⟨s₁, took, htook, -, ⟨rfl, hnotes⟩ | rfl⟩ := drainNotifications_took hretain polls s hr
      · obtain rfl := List.append_cancel_left (hlines.symm.trans htook.taken)
        exact .inl (hnotes line hline)
      · exact .inr rfl
  sent := by
    cases hr : drainNotifications cfg polls s with
    | mk r s' =>
      obtain ⟨s₁, took, htook, -, ⟨rfl, -⟩ | rfl⟩ := drainNotifications_took hretain polls s hr
      · exact htook.written
      · exact htook.written

/-- The call exceeds no size limit. -/
def WithinLimits (cfg : Config) (s : CodexStdio) (c : Call) : Prop :=
  ∀ text, (serve cfg c s).1 ≠ .error (.overflow text)

/-- A call whose value is dropped. -/
theorem drop_apply {α : Type} (m : Do α) (s : CodexStdio) :
    (do let _ ← m; return ()) s = ((m s).1.map fun _ => (), (m s).2) := by
  cases hr : m s with
  | mk r s' =>
    cases r with
    | ok a => rw [Action.bind_of_ok hr]; rfl
    | error e => rw [Action.bind_of_error hr]; rfl

/-- One call keeps the account of the lines and the notifications. -/
theorem next_accounted (hretain : cfg.retainNotifications = true) (hs : Accounted cfg stream s)
    {c : Call} (hlimits : WithinLimits cfg s c) : Accounted cfg stream (next cfg s c) := by
  unfold WithinLimits at hlimits
  unfold next
  cases c with
  | request method params delivery polls =>
    unfold serve at hlimits ⊢
    simp only [drop_apply] at hlimits ⊢
    cases hr : request cfg method params delivery polls s with
    | mk r s' =>
      rw [hr] at hlimits
      have hnot : ∀ text, r ≠ .error (.overflow text) := by
        rintro text rfl
        exact hlimits text rfl
      rcases request_took hretain method params delivery polls s hr with
        ⟨rfl, -⟩ | ⟨s₁, s₂, lines, ⟨data, rfl, -⟩, htook, hkept, rfl | rfl⟩
      · exact hs
      · exact ⟨htook.accounted hs.lines, htook.noted_of_kept (hkept hnot) hs.notes⟩
      · exact ⟨htook.accounted hs.lines, htook.noted_of_kept (hkept hnot) hs.notes⟩
  | notifications polls =>
    unfold serve at hlimits ⊢
    simp only [drop_apply] at hlimits ⊢
    cases hr : drainNotifications cfg polls s with
    | mk r s' =>
      rw [hr] at hlimits
      have hnot : ∀ text, r ≠ .error (.overflow text) := by
        rintro text rfl
        exact hlimits text rfl
      obtain ⟨s₁, lines, htook, hkept, ⟨rfl, -⟩ | rfl⟩ := drainNotifications_took hretain polls s hr
      · refine ⟨htook.accounted hs.lines, ?_⟩
        unfold CodexStdio.handOver
        dsimp only
        rw [List.append_nil]
        exact htook.noted_of_kept (hkept hnot) hs.notes
      · exact ⟨htook.accounted hs.lines, htook.noted_of_kept (hkept hnot) hs.notes⟩
  | close => exact ⟨hs.lines, hs.notes⟩

/-- An identifier is taken once, by the call that writes under it. -/
theorem next_nextId (hretain : cfg.retainNotifications = true) (s : CodexStdio) (c : Call) :
    s.nextId ≤ (next cfg s c).nextId ∧
      ((next cfg s c).written ≠ s.written → s.nextId < (next cfg s c).nextId) := by
  unfold next
  cases c with
  | request method params delivery polls =>
    unfold serve
    simp only [drop_apply]
    cases hr : request cfg method params delivery polls s with
    | mk r s' =>
      rcases request_took hretain method params delivery polls s hr with
        ⟨rfl, -⟩ | ⟨s₁, s₂, lines, ⟨data, rfl, -⟩, htook, -, rfl | rfl⟩
      · exact ⟨le_rfl, fun h => absurd rfl h⟩
      · have hid : s'.nextId = s.nextId + 1 := htook.nextId
        dsimp only
        exact ⟨by omega, fun _ => by omega⟩
      · have hid : s₂.nextId = s.nextId + 1 := htook.nextId
        dsimp only
        exact ⟨by omega, fun _ => by omega⟩
  | notifications polls =>
    unfold serve
    simp only [drop_apply]
    have hsent := (drainSpec hretain s polls).sent
    cases hr : drainNotifications cfg polls s with
    | mk r s' =>
      rw [hr] at hsent
      obtain ⟨s₁, lines, htook, -, ⟨rfl, -⟩ | rfl⟩ := drainNotifications_took hretain polls s hr
      · exact ⟨htook.nextId.ge, fun h => absurd hsent h⟩
      · exact ⟨htook.nextId.ge, fun h => absurd hsent h⟩
  | close => exact ⟨le_rfl, fun h => absurd rfl h⟩

/-- The identifiers of a run grow. -/
theorem run_nextId (hretain : cfg.retainNotifications = true) (s : CodexStdio)
    (calls : List Call) : s.nextId ≤ (run (next cfg) s calls).nextId :=
  run_relation (P := fun _ => True) (R := fun s s' => s.nextId ≤ s'.nextId) (fun _ => le_rfl)
    (fun _ _ _ h h' => h.trans h') (fun _ _ h => h) (fun s c _ => (next_nextId hretain s c).1)
    trivial calls

/-- A message that is sent touches nothing but what is written. -/
theorem send_same (message : Except Fault Fields) (delivery : Delivery) (s : CodexStdio) :
    ∃ written, (send cfg message delivery s).2 = { s with written } := by
  let R (s s' : CodexStdio) : Prop := ∃ written, s' = { s with written }
  have hrefl (s : CodexStdio) : R s s := ⟨s.written, rfl⟩
  have htrans (s t u : CodexStdio) (h : R s t) (h' : R t u) : R s u := by
    obtain ⟨_, rfl⟩ := h
    obtain ⟨w, rfl⟩ := h'
    exact ⟨w, rfl⟩
  have hmoves : Action.Moves R (send cfg message delivery) := by
    refine .bind htrans (.read hrefl) fun _ => ?_
    refine .bind htrans (.of hrefl _) fun _ => ?_
    refine .bind htrans (.of hrefl _) fun _ => ?_
    refine .bind htrans (.of hrefl _) fun _ => ?_
    cases delivery.broken with
    | none => exact fun s => ⟨_, rfl⟩
    | some b => exact .bind htrans (fun s => ⟨_, rfl⟩) fun _ => .raise hrefl _
  exact hmoves s

/-- A connection that was built accounts for the lines of its handshake. -/
theorem connect_accounted (hretain : cfg.retainNotifications = true) {clientInfo : Json}
    {deliveries : Delivery × Delivery} {polls : List Poll} {s₀ : CodexStdio}
    (h : connect cfg clientInfo deliveries polls (.fresh stream) = (.ok (), s₀)) :
    Accounted cfg stream s₀ := by
  obtain ⟨result, t, hexchange, hsend⟩ := Action.bind_eq_ok.mp h
  obtain ⟨hok, -⟩ := exchange_ends hretain "initialize" (.ok (.obj [("clientInfo", clientInfo)]))
    deliveries.1 polls (.fresh stream) rfl
  obtain ⟨s₁, ⟨data, rfl, -⟩, lines, line, obj, htook, hkept, -⟩ := hok result t hexchange
  obtain ⟨written, hwritten⟩ := @send_same cfg
    (.ok [("method", .str "initialized"), ("params", .obj [])]) deliveries.2 t
  rw [hsend] at hwritten
  subst hwritten
  have hstart : (CodexStdio.fresh stream).taken ++ (CodexStdio.fresh stream).ahead =
      frames newline stream := rfl
  exact ⟨htook.accounted hstart, htook.noted_of_kept hkept rfl⟩

end

/-- In every run of a connection whose limits are not exceeded and whose stream has no line with a
number the decoder refuses, the lines are taken in order and once, every notification is kept
until it is returned once, a request returns the result under its own identifier, which is not
used again, and any other line closes the connection. -/
theorem framing {cfg : Config} {stream : Bytes} {clientInfo : Json}
    {deliveries : Delivery × Delivery} {polls : List Poll} {s₀ : CodexStdio}
    (hretain : cfg.retainNotifications = true)
    (hloads : ∀ line ∈ frames newline stream, cfg.loads line ≠ .error .value)
    (hconnect : connect cfg clientInfo deliveries polls (.fresh stream) = (.ok (), s₀))
    (calls : List Call) (hlimits : Meets (next cfg) (WithinLimits cfg) s₀ calls) :
    Accounted cfg stream (run (next cfg) s₀ calls) ∧
      (∀ method params delivery polls,
        RequestSpec cfg (run (next cfg) s₀ calls) method params delivery polls) ∧
      (∀ polls, DrainSpec cfg (run (next cfg) s₀ calls) polls) ∧
      ∀ before c after, calls = before ++ c :: after →
        (run (next cfg) s₀ (before ++ [c])).written ≠ (run (next cfg) s₀ before).written →
        (run (next cfg) s₀ before).nextId < (run (next cfg) s₀ calls).nextId := by
  have hrun : Accounted cfg stream (run (next cfg) s₀ calls) :=
    run_invariant_of (P := Accounted cfg stream) (A := WithinLimits cfg)
      (fun s c hs hc => next_accounted hretain hs hc) (connect_accounted hretain hconnect) hlimits
  refine ⟨hrun, fun method params delivery polls => requestSpec hretain hloads hrun method params
    delivery polls, fun polls => drainSpec hretain _ polls, ?_⟩
  rintro before c after rfl hwritten
  rw [run_concat] at hwritten
  rw [run_append, run_cons]
  exact ((next_nextId hretain _ c).2 hwritten).trans_le (run_nextId hretain _ after)

/-! ## A late answer that is not decoded -/

namespace Sample

/-- `json.loads` of an ASCII line whose digits stand in integers. -/
def loads (line : Bytes) : Except Fault Json :=
  let text := line.map fun b => Char.ofNat b.toNat
  if (text.splitOnP fun c => !c.isDigit).any (fun digits => 4300 < digits.length) then .error .value
  else
    match CreatidyKernel.loads (String.ofList text) with
    | some v => .ok v
    | none => .error .malformed

def config : Config := ⟨1000000, by decide, true, loads⟩

/-- The text of a value on a line. -/
def ascii (v : Json) : Bytes := v.print.map fun c => UInt8.ofNat c.toNat

/-- An answer to a request. -/
def answerTo (identifier : ℕ) (result : Json) : Json :=
  .obj [("id", .int identifier), ("result", result)]

/-- The integer of which every digit is one. -/
def ones : ℕ → ℕ
  | 0 => 1
  | k + 1 => 10 * ones k + 1

/-- An answer to a request that was answered, with an integer of many digits. -/
def late : Json := answerTo 2 (.obj [("n", .int (ones 4300))])

/-- The line of that answer. -/
def lateLine : Bytes :=
  (['{', '"', 'i', 'd', '"', ':', '2', ',', '"', 'r', 'e', 's', 'u', 'l', 't', '"', ':', '{', '"',
    'n', '"', ':'] ++ List.replicate 4301 '1' ++ ['}', '}']).map fun c => UInt8.ofNat c.toNat

def stream : Bytes :=
  ascii (answerTo 1 (.obj [])) ++ newline :: (ascii (answerTo 2 (.obj [])) ++ newline ::
    (lateLine ++ [newline]))

def delivery : Delivery := ⟨0, none⟩

/-- A connection whose handshake was answered. -/
def connected : CodexStdio :=
  (connect config .null (delivery, delivery) [.ready 21] (.fresh stream)).2

/-- A request that is answered. -/
def ask : Call := .request "m" (.ok .null) delivery [.ready 21]

/-- A connection that was asked once. -/
def asked : CodexStdio := next config connected ask

theorem eq_of_fst {α β : Type} {x : α × β} {a : α} (h : x.1 = a) : x = (a, x.2) := by
  rw [← h]

/-- What the calls do, by one evaluation. -/
theorem evaluated :
    ((connect config .null (delivery, delivery) [.ready 21] (.fresh stream)).1 = .ok () ∧
      (serve config ask connected).1 = .ok () ∧ asked.taken.length = 2) ∧
    (fun s : CodexStdio => s.isOpen = true ∧ s.taken.length = 3)
      (request config "m" (.ok .null) delivery [.ready 8192] asked).2 ∧
    config.loads lateLine = .error .value ∧
    newline ∉ ascii (answerTo 1 (.obj [])) ∧ newline ∉ ascii (answerTo 2 (.obj [])) ∧
      newline ∉ lateLine := by
  decide +kernel

theorem connect_eq : connect config .null (delivery, delivery) [.ready 21] (.fresh stream) =
    (.ok (), connected) := by
  have h := eq_of_fst evaluated.1.1
  delta connected
  exact h

theorem ones_pos : ∀ k, 0 < ones k
  | 0 => by decide
  | k + 1 => by rw [ones]; omega

theorem toDigits_ones (k : ℕ) : Nat.toDigits 10 (ones k) = List.replicate (k + 1) '1' := by
  induction k with
  | zero => rfl
  | succ k ih =>
    rw [ones, ← Nat.toDigits_append_toDigits (by omega) (ones_pos k) (by omega), ih,
      List.replicate_succ' (n := k + 1)]
    rfl

/-- The late line is the text of an answer under the identifier of the first request. -/
theorem lateLine_eq : lateLine = ascii late := by
  have hints (k n : ℕ) (h : Nat.toDigits 10 k = List.replicate n '1') :
      (Json.print (answerTo 2 (.obj [("n", .int k)]))) =
        ['{', '"', 'i', 'd', '"', ':', '2', ',', '"', 'r', 'e', 's', 'u', 'l', 't', '"', ':', '{',
          '"', 'n', '"', ':'] ++ List.replicate n '1' ++ ['}', '}'] := by
    have hint : Json.printInt (k : ℤ) = List.replicate n '1' := h
    have htwo : Json.printInt ((2 : ℕ) : ℤ) = ['2'] := rfl
    have hid : Json.printChars "id".toList = ['i', 'd', '"'] := rfl
    have hresult : Json.printChars "result".toList = ['r', 'e', 's', 'u', 'l', 't', '"'] := rfl
    have hn : Json.printChars "n".toList = ['n', '"'] := rfl
    simp only [answerTo, Json.print, Json.printFields, hint, htwo, hid, hresult, hn,
      List.cons_append, List.nil_append, List.append_assoc]
  unfold lateLine ascii late
  rw [hints _ 4301 (toDigits_ones 4300)]

theorem frames_stream : frames newline stream =
    [ascii (answerTo 1 (.obj [])), ascii (answerTo 2 (.obj [])), lateLine] := by
  obtain ⟨-, -, -, hfree⟩ := evaluated
  rw [stream, frames_append hfree.1, frames_append hfree.2.1, frames_append hfree.2.2,
    frames_of_notMem List.not_mem_nil]

theorem ask_limits : WithinLimits config connected ask := by
  intro text htext
  rw [evaluated.1.2.1] at htext
  cases htext

/-- The account of the connection that was asked once. -/
theorem asked_accounted : Accounted config stream asked :=
  next_accounted rfl (connect_accounted rfl connect_eq) ask_limits

end Sample

/-- A line on which the decoder raises a plain `ValueError`. -/
theorem decode_of_value {cfg : Config} {line : Bytes} (h : cfg.loads line = .error .value) :
    decode cfg line = .error (.value "") := by
  unfold decode
  rw [h]
  rfl

namespace Sample

/-- A stream with one answer to the handshake and one to a request. -/
def quiet : Bytes := ascii (answerTo 1 (.obj [])) ++ newline :: (ascii (answerTo 2 (.obj [])) ++
  [newline])

/-- The connection to that stream. -/
def ready : CodexStdio :=
  (connect config .null (delivery, delivery) [.ready 21] (.fresh quiet)).2

/-- What the calls do there, by one evaluation. -/
theorem quiet_evaluated :
    (connect config .null (delivery, delivery) [.ready 21] (.fresh quiet)).1 = .ok () ∧
      (serve config ask ready).1 = .ok () ∧
      ∀ line ∈ frames newline quiet, config.loads line ≠ .error .value := by
  decide +kernel

theorem connect_quiet : connect config .null (delivery, delivery) [.ready 21] (.fresh quiet) =
    (.ok (), ready) := by
  have h := eq_of_fst quiet_evaluated.1
  delta ready
  exact h

theorem ask_quiet : WithinLimits config ready ask := by
  intro text htext
  rw [quiet_evaluated.2.1] at htext
  cases htext

end Sample

/-- A run of one request that is answered. -/
theorem framing_sample :
    Accounted Sample.config Sample.quiet (run (next Sample.config) Sample.ready [Sample.ask]) :=
  (framing (show Sample.config.retainNotifications = true from rfl) Sample.quiet_evaluated.2.2
    Sample.connect_quiet [Sample.ask] ⟨Sample.ask_quiet, trivial⟩).1

/-- The connection stays open on a late answer that the decoder of a request refuses. -/
theorem late_answer_open :
    connect Sample.config .null (Sample.delivery, Sample.delivery) [.ready 21]
        (.fresh Sample.stream) = (.ok (), Sample.connected) ∧
      Meets (next Sample.config) (WithinLimits Sample.config) Sample.connected [Sample.ask] ∧
      Sample.lateLine = Sample.ascii Sample.late ∧
      ¬RequestSpec Sample.config (run (next Sample.config) Sample.connected [Sample.ask]) "m"
        (.ok .null) Sample.delivery [.ready 8192] := by
  refine ⟨Sample.connect_eq, ⟨Sample.ask_limits, trivial⟩, Sample.lateLine_eq, fun h => ?_⟩
  have hasked : run (next Sample.config) Sample.connected [Sample.ask] = Sample.asked := by
    rw [run_cons, run_nil]
    delta Sample.asked
    rfl
  rw [hasked] at h
  obtain ⟨⟨-, -, hbefore⟩, ⟨hopen, htaken⟩, hloads, -⟩ := Sample.evaluated
  have hlines := Sample.asked_accounted.lines
  rw [Sample.frames_stream] at hlines
  generalize Sample.asked = s at h hopen htaken hbefore hlines
  have hdecode := decode_of_value hloads
  have hnone : ∃ l, (request Sample.config "m" (.ok .null) Sample.delivery [.ready 8192] s).2.taken =
      s.taken ++ [Sample.lateLine] ++ l := by
    cases hr : request Sample.config "m" (.ok .null) Sample.delivery [.ready 8192] s with
    | mk r s' =>
      rw [hr] at htaken
      rcases request_took rfl _ _ _ _ _ hr with
        ⟨rfl, -⟩ | ⟨s₁, s₂, lines, ⟨data, rfl, -⟩, htook, -, hs'⟩
      · dsimp only at htaken
        omega
      · have htook' : s'.taken = s.taken ++ lines := by
          rcases hs' with rfl | rfl
          · exact htook.taken
          · exact htook.taken
        have hahead : s.ahead = lines ++ s₂.ahead := htook.ahead
        -- Two of the three lines were taken before, so the late one is taken now.
        obtain ⟨line, lines, rfl⟩ : ∃ line rest, lines = line :: rest := by
          refine List.exists_cons_of_ne_nil ?_
          rintro rfl
          rw [List.append_nil] at htook'
          rw [htook'] at htaken
          omega
        obtain ⟨a, b, htwo⟩ := List.length_eq_two.mp hbefore
        rw [htwo, hahead] at hlines
        simp only [List.cons_append, List.nil_append, List.cons.injEq] at hlines
        refine ⟨lines, ?_⟩
        rw [htook', hlines.2.2.1, List.append_assoc, List.singleton_append]
  obtain ⟨l, hl⟩ := hnone
  rw [List.append_assoc] at hl
  rcases h.closes _ hl Sample.lateLine (by simp) with hnote | ⟨obj, hobj, -⟩ | hclosed
  · exact hnote (noteOf_of_error hdecode)
  · rw [hdecode] at hobj
    cases hobj
  · rw [hopen] at hclosed
    cases hclosed

end Stdio

end CreatidyKernel
