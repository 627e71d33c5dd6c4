import CreatidyKernel.Runtime.StdioFrames

set_option relaxedAutoImplicit false
set_option autoImplicit false

/-!
# Open connections

A request that raises closes the connection, unless the native server answered with an error or
the exception is a plain `ValueError`. Such an exception is raised before a byte is written, and
also by the decoder of a line: then the connection stays open although the request was delivered.

## Main definitions

* `Stdio.Known` — an open connection wrote nothing of a request that raised.
* `Stdio.Delivers` — the checks a request makes before it writes.
* `Stdio.Refused` — the first line that is no notification is one the decoder refuses.

## Main results

* `Stdio.await_value`, `Stdio.await_refused` — when the wait for an answer raises a `ValueError`.
* `Stdio.known_iff` — for which bytes every outcome of a request is known.
-/

namespace CreatidyKernel

open Checked Delimited

namespace Stdio

/-- If the request raises, but no error of the native server, and the connection is open, then
nothing was written. -/
def Known (cfg : Config) (s : CodexStdio) (method : String) (params : Except Fault Json)
    (delivery : Delivery) (polls : List Poll) : Prop :=
  ∀ e s', request cfg method params delivery polls s = (.error e, s') →
    (∀ code message, e ≠ .rpc code message) → s'.isOpen = true → s'.written = s.written

/-- The request is made on an open connection and has a text within the limit. -/
def Delivers (cfg : Config) (s : CodexStdio) (method : String) (params : Except Fault Json) :
    Prop :=
  (method ≠ "" ∧ method ∉ ["initialize", "initialized"]) ∧ s.isOpen = true ∧
    ∃ p, params = .ok p ∧
      (encode [("method", .str method), ("id", .int s.nextId), ("params", p)]).length ≤ cfg.maxBytes

/-- Of the lines ahead the first that is no notification is one on which the decoder raises a plain
`ValueError`, and no limit is exceeded before it: `consumed` bytes belong to the exchange, and
`kept` bytes to the notifications that are kept. -/
def Refused (cfg : Config) : ℕ → ℕ → List Bytes → Prop
  | _, _, [] => False
  | consumed, kept, line :: lines =>
    consumed + (line.length + 1) ≤ cfg.maxBytes ∧
      (cfg.loads line = .error .value ∨
        noteOf cfg line ≠ none ∧
          if cfg.retainNotifications = true then
            kept + (line.length + 1) ≤ cfg.maxBytes ∧
              Refused cfg (consumed + (line.length + 1)) (kept + (line.length + 1)) lines
          else Refused cfg (consumed + (line.length + 1)) kept lines)

section

variable {cfg : Config}

/-! ## Only a refused line raises -/

/-- What a notification does to the lines ahead and to the bytes that are kept. -/
theorem bufferNotification_cases {line : Bytes} {obj : Fields} (hdecode : decode cfg line = .ok obj)
    (s₀ : CodexStdio) :
    Action.Ends (fun s => s = s₀) (bufferNotification cfg obj (line.length + 1))
      (fun _ s => noteOf cfg line ≠ none ∧ s.ahead = s₀.ahead ∧
        if cfg.retainNotifications = true then
          s.notificationBytes = s₀.notificationBytes + (line.length + 1) ∧
            s.notificationBytes ≤ cfg.maxBytes
        else s.notificationBytes = s₀.notificationBytes)
      fun e _ => e.closes := by
  refine .bind (R := fun _ s => checkNotification obj = .ok () ∧ s = s₀)
    (.of (fun _ hok s hs => ⟨hok, hs⟩) fun e he s _ => checkNotification_closes he) fun _ => ?_
  refine .suppose (fun _ hs => hs.1) fun hcheck => ?_
  have hnote : noteOf cfg line ≠ none := by simp [noteOf_eq_some hdecode hcheck]
  by_cases hretain : cfg.retainNotifications = true
  · simp only [hretain, Bool.true_eq_false, if_false, if_true]
    refine .bind .read fun a => .suppose (fun _ hs => hs.1.trans hs.2.2) ?_
    rintro rfl
    refine .bind (.write (Q := fun _ s => s = { a with
      notificationBytes := a.notificationBytes + (line.length + 1) }) ?_) fun _ => ?_
    · rintro s ⟨rfl, -⟩
      rfl
    · refine .bind (R := fun _ s => s = { a with
        notificationBytes := a.notificationBytes + (line.length + 1) } ∧
        a.notificationBytes + (line.length + 1) ≤ cfg.maxBytes)
        (.of (fun _ hok s hs => ⟨hs, check_eq_ok.mp hok⟩) fun e he s _ => ?_) fun _ => .write ?_
      · rw [check_eq_error] at he
        exact he.2 ▸ trivial
      · rintro s ⟨rfl, hle⟩
        exact ⟨hnote, rfl, rfl, hle⟩
  · simp only [hretain, Bool.false_eq_true, if_false, if_true]
    refine .pure ?_
    rintro s ⟨-, rfl⟩
    exact ⟨hnote, rfl, rfl⟩

/-- A wait for an answer that raises a plain `ValueError` took a line the decoder refuses. -/
theorem await_value (identifier fuel : ℕ) (polls : List Poll) (consumed : ℕ) (s₀ : CodexStdio) :
    Action.Ends (fun s => s = s₀) (await cfg identifier fuel polls consumed) (fun _ _ => True)
      fun e _ => e.closes ∨ (∃ code message, e = .rpc code message) ∨
        Refused cfg consumed s₀.notificationBytes s₀.ahead := by
  induction fuel generalizing polls consumed s₀ with
  | zero => exact .raise fun s _ => .inl trivial
  | succ fuel ih =>
    refine .bind (R := fun r s => s₀.ahead = r.1 :: s.ahead ∧
      s.notificationBytes = s₀.notificationBytes) ?_ fun r => ?_
    · rintro s rfl
      obtain ⟨hok, herror⟩ := readLine_ends cfg s [] s.notifications s.notificationBytes polls s
        ⟨.refl s, rfl, rfl⟩
      refine ⟨fun r s' hr => ?_, fun e s' hr => .inl (herror e s' hr).1⟩
      obtain ⟨htook, -, hbytes⟩ := hok r s' hr
      exact ⟨htook.ahead, hbytes⟩
    · obtain ⟨line, polls'⟩ := r
      intro s₁ hs₁
      obtain ⟨hahead, hbytes⟩ := hs₁
      dsimp only at hahead ⊢
      rw [hahead]
      refine Action.Ends.bind (P := fun s => s = s₁) (R := fun _ s => s = s₁ ∧
        consumed + (line.length + 1) ≤ cfg.maxBytes)
        (.of (fun _ hok s hs => ⟨hs, check_eq_ok.mp hok⟩) fun e he s _ => ?_) (fun _ => ?_) s₁ rfl
      · rw [check_eq_error] at he
        exact .inl (he.2 ▸ trivial)
      · refine .suppose (fun _ hs => hs.2) fun hconsumed => ?_
        refine .bind (R := fun obj s => decode cfg line = .ok obj ∧ s = s₁)
          (.of (fun obj hok s hs => ⟨hok, hs.1⟩) fun e he s _ => ?_) fun obj => ?_
        · rcases decode_eq_error he with hcloses | hvalue
          · exact .inl hcloses
          · exact .inr (.inr ⟨hconsumed, .inl hvalue⟩)
        · refine .suppose (fun _ hs => hs.1) fun hdecode => ?_
          split
          · refine .bind (((bufferNotification_cases hdecode s₁)).weaken (fun _ hs => hs.2)
              (fun _ _ hs => hs) fun e s he => .inl he) fun _ => ?_
            rintro s₂ ⟨hnote, hahead₂, hkept⟩
            obtain ⟨-, herror⟩ := ih polls' (consumed + (line.length + 1)) s₂ s₂ rfl
            refine ⟨fun _ _ _ => trivial, fun e s' hr => ?_⟩
            rcases herror e s' hr with hcloses | hrpc | hrefused
            · exact .inl hcloses
            · exact .inr (.inl hrpc)
            · refine .inr (.inr ⟨hconsumed, .inr ⟨hnote, ?_⟩⟩)
              rw [hahead₂] at hrefused
              split at hkept
              · rw [if_pos ‹_›, ← hbytes, ← hkept.1]
                exact ⟨hkept.2, hrefused⟩
              · rw [if_neg ‹_›, ← hbytes, ← hkept]
                exact hrefused
          · refine .of (fun _ _ _ _ => trivial) fun e he s _ => ?_
            rcases answer_eq_error he with hcloses | hrpc
            · exact .inl hcloses
            · exact .inr (.inl hrpc)

/-! ## A refused line does -/

/-- Reads of one byte each. -/
def single (n : ℕ) : List Poll := List.replicate n (.ready 1)

/-- Reading byte by byte fills the buffer up to the first line ahead. -/
theorem fill_single {line : Bytes} (hline : line.length + 1 ≤ cfg.maxBytes) (n : ℕ)
    {s : CodexStdio} {rest : List Bytes} (hahead : s.ahead = line :: rest)
    (hn : s.unread.length ≤ n) :
    ∃ m s', fill cfg (single n) s = (.ok (single m), s') ∧ newline ∈ s'.pending ∧
      s'.unread.length ≤ m ∧ s'.ahead = s.ahead ∧ s'.isOpen = s.isOpen ∧
      s'.notificationBytes = s.notificationBytes ∧ s'.written = s.written := by
  induction n generalizing s with
  | zero =>
    have hempty := List.length_eq_zero_iff.mp (Nat.le_zero.mp hn)
    have hpending : newline ∈ s.pending := by
      by_contra hnot
      rw [CodexStdio.ahead, hempty, List.append_nil, frames_of_notMem hnot] at hahead
      cases hahead
    refine ⟨0, s, ?_, hpending, hn, rfl, rfl, rfl, rfl⟩
    show (if newline ∈ s.pending then (pure [] : Do (List Poll)) else _) s = _
    rw [if_pos hpending]
    rfl
  | succ n ih =>
    by_cases hpending : newline ∈ s.pending
    · refine ⟨n + 1, s, ?_, hpending, hn, rfl, rfl, rfl, rfl⟩
      show (if newline ∈ s.pending then (pure (single (n + 1)) : Do (List Poll)) else _) s = _
      rw [if_pos hpending]
      rfl
    · obtain ⟨r, htext, hfree, -⟩ := frames_eq_cons hahead
      -- What is buffered of the line leaves room for one more byte.
      have hlength : s.pending.length ≤ line.length := by
        rcases List.append_eq_append_iff.mp htext with ⟨a, ha, -⟩ | ⟨a, ha, hrest⟩
        · rw [ha, List.length_append]
          omega
        · rcases a with _ | ⟨b, a⟩
          · rw [ha, List.append_nil]
          · rw [List.cons_append, List.cons.injEq] at hrest
            rw [ha, ← hrest.1] at hpending
            exact absurd (List.mem_append_right _ List.mem_cons_self) hpending
      obtain ⟨b, unread, hunread⟩ : ∃ b unread, s.unread = b :: unread := by
        refine List.exists_cons_of_ne_nil fun hempty => ?_
        rw [hempty, List.append_nil] at htext
        rw [htext] at hpending
        exact hpending (List.mem_append_right _ List.mem_cons_self)
      have hchunk : chunk s 1 (cfg.maxBytes + 1 - s.pending.length) = [b] := by
        have hone : min 1 (min 8192 (cfg.maxBytes + 1 - s.pending.length)) = 1 := by omega
        rw [chunk, hone, hunread]
        rfl
      have hahead' : (s.receive [b]).ahead = line :: rest := by
        rw [← hahead, CodexStdio.ahead, CodexStdio.ahead, CodexStdio.receive, hunread]
        simp
      have hn' : (s.receive [b]).unread.length ≤ n := by
        rw [CodexStdio.receive, hunread]
        rw [hunread, List.length_cons] at hn
        simpa using hn
      obtain ⟨m, s', hfill, hmem, hm, hsame, hopen, hbytes, hwritten⟩ := ih hahead' hn'
      refine ⟨m, s', ?_, hmem, hm, hsame.trans (hahead'.trans hahead.symm), hopen, hbytes,
        hwritten⟩
      rw [← hfill]
      show (if newline ∈ s.pending then (pure (single (n + 1)) : Do (List Poll)) else _) s = _
      rw [if_neg hpending]
      show ((do
        ensure (chunk s 1 (cfg.maxBytes + 1 - s.pending.length) ≠ [])
          (.os "Codex stdout closed before response")
        Action.write fun s' => s'.receive (chunk s 1 (cfg.maxBytes + 1 - s.pending.length))
        ensure (s.pending.length + (chunk s 1 (cfg.maxBytes + 1 - s.pending.length)).length ≤
          cfg.maxBytes) (.overflow "Codex response exceeds limit")
        fill cfg (single n)) : Do (List Poll)) s = _
      have hroom : s.pending.length + [b].length ≤ cfg.maxBytes := by
        rw [List.length_singleton]
        omega
      rw [hchunk, ensure, ensure, check_of (by simp), check_of hroom]
      rfl

/-- Reading byte by byte takes the first line ahead. -/
theorem readLine_single {line : Bytes} (hline : line.length + 1 ≤ cfg.maxBytes) (n : ℕ)
    {s : CodexStdio} {rest : List Bytes} (hopen : s.isOpen = true)
    (hahead : s.ahead = line :: rest) (hn : s.unread.length ≤ n) :
    ∃ m s', readLine cfg (single n) s = (.ok (line, single m), s') ∧ s'.unread.length ≤ m ∧
      s'.ahead = rest ∧ s'.isOpen = true ∧ s'.notificationBytes = s.notificationBytes ∧
      s'.written = s.written := by
  obtain ⟨m, s₁, hfill, hmem, hm, hsame, hopen₁, hbytes, hwritten⟩ :=
    fill_single hline n hahead hn
  have htake := (Took.refl s₁).takeLine hmem
  have hfirst := htake.ahead
  rw [hsame, hahead, List.nil_append, List.singleton_append, List.cons.injEq] at hfirst
  refine ⟨m, s₁.takeLine, ?_, hm, hfirst.2.symm, hopen₁.trans hopen, hbytes, hwritten⟩
  unfold readLine
  show ((do
    ensure (s.isOpen = true) (.os "Codex transport closed")
    let polls ← fill cfg (single n)
    let line ← partition
    return (line, polls)) : Do (Bytes × List Poll)) s = _
  rw [ensure, check_of hopen]
  show ((do
    let polls ← fill cfg (single n)
    let line ← partition
    return (line, polls)) : Do (Bytes × List Poll)) s = _
  rw [Action.bind_of_ok hfill, hfirst.1]
  rfl

/-- A line that is a notification has its object. -/
theorem exists_of_noteOf {line : Bytes} (h : noteOf cfg line ≠ none) :
    ∃ obj, decode cfg line = .ok obj ∧ checkNotification obj = .ok () := by
  unfold noteOf at h
  split at h
  · rename_i obj hobj
    split at h
    · exact ⟨obj, hobj, ‹_›⟩
    · exact absurd rfl h
  · exact absurd rfl h

/-- A notification within the limit is kept. -/
theorem bufferNotification_ok {obj : Fields} {size : ℕ} {s : CodexStdio}
    (hcheck : checkNotification obj = .ok ())
    (hlimit : cfg.retainNotifications = true → s.notificationBytes + size ≤ cfg.maxBytes) :
    ∃ s', bufferNotification cfg obj size s = (.ok (), s') ∧ s'.ahead = s.ahead ∧
      s'.unread = s.unread ∧ s'.isOpen = s.isOpen ∧ s'.written = s.written ∧
      s'.notificationBytes =
        if cfg.retainNotifications = true then s.notificationBytes + size
        else s.notificationBytes := by
  unfold bufferNotification
  rw [hcheck]
  by_cases hretain : cfg.retainNotifications = true
  · refine ⟨{ s with
      notificationBytes := s.notificationBytes + size
      notifications := s.notifications ++ [obj] }, ?_, rfl, rfl, rfl, rfl, (if_pos hretain).symm⟩
    simp only [hretain, Bool.true_eq_false, if_false]
    show ((do
      Action.write fun s => { s with notificationBytes := s.notificationBytes + size }
      ensure (s.notificationBytes + size ≤ cfg.maxBytes)
        (.overflow "Codex notification buffer exceeds limit")
      Action.write fun s => { s with notifications := s.notifications ++ [obj] }) : Do Unit) s = _
    rw [ensure, check_of (hlimit hretain)]
    rfl
  · refine ⟨s, ?_, rfl, rfl, rfl, rfl, (if_neg hretain).symm⟩
    simp only [hretain]
    rfl

/-- If the decoder refuses the first line that is no notification, then a wait that reads byte by
byte raises a plain `ValueError`. -/
theorem await_refused (identifier fuel : ℕ) {consumed n : ℕ} {s : CodexStdio}
    (hfuel : cfg.maxBytes + 1 ≤ consumed + fuel) (hopen : s.isOpen = true)
    (hn : s.unread.length ≤ n) (h : Refused cfg consumed s.notificationBytes s.ahead) :
    ∃ s', await cfg identifier fuel (single n) consumed s = (.error (.value ""), s') ∧
      s'.isOpen = true ∧ s'.written = s.written := by
  induction fuel generalizing consumed n s with
  | zero =>
    rcases hahead : s.ahead with _ | ⟨line, rest⟩
    · rw [hahead] at h
      exact h.elim
    · rw [hahead] at h
      have := h.1
      omega
  | succ fuel ih =>
    rcases hahead : s.ahead with _ | ⟨line, rest⟩
    · rw [hahead] at h
      exact h.elim
    · rw [hahead] at h
      obtain ⟨hconsumed, hcause⟩ := h
      obtain ⟨m, s₁, hread, hm, hrest, hopen₁, hbytes, hwritten⟩ :=
        @readLine_single cfg _ (by omega) n _ _ hopen hahead hn
      unfold await
      rw [Action.bind_of_ok hread]
      dsimp only
      rw [ensure, check_of hconsumed]
      show ∃ s', (do
        let obj ← Action.of (decode cfg line)
        if has obj "method" then do
          bufferNotification cfg obj (line.length + 1)
          await cfg identifier fuel (single m) (consumed + (line.length + 1))
        else Action.of (answer identifier obj) : Do Fields) s₁ = _ ∧ _
      rcases hcause with hvalue | ⟨hnote, hlater⟩
      · rw [decode_of_value hvalue]
        exact ⟨s₁, rfl, hopen₁, hwritten⟩
      · obtain ⟨obj, hdecode, hcheck⟩ := exists_of_noteOf hnote
        rw [hdecode]
        have hlimit : cfg.retainNotifications = true →
            s₁.notificationBytes + (line.length + 1) ≤ cfg.maxBytes := by
          intro hretain
          rw [if_pos hretain] at hlater
          rw [hbytes]
          exact hlater.1
        obtain ⟨s₂, hbuffer, hahead₂, hunread₂, hopen₂, hwritten₂, hbytes₂⟩ :=
          @bufferNotification_ok _ _ (line.length + 1) _ hcheck hlimit
        have hlater₂ : Refused cfg (consumed + (line.length + 1)) s₂.notificationBytes s₂.ahead := by
          rw [hahead₂, hrest, hbytes₂, hbytes]
          split at hlater
          · rw [if_pos ‹_›]
            exact hlater.2
          · rw [if_neg ‹_›]
            exact hlater
        obtain ⟨s', hawait, hopen', hwritten'⟩ := @ih
          (consumed + (line.length + 1)) m s₂ (by omega) (hopen₂.trans hopen₁) (hunread₂ ▸ hm) hlater₂
        refine ⟨s', ?_, hopen', hwritten'.trans (hwritten₂.trans hwritten)⟩
        show (if has obj "method" then (do
          bufferNotification cfg obj (line.length + 1)
          await cfg identifier fuel (single m) (consumed + (line.length + 1)) : Do Fields)
        else Action.of (answer identifier obj)) s₁ = _
        rw [if_pos (has_method hcheck), Action.bind_of_ok hbuffer, hawait]

/-! ## Requests -/

/-- A request that delivers writes its message and waits. -/
theorem exchange_delivers {method : String} {params : Except Fault Json} {s : CodexStdio}
    (h : Delivers cfg s method params) (polls : List Poll) :
    ∃ data, data ≠ [] ∧ exchange cfg method params ⟨0, none⟩ polls s =
      await cfg s.nextId (cfg.maxBytes + 1) polls 0
        { s with nextId := s.nextId + 1, written := s.written ++ data } := by
  obtain ⟨-, hopen, p, rfl, hlength⟩ := h
  refine ⟨encode [("method", .str method), ("id", .int s.nextId), ("params", p)], ?_, ?_⟩
  · simp [encode]
  · have hsend : send cfg (.ok [("method", .str method), ("id", .int s.nextId), ("params", p)])
        ⟨0, none⟩ { s with nextId := s.nextId + 1 } =
        (.ok (), { s with
          nextId := s.nextId + 1
          written := s.written ++
            encode [("method", .str method), ("id", .int s.nextId), ("params", p)] }) := by
      show ((do
        ensure (s.isOpen = true) (.os "Codex transport closed")
        ensure ((encode [("method", .str method), ("id", .int s.nextId), ("params", p)]).length ≤
          cfg.maxBytes) (.value "Codex request exceeds limit")
        Action.write fun s' => { s' with
          written := s'.written ++
            encode [("method", .str method), ("id", .int s.nextId), ("params", p)] }) : Do Unit)
        { s with nextId := s.nextId + 1 } = _
      rw [ensure, ensure, check_of hopen, check_of hlength]
      rfl
    show ((do
      send cfg (.ok [("method", .str method), ("id", .int s.nextId), ("params", p)]) ⟨0, none⟩
      await cfg s.nextId (cfg.maxBytes + 1) polls 0) : Do Fields)
      { s with nextId := s.nextId + 1 } = _
    rw [Action.bind_of_ok hsend]

/-- A message that was not sent raised before a byte was written, or what closes. -/
theorem send_cases (method : String) (params : Except Fault Json) (delivery : Delivery)
    (s₀ : CodexStdio) (hopen : s₀.isOpen = true)
    (hname : method ≠ "" ∧ method ∉ ["initialize", "initialized"]) :
    Action.Ends (fun s => s = { s₀ with nextId := s₀.nextId + 1 })
      (send cfg (params.map fun params =>
        [("method", .str method), ("id", .int s₀.nextId), ("params", params)]) delivery)
      (fun _ s => Delivers cfg s₀ method params ∧ s.ahead = s₀.ahead ∧
        s.notificationBytes = s₀.notificationBytes)
      fun e s => e.closes ∨ s.written = s₀.written := by
  refine .bind .read fun a => ?_
  refine .bind (R := fun _ s => s = { s₀ with nextId := s₀.nextId + 1 })
    (.of (fun _ _ s hs => hs.2) fun e he s hs => ?_) fun _ => ?_
  · rw [hs.2]
    exact .inr rfl
  · cases params with
    | error f =>
      refine .bind (R := fun _ _ => False) (.of (fun _ hok => by cases hok) fun e _ s hs => ?_)
        fun _ => .suppose (fun _ h => h) False.elim
      rw [hs]
      exact .inr rfl
    | ok p =>
      refine .bind (R := fun message s => message = [("method", .str method),
          ("id", .int s₀.nextId), ("params", p)] ∧ s = { s₀ with nextId := s₀.nextId + 1 })
        (.of (fun message hok s hs => ⟨(Except.ok.inj hok).symm, hs⟩) fun e he => by cases he)
        fun message => .suppose (fun _ hs => hs.1) ?_
      rintro rfl
      refine .bind (R := fun _ s => (encode [("method", .str method), ("id", .int s₀.nextId),
          ("params", p)]).length ≤ cfg.maxBytes ∧ s = { s₀ with nextId := s₀.nextId + 1 })
        (.of (fun _ hok s hs => ⟨check_eq_ok.mp hok, hs.2⟩) fun e _ s hs => ?_)
        fun _ => .suppose (fun _ hs => hs.1) fun hlength => ?_
      · rw [hs.2]
        exact .inr rfl
      · cases delivery.broken with
        | none =>
          refine .write ?_
          rintro s ⟨-, rfl⟩
          exact ⟨⟨hname, hopen, p, rfl, hlength⟩, rfl, rfl⟩
        | some b =>
          refine .bind (.write (Q := fun _ _ => True) fun _ _ => trivial) fun _ =>
            .raise fun s _ => .inl ?_
          cases b <;> trivial

/-- A request that raises, but no error of the native server, and leaves the connection open wrote
nothing, or the decoder refused a line. -/
theorem request_open (method : String) (params : Except Fault Json) (delivery : Delivery)
    (polls : List Poll) (s₀ : CodexStdio) :
    Action.Ends (fun s => s = s₀) (request cfg method params delivery polls) (fun _ _ => True)
      fun e s => (∃ code message, e = .rpc code message) ∨ s.isOpen = false ∨
        s.written = s₀.written ∨
        Delivers cfg s₀ method params ∧ Refused cfg 0 s₀.notificationBytes s₀.ahead := by
  refine .bind (R := fun _ s => s = s₀ ∧ method ≠ "" ∧ method ∉ ["initialize", "initialized"])
    (.of (fun _ hok s hs => ⟨hs, check_eq_ok.mp hok⟩) fun e _ s hs =>
      .inr (.inr (.inl (hs ▸ rfl)))) fun _ => .suppose (fun _ hs => hs.2) fun hname => ?_
  refine .bind .read fun a => .suppose (fun _ hs => hs.1.trans hs.2.1) ?_
  rintro rfl
  refine .bind (R := fun _ s => s = a ∧ a.isOpen = true)
    (.of (fun _ hok s hs => ⟨hs.2.1, check_eq_ok.mp hok⟩) fun e _ s hs =>
      .inr (.inr (.inl (hs.2.1 ▸ rfl)))) fun _ => .suppose (fun _ hs => hs.2) fun hopen => ?_
  have hexchange : Action.Ends (fun s => s = a) (exchange cfg method params delivery polls)
      (fun _ _ => True) fun e s => e.closes ∨ (∃ code message, e = .rpc code message) ∨
        s.written = a.written ∨
        Delivers cfg a method params ∧ Refused cfg 0 a.notificationBytes a.ahead := by
    refine .bind .read fun b => .suppose (fun _ hs => hs.1.trans hs.2) ?_
    rintro rfl
    refine .bind (.write (Q := fun _ s => s = { b with nextId := b.nextId + 1 }) ?_) fun _ => ?_
    · rintro s ⟨rfl, -⟩
      rfl
    · refine .bind ((send_cases method params delivery b hopen hname).weaken (fun _ h => h)
        (fun _ _ h => h) fun e s h => ?_) fun _ => ?_
      · rcases h with h | h
        · exact .inl h
        · exact .inr (.inr (.inl h))
      · rintro s ⟨hdelivers, hahead, hbytes⟩
        obtain ⟨-, herror⟩ := @await_value cfg b.nextId (cfg.maxBytes + 1) polls 0 s s rfl
        refine ⟨fun _ _ _ => trivial, fun e s' hr => ?_⟩
        rcases herror e s' hr with h | h | h
        · exact .inl h
        · exact .inr (.inl h)
        · rw [hahead, hbytes] at h
          exact .inr (.inr (.inr ⟨hdelivers, h⟩))
  refine .bind (R := fun r s => Except.rec (motive := fun _ => Prop) (fun e => e.closes ∨
        (∃ code message, e = .rpc code message) ∨ s.written = a.written ∨
        Delivers cfg a method params ∧ Refused cfg 0 a.notificationBytes a.ahead)
      (fun _ => True) r)
    (.attempt (hexchange.pre fun _ hs => hs.1)) fun r => ?_
  have hclose (e : Raised) (P : CodexStdio → Prop) : Action.Ends P
      (do close; Action.raise e : Do Fields) (fun _ _ => True)
      fun e s => (∃ code message, e = .rpc code message) ∨ s.isOpen = false ∨
        s.written = a.written ∨
        Delivers cfg a method params ∧ Refused cfg 0 a.notificationBytes a.ahead :=
    .bind (.write (Q := fun _ s => s.isOpen = false) fun _ _ => rfl) fun _ =>
      .raise fun s hs => .inr (.inl hs)
  cases r with
  | ok result => exact .pure fun _ _ => trivial
  | error e =>
    cases e with
    | rpc code message => exact .raise fun s _ => .inl ⟨code, message, rfl⟩
    | value message =>
      refine .raise fun s hs => ?_
      rcases hs with h | ⟨_, _, h⟩ | h
      · exact h.elim
      · cases h
      · exact .inr (.inr h)
    | malformed => exact hclose _ _
    | unicode => exact hclose _ _
    | os message => exact hclose _ _
    | timeout message => exact hclose _ _
    | overflow message => exact hclose _ _
    | other => exact hclose _ _

/-- Every outcome of a request on an open connection is known, however it is written and read,
exactly if the request is not delivered or its decoder does not refuse the first line ahead that
is no notification. -/
theorem known_iff (cfg : Config) (s : CodexStdio) (method : String) (params : Except Fault Json) :
    (∀ delivery polls, Known cfg s method params delivery polls) ↔
      ¬(Delivers cfg s method params ∧ Refused cfg 0 s.notificationBytes s.ahead) := by
  constructor
  · rintro h ⟨hdelivers, hrefused⟩
    obtain ⟨data, hdata, hexchange⟩ := exchange_delivers hdelivers (single s.unread.length)
    obtain ⟨s', hawait, hopen', hwritten⟩ := @await_refused cfg s.nextId (cfg.maxBytes + 1) 0
      s.unread.length { s with nextId := s.nextId + 1, written := s.written ++ data }
      (by omega) hdelivers.2.1 le_rfl hrefused
    have hrequest : request cfg method params ⟨0, none⟩ (single s.unread.length) s =
        (.error (.value ""), s') := by
      have hattempt : Action.attempt (exchange cfg method params ⟨0, none⟩
          (single s.unread.length)) s = (.ok (.error (.value "")), s') := by
        rw [Action.attempt_apply, hexchange, hawait]
      unfold request
      refine (Action.bind_of_ok (Action.of_eq_ok.2 ⟨check_of hdelivers.1, rfl⟩)).trans ?_
      refine (Action.bind_of_ok (Action.read_apply s)).trans ?_
      refine (Action.bind_of_ok (Action.of_eq_ok.2 ⟨check_of hdelivers.2.1, rfl⟩)).trans ?_
      exact (Action.bind_of_ok hattempt).trans rfl
    have hsame := h ⟨0, none⟩ (single s.unread.length) (.value "") s' hrequest (by rintro _ _ ⟨⟩) hopen'
    rw [hwritten] at hsame
    exact hdata (List.append_cancel_left (hsame.trans (List.append_nil _).symm))
  · intro hnot delivery polls e s' hr hrpc hopen
    obtain ⟨-, herror⟩ := @request_open cfg method params delivery polls s s rfl
    rcases herror e s' hr with ⟨code, message, h⟩ | h | h | h
    · exact absurd h (hrpc code message)
    · rw [hopen] at h
      cases h
    · exact h
    · exact absurd h hnot

end

/-! ## An answer that is not decoded -/

namespace Sample

/-- A stream with an answer to the handshake, and one to a request with an integer of many
digits. -/
def loud : Bytes := ascii (answerTo 1 (.obj [])) ++ newline :: (lateLine ++ [newline])

/-- The connection to that stream. -/
def opened : CodexStdio :=
  (connect config .null (delivery, delivery) [.ready 21] (.fresh loud)).2

/-- What the calls do there, by one evaluation. -/
theorem loud_evaluated :
    (connect config .null (delivery, delivery) [.ready 21] (.fresh loud)).1 = .ok () ∧
    (fun out : Except Raised Fields × CodexStdio =>
      out.1 = .error (.value "") ∧ out.2.isOpen = true ∧
        out.2.written.length ≠ opened.written.length)
      (request config "m" (.ok .null) delivery [.ready 8192] opened) := by
  decide +kernel

theorem connect_loud : connect config .null (delivery, delivery) [.ready 21] (.fresh loud) =
    (.ok (), opened) := by
  have h := eq_of_fst loud_evaluated.1
  delta opened
  exact h

end Sample

/-- A request that was delivered raises, and the connection stays open. -/
theorem delivered_open :
    connect Sample.config .null (Sample.delivery, Sample.delivery) [.ready 21]
        (.fresh Sample.loud) = (.ok (), Sample.opened) ∧
      Sample.lateLine = Sample.ascii Sample.late ∧
      ¬Known Sample.config Sample.opened "m" (.ok .null) Sample.delivery [.ready 8192] := by
  refine ⟨Sample.connect_loud, Sample.lateLine_eq, fun h => ?_⟩
  obtain ⟨-, hraised, hopen, hlength⟩ := Sample.loud_evaluated
  exact hlength (congrArg List.length (h _ _ (Sample.eq_of_fst hraised) nofun hopen))

end Stdio

end CreatidyKernel
