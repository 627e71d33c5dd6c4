import CreatidyKernel.Core.Extension

set_option relaxedAutoImplicit false
set_option autoImplicit false

/-!
# Append-only facts and one-way Attempts

Every command rebuilds all the tuples of the aggregate, but each of them only grows at its end:
recorded facts are never altered, and an Attempt keeps its place, its snapshot and its actor
while its status moves towards a terminal one.

## Main definitions

* `AttemptStatus.Advance` — one transition of an Attempt.
* `AttemptsExtend` — the Attempts keep their places, and their statuses move by a relation.
* `Program.Extends` — every tuple of a Program is extended at its end.

## Main results

* `Program.apply_extends`, `Program.run_extends` — one command, and a run of commands.
* `Program.append_only` — the law of a reachable Program and of everything that follows it.
-/

namespace CreatidyKernel

open Checked

/-! ## Attempts -/

/-- One transition of an Attempt. -/
inductive AttemptStatus.Advance : AttemptStatus → AttemptStatus → Prop
  | start : Advance .prepared .executing
  | finish : Advance .executing .finished
  | fail {s : AttemptStatus} (h : s = .prepared ∨ s = .executing) : Advance s .failed
  | cancel {s : AttemptStatus} (h : s = .prepared ∨ s = .executing) : Advance s .cancelled

open AttemptStatus (Advance)

/-- A terminal status has no transition. -/
theorem AttemptStatus.Advance.live {s t : AttemptStatus} (h : Advance s t) :
    s = .prepared ∨ s = .executing := by
  cases h with
  | start => exact .inl rfl
  | finish => exact .inr rfl
  | fail h | cancel h => exact h

/-- A terminal status stays. -/
theorem AttemptStatus.eq_of_terminal {s t : AttemptStatus} (h : Relation.ReflTransGen Advance s t)
    (hs : ¬(s = .prepared ∨ s = .executing)) : t = s := by
  induction h with
  | refl => rfl
  | tail _ hadv ih => exact absurd (ih ▸ hadv.live) hs

/-- An Attempt keeps its snapshot and its actor while its status moves. -/
structure Attempt.Continues (R : AttemptStatus → AttemptStatus → Prop) (a b : Attempt) : Prop where
  spec : b.spec = a.spec
  actor : b.actorId = a.actorId
  status : R a.status b.status

/-- The Attempts keep their places, their statuses move by a relation, and new ones are added
at the end. -/
structure AttemptsExtend (R : AttemptStatus → AttemptStatus → Prop) (N : AttemptStatus → Prop)
    (l l' : List Attempt) : Prop where
  kept : ∀ (i : ℕ) (a : Attempt), l[i]? = some a → ∃ b, l'[i]? = some b ∧ Attempt.Continues R a b
  added : ∀ (i : ℕ) (b : Attempt), l.length ≤ i → l'[i]? = some b → N b.status

namespace AttemptsExtend

variable {R R' : AttemptStatus → AttemptStatus → Prop} {N N' : AttemptStatus → Prop}
  {l l' l'' : List Attempt}

theorem refl (hR : ∀ s, R s s) (l : List Attempt) : AttemptsExtend R N l l where
  kept _ a h := ⟨a, h, rfl, rfl, hR _⟩
  added i b hi h := by
    rw [List.getElem?_eq_none hi] at h
    cases h

/-- An update of every Attempt in place. -/
theorem map {f : Attempt → Attempt} (h : ∀ a ∈ l, a.Continues R (f a)) :
    AttemptsExtend R N l (l.map f) where
  kept i a ha := ⟨f a, by rw [List.getElem?_map, ha]; rfl, h a (List.mem_of_getElem? ha)⟩
  added i b hi hb := by
    rw [List.getElem?_eq_none (by rwa [List.length_map])] at hb
    cases hb

/-- New Attempts at the end. -/
theorem append (hR : ∀ s, R s s) {new : List Attempt} (hN : ∀ b ∈ new, N b.status) :
    AttemptsExtend R N l (l ++ new) where
  kept i a ha := by
    refine ⟨a, ?_, rfl, rfl, hR _⟩
    rw [List.getElem?_append_left (List.getElem?_eq_some_iff.1 ha).1, ha]
  added i b hi hb := by
    rw [List.getElem?_append_right hi] at hb
    exact hN b (List.mem_of_getElem? hb)

theorem mono (h : AttemptsExtend R N l l') (hR : ∀ s t, R s t → R' s t)
    (hN : ∀ s, N s → N' s) : AttemptsExtend R' N' l l' where
  kept i a ha :=
    let ⟨b, hb, hc⟩ := h.kept i a ha
    ⟨b, hb, hc.spec, hc.actor, hR _ _ hc.status⟩
  added i b hi hb := hN _ (h.added i b hi hb)

theorem length_le (h : AttemptsExtend R N l l') : l.length ≤ l'.length := by
  by_contra hlt
  rw [Nat.not_le] at hlt
  obtain ⟨b, hb, -⟩ := h.kept _ _ (List.getElem?_eq_getElem hlt)
  exact absurd (List.getElem?_eq_some_iff.1 hb).1 (Nat.lt_irrefl _)

theorem trans (hR : ∀ s t u, R s t → R t u → R s u) (hN : ∀ s t, N s → R s t → N t)
    (h : AttemptsExtend R N l l') (h' : AttemptsExtend R N l' l'') : AttemptsExtend R N l l'' where
  kept i a ha := by
    obtain ⟨b, hb, hab⟩ := h.kept i a ha
    obtain ⟨c, hc, hbc⟩ := h'.kept i b hb
    exact ⟨c, hc, hbc.spec.trans hab.spec, hbc.actor.trans hab.actor,
      hR _ _ _ hab.status hbc.status⟩
  added i c hi hc := by
    by_cases hlt : i < l'.length
    · have hb := List.getElem?_eq_getElem hlt
      obtain ⟨c', hc', hbc⟩ := h'.kept i _ hb
      obtain rfl := Option.some.inj (hc.symm.trans hc')
      exact hN _ _ (h.added i _ hi hb) hbc.status
    · exact h'.added i c (Nat.not_lt.1 hlt) hc

end AttemptsExtend

/-! ## Ledgers -/

/-- Every tuple of a ledger is extended at its end. -/
structure Ledger.Extends (R : AttemptStatus → AttemptStatus → Prop) (N : AttemptStatus → Prop)
    (d e : Ledger) : Prop where
  attempts : AttemptsExtend R N d.attempts e.attempts
  satisfactions : d.satisfactions <+: e.satisfactions
  cancellations : d.cancellations <+: e.cancellations
  attemptCancellations : d.attemptCancellations <+: e.attemptCancellations
  specHistory : d.specHistory <+: e.specHistory

/-- Every tuple of a Program is extended at its end. -/
structure Program.Extends (R : AttemptStatus → AttemptStatus → Prop) (N : AttemptStatus → Prop)
    (p q : Program) : Prop extends Ledger.Extends R N p.toLedger q.toLedger where
  conclusions : p.conclusions <+: q.conclusions

namespace Ledger.Extends

variable {R R' : AttemptStatus → AttemptStatus → Prop} {N N' : AttemptStatus → Prop}
  {d e f : Ledger}

/-- A step that only updates and adds Attempts. -/
theorem of_attempts (h : AttemptsExtend R N d.attempts e.attempts)
    (hs : e.satisfactions = d.satisfactions) (hc : e.cancellations = d.cancellations)
    (ha : e.attemptCancellations = d.attemptCancellations)
    (hh : e.specHistory = d.specHistory) : d.Extends R N e :=
  ⟨h, hs ▸ List.prefix_refl _, hc ▸ List.prefix_refl _, ha ▸ List.prefix_refl _,
    hh ▸ List.prefix_refl _⟩

theorem mono (h : d.Extends R N e) (hR : ∀ s t, R s t → R' s t) (hN : ∀ s, N s → N' s) :
    d.Extends R' N' e :=
  ⟨h.attempts.mono hR hN, h.satisfactions, h.cancellations, h.attemptCancellations, h.specHistory⟩

theorem trans (hR : ∀ s t u, R s t → R t u → R s u) (hN : ∀ s t, N s → R s t → N t)
    (h : d.Extends R N e) (h' : e.Extends R N f) : d.Extends R N f :=
  ⟨h.attempts.trans hR hN h'.attempts, h.satisfactions.trans h'.satisfactions,
    h.cancellations.trans h'.cancellations, h.attemptCancellations.trans h'.attemptCancellations,
    h.specHistory.trans h'.specHistory⟩

end Ledger.Extends

/-! ## Guards -/

/-- A live Attempt may be cancelled; this is all that one command does to several Attempts. -/
def Withdraws (s t : AttemptStatus) : Prop :=
  t = s ∨ (s = .prepared ∨ s = .executing) ∧ t = .cancelled

theorem Withdraws.trans {s t u : AttemptStatus} (h : Withdraws s t) (h' : Withdraws t u) :
    Withdraws s u := by
  rcases h with rfl | ⟨hs, rfl⟩
  · exact h'
  · rcases h' with rfl | ⟨h, -⟩
    · exact .inr ⟨hs, rfl⟩
    · simp at h

theorem Withdraws.step {s t : AttemptStatus} (h : Withdraws s t) : Relation.ReflGen Advance s t := by
  rcases h with rfl | ⟨hs, rfl⟩
  · exact .refl
  · exact .single (.cancel hs)

namespace Program

section

variable {N : AttemptStatus → Prop} {d : Ledger}

/-- Cancelling live Attempts extends the ledger. -/
theorem cancelLive_extends (hn : (d.attempts.map Attempt.attemptId).Nodup) (actorId reason : Name)
    (revision : ℕ) (ids : List Name) :
    d.Extends Withdraws N (cancelLive actorId revision ids reason d) where
  attempts := .map fun a ha => by
    split_ifs with hm
    · exact ⟨rfl, rfl, .inr ⟨((attemptId_mem_liveIds hn ha).1 hm).2, rfl⟩⟩
    · exact ⟨rfl, rfl, .inl rfl⟩
  satisfactions := List.prefix_refl _
  cancellations := List.prefix_refl _
  attemptCancellations := List.prefix_append _ _
  specHistory := List.prefix_refl _

variable [Sha256]

/-- The withdrawal loop extends the ledger. -/
theorem withdraw_extends {actorId : Name} {revision fuel : ℕ} {d' : Ledger}
    (hn : (d.attempts.map Attempt.attemptId).Nodup)
    (h : withdraw actorId revision fuel d = .ok d') :
    d.Extends Withdraws (fun _ => False) d' := by
  have hrefl (e : Ledger) : e.Extends Withdraws (fun _ => False) e :=
    .of_attempts (.refl (fun _ => .inl rfl) _) rfl rfl rfl rfl
  induction fuel generalizing d with
  | zero => exact Except.ok.inj h ▸ hrefl d
  | succ fuel ih =>
    rw [withdraw] at h
    obtain ⟨projected, -, h⟩ := bind_eq_ok.1 h
    obtain ⟨invalid, -, h⟩ := bind_eq_ok.1 h
    split_ifs at h
    · exact pure_eq_ok.1 h ▸ hrefl d
    · have hids := (advances_cancelLive hn invalid).map_attemptId
      refine .trans (fun _ _ _ => Withdraws.trans) (fun _ _ hf _ => hf)
        (cancelLive_extends hn _ _ _ _) (ih ?_ h)
      exact hids ▸ hn

/-- Giving the Attempt with an identifier another status extends the ledger. -/
theorem replaceStatus_extends {p : Program} (hp : p.Coherent) {current : Attempt}
    (hmem : current ∈ p.attempts) {status : AttemptStatus} (h : Advance current.status status) :
    p.toLedger.Extends (Relation.ReflGen Advance) N
      { p.toLedger with attempts := replaceStatus p.attempts current.attemptId status } := by
  refine .of_attempts (.map fun a ha => ?_) rfl rfl rfl rfl
  split_ifs with he
  · obtain rfl := List.inj_on_of_nodup_map hp.ledger.attempts.ids ha hmem he
    exact ⟨rfl, rfl, .single h⟩
  · exact ⟨rfl, rfl, .refl⟩

/-- The ledger a command decides extends the one before. -/
theorem Decided.extends {p : Program} (hp : p.Coherent) {actorId : Name} {request : Request}
    (h : Decided p actorId request d) :
    p.toLedger.Extends (Relation.ReflGen Advance) (· = .prepared) d := by
  have hn := hp.ledger.attempts.ids
  have hstep {e e' : Ledger} (h : e.Extends Withdraws (fun _ => False) e') :
      e.Extends (Relation.ReflGen Advance) (· = .prepared) e' :=
    h.mono (fun _ _ => Withdraws.step) fun _ => False.elim
  cases h with
  | activateProgram | pauseProgram | resumeProgram =>
    exact .of_attempts (.refl (fun _ => .refl) _) rfl rfl rfl rfl
  | cancelProgram hs reason =>
    have hw := hstep (cancelLive_extends (d := p.toLedger) hn actorId reason p.revision
      (p.attempts.map Attempt.attemptId))
    exact ⟨hw.attempts, hw.satisfactions, hw.cancellations, hw.attemptCancellations,
      hw.specHistory⟩
  | cancelWorkUnit hs cancellation ids message =>
    have hw := hstep (cancelLive_extends (d := p.toLedger) hn actorId message p.revision ids)
    exact ⟨hw.attempts, hw.satisfactions, List.prefix_append _ _, hw.attemptCancellations,
      hw.specHistory⟩
  | prepareAttempt => exact .of_attempts (.append (fun _ => .refl) (by simp)) rfl rfl rfl rfl
  | startAttempt hcur hs hprepared =>
    obtain ⟨hmem, rfl⟩ := hp.attempt_eq_ok.1 hcur
    exact replaceStatus_extends hp hmem (hprepared ▸ .start)
  | finishAttempt hcur hs hexecuting =>
    obtain ⟨hmem, rfl⟩ := hp.attempt_eq_ok.1 hcur
    exact replaceStatus_extends hp hmem (hexecuting ▸ .finish)
  | failAttempt hcur hs hlive =>
    obtain ⟨hmem, rfl⟩ := hp.attempt_eq_ok.1 hcur
    exact replaceStatus_extends hp hmem (.fail hlive)
  | cancelAttempt => exact hstep (cancelLive_extends hn _ _ _ _)
  | satisfyWorkUnit =>
    exact ⟨.refl (fun _ => .refl) _, List.prefix_append _ _, List.prefix_refl _,
      List.prefix_refl _, List.prefix_refl _⟩
  | @amendProgramSpec _ spec _ _ hs hspec hne hw =>
    have hw := hstep (withdraw_extends
      (d := { p.toLedger with spec, specHistory := p.specHistory ++ [spec] }) hn hw)
    exact ⟨hw.attempts, hw.satisfactions, hw.cancellations, hw.attemptCancellations,
      (List.prefix_append _ _).trans hw.specHistory⟩

/-! ## Commands and runs -/

theorem conclude_prefix (p : Program) (spec : ProgramSpec) (status : ProgramStatus) :
    p.conclusions <+: p.conclude spec status := by
  unfold conclude
  split_ifs
  · exact List.prefix_append _ _
  · exact List.prefix_refl _

/-- One accepted command extends every tuple of the Program. -/
theorem apply_extends {p q : Program} (hp : p.Coherent) {c : DomainCommand}
    (h : p.apply c = .ok q) : p.Extends (Relation.ReflGen Advance) (· = .prepared) q := by
  rcases apply_eq_ok h with ⟨-, rfl⟩ | ⟨d, states, hg, rfl⟩
  · exact ⟨.of_attempts (.refl (fun _ => .refl) _) rfl rfl rfl rfl, List.prefix_refl _⟩
  · have hd := (guards_decided hg).extends hp
    exact ⟨⟨hd.attempts, hd.satisfactions, hd.cancellations, hd.attemptCancellations,
      hd.specHistory⟩, conclude_prefix p d.spec _⟩

/-- A run of accepted commands extends every tuple of the Program. -/
theorem run_extends {p q : Program} (hp : p.Reachable) {commands : List DomainCommand}
    (h : p.run commands = .ok q) :
    p.Extends (Relation.ReflTransGen Advance) (Relation.ReflTransGen Advance .prepared) q := by
  induction commands generalizing p with
  | nil =>
    obtain rfl := Except.ok.inj h
    exact ⟨.of_attempts (.refl (fun _ => .refl) _) rfl rfl rfl rfl, List.prefix_refl _⟩
  | cons c rest ih =>
    obtain ⟨p', hc, h⟩ := bind_eq_ok.1 h
    have hstep := apply_extends hp.coherent hc
    have hrest := ih (hp.step c hc) h
    have hlift : p.toLedger.Extends (Relation.ReflTransGen Advance)
        (Relation.ReflTransGen Advance .prepared) p'.toLedger :=
      hstep.toExtends.mono (fun _ _ => Relation.ReflGen.to_reflTransGen) fun _ hs => hs ▸ .refl
    exact ⟨hlift.trans (fun _ _ _ => .trans) (fun _ _ => .trans) hrest.toExtends,
      hstep.conclusions.trans hrest.conclusions⟩

/-- The command is an amendment that changes nothing. -/
def Idle (p : Program) (c : DomainCommand) : Prop :=
  ∃ a, c.request = .amendProgramSpec a ∧ p.spec.amend a = .ok p.spec

/-- The guards decide no ledger exactly for an amendment that changes nothing. -/
theorem guards_eq_none_iff {p : Program} {c : DomainCommand} {r : Option Ledger}
    (h : p.guards c = .ok r) : r = none ↔ p.Idle c := by
  simp only [guards, bind_eq_ok, check_eq_ok] at h
  obtain ⟨_, -, _, -, h⟩ := h
  cases hc : c.request with
  | amendProgramSpec amendment =>
    simp only [hc, amendProgramSpec, bind_eq_ok] at h
    obtain ⟨_, -, spec, hspec, h⟩ := h
    simp only [Idle, hc, Request.amendProgramSpec.injEq, exists_eq_left', hspec, Except.ok.injEq]
    split_ifs at h with he
    · exact ⟨fun _ => he, fun _ => (pure_eq_ok.1 h).symm⟩
    · obtain ⟨d, -, h⟩ := bind_eq_ok.1 h
      rw [← pure_eq_ok.1 h]
      simp [he]
  | _ =>
    simp only [hc, map_eq_ok] at h
    obtain ⟨d, -, rfl⟩ := h
    simp [Idle, hc]

/-- The revision grows by one, unless an amendment changes nothing. -/
theorem apply_revision_eq {p q : Program} {c : DomainCommand} (h : p.apply c = .ok q) :
    ¬p.Idle c ∧ q.revision = p.revision + 1 ∨ p.Idle c ∧ q = p := by
  rcases apply_eq_ok h with ⟨hg, rfl⟩ | ⟨d, states, hg, rfl⟩
  · exact .inr ⟨(guards_eq_none_iff hg).1 rfl, rfl⟩
  · exact .inl ⟨mt (guards_eq_none_iff hg).2 nofun, rfl⟩

/-! ## Main result -/

/-- What the facts of one Program say of each other: exactly the cancelled Attempts have a
cancellation, and one each; satisfactions have distinct record orders up to the revision; and
conclusions have increasing record orders and cite the history. -/
structure Lawful (p : Program) : Prop where
  cancellationIds : (p.attemptCancellations.map AttemptCancellation.attemptId).Nodup
  cancelled : ∀ id, id ∈ p.attemptCancellations.map AttemptCancellation.attemptId ↔
    ∃ a ∈ p.attempts, a.attemptId = id ∧ a.status = .cancelled
  satisfactionOrders : (p.satisfactions.map TrustedSatisfaction.recordOrder).Nodup
  satisfactionsRecorded : ∀ s ∈ p.satisfactions, s.recordOrder ≤ p.revision
  conclusionOrders : p.conclusions.Pairwise fun a b => a.recordOrder < b.recordOrder
  conclusionsCite : ∀ c ∈ p.conclusions, ∃ s ∈ p.specHistory,
    (s.revision, s.digest) = (c.specRevision, c.specDigest)

theorem Coherent.lawful {p : Program} (h : p.Coherent) : p.Lawful where
  cancellationIds := h.ledger.withdrawals.ids
  cancelled := h.ledger.withdrawals.exact
  satisfactionOrders :=
    List.pairwise_map.2 (h.ledger.satisfactions.increasing.imp fun hab => Nat.ne_of_lt hab)
  satisfactionsRecorded s hs := (h.ledger.satisfactions.each s hs).recorded.2
  conclusionOrders := h.conclusions.increasing
  conclusionsCite := h.conclusions.cited

/-- Along every run of accepted commands from a new Program: the facts of each Program are
lawful; every command extends every tuple at its end, moves each Attempt by at most one
transition, adds Attempts as prepared ones, and takes the revision one further unless it is an
amendment that changes nothing; and over any number of commands an Attempt that is terminal
stays as it is, at its place. -/
theorem append_only {p : Program} (hp : p.Reachable) :
    p.Lawful ∧
    (∀ c q, p.apply c = .ok q →
      p.Extends (Relation.ReflGen Advance) (· = .prepared) q ∧
      (¬p.Idle c ∧ q.revision = p.revision + 1 ∨ p.Idle c ∧ q = p)) ∧
    ∀ commands q, p.run commands = .ok q →
      p.Extends (Relation.ReflTransGen Advance) (Relation.ReflTransGen Advance .prepared) q ∧
      ∀ (i : ℕ) (a : Attempt), p.attempts[i]? = some a → ¬a.Live → q.attempts[i]? = some a := by
  refine ⟨hp.coherent.lawful, fun c q h => ⟨apply_extends hp.coherent h, apply_revision_eq h⟩,
    fun commands q h => ?_⟩
  have hrun := run_extends hp h
  refine ⟨hrun, fun i a ha hl => ?_⟩
  obtain ⟨b, hb, hspec, hactor, hstatus⟩ := hrun.attempts.kept i a ha
  have hstay := AttemptStatus.eq_of_terminal hstatus hl
  obtain rfl : b = a := by
    cases a
    cases b
    simp_all
  exact hb

end

/-- The sample run of commands extends the new Program. -/
theorem append_only_completed :
    Extends (Relation.ReflTransGen Advance)
      (Relation.ReflTransGen Advance .prepared) Sample.program Sample.completed :=
  ((@append_only Sample.sha256 _ (@Reachable.create Sample.sha256 _ _ Sample.create_program)).2.2
    Sample.commands _ Sample.run_commands).1

end Program

end CreatidyKernel
