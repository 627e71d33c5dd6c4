import CreatidyKernel.Lib.Runs
import CreatidyKernel.Publication.Sync

set_option relaxedAutoImplicit false
set_option autoImplicit false

/-!
# A publication writes once

A process may die between any two events, and the servers may answer anything. Still a pull
request and a receipt are written at most once over all the calls, and all the calls for an
Attempt use one topic. The artifact that says a write has begun is there before the write, the
one that holds the topic before its use, and an artifact stays as it is.

## Main definitions

* `Publication.sends` — how often an operation was written to a server.
* `Publication.Quiet`, `Publication.Silent` — nothing is written, and no artifact is lost.
* `Publication.Writes` — the same, but for one write of one operation.
* `Publication.Inv` — no write without its artifact, and no second one.

## Main results

* `Publication.Forge.apply_writes` — the adapter writes once at most when it is called.
* `Publication.inv_next` — the step: a call keeps the invariant.
* `Publication.published_once` — the law of all runs.
-/

namespace CreatidyKernel

namespace Publication

open Checked Action Runs

/-- Whether an exchange is a write of an operation. -/
def Exchange.writes (key : String) : Exchange → Bool
  | .read _ _ => false
  | .sent operation _ => operation = key

/-- How often an operation was written to a server. -/
def sends (key : String) (s : Desk) : ℕ := s.wire.countP (Exchange.writes key)

/-- Exchanges are added that write no operation, no artifact is lost, no topic used and no reference
taken. -/
structure Quiet (s t : Desk) : Prop where
  grows : s.wire <+: t.wire
  sends : ∀ key, sends key t = sends key s
  artifacts : ∀ key name data, findArtifact s.artifacts key name = some data →
    findArtifact t.artifacts key name = some data
  topics : t.topics = s.topics
  recorded : t.recorded = s.recorded

theorem Quiet.refl (s : Desk) : Quiet s s :=
  ⟨List.prefix_refl _, fun _ => rfl, fun _ _ _ h => h, rfl, rfl⟩

theorem Quiet.trans (s t u : Desk) (h : Quiet s t) (h' : Quiet t u) : Quiet s u where
  grows := h.grows.trans h'.grows
  sends key := (h'.sends key).trans (h.sends key)
  artifacts key name data hd := h'.artifacts key name data (h.artifacts key name data hd)
  topics := h'.topics.trans h.topics
  recorded := h'.recorded.trans h.recorded

/-- The state differs in none of them. -/
theorem Quiet.of_eq {s t : Desk} (hwire : t.wire = s.wire) (hartifacts : t.artifacts = s.artifacts)
    (htopics : t.topics = s.topics) (hrecorded : t.recorded = s.recorded) : Quiet s t where
  grows := hwire ▸ List.prefix_refl _
  sends key := by rw [Publication.sends, Publication.sends, hwire]
  artifacts key name data hd := hartifacts ▸ hd
  topics := htopics
  recorded := hrecorded

/-- No operation is written, however the action ends. -/
def Silent {α : Type} (m : Act α) : Prop := Moves Quiet m

namespace Silent

variable {α β : Type}

theorem pure (a : α) : Silent (Pure.pure a) := Moves.pure Quiet.refl a

theorem raise (e : Stop) : Silent (raise e : Act α) := Moves.raise Quiet.refl e

theorem of (x : Except Stop α) : Silent (of x) := Moves.of Quiet.refl x

theorem read : Silent Action.read := Moves.read Quiet.refl

theorem write {g : Desk → Desk} (h : ∀ s, Quiet s (g s)) : Silent (write g) := h

theorem attempt {m : Act α} (h : Silent m) : Silent (attempt m) := Moves.attempt h

theorem bind {m : Act α} {f : α → Act β} (hm : Silent m) (hf : ∀ a, Silent (f a)) :
    Silent (m >>= f) := Moves.bind Quiet.trans hm hf

theorem each {f : α → Act β} (hf : ∀ a, Silent (f a)) (l : List α) : Silent (each f l) := by
  induction l with
  | nil => exact pure []
  | cons a l ih => exact (hf a).bind fun b => ih.bind fun bs => pure (b :: bs)

end Silent

/-! ## Reads -/

theorem silent_spend : Silent spend := by
  intro s
  unfold spend
  split
  · exact .refl s
  · exact .of_eq rfl rfl rfl rfl

theorem silent_ask {α : Type} (answers : ℕ → Except Stop α) : Silent (ask answers) := by
  refine silent_spend.bind fun _ => Silent.read.bind fun _ => Silent.bind ?_ fun _ => .of _
  exact Silent.write fun _ => .of_eq rfl rfl rfl rfl

theorem silent_request (w : World) (query : Query) : Silent (request w query) := by
  refine silent_spend.bind fun _ => Silent.read.bind fun s => ?_
  refine Silent.bind (Silent.write fun t => ?_) fun _ => .of _
  exact ⟨List.prefix_append _ _, fun key => by simp [sends, Exchange.writes],
    fun _ _ _ h => h, rfl, rfl⟩

theorem silent_tryRead (w : World) (query : Query) : Silent (tryRead w query) := by
  refine (silent_request w query).attempt.bind fun r => ?_
  split
  · exact .pure _
  · exact .pure _
  · exact .raise _

theorem silent_requireReads (w : World) : Silent (requireReads w) :=
  (silent_ask _).bind fun _ => .of _

theorem silent_branch (w : World) (configured repository name : String) :
    Silent (branch w configured repository name) :=
  (silent_requireReads w).bind fun _ => (Silent.of _).bind fun _ => (Silent.of _).bind fun _ =>
    (silent_tryRead w _).bind fun _ => .pure _

theorem silent_issueSnapshot [Sha256] (w : World) (configured repository : String) (number : ℕ) :
    Silent (issueSnapshot w configured repository number) :=
  (silent_requireReads w).bind fun _ => (Silent.of _).bind fun _ => (Silent.of _).bind fun _ =>
    (silent_tryRead w _).bind fun _ => .pure _

theorem silent_changes (w : World) (repository : String) (cursor : Option ℕ) :
    Silent (changes w repository cursor) := by
  refine (silent_requireReads w).bind fun _ => ?_
  split
  · exact (silent_tryRead w _).bind fun _ => .pure _
  · exact .pure _

theorem silent_watched {α : Type} {m : Act α} (h : Silent m) : Silent (watched m) :=
  Silent.read.bind fun _ => h.bind fun _ => Silent.read.bind fun _ => .pure _

/-- A transaction that writes no exchange. -/
theorem silent_transact {α : Type} {g : Desk → Except Failure (α × Desk)}
    (h : ∀ s a t, g s = .ok (a, t) → Quiet s t) : Silent (transact g) := by
  intro s
  unfold transact
  split
  · exact .refl s
  · rename_i a t hg
    split
    · exact .refl s
    · exact Quiet.trans s t _ (h s a t hg) (.of_eq rfl rfl rfl rfl)

theorem silent_onJournal {α : Type} (g : Journal → Except Failure (α × Journal)) :
    Silent (onJournal g) := by
  refine silent_transact fun s a t h => ?_
  obtain ⟨⟨b, j⟩, -, h⟩ := bind_eq_ok.1 h
  cases pure_eq_ok.1 h
  exact .of_eq rfl rfl rfl rfl

theorem silent_operation (key : String) : Silent (operation key) :=
  Silent.read.bind fun _ => .of _

/-! ## Artifacts -/

theorem findArtifact_append {artifacts : List Artifact} {key name data : String}
    (more : List Artifact) (h : findArtifact artifacts key name = some data) :
    findArtifact (artifacts ++ more) key name = some data := by
  obtain ⟨a, ha, rfl⟩ := Option.map_eq_some_iff.1 h
  unfold findArtifact
  rw [List.find?_append, ha]
  rfl

/-- An artifact that is recorded is there, and the ones before it stay. -/
theorem finalizeRow_spec {s t : Desk} {key name data : String}
    (h : finalizeRow s key name data = .ok ((), t)) :
    Quiet s t ∧ findArtifact t.artifacts key name = some data := by
  obtain ⟨_, -, h⟩ := bind_eq_ok.1 h
  obtain ⟨_, -, h⟩ := bind_eq_ok.1 h
  cases hfound : findArtifact s.artifacts key name with
  | some existing =>
    simp only [hfound] at h
    obtain ⟨hsame, hpure⟩ := check_bind_eq_ok.1 h
    cases pure_eq_ok.1 hpure
    exact ⟨.refl s, hfound.trans (congrArg some hsame)⟩
  | none =>
    simp only [hfound] at h
    cases pure_eq_ok.1 h
    refine ⟨⟨List.prefix_refl _, fun _ => rfl, fun _ _ _ => findArtifact_append _, rfl, rfl⟩, ?_⟩
    unfold findArtifact at hfound ⊢
    rw [List.find?_append, Option.map_eq_none_iff.1 hfound, Option.none_or]
    simp

theorem silent_finalizeArtifact (w : World) (key name data : String) :
    Silent (finalizeArtifact w key name data) :=
  (silent_ask _).bind fun _ => silent_transact fun _ _ _ h => (finalizeRow_spec h).1

/-- What a recorded artifact is found with. -/
theorem finalizeArtifact_found {w : World} {key name data : String} {s t : Desk} {a : Unit}
    (h : finalizeArtifact w key name data s = (.ok a, t)) :
    findArtifact t.artifacts key name = some data := by
  obtain ⟨_, s', -, h⟩ := bind_eq_ok.1 h
  unfold transact at h
  split at h
  · cases h
  · rename_i _ t' hrow
    split at h
    · cases h
    · cases h
      exact (finalizeRow_spec hrow).2

/-! ## The adapter -/

/-- What an adapter asks its call does not write. -/
structure Forge.Guarded (f : Forge) : Prop where
  authorize : Silent f.authorize
  authorizeReconcile : Silent f.authorizeReconcile
  beforeSend : Silent f.beforeSend

/-- The same, but one operation may be written, once. -/
structure Writes (key : String) (s t : Desk) : Prop where
  grows : s.wire <+: t.wire
  once : sends key t ≤ sends key s + 1
  others : ∀ other, other ≠ key → sends other t = sends other s
  artifacts : ∀ operation name data, findArtifact s.artifacts operation name = some data →
    findArtifact t.artifacts operation name = some data
  topics : t.topics = s.topics
  recorded : t.recorded = s.recorded

section

variable {key : String} {s t u : Desk}

theorem Quiet.writes (h : Quiet s t) : Writes key s t where
  grows := h.grows
  once := (h.sends key).le.trans (Nat.le_succ _)
  others other _ := h.sends other
  artifacts := h.artifacts
  topics := h.topics
  recorded := h.recorded

theorem Quiet.then_writes (h : Quiet s t) (h' : Writes key t u) : Writes key s u where
  grows := h.grows.trans h'.grows
  once := (h.sends key) ▸ h'.once
  others other hne := (h'.others other hne).trans (h.sends other)
  artifacts k name data hd := h'.artifacts k name data (h.artifacts k name data hd)
  topics := h'.topics.trans h.topics
  recorded := h'.recorded.trans h.recorded

theorem Writes.then_quiet (h : Writes key s t) (h' : Quiet t u) : Writes key s u where
  grows := h.grows.trans h'.grows
  once := (h'.sends key).le.trans h.once
  others other hne := (h'.sends other).trans (h.others other hne)
  artifacts k name data hd := h'.artifacts k name data (h.artifacts k name data hd)
  topics := h'.topics.trans h.topics
  recorded := h'.recorded.trans h.recorded

/-- The write itself. -/
theorem writes_sent (key : String) (write : NativeWrite) (s : Desk) :
    Writes key s { s with wire := s.wire ++ [.sent key write] } where
  grows := List.prefix_append _ _
  once := by simp [sends, Exchange.writes]
  others other hne := by simp [sends, Exchange.writes, hne.symm]
  artifacts _ _ _ h := h
  topics := rfl
  recorded := rfl

variable {α β : Type}

theorem Silent.writes {m : Act α} (h : Silent m) : Moves (Writes key) m :=
  Moves.weaken h fun _ _ => Quiet.writes

/-- A part before the write. -/
theorem Silent.then_writes {m : Act α} {f : α → Act β} (hm : Silent m)
    (hf : ∀ a, Moves (Writes key) (f a)) : Moves (Writes key) (m >>= f) :=
  Moves.seq hm hf (fun _ _ _ => Quiet.then_writes) fun _ _ => Quiet.writes

/-- A part after the write. -/
theorem then_silent {m : Act α} {f : α → Act β} (hm : Moves (Writes key) m)
    (hf : ∀ a, Silent (f a)) : Moves (Writes key) (m >>= f) :=
  Moves.seq hm hf (fun _ _ _ => Writes.then_quiet) fun _ _ h => h

end

namespace Forge

variable {f : Forge}

theorem silent_authorized (hf : f.Guarded) (effect : Effect) (reconciliation : Bool) :
    Silent (f.authorized effect reconciliation) := by
  refine (Silent.of _).bind fun _ => (Silent.of _).bind fun _ => ?_
  have hrest (permitted : Bool) : Silent (do
      of (check (permitted = true) (.conflict "exact forge effect was not authorized"))
      of (check (IsOid effect.revision) (.conflict "revision must be a full Git object ID"))
      let supported ← ask fun n => .ok (f.world.supported n)
      of (check (supported = true) (.refused "pr unsupported"))) :=
    (Silent.of _).bind fun _ => (Silent.of _).bind fun _ => (silent_ask _).bind fun _ => .of _
  cases reconciliation with
  | true => exact hf.authorizeReconcile.bind hrest
  | false => exact hf.authorize.bind hrest

theorem silent_readBack (f : Forge) (effect : Effect) (body : String) (number : ℕ) :
    Silent (f.readBack effect body number) :=
  (Silent.of _).bind fun _ => (silent_tryRead _ _).bind fun _ => .of _

theorem silent_reconcile (hf : f.Guarded) (effect : Effect) (known : Option ℕ) :
    Silent (f.reconcile effect known) := by
  unfold Forge.reconcile
  refine (silent_authorized hf effect true).bind fun _ => ?_
  cases known with
  | none => exact .pure _
  | some number =>
    dsimp only
    split
    · exact silent_readBack f effect _ number
    · exact .raise _
    · exact .pure _

theorem silent_prepare (hf : f.Guarded) : ∀ n, Silent (f.prepare n)
  | 0 => .pure _
  | n + 1 => by
    refine hf.beforeSend.bind fun _ => (silent_ask _).bind fun prepared => ?_
    cases prepared with
    | true => exact silent_prepare hf n
    | false => exact .pure _

theorem send_writes (hf : f.Guarded) (effect : Effect) (description : String) :
    Moves (Writes f.operation) (f.send effect description) :=
  hf.beforeSend.then_writes fun _ => silent_spend.then_writes fun _ =>
    then_silent (writes_sent _ _) fun _ => silent_ask _

theorem runGit_writes (hf : f.Guarded) (effect : Effect) (description : String) :
    Moves (Writes f.operation) (f.runGit effect description) := by
  refine (silent_prepare hf 3).then_writes fun prepared => ?_
  cases prepared with
  | true => exact send_writes hf effect description
  | false => exact (Silent.pure _).writes

theorem createAgitPr_writes (hf : f.Guarded) (effect : Effect) (description : String) :
    Moves (Writes f.operation) (f.createAgitPr effect description) := by
  refine (Silent.of _).then_writes fun _ => (Silent.of _).then_writes fun _ =>
    (Silent.of _).then_writes fun _ => (Silent.of _).then_writes fun _ => ?_
  split
  · exact (Silent.pure _).writes
  · refine then_silent (Moves.attempt (runGit_writes hf effect description)) fun r => ?_
    split
    · exact .pure _
    · exact .pure _
    · exact .raise _

theorem silent_confirm (hf : f.Guarded) (effect : Effect) (created : AGitPush) :
    Silent (f.confirm effect created) := by
  unfold confirm
  split
  · refine (silent_reconcile hf effect _).bind fun receipt => ?_
    split
    · exact .pure _
    · exact .pure _
  · exact .pure _
  · exact .pure _

theorem create_writes (hf : f.Guarded) (effect : Effect) (description : String) :
    Moves (Writes f.operation) (f.create effect description) := by
  refine (silent_branch _ _ _ _).then_writes fun base => ?_
  split
  · refine then_silent (Moves.attempt (createAgitPr_writes hf effect description)) fun r => ?_
    split
    · exact silent_confirm hf effect _
    · exact .pure _
    · exact .raise _
  · exact (Silent.pure _).writes

/-- The adapter writes its operation once at most when it is called, and no other. -/
theorem apply_writes (hf : f.Guarded) (effect : Effect) :
    Moves (Writes f.operation) (f.apply effect) := by
  refine (silent_authorized hf effect false).then_writes fun _ => ?_
  split
  · exact (silent_reconcile hf effect none).writes
  · split
    · exact create_writes hf effect _
    · exact (Silent.raise _).writes
    · exact (Silent.pure _).writes

end Forge

/-! ## The invariant -/

/-- No operation was written twice, none without the artifact that says its write has begun, and
the topic of every use is the one on record. -/
structure Inv (s : Desk) : Prop where
  once : ∀ key, sends key s ≤ 1
  begun : ∀ key, sends key s ≠ 0 → started s key = true
  topic : ∀ (attempt : Name) topic, (attempt.val, topic) ∈ s.topics →
    findArtifact s.artifacts (topicKey attempt) "topic" = some topic

/-- The invariant is kept. -/
def Keeps (s t : Desk) : Prop := Inv s → Inv t

theorem Keeps.refl (s : Desk) : Keeps s s := fun hs => hs

theorem Keeps.trans (s t u : Desk) (h : Keeps s t) (h' : Keeps t u) : Keeps s u :=
  fun hs => h' (h hs)

theorem started_of_found {s t : Desk} {key : String}
    (h : ∀ key name data, findArtifact s.artifacts key name = some data →
      findArtifact t.artifacts key name = some data) (hs : started s key = true) :
    started t key = true := by
  obtain ⟨data, hdata⟩ := Option.isSome_iff_exists.1 hs
  exact Option.isSome_iff_exists.2 ⟨data, h key _ data hdata⟩

theorem Quiet.inv {s t : Desk} (h : Quiet s t) (hs : Inv s) : Inv t where
  once key := (h.sends key).le.trans (hs.once key)
  begun key hkey := started_of_found h.artifacts (hs.begun key (h.sends key ▸ hkey))
  topic attempt topic hmem := h.artifacts _ _ _ (hs.topic attempt topic (h.topics ▸ hmem))

/-- The write of an operation whose artifact is there and that was not written before. -/
theorem Writes.inv {key : String} {s t : Desk} (h : Writes key s t) (hs : Inv s)
    (hnone : sends key s = 0) (hbegun : started s key = true) : Inv t where
  once other := by
    rcases eq_or_ne other key with rfl | hne
    · exact h.once.trans (by rw [hnone])
    · exact (h.others other hne).le.trans (hs.once other)
  begun other hother := by
    refine started_of_found h.artifacts ?_
    rcases eq_or_ne other key with rfl | hne
    · exact hbegun
    · exact hs.begun other (h.others other hne ▸ hother)
  topic attempt topic hmem := h.artifacts _ _ _ (hs.topic attempt topic (h.topics ▸ hmem))

/-- Nothing was written for an operation whose write has not begun. -/
theorem Inv.sends_eq {s : Desk} {key : String} (hs : Inv s) (h : started s key = false) :
    sends key s = 0 := by
  by_contra hne
  rw [hs.begun key hne] at h
  cases h

variable {α β : Type} {w : World}

theorem Silent.keeps {m : Act α} (hm : Silent m) : Moves Keeps m :=
  Moves.weaken hm fun _ _ hquiet => hquiet.inv

theorem keeps_bind {m : Act α} {f : α → Act β} (hm : Moves Keeps m)
    (hf : ∀ a, Moves Keeps (f a)) : Moves Keeps (m >>= f) := Moves.bind Keeps.trans hm hf

/-- A write after its artifact. -/
theorem guarded_keeps {m : Act α} {key : String} (hm : Moves (Writes key) m) (data : String)
    {s : Desk} (hs : Inv s) (hnone : sends key s = 0) :
    Inv ((finalizeArtifact w key "physical-send" data >>= fun _ => m) s).2 := by
  have hquiet := silent_finalizeArtifact w key "physical-send" data s
  cases hr : finalizeArtifact w key "physical-send" data s with
  | mk r t =>
    rw [hr] at hquiet
    cases r with
    | error e =>
      rw [bind_of_error hr]
      exact hquiet.inv hs
    | ok a =>
      rw [bind_of_ok hr]
      exact (hm t).inv (hquiet.inv hs) ((hquiet.sends key).trans hnone)
        (Option.isSome_iff_exists.2 ⟨data, finalizeArtifact_found hr⟩)

/-! ## The reads of a call -/

variable [Sha256] {c : Setup} {h : Handoff} {active : String × ℕ} {effect : Effect}

theorem silent_accepted : Silent (accepted w c h) :=
  (silent_ask _).bind fun _ => .of _

theorem silent_beforeSend : Silent (beforeSend w c h) :=
  silent_accepted.bind fun _ => (silent_ask _).bind fun _ => (Silent.of _).bind fun _ => silent_ask _

theorem silent_draftCurrent (subject : Intake.Draft × List (String × String × ℕ)) :
    Silent (draftCurrent w c subject) :=
  (silent_issueSnapshot _ _ _ _).bind fun _ => (silent_branch _ _ _ _).bind fun _ =>
    (Silent.of _).bind fun _ => (silent_ask _).bind fun _ => .of _

theorem silent_nativeCurrent : Silent (nativeCurrent w c) :=
  (Silent.each silent_draftCurrent _).bind fun _ => .pure _

/-- The adapter of a call asks nothing that writes. -/
theorem forge_guarded : (forge w c h active effect).Guarded where
  authorize := by
    show Silent (authorized w c h active effect)
    unfold authorized
    split
    · exact silent_nativeCurrent.bind fun _ => silent_beforeSend.bind fun _ => .pure _
    · exact .pure _
  authorizeReconcile := by
    show Silent (authorizedReadback w c h active effect)
    unfold authorizedReadback
    split
    · refine (silent_operation _).bind fun original => ?_
      split
      · exact silent_accepted.bind fun _ => .pure _
      · exact .pure _
    · exact .pure _
  beforeSend := silent_beforeSend

omit [Sha256] in
theorem silent_comments (issue : ℕ) (body : String) (identity : OperationKey) :
    Silent (comments w c issue body identity) :=
  (silent_request _ _).bind fun _ => .pure _

section

variable {f : Forge}

omit [Sha256] in
theorem silent_confirmListed (hf : f.Guarded) (base : String) (number : ℕ) :
    Silent (confirmListed f effect base number) := by
  refine (Forge.silent_reconcile hf effect _).attempt.bind fun r => ?_
  split
  · split
    · exact .pure _
    · exact .pure _
  · exact .pure _
  · exact .raise _

omit [Sha256] in
theorem silent_scanItem (hf : f.Guarded) (base : String) (number : ℕ) :
    Silent (scanItem f effect base number) := by
  refine (silent_request _ _).bind fun answer => ?_
  split
  · exact .pure _
  · exact .pure _
  · exact silent_confirmListed hf base number

omit [Sha256] in
theorem silent_scanItems (hf : f.Guarded) (base : String) (seen references : List ℕ)
    (items : List Change) : Silent (scanItems f effect base seen references items) := by
  induction items generalizing seen references with
  | nil => exact .pure _
  | cons item rest ih =>
    unfold scanItems
    split
    · exact .pure _
    · refine (silent_scanItem hf base _).bind fun found => ?_
      split
      · exact .pure _
      · exact ih _ _

omit [Sha256] in
theorem silent_scanPages (hf : f.Guarded) (base : String) (pages : ℕ) (cursor : Option ℕ)
    (seen references : List ℕ) : Silent (scanPages f effect base pages cursor seen references) := by
  induction pages generalizing cursor seen references with
  | zero => exact .pure _
  | succ pages ih =>
    unfold scanPages
    refine (silent_changes _ _ _).bind fun page => ?_
    split
    · exact .pure _
    · refine (silent_scanItems hf base _ _ _).bind fun found => ?_
      split
      · exact .pure _
      · split
        · exact .pure _
        · split
          · exact .pure _
          · exact ih _ _ _

end

theorem silent_prReadback : Silent (prReadback w c h active effect) :=
  silent_accepted.bind fun _ => silent_scanPages forge_guarded _ _ _ _ _

/-! ## The records of a call -/

theorem silent_chooseTopic (key : String) (saved : Option String) :
    Silent (chooseTopic w key saved) := by
  refine Silent.read.bind fun s => ?_
  split
  · exact (Silent.of _).bind fun _ => (silent_ask _).bind fun _ =>
      (silent_onJournal _).bind fun _ => .pure _
  · exact (Silent.of _).bind fun _ => .of _
  · exact .raise _

theorem silent_authorizePublication (claim : WorkClaim) (key : String) (request : EffectRequest) :
    Silent (authorizePublication w c claim key request) := by
  refine (silent_ask _).bind fun _ => Silent.read.bind fun s => (Silent.of _).bind fun found => ?_
  split
  · exact (silent_ask _).bind fun _ => .pure _
  · refine (silent_ask _).bind fun _ => silent_transact fun s a t ht => ?_
    obtain ⟨j, -, ht⟩ := bind_eq_ok.1 ht
    obtain ⟨_, -, ht⟩ := bind_eq_ok.1 ht
    cases pure_eq_ok.1 ht
    exact .of_eq rfl rfl rfl rfl

omit [Sha256] in
theorem silent_delivery (key : String) (op : Operation) : Silent (delivery w key op) := by
  refine Silent.read.bind fun s => ?_
  split
  · refine Silent.bind ?_ fun _ => (silent_operation _).bind fun _ => Silent.read.bind fun _ =>
      .pure _
    exact (silent_ask _).bind fun _ => (silent_ask _).bind fun _ => silent_onJournal _
  · exact .pure _

theorem silent_postflight (found : Option (String × List Exchange)) :
    Silent (postflight w c found) := by
  unfold postflight
  split
  · exact .pure _
  · refine silent_nativeCurrent.attempt.bind fun r => ?_
    split
    · exact .pure _
    · exact .pure _
    · exact .pure _
    · exact .pure _
    · exact .raise _

/-! ## Calls -/

theorem applyOnce_keeps : Moves Keeps (applyOnce w c h active effect) := by
  intro s hs
  unfold applyOnce
  rw [bind_of_ok (read_apply s)]
  split
  · exact hs
  · rename_i hfresh
    refine guarded_keeps ?_ _ hs (hs.sends_eq (Bool.eq_false_iff.2 hfresh))
    refine then_silent ?_ fun _ => .pure _
    refine Silent.read.then_writes fun _ => then_silent ?_ fun _ => Silent.read.bind fun _ => .pure _
    exact Forge.apply_writes forge_guarded effect

theorem deliverPr_keeps (op : Operation) (saved : Option String) (base : String) :
    Moves Keeps (deliverPr w c h active effect op saved base) := by
  have hreadback : Silent (watched (prReadback w c h active effect)) :=
    silent_watched silent_prReadback
  refine keeps_bind ?_ fun first => keeps_bind ?_ fun _ => (Silent.pure _).keeps
  · unfold firstReceipt
    split
    · exact (hreadback.bind fun _ => .pure _).keeps
    · exact applyOnce_keeps
  · unfold lastReceipt
    split
    · exact (Silent.pure _).keeps
    · exact hreadback.keeps

theorem postComment_writes (key : String) (issue : ℕ) (body : String) :
    Moves (Writes key) (postComment w c h key issue body) :=
  silent_beforeSend.then_writes fun _ => silent_spend.then_writes fun _ =>
    then_silent (writes_sent _ _) fun _ => silent_ask _

theorem commentOnce_keeps (issue : ℕ) {s : Desk} (hs : Inv s) (hnone : sends active.1 s = 0) :
    Inv (commentOnce w c h active effect issue s).2 := by
  have hquiet := silent_nativeCurrent (w := w) (c := c) s
  unfold commentOnce
  cases hr : nativeCurrent w c s with
  | mk r t =>
    rw [hr] at hquiet
    cases r with
    | error e =>
      rw [bind_of_error hr]
      exact hquiet.inv hs
    | ok a =>
      rw [bind_of_ok hr]
      refine guarded_keeps ?_ _ (hquiet.inv hs) ((hquiet.sends active.1).trans hnone)
      refine then_silent (Moves.attempt (postComment_writes active.1 issue effect.body)) fun r => ?_
      have hagain : Silent (do
          let again ← watched (comments w c issue effect.body effect.operation)
          return commented again) :=
        (silent_watched (silent_comments issue _ _)).bind fun _ => .pure _
      split
      · exact hagain
      · exact hagain
      · exact .raise _

theorem deliverReceipt_keeps (op : Operation) (issue : ℕ) :
    Moves Keeps (deliverReceipt w c h active effect op issue) := by
  refine keeps_bind (silent_watched (silent_comments issue _ _)).keeps fun first => ?_
  intro s hs
  rw [bind_of_ok (read_apply s)]
  split
  · rename_i hfresh
    exact commentOnce_keeps issue hs (hs.sends_eq hfresh.2.1)
  · exact hs

omit [Sha256] in
theorem recordFound_keeps (r : Received) (step : Step) (issue : ℕ)
    (found : Option (String × List Exchange)) :
    Moves Keeps (recordFound w c effect r step active issue found) := by
  unfold recordFound
  split
  · exact ((silent_onJournal _).bind fun _ => .pure _).keeps
  · refine keeps_bind (fun _ hs => ⟨hs.once, hs.begun, hs.topic⟩) fun _ => Silent.keeps ?_
    exact (silent_finalizeArtifact _ _ _ _).bind fun _ => (silent_onJournal _).bind fun _ =>
      (silent_ask _).bind fun _ => .pure _

theorem deliver_keeps (r : Received) (topic : String) (step : Step) :
    Moves Keeps (deliver w c h r topic step) := by
  refine keeps_bind (Silent.of _).keeps fun draft => keeps_bind (Silent.of _).keeps fun subject => ?_
  refine keeps_bind (silent_authorizePublication _ _ _).keeps fun original => ?_
  refine keeps_bind Silent.read.keeps fun s => keeps_bind (silent_delivery _ _).keeps fun d => ?_
  refine keeps_bind (Silent.of _).keeps fun effect => keeps_bind ?_ fun found => ?_
  · cases step with
    | pr => exact deliverPr_keeps _ _ _
    | receipt => exact deliverReceipt_keeps _ _
  · exact keeps_bind (silent_postflight found).keeps fun _ => recordFound_keeps _ _ _ _

omit [Sha256] in
/-- A use of the topic on record. -/
theorem Inv.use {s : Desk} (hs : Inv s) {attempt : Name} {topic : String}
    (hfound : findArtifact s.artifacts (topicKey attempt) "topic" = some topic) :
    Inv { s with topics := s.topics ++ [(attempt.val, topic)] } where
  once := hs.once
  begun := hs.begun
  topic attempt' topic' hmem := by
    rcases List.mem_append.1 hmem with hmem | hmem
    · exact hs.topic attempt' topic' hmem
    · obtain ⟨hval, rfl⟩ := Prod.mk.inj (List.mem_singleton.1 hmem)
      obtain rfl := Subtype.ext hval
      exact hfound

omit [Sha256] in
/-- The topic is used as it is on record, or put on record first. -/
theorem recordTopic_keeps {attempt : Name} {topic : String} {saved : Option String} {s : Desk}
    (hs : Inv s) (hsaved : ∀ t ∈ saved, findArtifact s.artifacts (topicKey attempt) "topic" = some t) :
    Inv ((do
      match saved with
      | none => finalizeArtifact w (topicKey attempt) "topic" topic
      | some saved => of (check (saved = topic)
          (.refused "publication topic artifact differs from original intent"))
      write fun s => { s with topics := s.topics ++ [(attempt.val, topic)] }
      return topic : Act String) s).2 := by
  cases saved with
  | none =>
    have hquiet := silent_finalizeArtifact w (topicKey attempt) "topic" topic s
    show Inv ((finalizeArtifact w (topicKey attempt) "topic" topic >>= fun _ => _) s).2
    cases hr : finalizeArtifact w (topicKey attempt) "topic" topic s with
    | mk r t =>
      rw [hr] at hquiet
      cases r with
      | error e =>
        rw [bind_of_error hr]
        exact hquiet.inv hs
      | ok a =>
        rw [bind_of_ok hr]
        exact (hquiet.inv hs).use (finalizeArtifact_found hr)
  | some saved =>
    show Inv ((of (check (saved = topic) _) >>= fun _ => _) s).2
    by_cases hsame : saved = topic
    · rw [check_of hsame]
      exact hs.use (hsame ▸ hsaved saved rfl)
    · rw [check_of_not hsame]
      exact hs

theorem durableTopic_keeps : Moves Keeps (durableTopic w h) := by
  intro s hs
  unfold durableTopic
  dsimp only
  rw [bind_of_ok (read_apply s)]
  have hquiet := silent_chooseTopic (w := w) (topicKey h.attempt.attemptId)
    (findArtifact s.artifacts (topicKey h.attempt.attemptId) "topic") s
  cases hr : chooseTopic w (topicKey h.attempt.attemptId)
      (findArtifact s.artifacts (topicKey h.attempt.attemptId) "topic") s with
  | mk r t =>
    rw [hr] at hquiet
    cases r with
    | error e =>
      rw [bind_of_error hr]
      exact hquiet.inv hs
    | ok topic =>
      rw [bind_of_ok hr]
      exact recordTopic_keeps (hquiet.inv hs) fun x hx => hquiet.artifacts _ _ _ hx

theorem publish_keeps : Moves Keeps (publish w c h) := by
  refine keeps_bind silent_accepted.keeps fun received => keeps_bind durableTopic_keeps fun topic => ?_
  refine keeps_bind (deliver_keeps _ _ _) fun pr => ?_
  split
  · exact (Silent.pure _).keeps
  · refine keeps_bind (deliver_keeps _ _ _) fun receipt => ?_
    split
    · exact (Silent.pure _).keeps
    · exact (Silent.pure _).keeps

/-- The step: a call, cut off wherever it is, and a call of the journal keep the invariant. -/
theorem inv_next {s : Desk} (hs : Inv s) (e : Event) : Inv (next s e) := by
  cases e with
  | publish allowance w c h =>
    have hquiet : Quiet s { s with allowance := allowance, asked := 0 } := .of_eq rfl rfl rfl rfl
    exact publish_keeps _ (hquiet.inv hs)
  | journal call =>
    have hquiet : Quiet s (next s (.journal call)) := .of_eq rfl rfl rfl rfl
    exact hquiet.inv hs

omit [Sha256] in
theorem inv_empty : Inv Desk.empty :=
  ⟨fun _ => Nat.zero_le _, fun _ h => absurd rfl h, by rintro _ _ ⟨⟩⟩

/-- **A publication writes once**: over any run of calls, each cut off after any number of durable
writes and questions and with any answers of the servers, among any calls of the journal, every
operation is written to a server once at most, only with the artifact that says so on record, and
all the uses of an Attempt are of one topic. -/
theorem published_once (events : List Event) :
    let s := run next Desk.empty events
    (∀ key, sends key s ≤ 1 ∧ (sends key s ≠ 0 → started s key = true)) ∧
    ∀ (attempt : Name) topic topic', (attempt.val, topic) ∈ s.topics →
      (attempt.val, topic') ∈ s.topics → topic = topic' := by
  intro s
  have hs : Inv s := run_invariant (P := Inv) (fun _ e h => inv_next h e) inv_empty events
  refine ⟨fun key => ⟨hs.once key, hs.begun key⟩, fun attempt topic topic' hmem hmem' => ?_⟩
  exact Option.some.inj ((hs.topic attempt topic hmem).symm.trans (hs.topic attempt topic' hmem'))

end Publication

end CreatidyKernel
