import CreatidyKernel.Lib.Once
import CreatidyKernel.Served.Commands
import CreatidyKernel.Store.JournalSafety

set_option relaxedAutoImplicit false
set_option autoImplicit false

/-!
# Served commands take effect at most once

An effect is started only for an operation id that has no row, after its row is written, and no
row is ever lost; so no effect is started twice. A row keeps its request, and the receipt of an
operation is written only by the call that wrote its row; so a replay is told apart by the
content it is compared with, and returns what that call recorded.

## Main definitions

* `Served.Inv` — the invariant of a run.
* `Served.Settled` — what a call keeps of the operations there are.
* `Attempted.recorded` — the receipt a command records.
* `Accepts` — the receipts a replay with given content returns.

## Main results

* `Attempted.serve_begun`, `Attempted.serve_replay` — a new command and a replay.
* `Served.effects_at_most_once` — over every run.
-/

namespace CreatidyKernel

open Checked Runs Codec Served

/-! ## Dictionaries -/

namespace EffectRequest

theorem getField_of_mem {fs : List (String × Json)} (hn : (fs.map Prod.fst).Nodup) {name : String}
    {v : Json} (h : (name, v) ∈ fs) : getField fs name = v := by
  have hfind : (fs.find? fun f => f.1 = name) = some (name, v) :=
    (find?_key_eq_some_iff hn).2 ⟨h, rfl⟩
  simp only [getField, hfind]

/-- What a dictionary holds at a key is among its fields. -/
theorem mem_of_get {d : Dictionary} {name : String} (h : name ∈ d.keys) :
    (name, d.get name) ∈ d.fields := by
  obtain ⟨⟨k, v⟩, hf, rfl⟩ := List.mem_map.1 h
  have hn : (d.fields.map Prod.fst).Nodup :=
    ((Json.wf_obj _).1 d.wf).1.imp fun h => ne_of_lt h
  rwa [get, getField_of_mem hn hf]

/-- Binding values under new keys leaves the request's own values. -/
theorem get_extend {d : Dictionary} {extra : List (String × Json)} {h : ∀ f ∈ extra, f.2.WF}
    (hn : (d.keys ++ extra.map Prod.fst).Nodup) {name : String} (hname : name ∈ d.keys) :
    (d.extend extra h).get name = d.get name := by
  have hall : ((d.fields ++ extra).map Prod.fst).Nodup := by
    rw [List.map_append]
    exact hn
  have hdict : ((Json.dictOf (d.fields ++ extra)).map Prod.fst).Nodup :=
    ((Json.wf_obj _).1 (d.extend extra h).wf).1.imp fun h => ne_of_lt h
  apply getField_of_mem hdict
  exact (Json.mem_dictOf hall).2 (List.mem_append_left _ (mem_of_get hname))

/-- The request read back from the text of its operation. -/
theorem request_of_json {o : Operation} {d : Dictionary} (h : o.requestJson = d.json) :
    o.request = .ok (.obj d.fields) := by
  have hwf : (Json.obj [("request", .obj d.fields), ("version", .int 1)]).WF :=
    (Json.wf_obj _).2 ⟨by simp only [List.map_cons, List.map_nil]; decide, by simp [d.wf]⟩
  have hloads : loads o.requestJson =
      some (.obj [("request", .obj d.fields), ("version", .int 1)]) := by
    rw [h]
    exact loads_dumps hwf
  simp only [Operation.request, objectFrom, hloads]
  rfl

end EffectRequest

namespace Served

/-- A recorded receipt is read back. -/
theorem objectFrom_dumps (r : Dictionary) : objectFrom (dumps (.obj r.fields)) = .ok r.fields := by
  rw [objectFrom, loads_dumps r.wf]

@[simp] theorem store_eq_ok {α : Type} {x : Except Failure α} {a : α} :
    store x = .ok a ↔ x = .ok a := by
  cases x <;> simp [store, Except.mapError]

@[simp] theorem need_eq_ok {α : Type} {message : String} {value : Option α} {a : α} :
    need message value = .ok a ↔ value = some a := by
  cases value <;> simp [need]

variable [Sha256]

theorem inNamespace (k : CommandKey) : InNamespace k.operationId := by
  rw [InNamespace, CommandKey.operationId, commandPrefix, String.append_assoc, String.append_assoc,
    String.toList_append]
  exact List.prefix_append _ _

/-! ## What a call keeps -/

/-- The receipt on record for an operation. -/
def receiptOf (s : ServedStore) (operationId : String) : Option String :=
  s.findArtifact operationId "receipt"

/-- Every artifact belongs to an operation. -/
def Anchored (s : ServedStore) : Prop :=
  ∀ a ∈ s.artifacts, s.journal.find a.operationId ≠ none

/-- The tables agree, and every started effect has its operation. -/
structure Inv (s : ServedStore) : Prop where
  journal : s.journal.Coherent
  anchored : Anchored s
  once : Once (fun id => s.journal.find id ≠ none) (s.started.map CommandKey.operationId)

omit [Sha256] in
/-- A row of an evolved journal with its content. -/
theorem find_of_evolves {j j' : Journal} (hids : (j'.operations.map Operation.operationId).Nodup)
    (h : j.Evolves j') {operationId : String} {o : Operation} (ho : j.find operationId = some o) :
    ∃ o', j'.find operationId = some o' ∧ o'.effectKey = o.effectKey ∧
      o'.requestJson = o.requestJson := by
  obtain ⟨hmem, hid⟩ := Journal.mem_of_find ho
  obtain ⟨o', ho', he⟩ := h o hmem
  exact ⟨o', (Rows.find_eq_some_iff hids).2 ⟨ho', he.operationId.trans hid⟩, he.effectKey,
    he.requestJson⟩

/-- What everyone keeps of an operation on record: its content, and its receipt when it is a
served command's. -/
structure Settled (s s' : ServedStore) : Prop where
  content : ∀ operationId o, s.journal.find operationId = some o →
    ∃ o', s'.journal.find operationId = some o' ∧ o'.effectKey = o.effectKey ∧
      o'.requestJson = o.requestJson
  receipt : ∀ operationId, InNamespace operationId → s.journal.find operationId ≠ none →
    receiptOf s' operationId = receiptOf s operationId

omit [Sha256] in
theorem Settled.refl (s : ServedStore) : Settled s s :=
  ⟨fun _ o h => ⟨o, h, rfl, rfl⟩, fun _ _ _ => rfl⟩

omit [Sha256] in
theorem Settled.present {s s' : ServedStore} (h : Settled s s') {operationId : String}
    (hp : s.journal.find operationId ≠ none) : s'.journal.find operationId ≠ none := by
  obtain ⟨o, ho⟩ := Option.ne_none_iff_exists'.1 hp
  obtain ⟨o', ho', -⟩ := h.content operationId o ho
  rw [ho']
  exact Option.some_ne_none o'

omit [Sha256] in
theorem Settled.trans {s s' s'' : ServedStore} (h : Settled s s') (h' : Settled s' s'') :
    Settled s s'' := by
  constructor
  · intro operationId o ho
    obtain ⟨o', ho', he, hj⟩ := h.content operationId o ho
    obtain ⟨o'', ho'', he', hj'⟩ := h'.content operationId o' ho'
    exact ⟨o'', ho'', he'.trans he, hj'.trans hj⟩
  · intro operationId hn hp
    exact (h'.receipt operationId hn (h.present hp)).trans (h.receipt operationId hn hp)

omit [Sha256] in
/-- A stored artifact: it is on record, and no other one changed. -/
theorem finalizeArtifact_spec {s s' : ServedStore} {operationId name text : String}
    (h : s.finalizeArtifact operationId name text = .ok s') :
    s.journal.find operationId ≠ none ∧ s'.journal = s.journal ∧ s'.started = s.started ∧
      s'.findArtifact operationId name = some text ∧
      (∀ k : String × String, k ≠ (operationId, name) →
        s'.findArtifact k.1 k.2 = s.findArtifact k.1 k.2) ∧
      (s' = s ∨ s'.artifacts = s.artifacts ++ [⟨operationId, name, text⟩]) := by
  obtain ⟨o, ho, h⟩ := bind_eq_ok.1 h
  obtain ⟨_, -, h⟩ := bind_eq_ok.1 h
  have hfind : s.journal.find operationId ≠ none := by
    rw [Journal.operation_eq_ok ho]
    exact Option.some_ne_none o
  refine ⟨hfind, ?_⟩
  cases hex : s.findArtifact operationId name with
  | some existing =>
    simp only [hex] at h
    obtain ⟨hsame, hs⟩ := check_bind_eq_ok.1 h
    obtain rfl := pure_eq_ok.1 hs
    exact ⟨rfl, rfl, hsame ▸ hex, fun _ _ => rfl, .inl rfl⟩
  | none =>
    simp only [hex] at h
    obtain rfl := pure_eq_ok.1 h
    have hnone : Rows.find Artifact.key s.artifacts (operationId, name) = none := by
      simpa [ServedStore.findArtifact] using hex
    refine ⟨rfl, rfl, ?_, fun k hk => ?_, .inr rfl⟩
    · simp [ServedStore.findArtifact, Rows.find_append, hnone, Rows.find_singleton, Artifact.key]
    · simp [ServedStore.findArtifact, Rows.find_append, Rows.find_singleton, Artifact.key,
        Ne.symm hk]

/-- The store after what someone else did keeps the invariant, the effects and the operations. -/
structure Apart (s s' : ServedStore) : Prop where
  inv : Inv s → Inv s'
  settled : Inv s → Settled s s'
  started : s'.started = s.started
  receipts : ∀ operationId, InNamespace operationId → receiptOf s' operationId = receiptOf s operationId

theorem Apart.refl (s : ServedStore) : Apart s s := ⟨id, fun _ => .refl s, rfl, fun _ _ => rfl⟩

theorem Apart.trans {s s' s'' : ServedStore} (h : Apart s s') (h' : Apart s' s'') : Apart s s'' :=
  ⟨fun hs => h'.inv (h.inv hs), fun hs => (h.settled hs).trans (h'.settled (h.inv hs)),
    h'.started.trans h.started, fun i hi => (h'.receipts i hi).trans (h.receipts i hi)⟩

/-- New tables of operations and artifacts, with the operations there were. -/
theorem Inv.grow {s s' : ServedStore} (hs : Inv s) (hj : s'.journal.Coherent)
    (hp : ∀ i, s.journal.find i ≠ none → s'.journal.find i ≠ none)
    (ha : ∀ a ∈ s'.artifacts, a ∈ s.artifacts ∨ s'.journal.find a.operationId ≠ none)
    (hst : s'.started = s.started) : Inv s' := by
  refine ⟨hj, fun a ha' => ?_, ?_⟩
  · rcases ha a ha' with h | h
    · exact hp _ (hs.anchored a h)
    · exact h
  · rw [hst]
    exact hs.once.mono hp

/-- Everyone else leaves the effects, the operations and the receipts of commands alone. -/
theorem Other.apart (s : ServedStore) (o : Other) : Apart s (o.next s) := by
  cases o with
  | journal call =>
    have hsettled : Inv s → Settled s { s with journal := s.journal.next call } := fun hs =>
      ⟨fun _ _ ho => find_of_evolves (Journal.next_coherent _ call hs.journal).ids
        (Journal.next_evolves _ call hs.journal) ho, fun _ _ _ => rfl⟩
    refine ⟨fun hs => ?_, hsettled, rfl, fun _ _ => rfl⟩
    exact hs.grow (Journal.next_coherent _ call hs.journal) (fun i hi => (hsettled hs).present hi)
      (fun a ha => .inl ha) rfl
  | program scope p =>
    exact ⟨fun hs => ⟨hs.journal, hs.anchored, hs.once⟩,
      fun _ => ⟨fun _ o ho => ⟨o, ho, rfl, rfl⟩, fun _ _ _ => rfl⟩, rfl, fun _ _ => rfl⟩
  | artifact operationId name text foreign =>
    cases h : s.finalizeArtifact operationId name text with
    | error e =>
      simp only [Other.next, h]
      exact .refl s
    | ok s' =>
      simp only [Other.next, h]
      obtain ⟨hfind, hj, hst, -, hkeep, hart⟩ := finalizeArtifact_spec h
      have hreceipts : ∀ i, InNamespace i → receiptOf s' i = receiptOf s i := by
        intro i hi
        apply hkeep (i, "receipt")
        rintro heq
        obtain ⟨rfl, hname⟩ := Prod.mk.inj heq
        exact foreign hname.symm hi
      refine ⟨fun hs => ?_, fun _ => ⟨fun _ o ho => ⟨o, hj ▸ ho, rfl, rfl⟩, fun i hi _ =>
        hreceipts i hi⟩, hst, hreceipts⟩
      refine hs.grow (hj ▸ hs.journal) (fun i hi => hj ▸ hi) (fun a ha => ?_) hst
      rcases hart with rfl | hart
      · exact .inl ha
      · rw [hart] at ha
        rcases List.mem_append.1 ha with ha | ha
        · exact .inl ha
        · rw [List.mem_singleton.1 ha, hj]
          exact .inr hfind

theorem apart_foldl (s : ServedStore) (during : List Other) :
    Apart s (during.foldl Other.next s) := by
  induction during generalizing s with
  | nil => exact .refl s
  | cons o during ih => exact (Other.apart s o).trans (ih (o.next s))

/-! ## A new command -/

/-- A command is new in a store, and its intent is recorded. -/
def Attempted.Begins (a : Attempted) (s s' : ServedStore) : Prop :=
  a.prior s = .ok none ∧ a.begin s = .ok s'

/-- The receipt a command records. -/
def Attempted.recorded (a : Attempted) : Option Dictionary :=
  match a.ending with
  | .returned _ (.ok receipt) true => some receipt
  | _ => none

/-- The store with a command's intent: the row is new, and nothing else changed. -/
structure Intended (key : CommandKey) (exact : Dictionary) (s s' : ServedStore) : Prop where
  absent : s.journal.find key.operationId = none
  present : ∃ o, s'.journal.find key.operationId = some o ∧ o.effectKey = key.operationId ∧
    o.requestJson = exact.json
  inv : Inv s → Inv s'
  settled : Inv s → Settled s s'
  started : s'.started = s.started
  artifacts : s'.artifacts = s.artifacts

/-- What a committed intent under a new id does. -/
theorem intended_of_intent {s : ServedStore} {key : CommandKey} {exact : Dictionary}
    (habsent : s.journal.find key.operationId = none) {r : Operation × Journal}
    (h : s.journal.intent key.operationId key.operationId exact = .ok r) :
    Intended key exact s { s with journal := r.2 } := by
  obtain ⟨o, j⟩ := r
  have hnext : s.journal.next (.intent key.operationId key.operationId exact) = j := by
    show Runs.settle s.journal (s.journal.intent _ _ exact) = j
    rw [h]
    rfl
  have hrow : j.find key.operationId =
      some (Journal.freshOperation key.operationId key.operationId exact) := by
    rcases Journal.intent_cases h with rfl | ⟨-, rfl⟩
    · -- an intent that inserts nothing found its row
      obtain ⟨-, h⟩ := check_bind_eq_ok.1 h
      obtain ⟨-, h⟩ := check_bind_eq_ok.1 h
      obtain ⟨k, -, h⟩ := bind_eq_ok.1 h
      obtain ⟨o', ho', h⟩ := bind_eq_ok.1 h
      obtain ⟨-, rfl⟩ := Prod.mk.inj (pure_eq_ok.1 h)
      rw [Journal.operation_eq_ok ho'] at habsent
      exact absurd habsent (Option.some_ne_none o')
    · rw [Journal.find] at habsent
      simp [Journal.find, Rows.find_append, habsent, Rows.find_singleton, Journal.freshOperation]
  have happart := Other.apart s (.journal (.intent key.operationId key.operationId exact))
  simp only [Other.next, hnext] at happart
  exact ⟨habsent, ⟨_, hrow, rfl, rfl⟩, happart.inv, happart.settled, rfl, rfl⟩

theorem Attempted.prior_eq_none {a : Attempted} {s : ServedStore} (h : a.prior s = .ok none) :
    s.journal.find a.key.operationId = none := by
  rw [Attempted.prior] at h
  split at h
  · assumption
  · obtain ⟨_, -, h⟩ := bind_eq_ok.1 h
    split at h
    · cases pure_eq_ok.1 h
    · obtain ⟨_, -, h⟩ := bind_eq_ok.1 h
      obtain ⟨-, h⟩ := check_bind_eq_ok.1 h
      cases pure_eq_ok.1 h

theorem Attempted.Begins.intended {a : Attempted} {s s' : ServedStore} (h : a.Begins s s') :
    Intended a.key a.exact s s' := by
  obtain ⟨hprior, hbegin⟩ := h
  obtain ⟨_, -, hbegin⟩ := bind_eq_ok.1 hbegin
  obtain ⟨r, hr, hbegin⟩ := bind_eq_ok.1 hbegin
  obtain rfl := pure_eq_ok.1 hbegin
  exact intended_of_intent (a.prior_eq_none hprior) (store_eq_ok.1 hr)

/-- The store has an operation with this content. -/
def HasContent (s : ServedStore) (key : CommandKey) (exact : Dictionary) : Prop :=
  ∃ o, s.journal.find key.operationId = some o ∧ o.effectKey = key.operationId ∧
    o.requestJson = exact.json

omit [Sha256] in
theorem HasContent.settled [Sha256] {s s' : ServedStore} {key : CommandKey} {exact : Dictionary}
    (h : HasContent s key exact) (hs : Settled s s') : HasContent s' key exact := by
  obtain ⟨o, ho, he, hj⟩ := h
  obtain ⟨o', ho', he', hj'⟩ := hs.content _ o ho
  exact ⟨o', ho', he'.trans he, hj'.trans hj⟩

omit [Sha256] in
theorem HasContent.present [Sha256] {s : ServedStore} {key : CommandKey} {exact : Dictionary}
    (h : HasContent s key exact) : s.journal.find key.operationId ≠ none := by
  obtain ⟨o, ho, -⟩ := h
  rw [ho]
  exact Option.some_ne_none o

/-- What a call leaves behind once it recorded a new operation: the operation has this content and
this receipt, and the other operations are as they were. -/
structure Done (key : CommandKey) (exact : Dictionary) (receipt : Option Dictionary)
    (s s' : ServedStore) : Prop where
  inv : Inv s'
  settled : Settled s s'
  content : HasContent s' key exact
  receipt : receiptOf s' key.operationId = receipt.map fun r => dumps (.obj r.fields)

/-- An operation without a row has no receipt. -/
theorem Inv.receiptOf_eq_none {s : ServedStore} (hs : Inv s) {operationId : String}
    (h : s.journal.find operationId = none) : receiptOf s operationId = none := by
  have hnone : Rows.find Artifact.key s.artifacts (operationId, "receipt") = none := by
    apply Rows.find_eq_none_iff.2
    intro a ha heq
    exact hs.anchored a ha ((Prod.mk.inj heq).1 ▸ h)
  rw [receiptOf, ServedStore.findArtifact, hnone]
  rfl

/-- The intent alone. -/
theorem Intended.done {key : CommandKey} {exact : Dictionary} {s s' : ServedStore}
    (h : Intended key exact s s') (hs : Inv s) : Done key exact none s s' := by
  refine ⟨h.inv hs, h.settled hs, h.present, ?_⟩
  have : receiptOf s' key.operationId = receiptOf s key.operationId := by
    rw [receiptOf, receiptOf, ServedStore.findArtifact, ServedStore.findArtifact, h.artifacts]
  rw [this, hs.receiptOf_eq_none h.absent]
  rfl

/-- The start of an effect is noted under its intent. -/
theorem Intended.start {key : CommandKey} {exact : Dictionary} {s s' : ServedStore}
    (h : Intended key exact s s') (hs : Inv s) :
    Done key exact none s { s' with started := s'.started ++ [key] } := by
  obtain ⟨hinv, hsettled, hcontent, hreceipt⟩ := h.done hs
  refine ⟨⟨hinv.journal, hinv.anchored, ?_⟩, ⟨hsettled.content, hsettled.receipt⟩, hcontent,
    hreceipt⟩
  rw [List.map_append, h.started]
  exact hs.once.start (fun _ hi => hsettled.present hi) (fun hp => hp h.absent) hcontent.present

/-- What others do in the meantime. -/
theorem Done.during {key : CommandKey} {exact : Dictionary} {receipt : Option Dictionary}
    {s s' : ServedStore} (h : Done key exact receipt s s') (during : List Other) :
    Done key exact receipt s (during.foldl Other.next s') := by
  have happart := apart_foldl s' during
  refine ⟨happart.inv h.inv, h.settled.trans (happart.settled h.inv),
    h.content.settled (happart.settled h.inv), ?_⟩
  rw [happart.receipts _ (inNamespace key), h.receipt]

/-- The receipt of an operation that has none is stored. -/
theorem Done.finalize {key : CommandKey} {exact : Dictionary} {s s' : ServedStore}
    (h : Done key exact none s s') (habsent : s.journal.find key.operationId = none)
    (receipt : Dictionary) :
    ∃ s'', s'.finalizeArtifact key.operationId "receipt" (dumps (.obj receipt.fields)) = .ok s'' ∧
      Done key exact (some receipt) s s'' := by
  obtain ⟨o, ho, -⟩ := h.content
  have hkey : Nonblank key.operationId := by
    have hmem : 's' ∈ key.operationId.toList :=
      (inNamespace key).subset (by decide : 's' ∈ "served-command:".toList)
    exact List.any_eq_true.2 ⟨'s', hmem, by decide⟩
  have hoperation : s'.journal.operation key.operationId = .ok o := by
    rw [Journal.operation, Journal.validateCommandKey, check_of hkey, ok_bind, lookup_eq_ok]
    exact ho
  have hnone : s'.findArtifact key.operationId "receipt" = none := h.receipt
  have hfin : s'.finalizeArtifact key.operationId "receipt" (dumps (.obj receipt.fields)) =
      .ok { s' with
        artifacts := s'.artifacts ++ [⟨key.operationId, "receipt", dumps (.obj receipt.fields)⟩] } := by
    rw [ServedStore.finalizeArtifact, hoperation, ok_bind, Journal.validateCommandKey,
      check_of (by decide), ok_bind, hnone]
    rfl
  refine ⟨_, hfin, ?_⟩
  obtain ⟨-, -, -, hfound, hkeep, -⟩ := finalizeArtifact_spec hfin
  refine ⟨h.inv.grow h.inv.journal (fun _ hi => hi) (fun a ha => ?_) rfl,
    ⟨h.settled.content, fun i hi hp => ?_⟩, h.content, hfound⟩
  · rcases List.mem_append.1 ha with ha | ha
    · exact .inl ha
    · rw [List.mem_singleton.1 ha]
      exact .inr h.content.present
  · rw [← h.settled.receipt i hi hp]
    apply hkeep (i, "receipt")
    intro heq
    -- the operation is new, the one with a kept receipt is not
    rw [(Prod.mk.inj heq).1] at hp
    exact hp habsent

/-- A new command: its operation has its content, its receipt is the one it recorded, and its
effect is the only one that can have started. -/
theorem Attempted.perform_done {a : Attempted} {s s' : ServedStore} (h : Intended a.key a.exact s s')
    (hs : Inv s) : Done a.key a.exact a.recorded s (a.perform s').2 := by
  have hstart := h.start hs
  rw [Attempted.perform, Attempted.recorded]
  cases a.ending with
  | stopped => exact h.done hs
  | failed during failure => exact hstart.during during
  | returned during result recorded =>
    have hduring := hstart.during during
    cases result with
    | error e => cases recorded <;> exact hduring
    | ok receipt =>
      cases recorded with
      | false => exact hduring
      | true =>
        obtain ⟨s'', hfin, hdone⟩ := hduring.finalize h.absent receipt
        simp only [if_true, hfin]
        exact hdone

/-- A new command returns to its client exactly the receipt it recorded. -/
theorem Attempted.perform_reply {a : Attempted} {s s' : ServedStore}
    (h : Intended a.key a.exact s s') (hs : Inv s) (result : List (String × Json)) :
    (a.perform s').1 = .returned result ↔ a.recorded.map EffectRequest.fields = some result := by
  rw [Attempted.perform, Attempted.recorded]
  cases a.ending with
  | stopped => simp
  | failed during failure => cases failure <;> simp
  | returned during r recorded =>
    cases r with
    | error e => cases recorded <;> simp
    | ok receipt =>
      cases recorded with
      | false => simp
      | true =>
        obtain ⟨s'', hfin, -⟩ := ((h.start hs).during during).finalize h.absent receipt
        simp [hfin]

/-! ## The outcomes of a command -/

theorem Attempted.serve_begun {a : Attempted} {s s' : ServedStore} (h : a.Begins s s') :
    a.serve s = a.perform s' := by
  rw [Attempted.serve, h.1]
  simp only [h.2]

/-- A command that is not new changes nothing. -/
theorem Attempted.serve_cases (a : Attempted) (s : ServedStore) :
    (a.serve s).2 = s ∨ ∃ s', a.Begins s s' ∧ a.serve s = a.perform s' := by
  cases hprior : a.prior s with
  | error e =>
    left
    simp only [Attempted.serve, hprior]
  | ok found =>
    cases found with
    | some result =>
      left
      simp only [Attempted.serve, hprior]
    | none =>
      cases hbegin : a.begin s with
      | error e =>
        left
        simp only [Attempted.serve, hprior, hbegin]
      | ok s' => exact .inr ⟨s', ⟨hprior, hbegin⟩, a.serve_begun ⟨hprior, hbegin⟩⟩

/-- A command under an id on record is a replay: with the same content it returns what is on
record, with any other it is refused, and either way the store stays as it is. -/
theorem Attempted.serve_replay {a : Attempted} {s : ServedStore} {exact : Dictionary}
    {receipt : Option Dictionary} (hcontent : HasContent s a.key exact)
    (hreceipt : receiptOf s a.key.operationId = receipt.map fun r => dumps (.obj r.fields))
    (haccepts : a.exact = exact → ∀ r, receipt = some r → a.accepts r.fields = true) :
    a.serve s =
      (if a.exact = exact then .returned (receipt.elim unknown EffectRequest.fields)
        else .refused (.refused "command identity already has different input"), s) := by
  obtain ⟨o, ho, heffect, hjson⟩ := hcontent
  have hrequest := EffectRequest.request_of_json hjson
  by_cases hsame : a.exact = exact
  · have hcheck : checkContent o a.key a.exact = .ok () := by
      simp only [checkContent, check_of heffect, ok_bind, hrequest, hsame]
      exact check_of trivial
    have hprior : a.prior s = .ok (some (receipt.elim unknown EffectRequest.fields)) := by
      rw [Attempted.prior, ho]
      simp only [hcheck, ok_bind]
      cases receipt with
      | none =>
        have hnone : s.findArtifact a.key.operationId "receipt" = none := hreceipt
        rw [hnone]
        rfl
      | some r =>
        have hsome : s.findArtifact a.key.operationId "receipt" = some (dumps (.obj r.fields)) :=
          hreceipt
        simp only [hsome, objectFrom_dumps, ok_bind, check_of (haccepts hsame r rfl)]
        rfl
    simp only [Attempted.serve, hprior, if_pos hsame]
  · have hcheck : checkContent o a.key a.exact =
        .error (.refused "command identity already has different input") := by
      simp only [checkContent, check_of heffect, ok_bind, hrequest]
      apply check_of_not
      intro heq
      exact hsame (EffectRequest.ext_fields (Json.obj.inj heq)).symm
    have hprior : a.prior s = .error (.refused "command identity already has different input") := by
      rw [Attempted.prior, ho]
      simp only [hcheck]
      rfl
    simp only [Attempted.serve, hprior, if_neg hsame]

/-! ## The receipts of a command -/

/-- The receipts a replay with this content returns. -/
def Accepts (exact : Dictionary) (result : List (String × Json)) : Prop :=
  match exact.get "action" with
  | .str "stop" => acceptsStop result
  | .str "start-managed" => result = (accepted "unknown").fields
  | .str "reconcile" => result = reconcileReceipt.fields
  | .str "approve" =>
    ∃ decisionId, exact.get "decision_id" = .str decisionId ∧ acceptsApprove decisionId result
  | .str "start" => validReceipt .start result
  | .str "quiesce" => validReceipt .quiesce result
  | .str "submit" => validReceipt .submit result
  | .str "report" => validReceipt .report result
  | .str "renew" => validReceipt .renew result
  | _ => False

omit [Sha256] in
theorem boundedText_eq_some {limit : ℕ} {v : Json} {s : String}
    (h : boundedText limit v = some s) : v = .str s := by
  cases v with
  | str s' =>
    rw [boundedText] at h
    split at h
    · rw [Option.some.inj h]
    · cases h
  | _ => cases h

/-- What a command accepts, and what it records, follow from its content. -/
def Determined (action : String) (a : Attempted) : Prop :=
  a.exact.get "action" = .str action ∧
    (∀ result, a.accepts result = true ↔ Accepts a.exact result) ∧
    ∀ r, a.recorded = some r → a.accepts r.fields = true

omit [Sha256] in
theorem onAction_eq_ok {α : Type} {request : Dictionary} {action : String} {x : Except Error α}
    {a : α} (h : onAction request action x = .ok a) :
    request.get "action" = .str action ∧ x = .ok a := check_bind_eq_ok.1 h

omit [Sha256] in
theorem acceptsStop_stopReceipt (settled : Bool) : acceptsStop (stopReceipt settled).fields := by
  cases settled <;> decide

omit [Sha256] in
theorem acceptsApprove_approveReceipt (decisionId : String) (specDigest : Name) (expiresAt : ℤ) :
    acceptsApprove decisionId (approveReceipt decisionId specDigest expiresAt).fields :=
  ⟨rfl, rfl, rfl, rfl, rfl⟩

omit [Sha256] in
/-- The recorded receipt of a mapped ending. -/
theorem recorded_map {α : Type} {a : Attempted} {ending : Ending α} {f : α → Except Error Dictionary}
    (ha : a.ending = ending.map f) {r : Dictionary} (h : a.recorded = some r) :
    ∃ x, f x = .ok r := by
  rw [Attempted.recorded, ha] at h
  cases ending with
  | stopped => cases h
  | failed during failure => cases h
  | returned during result recorded =>
    simp only [Ending.map] at h
    cases hf : f result with
    | error e => simp [hf] at h
    | ok receipt =>
      cases recorded with
      | false => simp [hf] at h
      | true =>
        obtain rfl : receipt = r := by simpa [hf] using h
        exact ⟨result, hf⟩

omit [Sha256] in
theorem OwnerChannel.stop_determined {ch : OwnerChannel} {request : Dictionary}
    {ending : Ending Bool} {a : Attempted} (haction : request.get "action" = .str "stop")
    (h : ch.stop request ending = .ok a) : Determined "stop" a := by
  obtain ⟨approved, -, h⟩ := bind_eq_ok.1 h
  obtain ⟨hkeys, h⟩ := check_bind_eq_ok.1 h
  obtain ⟨commandId, -, h⟩ := bind_eq_ok.1 h
  obtain ⟨revision, -, h⟩ := bind_eq_ok.1 h
  obtain ⟨_, -, h⟩ := bind_eq_ok.1 h
  obtain rfl := pure_eq_ok.1 h
  have hexact : (request.extend [("scope", .str ch.scope.val), ("actor", .str ch.actor.val),
      ("decision_id", .str approved.decisionId.val), ("spec_digest", .str approved.specDigest.val),
      ("bound_attempt", optionalName (ch.handoff.map Handoff.attemptDigest))]
      (by simp)).get "action" = .str "stop" := by
    rw [EffectRequest.get_extend (by simp [hkeys]) (by simp [hkeys]), haction]
  refine ⟨hexact, fun result => ?_, fun r hr => ?_⟩
  · rw [Accepts, hexact]
    exact decide_eq_true_iff
  · obtain ⟨settled, hx⟩ := recorded_map rfl hr
    obtain rfl := Except.ok.inj hx
    exact decide_eq_true (acceptsStop_stopReceipt settled)

omit [Sha256] in
theorem OwnerChannel.startManaged_determined {ch : OwnerChannel} {request : Dictionary}
    {ending : Ending Unit} {a : Attempted} (haction : request.get "action" = .str "start-managed")
    (h : ch.startManaged request ending = .ok a) : Determined "start-managed" a := by
  obtain ⟨handoff, -, h⟩ := bind_eq_ok.1 h
  obtain ⟨⟨-, -, hkeys⟩, h⟩ := check_bind_eq_ok.1 h
  obtain ⟨commandId, -, h⟩ := bind_eq_ok.1 h
  obtain ⟨revision, -, h⟩ := bind_eq_ok.1 h
  obtain rfl := pure_eq_ok.1 h
  have hexact : (request.extend [("scope", .str ch.scope.val), ("actor", .str ch.actor.val),
      ("attempt_digest", .str handoff.attemptDigest.val), ("generation", .int handoff.generation)]
      (by simp)).get "action" = .str "start-managed" := by
    rw [EffectRequest.get_extend (by simp [hkeys]) (by simp [hkeys]), haction]
  refine ⟨hexact, fun result => ?_, fun r hr => ?_⟩
  · rw [Accepts, hexact]
    exact decide_eq_true_iff
  · obtain ⟨_, hx⟩ := recorded_map rfl hr
    exact decide_eq_true (congrArg EffectRequest.fields (Except.ok.inj hx)).symm

omit [Sha256] in
theorem OwnerChannel.reconcile_determined {ch : OwnerChannel} {request : Dictionary}
    {ending : Ending Unit} {a : Attempted} (haction : request.get "action" = .str "reconcile")
    (h : ch.reconcile request ending = .ok a) : Determined "reconcile" a := by
  obtain ⟨handoff, -, h⟩ := bind_eq_ok.1 h
  obtain ⟨⟨-, hkeys⟩, h⟩ := check_bind_eq_ok.1 h
  obtain ⟨commandId, -, h⟩ := bind_eq_ok.1 h
  obtain ⟨revision, -, h⟩ := bind_eq_ok.1 h
  obtain ⟨_, -, h⟩ := bind_eq_ok.1 h
  obtain ⟨_, -, h⟩ := bind_eq_ok.1 h
  obtain rfl := pure_eq_ok.1 h
  have hexact : (request.extend [("scope", .str ch.scope.val), ("actor", .str ch.actor.val),
      ("attempt_digest", .str handoff.attemptDigest.val), ("generation", .int handoff.generation)]
      (by simp)).get "action" = .str "reconcile" := by
    rw [EffectRequest.get_extend (by simp [hkeys]) (by simp [hkeys]), haction]
  refine ⟨hexact, fun result => ?_, fun r hr => ?_⟩
  · rw [Accepts, hexact]
    exact decide_eq_true_iff
  · obtain ⟨_, hx⟩ := recorded_map rfl hr
    exact decide_eq_true (congrArg EffectRequest.fields (Except.ok.inj hx)).symm

omit [Sha256] in
theorem OwnerChannel.approve_determined {ch : OwnerChannel} {request : Dictionary}
    {ending : Ending (Name × ℤ)} {a : Attempted} (haction : request.get "action" = .str "approve")
    (h : ch.approve request ending = .ok a) : Determined "approve" a := by
  obtain ⟨proposal, -, h⟩ := bind_eq_ok.1 h
  obtain ⟨hkeys, h⟩ := check_bind_eq_ok.1 h
  obtain ⟨commandId, -, h⟩ := bind_eq_ok.1 h
  obtain ⟨revision, -, h⟩ := bind_eq_ok.1 h
  obtain ⟨decisionId, hdecision, h⟩ := bind_eq_ok.1 h
  obtain ⟨_, -, h⟩ := bind_eq_ok.1 h
  obtain rfl := pure_eq_ok.1 h
  have hget : ∀ name ∈ request.keys, (request.extend [("scope", .str ch.scope.val),
      ("actor", .str ch.actor.val), ("proposal", .str proposal.val),
      ("policy", .str ch.policy.val)] (by simp)).get name = request.get name :=
    fun name hname => EffectRequest.get_extend (by simp [hkeys]) hname
  have hexact := (hget "action" (by simp [hkeys])).trans haction
  have hid := (hget "decision_id" (by simp [hkeys])).trans
    (boundedText_eq_some (need_eq_ok.1 hdecision))
  refine ⟨hexact, fun result => ?_, fun r hr => ?_⟩
  · rw [Accepts, hexact]
    show decide (acceptsApprove decisionId result) = true ↔ _
    rw [decide_eq_true_iff]
    constructor
    · exact fun haccepts => ⟨decisionId, hid, haccepts⟩
    · rintro ⟨decisionId', hid', haccepts⟩
      obtain rfl := Json.str.inj (hid.symm.trans hid')
      exact haccepts
  · obtain ⟨x, hx⟩ := recorded_map rfl hr
    obtain rfl := Except.ok.inj hx
    exact decide_eq_true (acceptsApprove_approveReceipt decisionId x.1 x.2)

omit [Sha256] in
/-- A recorded command of a worker, whose request has none of the keys the host binds. -/
theorem WorkerChannel.recorded_determined {ch : WorkerChannel} {action : WorkerAction}
    {request : Dictionary} {commandId : String} {revision : ℤ} {handoff : Handoff}
    {requirePrepared : Bool} {authority : Except Failure Unit} {ending : Ending Dictionary}
    (haction : request.get "action" = .str action.text) (hmem : "action" ∈ request.keys)
    (hn : (request.keys ++ ["scope", "actor", "attempt_digest", "generation"]).Nodup) :
    Determined action.text (ch.recorded action request commandId revision handoff requirePrepared
      authority ending) := by
  have hexact : (ch.recorded action request commandId revision handoff requirePrepared authority
      ending).exact.get "action" = .str action.text := by
    show (request.extend [("scope", .str ch.scope.val), ("actor", .str ch.actor.val),
      ("attempt_digest", .str handoff.attemptDigest.val), ("generation", .int handoff.generation)]
      (by simp)).get "action" = _
    rw [EffectRequest.get_extend hn hmem, haction]
  refine ⟨hexact, fun result => ?_, fun r hr => ?_⟩
  · rw [Accepts, hexact]
    cases action <;> exact decide_eq_true_iff
  · obtain ⟨result, hx⟩ := recorded_map rfl hr
    split at hx
    · next hvalid =>
      obtain rfl := Except.ok.inj hx
      exact decide_eq_true hvalid
    · cases hx

omit [Sha256] in
/-- Every command's replies follow from its content. -/
theorem Command.determined {c : Command} {a : Attempted} (h : c.attempted = .ok a) :
    ∃ action, Determined action a := by
  cases c with
  | stop ch request ending =>
    obtain ⟨haction, h⟩ := onAction_eq_ok h
    exact ⟨_, ch.stop_determined haction h⟩
  | startManaged ch request ending =>
    obtain ⟨haction, h⟩ := onAction_eq_ok h
    exact ⟨_, ch.startManaged_determined haction h⟩
  | reconcile ch request ending =>
    obtain ⟨haction, h⟩ := onAction_eq_ok h
    exact ⟨_, ch.reconcile_determined haction h⟩
  | approve ch request ending =>
    obtain ⟨haction, h⟩ := onAction_eq_ok h
    exact ⟨_, ch.approve_determined haction h⟩
  | start ch request authority ending =>
    obtain ⟨haction, h⟩ := onAction_eq_ok h
    obtain ⟨hkeys, h⟩ := check_bind_eq_ok.1 h
    obtain ⟨_, -, h⟩ := bind_eq_ok.1 h
    obtain ⟨-, h⟩ := check_bind_eq_ok.1 h
    obtain rfl := pure_eq_ok.1 h
    exact ⟨_, WorkerChannel.recorded_determined haction (by simp [hkeys]) (by simp [hkeys])⟩
  | quiesce ch request authority ending =>
    obtain ⟨haction, h⟩ := onAction_eq_ok h
    obtain ⟨hkeys, h⟩ := check_bind_eq_ok.1 h
    obtain ⟨_, -, h⟩ := bind_eq_ok.1 h
    obtain ⟨_, -, h⟩ := bind_eq_ok.1 h
    obtain ⟨-, h⟩ := check_bind_eq_ok.1 h
    obtain rfl := pure_eq_ok.1 h
    exact ⟨_, WorkerChannel.recorded_determined haction (by simp [hkeys]) (by simp [hkeys])⟩
  | submit ch request authority ending =>
    obtain ⟨haction, h⟩ := onAction_eq_ok h
    obtain ⟨hkeys, h⟩ := check_bind_eq_ok.1 h
    obtain ⟨_, -, h⟩ := bind_eq_ok.1 h
    obtain rfl := pure_eq_ok.1 h
    exact ⟨_, WorkerChannel.recorded_determined haction (by simp [hkeys]) (by simp [hkeys])⟩
  | report ch request authority ending =>
    obtain ⟨haction, h⟩ := onAction_eq_ok h
    obtain ⟨hkeys, h⟩ := check_bind_eq_ok.1 h
    obtain ⟨_, -, h⟩ := bind_eq_ok.1 h
    obtain rfl := pure_eq_ok.1 h
    exact ⟨_, WorkerChannel.recorded_determined haction (by simp [hkeys]) (by simp [hkeys])⟩
  | renew ch request authority ending =>
    obtain ⟨haction, h⟩ := onAction_eq_ok h
    obtain ⟨hkeys, h⟩ := check_bind_eq_ok.1 h
    obtain ⟨_, -, h⟩ := bind_eq_ok.1 h
    obtain ⟨_, -, h⟩ := bind_eq_ok.1 h
    obtain rfl := pure_eq_ok.1 h
    exact ⟨_, WorkerChannel.recorded_determined haction (by simp [hkeys]) (by simp [hkeys])⟩

omit [Sha256] in
/-- A receipt one command recorded is accepted for every command with its content. -/
theorem accepts_of_recorded {c c' : Command} {a a' : Attempted} (h : c.attempted = .ok a)
    (h' : c'.attempted = .ok a') (hsame : a'.exact = a.exact) {r : Dictionary}
    (hr : a.recorded = some r) : a'.accepts r.fields = true := by
  obtain ⟨_, -, hiff, hrecorded⟩ := Command.determined h
  obtain ⟨_, -, hiff', -⟩ := Command.determined h'
  rw [hiff', hsame, ← hiff]
  exact hrecorded r hr

/-! ## Runs -/

/-- A claim's request is content like any other; on a replay it writes nothing. -/
theorem WorkerChannel.Claiming.serve_step (c : Claiming) {s : ServedStore} (hs : Inv s) :
    Inv (c.serve s).2 ∧ Settled s (c.serve s).2 := by
  have happart : ∀ during : List Other,
      Inv (during.foldl Other.next s) ∧ Settled s (during.foldl Other.next s) :=
    fun during => ⟨(apart_foldl s during).inv hs, (apart_foldl s during).settled hs⟩
  rw [serve]
  cases hfind : s.journal.find c.key.operationId with
  | some o =>
    cases hcheck : checkContent o c.key c.exact with
    | error e =>
      simp only [hcheck]
      exact ⟨hs, .refl s⟩
    | ok u =>
      cases s.findArtifact c.key.operationId "receipt" with
      | none =>
        simp only [hcheck]
        exact ⟨hs, .refl s⟩
      | some text =>
        simp only [hcheck, perform]
        cases c.ending with
        | stopped => exact ⟨hs, .refl s⟩
        | failed during failure => exact happart during
        | returned during result recorded =>
          cases objectFrom text with
          | error e => exact happart during
          | ok original =>
            simp only
            split
            · exact happart during
            · exact happart during
  | none =>
    cases hbegin : c.begin s with
    | error e =>
      simp only
      exact ⟨hs, .refl s⟩
    | ok s' =>
      have hintended : Intended c.key c.exact s s' := by
        obtain ⟨_, -, h⟩ := bind_eq_ok.1 hbegin
        obtain ⟨_, -, h⟩ := bind_eq_ok.1 h
        obtain ⟨r, hr, h⟩ := bind_eq_ok.1 h
        obtain rfl := pure_eq_ok.1 h
        exact intended_of_intent hfind (store_eq_ok.1 hr)
      have hdone := hintended.done hs
      simp only [perform]
      cases c.ending with
      | stopped => exact ⟨hdone.inv, hdone.settled⟩
      | failed during failure => exact ⟨(hdone.during during).inv, (hdone.during during).settled⟩
      | returned during result recorded =>
        have hduring := hdone.during during
        cases recorded with
        | false => exact ⟨hduring.inv, hduring.settled⟩
        | true =>
          obtain ⟨s'', hfin, hdone'⟩ := hduring.finalize hfind result.fields
          simp only [if_true, hfin]
          exact ⟨hdone'.inv, hdone'.settled⟩

/-- Every call keeps the invariant and the operations on record. -/
theorem next_step (s : ServedStore) (c : Call) (hs : Inv s) : Inv (next s c) ∧ Settled s (next s c) := by
  cases c with
  | command c =>
    rw [next, Command.serve]
    cases c.attempted with
    | error e => exact ⟨hs, .refl s⟩
    | ok a =>
      show Inv (a.serve s).2 ∧ Settled s (a.serve s).2
      rcases a.serve_cases s with h | ⟨s', hb, h⟩
      · rw [h]
        exact ⟨hs, .refl s⟩
      · rw [h]
        have hdone := a.perform_done hb.intended hs
        exact ⟨hdone.inv, hdone.settled⟩
  | claim ch request full authority ending =>
    rw [next]
    cases onAction request "claim" (ch.claim request full authority ending) with
    | error e => exact ⟨hs, .refl s⟩
    | ok c => exact c.serve_step hs
  | other o => exact ⟨(Other.apart s o).inv hs, (Other.apart s o).settled hs⟩

theorem initial_inv (programs : Name → Option Program) : Inv (initial programs) :=
  ⟨Journal.empty_coherent, by simp [Anchored, initial], Once.nil _⟩

theorem run_inv {s : ServedStore} (hs : Inv s) (calls : List Call) : Inv (run next s calls) :=
  run_invariant (fun s c hs => (next_step s c hs).1) hs calls

theorem run_settled {s : ServedStore} (hs : Inv s) (calls : List Call) :
    Settled s (run next s calls) :=
  run_relation Settled.refl (fun _ _ _ => Settled.trans) (fun s c hs => (next_step s c hs).1)
    (fun s c hs => (next_step s c hs).2) hs calls

/-- **Served commands take effect at most once.** In every run, whatever else happens to the store
and wherever the process stops, no effect starts twice under one scope, actor and command id. Once
a command was new at some call, every later command with its key changes nothing: with the same
content it returns the receipt the first one recorded and returned, or that nothing is known when
none was recorded; with any other content it is refused.

**Proof idea.** A call that is new writes its row before it starts its effect and its receipt after
it; rows keep their content and receipts of rows on record never change, so the replay finds what
the first call left. -/
theorem effects_at_most_once (programs : Name → Option Program) (calls : List Call) :
    (run next (initial programs) calls).started.Nodup ∧
      ∀ before c₀ after, calls = before ++ .command c₀ :: after →
        ∀ a₀, c₀.attempted = .ok a₀ →
          ∀ s₁, a₀.Begins (run next (initial programs) before) s₁ →
            (∀ result, (c₀.serve (run next (initial programs) before)).1 = .returned result ↔
              a₀.recorded.map EffectRequest.fields = some result) ∧
            ∀ (c : Command) (a : Attempted), c.attempted = .ok a → a.key = a₀.key →
              c.serve (run next (initial programs) calls) =
                (if a.exact = a₀.exact then
                    .returned (a₀.recorded.elim unknown EffectRequest.fields)
                  else .refused (.refused "command identity already has different input"),
                  run next (initial programs) calls) := by
  refine ⟨(run_inv (initial_inv programs) calls).once.nodup.of_map _, ?_⟩
  intro before c₀ after hcalls a₀ ha₀ s₁ hbegins
  have hbefore := run_inv (initial_inv programs) before
  have hserve : c₀.serve (run next (initial programs) before) = a₀.perform s₁ := by
    rw [Command.serve, ha₀]
    exact a₀.serve_begun hbegins
  refine ⟨fun result => ?_, fun c a ha hkey => ?_⟩
  · rw [hserve]
    exact Attempted.perform_reply hbegins.intended hbefore result
  · -- what the first command left is still there at the end of the run
    have hdone := a₀.perform_done hbegins.intended hbefore
    have hrun : run next (initial programs) calls = run next (a₀.perform s₁).2 after := by
      rw [hcalls, run_append, run_cons, next, hserve]
    rw [hrun]
    have hsettled := run_settled hdone.inv after
    have hcontent := hdone.content.settled hsettled
    have hreceipt := (hsettled.receipt _ (inNamespace a₀.key) hdone.content.present).trans
      hdone.receipt
    rw [Command.serve, ha]
    apply Attempted.serve_replay
    · rwa [hkey]
    · rwa [hkey]
    · exact fun hsame r hr => accepts_of_recorded ha₀ ha hsame hr

namespace Sample

/-- An owner's channel that can only stop. -/
def channel : OwnerChannel where
  scope := ⟨"kernel", Nonblank.kernel⟩
  actor := ⟨"owner", Nonblank.owner⟩
  approved := some ⟨⟨"decision", by decide⟩, ⟨"spec", by decide⟩⟩
  proposal := none
  policy := ⟨"policy", by decide⟩
  control := false
  handoff := none
  managed := false
  bound := .inl (by simp)
  control_iff := rfl
  handoff_approved := nofun
  managed_handoff := nofun

/-- A request to stop for a reason. -/
def request (reason : String) : Dictionary where
  fields := [("action", .str "stop"), ("command_id", .str "stop-1"), ("expected_revision", .int 0),
    ("reason", .str reason), ("version", .int 1)]
  wf := (Json.wf_obj _).2 ⟨by simp only [List.map_cons, List.map_nil]; decide, by simp⟩

/-- A stop whose effect returns and whose receipt is recorded. -/
def stop (reason : String) : Command := .stop channel (request reason) (.returned [] true true)

/-- The Program of the channel, not yet active. -/
def programs (_ : Name) : Option Program := some CreatidyKernel.Sample.program

end Sample

omit [Sha256] in
theorem effects_at_most_once_of_stop :
    let s := @run _ _ (@next CreatidyKernel.Sample.sha256) (initial Sample.programs)
      [.command (Sample.stop "done")]
    s.started.Nodup ∧
      @Command.serve CreatidyKernel.Sample.sha256 (Sample.stop "done") s =
        (.returned (stopReceipt true).fields, s) ∧
      @Command.serve CreatidyKernel.Sample.sha256 (Sample.stop "again") s =
        (.refused (.refused "command identity already has different input"), s) := by
  have h := @effects_at_most_once CreatidyKernel.Sample.sha256 Sample.programs
    [.command (Sample.stop "done")]
  have hreplay := (h.2 [] (Sample.stop "done") [] rfl _ rfl _ ⟨rfl, rfl⟩).2
  refine ⟨h.1, (hreplay (Sample.stop "done") _ rfl rfl).trans ?_,
    (hreplay (Sample.stop "again") _ rfl rfl).trans ?_⟩
  · rfl
  · rfl

end Served

end CreatidyKernel
