import CreatidyKernel.Publication.Once

set_option relaxedAutoImplicit false
set_option autoImplicit false

/-!
# What an accepted reference was read as

A call takes a reference as accepted for what it read in the same call, never for what a server
said of its write. For a pull request this is a read with exactly the authorized content, and for
a receipt a whole listing in which one comment carries the marker. Another pull request with the
marker is passed over when its own read does not confirm it.

## Main definitions

* `Publication.Exact` — an answer that shows exactly the authorized content.
* `Publication.OnlyComment` — a listing read whole, with one comment that carries the marker.
* `Publication.Recorded.Exact` — what a reference was taken for.

## Main results

* `Publication.Forge.reconcile_ok`, `Publication.Forge.apply_ok` — the adapter.
* `Publication.prReadback_ok`, `Publication.scanComments_ok` — the listings.
* `Publication.next_takes` — the step: a call adds references it read.
* `Publication.recorded_exact` — the law of all runs.
-/

namespace CreatidyKernel

namespace Publication

open Checked Action Runs

/-! ## What was read -/

/-- An exchange after the first `n`. -/
def Since (n : ℕ) (s : Desk) (x : Exchange) : Prop := x ∈ s.wire.drop n

section

variable {n m : ℕ} {s t : Desk} {x : Exchange}

theorem Since.earlier (h : Since n s x) (hm : m ≤ n) : Since m s x :=
  List.drop_subset_drop_left _ hm h

theorem Since.later (h : Since n s x) (ht : s.wire <+: t.wire) : Since n t x :=
  (ht.drop n).subset h

end

/-- An answer about a pull request with exactly the authorized content at a base. -/
structure Exact (repository : String) (effect : Effect) (number : ℕ) (base : String)
    (answer : ℤ × Json) : Prop where
  status : answer.1 = 200
  content : ∃ data, object answer.2 = some data ∧ Forge.SameSides effect number data ∧
    get data "title" = .str effect.title ∧ get data "body" = .str (prBody effect) ∧
    changeObservation repository data = some ⟨number, base, effect.revision⟩

/-- A pull request was read with exactly the authorized content. -/
def ReadExactly (repository : String) (effect : Effect) (n : ℕ) (s : Desk) (base : String)
    (number : ℕ) : Prop :=
  ∃ answer, Since n s (.read (.pull number) (.ok answer)) ∧
    Exact repository effect number base answer

theorem ReadExactly.earlier {repository : String} {effect : Effect} {n m : ℕ} {s : Desk}
    {base : String} {number : ℕ} (h : ReadExactly repository effect n s base number) (hm : m ≤ n) :
    ReadExactly repository effect m s base number := by
  obtain ⟨answer, hsince, hexact⟩ := h
  exact ⟨answer, hsince.earlier hm, hexact⟩

theorem ReadExactly.later {repository : String} {effect : Effect} {n : ℕ} {s t : Desk}
    {base : String} {number : ℕ} (h : ReadExactly repository effect n s base number)
    (ht : s.wire <+: t.wire) : ReadExactly repository effect n t base number := by
  obtain ⟨answer, hsince, hexact⟩ := h
  exact ⟨answer, hsince.later ht, hexact⟩

/-- An accepted receipt rests on such a read. -/
def Confirmed (repository : String) (effect : Effect) (n : ℕ) (s : Desk) (receipt : Receipt) :
    Prop :=
  receipt.status = .accepted → ∃ number base, receipt = ⟨.accepted, some number, some base⟩ ∧
    ReadExactly repository effect n s base number

theorem Confirmed.earlier {repository : String} {effect : Effect} {n m : ℕ} {s : Desk}
    {receipt : Receipt} (h : Confirmed repository effect n s receipt) (hm : m ≤ n) :
    Confirmed repository effect m s receipt := by
  intro haccepted
  obtain ⟨number, base, heq, hread⟩ := h haccepted
  exact ⟨number, base, heq, hread.earlier hm⟩

theorem request_ok {w : World} {query : Query} {s t : Desk} {answer : ℤ × Json}
    (h : request w query s = (.ok answer, t)) :
    Since s.wire.length t (.read query (.ok answer)) := by
  obtain ⟨_, s₁, hspend, h⟩ := bind_eq_ok.1 h
  have hgrows := (Moves.of_eq silent_spend hspend).grows
  obtain ⟨s₁', _, hread, h⟩ := bind_eq_ok.1 h
  cases hread
  obtain ⟨_, s₂, hwrite, h⟩ := bind_eq_ok.1 h
  cases hwrite
  obtain ⟨hreply, rfl⟩ := of_eq_ok.1 h
  refine Since.earlier (n := s₁.wire.length) ?_ hgrows.length_le
  simp [Since, hreply]

theorem tryRead_ok {w : World} {query : Query} {s t : Desk} {answer : ℤ × Json}
    (h : tryRead w query s = (.ok answer, t)) (hstatus : answer.1 = 200) :
    Since s.wire.length t (.read query (.ok answer)) := by
  obtain ⟨r, s₁, hr, h⟩ := bind_eq_ok.1 h
  cases hrequest : request w query s with
  | mk r' s₁' =>
    rw [attempt_apply, hrequest] at hr
    cases hr
    cases r' with
    | ok answer' =>
      cases h
      exact request_ok hrequest
    | error e =>
      cases e with
      | lost =>
        cases h
        cases hstatus
      | _ => cases h

/-! ## The read of one pull request -/

theorem prPayload_body {effect : Effect} {maxBytes : ℕ} {topic body description : String}
    (h : prPayload effect maxBytes = .ok (topic, body, description)) : body = prBody effect := by
  obtain ⟨-, h⟩ := check_bind_eq_ok.1 h
  obtain ⟨-, h⟩ := check_bind_eq_ok.1 h
  obtain ⟨-, h⟩ := check_bind_eq_ok.1 h
  obtain ⟨-, h⟩ := check_bind_eq_ok.1 h
  obtain ⟨-, h⟩ := check_bind_eq_ok.1 h
  cases pure_eq_ok.1 h
  rfl

namespace Forge

/-- An answer that is judged accepted shows exactly what is authorized. -/
theorem judge_accepted {repository : String} {effect : Effect} {number : ℕ} {answer : ℤ × Json}
    {receipt : Receipt} (h : judge repository effect (prBody effect) number answer = .ok receipt)
    (haccepted : receipt.status = .accepted) :
    ∃ base, receipt = ⟨.accepted, some number, some base⟩ ∧
      Exact repository effect number base answer := by
  unfold judge at h
  split at h
  · cases h
    cases haccepted
  · rename_i hstatus
    split at h
    · cases h
      cases haccepted
    · rename_i data hdata
      split at h
      · cases h
        cases haccepted
      · rename_i observed hobserved
        obtain ⟨hsides, h⟩ := check_bind_eq_ok.1 h
        split at h
        · cases pure_eq_ok.1 h
          cases haccepted
        · rename_i hsame
          split at h
          · cases pure_eq_ok.1 h
            cases haccepted
          · rename_i hhead
            cases pure_eq_ok.1 h
            simp only [not_or, not_not] at hsame hhead hstatus
            obtain ⟨hnumber, htitle, hbody⟩ := hsame
            refine ⟨observed.base, rfl, hstatus, data, hdata, hsides, htitle, hbody, ?_⟩
            rw [hobserved, ← hnumber, ← hhead]

variable {f : Forge} {effect : Effect} {s t : Desk} {receipt : Receipt}

theorem reconcile_ok (hf : f.Guarded) {known : Option ℕ}
    (h : f.reconcile effect known s = (.ok receipt, t)) :
    Confirmed f.repository effect s.wire.length t receipt := by
  intro haccepted
  obtain ⟨_, s₁, hauthorized, h⟩ := bind_eq_ok.1 h
  have hgrows := (Moves.of_eq (silent_authorized hf effect true) hauthorized).grows
  cases known with
  | none =>
    cases h
    cases haccepted
  | some number =>
    cases hpayload : prPayload effect f.maxBytes with
    | error e =>
      simp only [hpayload] at h
      cases e <;> cases h <;> cases haccepted
    | ok payload =>
      obtain ⟨topic, body, description⟩ := payload
      simp only [hpayload] at h
      obtain rfl := prPayload_body hpayload
      obtain ⟨_, s₂, hcheck, h⟩ := bind_eq_ok.1 h
      obtain ⟨-, rfl⟩ := of_eq_ok.1 hcheck
      obtain ⟨answer, s₃, hread, h⟩ := bind_eq_ok.1 h
      obtain ⟨hjudge, rfl⟩ := of_eq_ok.1 h
      obtain ⟨base, heq, hexact⟩ := judge_accepted hjudge haccepted
      exact ⟨number, base, heq, answer,
        (tryRead_ok hread hexact.status).earlier hgrows.length_le, hexact⟩

/-- The receipt names the pull request that was asked for. -/
theorem reconcile_number {number k : ℕ} {base : String}
    (h : f.reconcile effect (some number) s = (.ok ⟨.accepted, some k, some base⟩, t)) :
    k = number := by
  obtain ⟨_, s₁, -, h⟩ := bind_eq_ok.1 h
  cases hpayload : prPayload effect f.maxBytes with
  | error e =>
    simp only [hpayload] at h
    cases e <;> cases h
  | ok payload =>
    obtain ⟨topic, body, description⟩ := payload
    simp only [hpayload] at h
    obtain rfl := prPayload_body hpayload
    obtain ⟨_, s₂, -, h⟩ := bind_eq_ok.1 h
    obtain ⟨answer, s₃, -, h⟩ := bind_eq_ok.1 h
    obtain ⟨hjudge, -⟩ := of_eq_ok.1 h
    obtain ⟨_, heq, -⟩ := judge_accepted hjudge rfl
    cases heq
    rfl

theorem confirm_ok (hf : f.Guarded) {created : AGitPush}
    (h : f.confirm effect created s = (.ok receipt, t)) :
    Confirmed f.repository effect s.wire.length t receipt := by
  intro haccepted
  obtain ⟨status, reference⟩ := created
  cases status with
  | accepted =>
    cases reference with
    | none =>
      cases h
      cases haccepted
    | some number =>
      obtain ⟨receipt', s₁, hreconcile, h⟩ := bind_eq_ok.1 h
      split at h
      · cases h
        cases haccepted
      · cases h
        exact reconcile_ok hf hreconcile haccepted
  | rejected | stale | unknown =>
    cases h
    cases haccepted

theorem apply_ok (hf : f.Guarded) (h : f.apply effect s = (.ok receipt, t)) :
    Confirmed f.repository effect s.wire.length t receipt := by
  intro haccepted
  obtain ⟨_, s₁, hauthorized, h⟩ := bind_eq_ok.1 h
  have hgrows := (Moves.of_eq (silent_authorized hf effect false) hauthorized).grows
  split at h
  · exact (reconcile_ok hf h).earlier hgrows.length_le haccepted
  · cases hpayload : prPayload effect f.maxBytes with
    | error e =>
      simp only [hpayload] at h
      cases e <;> cases h <;> cases haccepted
    | ok payload =>
      obtain ⟨topic, body, description⟩ := payload
      simp only [hpayload] at h
      obtain ⟨base, s₂, hbranch, h⟩ := bind_eq_ok.1 h
      have hgrows' := (Moves.of_eq (silent_branch _ _ _ _) hbranch).grows
      split at h
      · obtain ⟨r, s₃, hcreate, h⟩ := bind_eq_ok.1 h
        have hgrows'' := (Moves.of_eq (Moves.attempt (createAgitPr_writes hf effect _)) hcreate).grows
        have hlength := (hgrows.trans (hgrows'.trans hgrows'')).length_le
        cases r with
        | ok created => exact (confirm_ok hf h).earlier hlength haccepted
        | error e =>
          cases e with
          | lost =>
            cases h
            cases haccepted
          | _ => cases h
      · cases h
        cases haccepted

end Forge

/-! ## The read of the listings -/

section

variable {f : Forge} {effect : Effect} {base : String} {s t : Desk}

theorem confirmListed_ok (hf : f.Guarded) {number : ℕ} {found : List ℕ}
    (h : confirmListed f effect base number s = (.ok (some found), t)) :
    ∀ k ∈ found, ReadExactly f.repository effect s.wire.length t base k := by
  obtain ⟨r, s₁, hr, h⟩ := bind_eq_ok.1 h
  cases hreconcile : f.reconcile effect (some number) s with
  | mk r' s₁' =>
    rw [attempt_apply, hreconcile] at hr
    cases hr
    cases r' with
    | error e => cases e <;> cases h
    | ok receipt =>
      dsimp only at h
      split at h
      · rename_i haccepted
        cases h
        obtain ⟨k, base', rfl, hread⟩ := Forge.reconcile_ok hf hreconcile haccepted.1
        obtain rfl := Option.some.inj haccepted.2
        have hk : k = number := Forge.reconcile_number hreconcile
        rintro k' hk'
        obtain rfl := List.mem_singleton.1 hk'
        exact hk ▸ hread
      · cases h
        exact fun _ hk => absurd hk List.not_mem_nil

theorem scanItem_ok (hf : f.Guarded) {number : ℕ} {found : List ℕ}
    (h : scanItem f effect base number s = (.ok (some found), t)) :
    ∀ k ∈ found, ReadExactly f.repository effect s.wire.length t base k := by
  obtain ⟨answer, s₁, hrequest, h⟩ := bind_eq_ok.1 h
  have hgrows := (Moves.of_eq (silent_request _ _) hrequest).grows
  cases hlisted : listedOf (effectMarker effect.operation) answer with
  | unreadable =>
    simp only [hlisted] at h
    cases h
  | unmarked =>
    simp only [hlisted] at h
    cases h
    exact fun _ hk => absurd hk List.not_mem_nil
  | marked =>
    simp only [hlisted] at h
    exact fun k hk => (confirmListed_ok hf h k hk).earlier hgrows.length_le

theorem scanItems_ok (hf : f.Guarded) {n : ℕ} {seen references : List ℕ} {items : List Change}
    {result : List ℕ × List ℕ} (hn : n ≤ s.wire.length)
    (hreferences : ∀ k ∈ references, ReadExactly f.repository effect n s base k)
    (h : scanItems f effect base seen references items s = (.ok (some result), t)) :
    ∀ k ∈ result.2, ReadExactly f.repository effect n t base k := by
  induction items generalizing seen references s with
  | nil =>
    cases h
    exact hreferences
  | cons item rest ih =>
    unfold scanItems at h
    split at h
    · cases h
    · obtain ⟨found, s₁, hitem, h⟩ := bind_eq_ok.1 h
      have hgrows := (Moves.of_eq (silent_scanItem hf base _) hitem).grows
      cases found with
      | none => cases h
      | some found =>
        refine ih (hn.trans hgrows.length_le) (fun k hk => ?_) h
        rcases List.mem_append.1 hk with hk | hk
        · exact (hreferences k hk).later hgrows
        · exact (scanItem_ok hf hitem k hk).earlier hn

theorem scanPages_ok (hf : f.Guarded) {n pages : ℕ} {cursor : Option ℕ} {seen references : List ℕ}
    {receipt : Receipt} (hn : n ≤ s.wire.length)
    (hreferences : ∀ k ∈ references, ReadExactly f.repository effect n s base k)
    (h : scanPages f effect base pages cursor seen references s = (.ok receipt, t))
    (haccepted : receipt.status = .accepted) :
    ∃ number, receipt = ⟨.accepted, some number, some base⟩ ∧
      ReadExactly f.repository effect n t base number := by
  induction pages generalizing cursor seen references s with
  | zero =>
    cases h
    cases haccepted
  | succ pages ih =>
    unfold scanPages at h
    obtain ⟨page, s₁, hchanges, h⟩ := bind_eq_ok.1 h
    have hgrows := (Moves.of_eq (silent_changes _ _ _) hchanges).grows
    split at h
    · cases h
      cases haccepted
    · obtain ⟨found, s₂, hitems, h⟩ := bind_eq_ok.1 h
      have hgrows' := (Moves.of_eq (silent_scanItems hf base _ _ _) hitems).grows
      cases found with
      | none =>
        cases h
        cases haccepted
      | some result =>
        have hresult := scanItems_ok hf (hn.trans hgrows.length_le)
          (fun k hk => (hreferences k hk).later hgrows) hitems
        dsimp only at h
        split at h
        · cases h
          unfold scanned at haccepted ⊢
          split at haccepted
          · rename_i number hnumber
            exact ⟨number, rfl, hresult number (hnumber ▸ List.mem_singleton_self number)⟩
          · cases haccepted
        · split at h
          · cases h
            cases haccepted
          · exact ih (hn.trans (hgrows.trans hgrows').length_le) hresult h

end

/-- The identity of a listed comment that carries the marker. -/
def markedKey (marker : String) (item : Json) : Option ℤ :=
  match commentId item, commentText item with
  | some key, some content => if Mentions content marker then some key else none
  | _, _ => none

/-- A listing of comments that was read whole, with one comment that carries the marker. -/
structure OnlyComment (c : Setup) (issue : ℕ) (body marker reference : String)
    (answer : ℤ × Json) : Prop where
  status : answer.1 = 200
  listing : ∃ items, answer.2 = .arr items ∧
    (∃ key, items.filterMap (markedKey marker) = [key] ∧ reference = commentReference c key) ∧
    ∀ item ∈ items, (commentId item).isSome ∧ ∃ content, commentText item = some content ∧
      (Mentions content marker → ExactComment c issue body item)

theorem scanComments_ok {c : Setup} {issue : ℕ} {body marker : String} {seen : List ℤ}
    {references result : List String} {items : List Json}
    (h : scanComments c issue body marker seen references items = some result) :
    result = references ++ (items.filterMap (markedKey marker)).map (commentReference c) ∧
    ∀ item ∈ items, (commentId item).isSome ∧ ∃ content, commentText item = some content ∧
      (Mentions content marker → ExactComment c issue body item) := by
  induction items generalizing seen references with
  | nil =>
    cases h
    exact ⟨(List.append_nil _).symm, fun _ hitem => absurd hitem List.not_mem_nil⟩
  | cons item rest ih =>
    cases hid : commentId item with
    | none =>
      simp only [scanComments, hid] at h
      cases h
    | some key =>
      cases htext : commentText item with
      | none =>
        simp only [scanComments, hid, htext] at h
        cases h
      | some content =>
        simp only [scanComments, hid, htext] at h
        split at h
        · cases h
        · split at h
          · rename_i hmarker
            obtain ⟨hresult, hrest⟩ := ih h
            have hkey : markedKey marker item = none := by simp [markedKey, hid, htext, hmarker]
            refine ⟨by rw [hresult, List.filterMap_cons_none hkey], fun other hother => ?_⟩
            rcases List.mem_cons.1 hother with rfl | hother
            · exact ⟨by simp [hid], content, htext, fun hm => absurd hm hmarker⟩
            · exact hrest other hother
          · rename_i hmarker
            split at h
            · rename_i hexact
              obtain ⟨hresult, hrest⟩ := ih h
              have hkey : markedKey marker item = some key := by
                simpa [markedKey, hid, htext] using hmarker
              refine ⟨?_, fun other hother => ?_⟩
              · rw [hresult, List.filterMap_cons_some hkey, List.map_cons, List.append_assoc]
                rfl
              · rcases List.mem_cons.1 hother with rfl | hother
                · exact ⟨by simp [hid], content, htext, fun _ => hexact⟩
                · exact hrest other hother
            · cases h

theorem commentsOf_single {c : Setup} {issue : ℕ} {body marker reference : String}
    {answer : ℤ × Json} (h : commentsOf c issue body marker answer = some [reference]) :
    OnlyComment c issue body marker reference answer := by
  unfold commentsOf at h
  split at h
  · rename_i items
    split at h
    · cases h
    · obtain ⟨hresult, hitems⟩ := scanComments_ok h
      rw [List.nil_append] at hresult
      obtain ⟨key, hkey, rfl⟩ := List.map_eq_singleton_iff.1 hresult.symm
      exact ⟨rfl, items, rfl, ⟨key, hkey, rfl⟩, hitems⟩
  · cases h

/-! ## One call -/

variable [Sha256] {w : World} {c : Setup} {h : Handoff} {active : String × ℕ} {effect : Effect}
  {s t : Desk}

/-- The base of a call is the one its workspace was collected at. -/
theorem accepted_base {r : Received} (hr : accepted w c h s = (.ok r, t)) :
    ∃ x, w.collected = some x ∧ r.base = x.2.base := by
  obtain ⟨standing, s₁, -, hr⟩ := bind_eq_ok.1 hr
  obtain ⟨hr, -⟩ := of_eq_ok.1 hr
  obtain ⟨state, -, hr⟩ := Checked.bind_eq_ok.1 hr
  dsimp only at hr
  split at hr
  · rename_i fact candidate collection _ hcollected
    obtain ⟨-, hr⟩ := check_bind_eq_ok.1 hr
    obtain ⟨-, hr⟩ := check_bind_eq_ok.1 hr
    obtain ⟨_, -, hr⟩ := Checked.bind_eq_ok.1 hr
    obtain ⟨-, hr⟩ := check_bind_eq_ok.1 hr
    obtain ⟨-, hr⟩ := check_bind_eq_ok.1 hr
    obtain ⟨_, -, hr⟩ := Checked.bind_eq_ok.1 hr
    cases pure_eq_ok.1 hr
    exact ⟨(candidate, collection), hcollected, rfl⟩
  · cases hr

theorem prReadback_ok {base : String} (hbase : ∃ x, w.collected = some x ∧ base = x.2.base)
    {receipt : Receipt} (hr : prReadback w c h active effect s = (.ok receipt, t))
    (haccepted : receipt.status = .accepted) :
    ∃ number, receipt = ⟨.accepted, some number, some base⟩ ∧
      ReadExactly c.repository effect s.wire.length t base number := by
  obtain ⟨received, s₁, hreceived, hr⟩ := bind_eq_ok.1 hr
  have hgrows := (Moves.of_eq silent_accepted hreceived).grows
  obtain ⟨x, hx, hreceivedBase⟩ := accepted_base hreceived
  obtain ⟨x', hx', rfl⟩ := hbase
  obtain rfl := Option.some.inj (hx.symm.trans hx')
  rw [hreceivedBase] at hr
  obtain ⟨number, heq, hread⟩ := scanPages_ok forge_guarded le_rfl
    (fun _ hk => absurd hk List.not_mem_nil) hr haccepted
  exact ⟨number, heq, hread.earlier hgrows.length_le⟩

omit [Sha256] in
theorem watched_ok {α : Type} {m : Act α} {x : α × List Exchange}
    (hx : watched m s = (.ok x, t)) :
    m s = (.ok x.1, t) ∧ ∀ e, Since s.wire.length t e → e ∈ x.2 := by
  obtain ⟨_, _, hread, hx⟩ := bind_eq_ok.1 hx
  cases hread
  obtain ⟨a, t', hm, hx⟩ := bind_eq_ok.1 hx
  obtain ⟨_, _, hread, hx⟩ := bind_eq_ok.1 hx
  cases hread
  cases hx
  exact ⟨hm, fun _ he => he⟩

/-- A receipt with the exchanges it rests on. -/
def Rests (c : Setup) (effect : Effect) (base : String) (x : Receipt × List Exchange) : Prop :=
  x.1.AcceptedAt base → ∃ number, x.1.reference = some number ∧ ∃ answer,
    .read (.pull number) (.ok answer) ∈ x.2 ∧ Exact c.repository effect number base answer

theorem firstReceipt_ok {op : Operation} {saved : Option String} {base : String}
    (hbase : ∃ x, w.collected = some x ∧ base = x.2.base) {x : Receipt × List Exchange}
    (hx : firstReceipt w c h active effect op saved s = (.ok (some x), t)) :
    Rests c effect base x := by
  rintro ⟨haccepted, hobserved⟩
  unfold firstReceipt at hx
  split at hx
  · obtain ⟨x', s₁, hwatched, hx⟩ := bind_eq_ok.1 hx
    cases hx
    obtain ⟨hreadback, htrail⟩ := watched_ok hwatched
    obtain ⟨number, heq, answer, hsince, hexact⟩ := prReadback_ok hbase hreadback haccepted
    exact ⟨number, by rw [heq], answer, htrail _ hsince, hexact⟩
  · obtain ⟨_, _, hread, hx⟩ := bind_eq_ok.1 hx
    cases hread
    split at hx
    · cases hx
    · obtain ⟨_, s₁, -, hx⟩ := bind_eq_ok.1 hx
      obtain ⟨x', s₂, hwatched, hx⟩ := bind_eq_ok.1 hx
      cases hx
      obtain ⟨happly, htrail⟩ := watched_ok hwatched
      obtain ⟨number, base', heq, answer, hsince, hexact⟩ :=
        Forge.apply_ok forge_guarded happly haccepted
      rw [heq] at hobserved
      obtain rfl := Option.some.inj hobserved
      exact ⟨number, by rw [heq], answer, htrail _ hsince, hexact⟩

theorem deliverPr_ok {op : Operation} {saved : Option String} {base : String}
    (hbase : ∃ x, w.collected = some x ∧ base = x.2.base) {reference : String}
    {trail : List Exchange}
    (hd : deliverPr w c h active effect op saved base s = (.ok (some (reference, trail)), t)) :
    ∃ number answer, reference = changeReference c number ∧
      .read (.pull number) (.ok answer) ∈ trail ∧ Exact c.repository effect number base answer := by
  obtain ⟨first, s₁, hfirst, hd⟩ := bind_eq_ok.1 hd
  obtain ⟨last, s₂, hlast, hd⟩ := bind_eq_ok.1 hd
  have hrests : Rests c effect base last ∧ (last.1.status = .accepted → last.1.AcceptedAt base) := by
    unfold lastReceipt at hlast
    cases hx : first.filter fun r => decide (r.1.AcceptedAt base) with
    | some x =>
      simp only [hx] at hlast
      cases hlast
      obtain ⟨rfl, haccepted⟩ := Option.filter_eq_some_iff.1 hx
      exact ⟨firstReceipt_ok hbase hfirst, fun _ => of_decide_eq_true haccepted⟩
    | none =>
      simp only [hx] at hlast
      obtain ⟨hreadback, htrail⟩ := watched_ok hlast
      constructor
      · rintro ⟨haccepted, -⟩
        obtain ⟨number, heq, answer, hsince, hexact⟩ := prReadback_ok hbase hreadback haccepted
        exact ⟨number, by rw [heq], answer, htrail _ hsince, hexact⟩
      · intro haccepted
        obtain ⟨number, heq, -⟩ := prReadback_ok hbase hreadback haccepted
        rw [heq]
        exact ⟨rfl, rfl⟩
  obtain ⟨hfound, -⟩ := Prod.mk.inj hd
  have hfound : found c last = some (reference, trail) := Except.ok.inj hfound
  unfold found at hfound
  split at hfound
  · rename_i haccepted
    obtain ⟨number, hreference, heq⟩ := Option.map_eq_some_iff.1 hfound
    cases heq
    obtain ⟨number', hreference', answer, hmem, hexact⟩ := hrests.1 (hrests.2 haccepted)
    obtain rfl := Option.some.inj (hreference.symm.trans hreference')
    exact ⟨number, answer, rfl, hmem, hexact⟩
  · cases hfound

omit [Sha256] in
theorem comments_ok {issue : ℕ} {identity : OperationKey} {body : String} {reference : String}
    {trail : List Exchange} {x : Option (List String) × List Exchange}
    (hx : watched (comments w c issue body identity) s = (.ok x, t))
    (hreference : commented x = some (reference, trail)) :
    ∃ answer, .read (.comments issue) (.ok answer) ∈ trail ∧
      OnlyComment c issue body (effectMarker identity) reference answer := by
  obtain ⟨hcomments, htrail⟩ := watched_ok hx
  obtain ⟨answer, s₁, hrequest, hcomments⟩ := bind_eq_ok.1 hcomments
  obtain ⟨hlisted, rfl⟩ := Prod.mk.inj hcomments
  have hlisted : commentsOf c issue body (effectMarker identity) answer = x.1 :=
    Except.ok.inj hlisted
  obtain ⟨reference', hone, heq⟩ := Option.map_eq_some_iff.1 hreference
  cases heq
  refine ⟨answer, htrail _ (request_ok hrequest), commentsOf_single (hlisted.trans ?_)⟩
  unfold onlyMatch at hone
  split at hone
  · rename_i single hsingle
    cases hone
    exact hsingle
  · cases hone

theorem deliverReceipt_ok {op : Operation} {issue : ℕ} {reference : String}
    {trail : List Exchange}
    (hd : deliverReceipt w c h active effect op issue s = (.ok (some (reference, trail)), t)) :
    ∃ answer, .read (.comments issue) (.ok answer) ∈ trail ∧
      OnlyComment c issue effect.body (effectMarker effect.operation) reference answer := by
  obtain ⟨first, s₁, hfirst, hd⟩ := bind_eq_ok.1 hd
  obtain ⟨_, _, hread, hd⟩ := bind_eq_ok.1 hd
  cases hread
  split at hd
  · obtain ⟨_, s₂, -, hd⟩ := bind_eq_ok.1 hd
    obtain ⟨_, s₃, -, hd⟩ := bind_eq_ok.1 hd
    obtain ⟨r, s₄, -, hd⟩ := bind_eq_ok.1 hd
    have hagain (hd : (do
        let again ← watched (comments w c issue effect.body effect.operation)
        return commented again : Act (Option (String × List Exchange))) s₄ =
          (.ok (some (reference, trail)), t)) :
        ∃ answer, .read (.comments issue) (.ok answer) ∈ trail ∧
          OnlyComment c issue effect.body (effectMarker effect.operation) reference answer := by
      obtain ⟨again, s₅, hwatched, hd⟩ := bind_eq_ok.1 hd
      exact comments_ok hwatched (Except.ok.inj (Prod.mk.inj hd).1)
    cases r with
    | ok _ => exact hagain hd
    | error e =>
      cases e with
      | lost => exact hagain hd
      | _ => cases hd
  · exact comments_ok hfirst (Except.ok.inj (Prod.mk.inj hd).1)

/-- What a reference was taken for: a read of the same call, with exactly the authorized content. -/
def Recorded.Exact (x : Recorded) : Prop :=
  match x.step with
  | .pr => ∃ number answer, x.reference = changeReference x.setup number ∧
      .read (.pull number) (.ok answer) ∈ x.trail ∧
      Publication.Exact x.setup.repository x.effect number x.base answer
  | .receipt => ∃ answer, .read (.comments x.issue) (.ok answer) ∈ x.trail ∧
      OnlyComment x.setup x.issue x.effect.body (effectMarker x.effect.operation) x.reference
        answer

theorem deliverStep_ok {op : Operation} {saved : Option String} {base : String} {issue : ℕ}
    {step : Step} (hbase : ∃ x, w.collected = some x ∧ base = x.2.base) {reference : String}
    {trail : List Exchange}
    (hd : deliverStep w c h active effect op saved base issue step s =
      (.ok (some (reference, trail)), t)) :
    Recorded.Exact ⟨step, c, effect, base, issue, reference, trail⟩ := by
  cases step with
  | pr => exact deliverPr_ok hbase hd
  | receipt => exact deliverReceipt_ok hd

/-! ## Runs -/

/-- The references that are added were taken for what they are. -/
def Takes (s t : Desk) : Prop := ∀ x ∈ t.recorded, x ∈ s.recorded ∨ x.Exact

omit [Sha256] in
theorem Takes.of_eq {s t : Desk} (h : t.recorded = s.recorded) : Takes s t :=
  fun _ hx => .inl (h ▸ hx)

omit [Sha256] in
theorem Takes.trans (s t u : Desk) (h : Takes s t) (h' : Takes t u) : Takes s u := by
  intro x hx
  rcases h' x hx with hx | hx
  · exact h x hx
  · exact .inr hx

variable {α β : Type}

omit [Sha256] in
theorem Silent.takes {m : Act α} (hm : Silent m) : Moves Takes m :=
  Moves.weaken hm fun _ _ hquiet => .of_eq hquiet.recorded

omit [Sha256] in
theorem takes_bind {m : Act α} {f : α → Act β} (hm : Moves Takes m)
    (hf : ∀ a, Moves Takes (f a)) : Moves Takes (m >>= f) := Moves.bind Takes.trans hm hf

omit [Sha256] in
theorem takes_of_writes {key : String} {m : Act α} (hm : Moves (Writes key) m) : Moves Takes m :=
  Moves.weaken hm fun _ _ hwrites => .of_eq hwrites.recorded

theorem deliverStep_takes (op : Operation) (saved : Option String) (base : String) (issue : ℕ)
    (step : Step) : Moves Takes (deliverStep w c h active effect op saved base issue step) := by
  cases step with
  | pr =>
    have hreadback : Silent (watched (prReadback w c h active effect)) :=
      silent_watched silent_prReadback
    refine takes_bind ?_ fun first => takes_bind ?_ fun _ => (Silent.pure _).takes
    · unfold firstReceipt
      split
      · exact (hreadback.bind fun _ => .pure _).takes
      · refine takes_bind Silent.read.takes fun s => ?_
        split
        · exact (Silent.pure _).takes
        · refine takes_bind (silent_finalizeArtifact _ _ _ _).takes fun _ =>
            takes_bind ?_ fun _ => (Silent.pure _).takes
          refine takes_bind Silent.read.takes fun _ => takes_bind ?_ fun _ =>
            (Silent.read.bind fun _ => .pure _).takes
          exact takes_of_writes (Forge.apply_writes forge_guarded effect)
    · unfold lastReceipt
      split
      · exact (Silent.pure _).takes
      · exact hreadback.takes
  | receipt =>
    refine takes_bind (silent_watched (silent_comments issue _ _)).takes fun first =>
      takes_bind Silent.read.takes fun s => ?_
    split
    · refine takes_bind silent_nativeCurrent.takes fun _ =>
        takes_bind (silent_finalizeArtifact _ _ _ _).takes fun _ =>
          takes_bind (takes_of_writes (Moves.attempt (postComment_writes _ _ _))) fun r => ?_
      have hagain : Silent (do
          let again ← watched (comments w c issue effect.body effect.operation)
          return commented again) :=
        (silent_watched (silent_comments issue _ _)).bind fun _ => .pure _
      split
      · exact hagain.takes
      · exact hagain.takes
      · exact (Silent.raise _).takes
    · exact (Silent.pure _).takes

omit [Sha256] in
theorem recordFound_takes {r : Received} {step : Step} {issue : ℕ}
    {found : Option (String × List Exchange)}
    (hfound : ∀ reference trail, found = some (reference, trail) →
      Recorded.Exact ⟨step, c, effect, r.base, issue, reference, trail⟩) :
    Moves Takes (recordFound w c effect r step active issue found) := by
  unfold recordFound
  split
  · exact ((silent_onJournal _).bind fun _ => .pure _).takes
  · rename_i reference trail
    refine takes_bind (fun s x hx => ?_) fun _ => Silent.takes ?_
    · rcases List.mem_append.1 hx with hx | hx
      · exact .inl hx
      · obtain rfl := List.mem_singleton.1 hx
        exact .inr (hfound reference trail rfl)
    · exact (silent_finalizeArtifact _ _ _ _).bind fun _ => (silent_onJournal _).bind fun _ =>
        (silent_ask _).bind fun _ => .pure _

/-- The check after a read gives the reference back or nothing. -/
theorem postflight_ok {found current : Option (String × List Exchange)}
    (hp : postflight w c found s = (.ok current, t)) : current = none ∨ current = found := by
  cases found with
  | none =>
    cases hp
    exact .inl rfl
  | some found =>
    obtain ⟨r, s₁, -, hp⟩ := bind_eq_ok.1 hp
    cases r with
    | ok _ =>
      cases hp
      exact .inr rfl
    | error e =>
      cases e <;> cases hp
      all_goals exact .inl rfl

omit [Sha256] in
/-- A part whose value is known for the rest. -/
theorem takes_bind_of {P : α → Prop} {m : Act α} {f : α → Act β} (hm : Moves Takes m)
    (hvalue : ∀ s a t, m s = (.ok a, t) → P a) (hf : ∀ a, P a → Moves Takes (f a)) :
    Moves Takes (m >>= f) := by
  intro s
  have hfirst := hm s
  cases hr : m s with
  | mk r t =>
    rw [hr] at hfirst
    cases r with
    | ok a =>
      rw [bind_of_ok hr]
      exact Takes.trans s t _ hfirst (hf a (hvalue s a t hr) t)
    | error e =>
      rw [bind_of_error hr]
      exact hfirst

theorem deliver_takes {r : Received} (hbase : ∃ x, w.collected = some x ∧ r.base = x.2.base)
    (topic : String) (step : Step) : Moves Takes (deliver w c h r topic step) := by
  refine takes_bind (Silent.of _).takes fun draft => takes_bind (Silent.of _).takes fun subject => ?_
  refine takes_bind (silent_authorizePublication _ _ _).takes fun original => ?_
  refine takes_bind Silent.read.takes fun s => takes_bind (silent_delivery _ _).takes fun d => ?_
  refine takes_bind (Silent.of _).takes fun effect => ?_
  let Found (found : Option (String × List Exchange)) : Prop := ∀ reference trail,
    found = some (reference, trail) →
      Recorded.Exact ⟨step, c, effect, r.base, draft.evidence.subject.issue, reference, trail⟩
  refine takes_bind_of (P := Found) (deliverStep_takes _ _ _ _ _) ?_ fun found hfound => ?_
  · rintro s found t hd reference trail rfl
    exact deliverStep_ok hbase hd
  · refine takes_bind_of (P := Found) (silent_postflight found).takes ?_ fun current hcurrent =>
      recordFound_takes hcurrent
    rintro s current t hp reference trail rfl
    rcases postflight_ok hp with hp | hp
    · cases hp
    · exact hfound reference trail hp.symm

theorem durableTopic_takes : Moves Takes (durableTopic w h) := by
  refine takes_bind Silent.read.takes fun s => takes_bind (silent_chooseTopic _ _).takes fun topic => ?_
  have hrest : Moves Takes (do
      write fun s : Desk => { s with topics := s.topics ++ [(h.attempt.attemptId.val, topic)] }
      return topic : Act String) :=
    takes_bind (fun _ => .of_eq rfl) fun _ => (Silent.pure _).takes
  split
  · exact takes_bind (silent_finalizeArtifact _ _ _ _).takes fun _ => hrest
  · exact takes_bind (Silent.of _).takes fun _ => hrest

theorem publish_takes : Moves Takes (publish w c h) := by
  refine takes_bind_of (P := fun r => ∃ x, w.collected = some x ∧ r.base = x.2.base)
    silent_accepted.takes (fun _ _ _ => accepted_base) fun received hbase => ?_
  refine takes_bind durableTopic_takes fun topic => takes_bind (deliver_takes hbase _ _) fun pr => ?_
  split
  · exact (Silent.pure _).takes
  · refine takes_bind (deliver_takes hbase _ _) fun receipt => ?_
    split
    · exact (Silent.pure _).takes
    · exact (Silent.pure _).takes

/-- The step: a call takes a reference only for what it read. -/
theorem next_takes (s : Desk) (e : Event) : Takes s (next s e) := by
  cases e with
  | publish allowance w c h => exact publish_takes { s with allowance := allowance, asked := 0 }
  | journal call => exact .of_eq rfl

/-- Every accepted reference on record was read with exactly the authorized content. -/
def Desk.Exact (s : Desk) : Prop := ∀ x ∈ s.recorded, x.Exact

/-- **A reference is taken as accepted for what was read**: over any run of calls, each cut off
anywhere and with any answers of the servers, every accepted reference of a pull request was read
in the same call with exactly the authorized content, at the base the candidate was collected at,
and every accepted reference of a receipt is the only comment with the marker in a listing of the
same call that was read whole. -/
theorem recorded_exact (events : List Event) : (run next Desk.empty events).Exact := by
  show ∀ x ∈ (run next Desk.empty events).recorded, x.Exact
  have hempty : ∀ x ∈ Desk.empty.recorded, x.Exact := fun _ hx => absurd hx List.not_mem_nil
  refine run_invariant (P := fun s : Desk => ∀ x ∈ s.recorded, x.Exact) (fun s e hs x hx => ?_) hempty
    events
  exact (next_takes s e x hx).elim (hs x) id

end Publication

end CreatidyKernel
