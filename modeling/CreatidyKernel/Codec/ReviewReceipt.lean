import CreatidyKernel.Codec.Records
import CreatidyKernel.Core.ProductReview

set_option relaxedAutoImplicit false
set_option autoImplicit false

/-!
# The codec of product-review receipts

A receipt is stored before it is used, and is read back after a crash. The first version of the
record has no place for the decision of an owner; it is read as a receipt without one.

## Main definitions

* `Review.subjectData`, `Review.receiptBytes` — the encoder.
* `Review.decodeSubject`, `Review.receiptFrom`, `Review.decodeProductReviewReceipt` — the decoder.
* `Review.firstVersion` — the record of a receipt in the first version.

## Main results

* `Review.decode_receiptBytes` — decoding the record of a receipt gives the receipt back.
* `Review.receipt_codec` — both versions, and that no record describes two receipts.
-/

namespace CreatidyKernel

namespace Review

open Checked
open Codec (getField)
open Outcomes (ProductReviewVerdict)

/-! ## The encoder -/

/-- `ProductReviewVerdict.value`. -/
def verdictValue : ProductReviewVerdict → String
  | .approve => "approve"
  | .requestChanges => "request_changes"
  | .comment => "comment"
  | .ownerDecisionNeeded => "owner_decision_needed"

/-- `_subject_data`. -/
def subjectData (s : EvidenceSubject) : Json :=
  .obj [("attempt_digest", .str s.attemptDigest.val), ("base_revision", .str s.baseRevision.val),
    ("candidate_digest", .str s.candidateDigest.val), ("head_revision", .str s.headRevision.val),
    ("policy_digest", .str s.policyDigest.val), ("repository", .str s.repository.val),
    ("spec_digest", .str s.specDigest.val)]

/-- The record of a finding. -/
def findingData (f : Finding) : Json :=
  .obj [("finding_id", .str f.findingId), ("fingerprint", .str f.fingerprint),
    ("reason", .str f.reason), ("subject", subjectData f.subject)]

/-- The record of a receipt. -/
def receiptData (r : ProductReviewReceipt) : List (String × Json) :=
  [("findings", .arr (r.findings.map findingData)), ("fresh_until", .int r.freshUntil),
    ("observed_at", .int r.observedAt),
    ("owner_decision_options", .arr (r.ownerDecisionOptions.map .str)),
    ("owner_decision_reason", optionalName r.ownerDecisionReason),
    ("owner_decision_reference", optionalName r.ownerDecisionReference),
    ("request_digest", .str r.requestDigest.val), ("review_id", .str r.reviewId.val),
    ("reviewer_id", .str r.reviewerId.val), ("reviewer_session", .str r.reviewerSession.val),
    ("subject", subjectData r.subject), ("verdict", .str (verdictValue r.verdict)),
    ("version", .int 2)]

/-- `_receipt_bytes`. -/
def receiptBytes (r : ProductReviewReceipt) : String := dumps (.obj (receiptData r))

/-! ## The decoder -/

/-- `value == n` for a positive integer below two digits; numbers are compared by value. -/
def equalsNumber (n : ℕ) : Json → Bool
  | .int m => m = n
  | .bool b => b && n = 1
  | .float f => f.val = [Nat.digitChar n, '.', '0']
  | _ => false

/-- A text, or the refusal of what is none. -/
def textOr (failure : Failure) : Json → Except Failure String
  | .str s => .ok s
  | _ => .error failure

/-- `_decode_subject`. -/
def decodeSubject (value : Json) : Except Failure EvidenceSubject :=
  let failure : Failure := ⟨.valueError, "invalid review subject"⟩
  match value with
  | .obj fields => do
    check (fields.map Prod.fst = ["attempt_digest", "base_revision", "candidate_digest",
      "head_revision", "policy_digest", "repository", "spec_digest"]) failure
    let candidate ← textOr failure (getField fields "candidate_digest")
    let attempt ← textOr failure (getField fields "attempt_digest")
    let spec ← textOr failure (getField fields "spec_digest")
    let policy ← textOr failure (getField fields "policy_digest")
    let repository ← textOr failure (getField fields "repository")
    let base ← textOr failure (getField fields "base_revision")
    let head ← textOr failure (getField fields "head_revision")
    return ⟨← required candidate, ← required attempt, ← required spec, ← required policy,
      ← required repository, ← required base, ← required head⟩
  | _ => .error failure

/-- A finding of a record. -/
def decodeFinding (value : Json) : Except Failure Finding :=
  let failure : Failure := ⟨.valueError, "invalid product review finding"⟩
  match value with
  | .obj fields => do
    check (fields.map Prod.fst = ["finding_id", "fingerprint", "reason", "subject"]) failure
    let findingId ← textOr failure (getField fields "finding_id")
    let fingerprint ← textOr failure (getField fields "fingerprint")
    let reason ← textOr failure (getField fields "reason")
    let subject ← decodeSubject (getField fields "subject")
    return ⟨findingId, fingerprint, subject, reason⟩
  | _ => .error failure

/-- The findings of a record. -/
def decodeFindings : Json → Except Failure (List Finding)
  | .arr items => items.mapM decodeFinding
  | _ => .error ⟨.valueError, "invalid product review findings"⟩

/-- A time of a record. -/
def timeOf : Json → Except Failure ℤ
  | .int n => .ok n
  | _ => .error ⟨.valueError, "invalid product review receipt time"⟩

/-- The options of a record. -/
def decodeOptions : Json → Except Failure (List String)
  | .arr items => items.mapM (textOr ⟨.valueError, "invalid owner decision options"⟩)
  | _ => .error ⟨.valueError, "invalid owner decision options"⟩

/-- `ProductReviewVerdict(value)`. -/
def decodeVerdict (value : Json) : Except Failure ProductReviewVerdict :=
  if value = .str "approve" then .ok .approve
  else if value = .str "request_changes" then .ok .requestChanges
  else if value = .str "comment" then .ok .comment
  else if value = .str "owner_decision_needed" then .ok .ownerDecisionNeeded
  else .error ⟨.valueError, "is not a valid ProductReviewVerdict"⟩

/-- The keys of the first version, in order. -/
def firstKeys : List String :=
  ["findings", "fresh_until", "observed_at", "request_digest", "review_id", "reviewer_id",
    "reviewer_session", "subject", "verdict", "version"]

/-- The keys of the second version, in order. -/
def secondKeys : List String :=
  ["findings", "fresh_until", "observed_at", "owner_decision_options", "owner_decision_reason",
    "owner_decision_reference", "request_digest", "review_id", "reviewer_id", "reviewer_session",
    "subject", "verdict", "version"]

/-- The record with the keys of the second version; no options stand for those of the first. -/
def upgrade (fields : List (String × Json)) : Except Failure (List (String × Json)) :=
  if fields.map Prod.fst = secondKeys ∧ equalsNumber 2 (getField fields "version") = true then
    .ok fields
  else if fields.map Prod.fst = firstKeys ∧
      equalsNumber 1 (getField fields "version") = true then
    .ok (fields ++ [("owner_decision_options", .arr []), ("owner_decision_reason", .null),
      ("owner_decision_reference", .null)])
  else .error ⟨.valueError, "invalid product review receipt record"⟩

/-- The part of `decode_product_review_receipt` after the record is upgraded. -/
def receiptFrom (raw : List (String × Json)) : Except Failure ProductReviewReceipt := do
  let identity : Failure := ⟨.valueError, "invalid product review receipt identity"⟩
  let findings ← decodeFindings (getField raw "findings")
  let requestDigest ← textOr identity (getField raw "request_digest")
  let reviewId ← textOr identity (getField raw "review_id")
  let reviewerId ← textOr identity (getField raw "reviewer_id")
  let reviewerSession ← textOr identity (getField raw "reviewer_session")
  let observedAt ← timeOf (getField raw "observed_at")
  let freshUntil ← timeOf (getField raw "fresh_until")
  let options ← decodeOptions (getField raw "owner_decision_options")
  let subject ← decodeSubject (getField raw "subject")
  let verdict ← decodeVerdict (getField raw "verdict")
  ProductReviewReceipt.init reviewId requestDigest subject reviewerId reviewerSession verdict
    findings observedAt freshUntil (getField raw "owner_decision_reference")
    (getField raw "owner_decision_reason") options

/-- `decode_product_review_receipt`, of the value a record denotes. -/
def decodeValue : Json → Except Failure ProductReviewReceipt
  | .obj fields => do
    let raw ← upgrade fields
    receiptFrom raw
  | _ => .error ⟨.valueError, "invalid product review receipt record"⟩

/-- `decode_product_review_receipt`. -/
def decodeProductReviewReceipt (data : String) : Except Failure ProductReviewReceipt := do
  let value ← lookup ⟨.valueError, "JSONDecodeError"⟩ loads data
  decodeValue value

/-! ## The parts of a record -/

theorem textOr_eq_ok {failure : Failure} {value : Json} {s : String} :
    textOr failure value = .ok s ↔ value = .str s := by
  unfold textOr
  split
  · simp
  · next hne => simpa using hne s

theorem timeOf_eq_ok {value : Json} {n : ℤ} : timeOf value = .ok n ↔ value = .int n := by
  unfold timeOf
  split
  · simp
  · next hne => simpa using hne n

theorem required_eq_ok {s : String} {n : Name} : required s = .ok n ↔ s = n.val := by
  unfold required
  constructor
  · intro h
    split at h
    · cases h
      rfl
    · cases h
  · rintro rfl
    exact dif_pos n.2

theorem requiredWhenGiven_eq_ok {value : Json} {n : Option Name} :
    requiredWhenGiven value = .ok n ↔ value = optionalName n := by
  constructor
  · intro h
    unfold requiredWhenGiven at h
    split at h
    · cases h
      rfl
    · obtain ⟨m, hm, rfl⟩ := map_eq_ok.mp h
      rw [required_eq_ok.mp hm]
      rfl
    · cases h
  · rintro rfl
    exact requiredWhenGiven_optionalName n

theorem decodeVerdict_eq_ok {value : Json} {v : ProductReviewVerdict} :
    decodeVerdict value = .ok v ↔ value = .str (verdictValue v) := by
  unfold decodeVerdict
  constructor
  · intro h
    split_ifs at h with h1 h2 h3 h4 <;> cases h <;> assumption
  · rintro rfl
    cases v <;> rfl

/-- A list is read item by item. -/
theorem mapM_eq_ok_iff {α : Type} {read : Json → Except Failure α} {write : α → Json}
    (h : ∀ value a, read value = .ok a ↔ value = write a) {items : List Json} {l : List α} :
    items.mapM read = .ok l ↔ items = l.map write := by
  rw [mapM_eq_ok, ← List.forall₂_eq_eq_eq, List.forall₂_map_right_iff]
  exact ⟨fun hall => hall.imp fun _ _ => (h _ _).mp, fun hall => hall.imp fun _ _ => (h _ _).mpr⟩

theorem decodeOptions_eq_ok {value : Json} {l : List String} :
    decodeOptions value = .ok l ↔ value = .arr (l.map .str) := by
  unfold decodeOptions
  split
  · rw [mapM_eq_ok_iff fun _ _ => textOr_eq_ok, Json.arr.injEq]
  · next hne => simpa using hne (l.map .str)

/-- A subject is read from the dictionary of its fields and from no other value. -/
theorem decodeSubject_eq_ok {value : Json} {s : EvidenceSubject} :
    decodeSubject value = .ok s ↔ value = subjectData s := by
  constructor
  · intro h
    unfold decodeSubject at h
    split at h
    · next fields =>
      obtain ⟨hkeys, h⟩ := check_bind_eq_ok.mp h
      obtain ⟨candidate, hcandidate, h⟩ := bind_eq_ok.mp h
      obtain ⟨attempt, hattempt, h⟩ := bind_eq_ok.mp h
      obtain ⟨spec, hspec, h⟩ := bind_eq_ok.mp h
      obtain ⟨policy, hpolicy, h⟩ := bind_eq_ok.mp h
      obtain ⟨repository, hrepository, h⟩ := bind_eq_ok.mp h
      obtain ⟨base, hbase, h⟩ := bind_eq_ok.mp h
      obtain ⟨head, hhead, h⟩ := bind_eq_ok.mp h
      obtain ⟨candidate', hcandidate', h⟩ := bind_eq_ok.mp h
      obtain ⟨attempt', hattempt', h⟩ := bind_eq_ok.mp h
      obtain ⟨spec', hspec', h⟩ := bind_eq_ok.mp h
      obtain ⟨policy', hpolicy', h⟩ := bind_eq_ok.mp h
      obtain ⟨repository', hrepository', h⟩ := bind_eq_ok.mp h
      obtain ⟨base', hbase', h⟩ := bind_eq_ok.mp h
      obtain ⟨head', hhead', h⟩ := bind_eq_ok.mp h
      cases h
      rw [textOr_eq_ok] at hcandidate hattempt hspec hpolicy hrepository hbase hhead
      rw [required_eq_ok] at hcandidate' hattempt' hspec' hpolicy' hrepository' hbase' hhead'
      have hfields : fields = _ := Codec.eq_map_getField (by rw [hkeys]; decide)
      rw [hkeys] at hfields
      simp only [List.map_cons, List.map_nil, hcandidate, hattempt, hspec, hpolicy, hrepository,
        hbase, hhead, hcandidate', hattempt', hspec', hpolicy', hrepository', hbase', hhead']
        at hfields
      rw [hfields]
      rfl
    · cases h
  · rintro rfl
    refine bind_of_ok (check_of rfl) <| bind_of_ok rfl <| bind_of_ok rfl <| bind_of_ok rfl <|
      bind_of_ok rfl <| bind_of_ok rfl <| bind_of_ok rfl <| bind_of_ok rfl ?_
    simp only [required_val, ok_bind]
    rfl

/-- A finding is read from the dictionary of its fields and from no other value. -/
theorem decodeFinding_eq_ok {value : Json} {f : Finding} :
    decodeFinding value = .ok f ↔ value = findingData f := by
  constructor
  · intro h
    unfold decodeFinding at h
    split at h
    · next fields =>
      obtain ⟨hkeys, h⟩ := check_bind_eq_ok.mp h
      obtain ⟨findingId, hid, h⟩ := bind_eq_ok.mp h
      obtain ⟨fingerprint, hfingerprint, h⟩ := bind_eq_ok.mp h
      obtain ⟨reason, hreason, h⟩ := bind_eq_ok.mp h
      obtain ⟨subject, hsubject, h⟩ := bind_eq_ok.mp h
      cases h
      rw [textOr_eq_ok] at hid hfingerprint hreason
      rw [decodeSubject_eq_ok] at hsubject
      have hfields : fields = _ := Codec.eq_map_getField (by rw [hkeys]; decide)
      rw [hkeys] at hfields
      simp only [List.map_cons, List.map_nil, hid, hfingerprint, hreason, hsubject] at hfields
      rw [hfields]
      rfl
    · cases h
  · rintro rfl
    exact bind_of_ok (check_of rfl) <| bind_of_ok rfl <| bind_of_ok rfl <| bind_of_ok rfl <|
      bind_of_ok (decodeSubject_eq_ok.mpr rfl) rfl

theorem decodeFindings_eq_ok {value : Json} {l : List Finding} :
    decodeFindings value = .ok l ↔ value = .arr (l.map findingData) := by
  unfold decodeFindings
  split
  · rw [mapM_eq_ok_iff fun _ _ => decodeFinding_eq_ok, Json.arr.injEq]
  · next hne => simpa using hne (l.map findingData)

/-- The constructor builds the receipt it is given the parts of. -/
theorem init_eq_ok {reviewId requestDigest : String} {subject : EvidenceSubject}
    {reviewerId reviewerSession : String} {verdict : ProductReviewVerdict}
    {findings : List Finding} {observedAt freshUntil : ℤ} {reference reason : Json}
    {options : List String} {r : ProductReviewReceipt}
    (h : ProductReviewReceipt.init reviewId requestDigest subject reviewerId reviewerSession
      verdict findings observedAt freshUntil reference reason options = .ok r) :
    reviewId = r.reviewId.val ∧ requestDigest = r.requestDigest.val ∧ subject = r.subject ∧
      reviewerId = r.reviewerId.val ∧ reviewerSession = r.reviewerSession.val ∧
      verdict = r.verdict ∧ findings = r.findings ∧ observedAt = r.observedAt ∧
      freshUntil = r.freshUntil ∧ reference = optionalName r.ownerDecisionReference ∧
      reason = optionalName r.ownerDecisionReason ∧ options = r.ownerDecisionOptions := by
  unfold ProductReviewReceipt.init at h
  obtain ⟨_, hreview, h⟩ := bind_eq_ok.mp h
  obtain ⟨_, hrequest, h⟩ := bind_eq_ok.mp h
  obtain ⟨_, hreviewer, h⟩ := bind_eq_ok.mp h
  obtain ⟨_, hsession, h⟩ := bind_eq_ok.mp h
  split at h
  · split at h
    · split at h
      · obtain ⟨_, hreference, h⟩ := bind_eq_ok.mp h
        obtain ⟨_, hreason, h⟩ := bind_eq_ok.mp h
        split at h
        · cases h
          exact ⟨required_eq_ok.mp hreview, required_eq_ok.mp hrequest, rfl,
            required_eq_ok.mp hreviewer, required_eq_ok.mp hsession, rfl, rfl, rfl, rfl,
            requiredWhenGiven_eq_ok.mp hreference, requiredWhenGiven_eq_ok.mp hreason, rfl⟩
        · cases h
      · cases h
    · cases h
  · cases h

/-- An upgraded record is read as the receipt whose own record has the same values. -/
theorem receiptFrom_eq_ok {raw : List (String × Json)} {r : ProductReviewReceipt} :
    receiptFrom raw = .ok r ↔
      ∀ k ∈ secondKeys, k ≠ "version" → getField raw k = getField (receiptData r) k := by
  constructor
  · intro h
    unfold receiptFrom at h
    obtain ⟨findings, hfindings, h⟩ := bind_eq_ok.mp h
    obtain ⟨requestDigest, hrequest, h⟩ := bind_eq_ok.mp h
    obtain ⟨reviewId, hreview, h⟩ := bind_eq_ok.mp h
    obtain ⟨reviewerId, hreviewer, h⟩ := bind_eq_ok.mp h
    obtain ⟨reviewerSession, hsession, h⟩ := bind_eq_ok.mp h
    obtain ⟨observedAt, hobserved, h⟩ := bind_eq_ok.mp h
    obtain ⟨freshUntil, hfresh, h⟩ := bind_eq_ok.mp h
    obtain ⟨options, hoptions, h⟩ := bind_eq_ok.mp h
    obtain ⟨subject, hsubject, h⟩ := bind_eq_ok.mp h
    obtain ⟨verdict, hverdict, h⟩ := bind_eq_ok.mp h
    obtain ⟨rfl, rfl, rfl, rfl, rfl, rfl, rfl, rfl, rfl, hreference, hreason, rfl⟩ :=
      init_eq_ok h
    simp only [secondKeys, List.forall_mem_cons, List.not_mem_nil, IsEmpty.forall_iff,
      implies_true, and_true]
    exact ⟨fun _ => decodeFindings_eq_ok.mp hfindings, fun _ => timeOf_eq_ok.mp hfresh,
      fun _ => timeOf_eq_ok.mp hobserved, fun _ => decodeOptions_eq_ok.mp hoptions,
      fun _ => hreason, fun _ => hreference, fun _ => textOr_eq_ok.mp hrequest,
      fun _ => textOr_eq_ok.mp hreview, fun _ => textOr_eq_ok.mp hreviewer,
      fun _ => textOr_eq_ok.mp hsession, fun _ => decodeSubject_eq_ok.mp hsubject,
      fun _ => decodeVerdict_eq_ok.mp hverdict, fun h => absurd rfl h⟩
  · intro h
    simp only [secondKeys, List.forall_mem_cons, List.not_mem_nil, IsEmpty.forall_iff,
      implies_true, and_true] at h
    obtain ⟨hfindings, hfresh, hobserved, hoptions, hreason, hreference, hrequest, hreview,
      hreviewer, hsession, hsubject, hverdict, -⟩ := h
    refine bind_of_ok (decodeFindings_eq_ok.mpr (hfindings (by decide))) <|
      bind_of_ok (textOr_eq_ok.mpr (hrequest (by decide))) <|
      bind_of_ok (textOr_eq_ok.mpr (hreview (by decide))) <|
      bind_of_ok (textOr_eq_ok.mpr (hreviewer (by decide))) <|
      bind_of_ok (textOr_eq_ok.mpr (hsession (by decide))) <|
      bind_of_ok (timeOf_eq_ok.mpr (hobserved (by decide))) <|
      bind_of_ok (timeOf_eq_ok.mpr (hfresh (by decide))) <|
      bind_of_ok (decodeOptions_eq_ok.mpr (hoptions (by decide))) <|
      bind_of_ok (decodeSubject_eq_ok.mpr (hsubject (by decide))) <|
      bind_of_ok (decodeVerdict_eq_ok.mpr (hverdict (by decide))) ?_
    rw [hreference (by decide), hreason (by decide)]
    exact r.init_self

/-! ## The codec -/

theorem subjectData_wf (s : EvidenceSubject) : (subjectData s).WF := by
  simp only [subjectData, Json.wf_obj, List.map_cons, List.map_nil]
  exact ⟨by decide, by simp⟩

theorem findingData_wf (f : Finding) : (findingData f).WF := by
  simp only [findingData, Json.wf_obj, List.map_cons, List.map_nil]
  exact ⟨by decide, by simp [subjectData_wf]⟩

theorem receiptData_wf (r : ProductReviewReceipt) : (Json.obj (receiptData r)).WF := by
  simp only [receiptData, Json.wf_obj, List.map_cons, List.map_nil]
  exact ⟨by decide, by simp [subjectData_wf, findingData_wf]⟩

/-- Decoding the record of a receipt gives the receipt back. -/
theorem decode_receiptBytes (r : ProductReviewReceipt) :
    decodeProductReviewReceipt (receiptBytes r) = .ok r := by
  refine bind_of_ok (lookup_eq_ok.mpr (loads_dumps (receiptData_wf r))) ?_
  exact bind_of_ok (if_pos ⟨rfl, rfl⟩) (receiptFrom_eq_ok.mpr fun _ _ _ => rfl)

/-- The record of a receipt in the first version, which has no place for a decision. -/
def firstVersion (r : ProductReviewReceipt) : List (String × Json) :=
  firstKeys.map fun k => (k, if k = "version" then .int 1 else getField (receiptData r) k)

/-- The record is of the first version. -/
def IsFirst (fields : List (String × Json)) : Prop :=
  fields.map Prod.fst = firstKeys ∧ equalsNumber 1 (getField fields "version") = true

/-- A record describes a receipt that is read from it or written to it. -/
def IsRecordOf (data : String) (r : ProductReviewReceipt) : Prop :=
  decodeProductReviewReceipt data = .ok r ∨ receiptBytes r = data

/-- A receipt without a decision has nothing to say about one. -/
theorem owner_eq {r : ProductReviewReceipt} (h : r.verdict ≠ .ownerDecisionNeeded) :
    r.ownerDecisionReference = none ∧ r.ownerDecisionReason = none ∧
      r.ownerDecisionOptions = [] := by
  have howner := r.owner
  unfold OwnerDetails at howner
  rwa [if_neg h] at howner

/-- A record of the first version is read as the receipt without a decision that has the same
values. -/
theorem decodeValue_first {fields : List (String × Json)} (hfirst : IsFirst fields)
    {r : ProductReviewReceipt} :
    decodeValue (.obj fields) = .ok r ↔ r.verdict ≠ .ownerDecisionNeeded ∧
      ∀ k ∈ firstKeys, k ≠ "version" → getField fields k = getField (receiptData r) k := by
  obtain ⟨hkeys, hversion⟩ := hfirst
  let owner : List (String × Json) := [("owner_decision_options", .arr []),
    ("owner_decision_reason", .null), ("owner_decision_reference", .null)]
  have hupgrade : upgrade fields = .ok (fields ++ owner) := by
    unfold upgrade
    rw [if_neg (by rw [hkeys]; exact fun h => absurd h.1 (by decide)), if_pos ⟨hkeys, hversion⟩]
  have hleft : ∀ k ∈ firstKeys, getField (fields ++ owner) k = getField fields k := fun k hk =>
    Codec.getField_append_of_mem (by rw [hkeys]; exact hk)
  have hright : ∀ k, k ∉ firstKeys → getField (fields ++ owner) k = getField owner k :=
    fun k hk => Codec.getField_append_of_notMem (by rw [hkeys]; exact hk)
  have hoptions := hright "owner_decision_options" (by decide)
  have hreason := hright "owner_decision_reason" (by decide)
  have hreference := hright "owner_decision_reference" (by decide)
  rw [decodeValue, hupgrade, ok_bind, receiptFrom_eq_ok]
  constructor
  · intro h
    refine ⟨fun hverdict => ?_, fun k hk hne => ?_⟩
    · have hnull := h "owner_decision_reference" (by decide) (by decide)
      have howner := r.owner
      unfold OwnerDetails at howner
      rw [if_pos hverdict] at howner
      rw [hreference] at hnull
      cases hr : r.ownerDecisionReference with
      | none => exact howner.2.1 hr
      | some n =>
        have hsome : getField (receiptData r) "owner_decision_reference" = .str n.val := by
          change optionalName r.ownerDecisionReference = _
          rw [hr]
          rfl
        rw [hsome] at hnull
        cases hnull
    · rw [← hleft k hk]
      exact h k (by revert k; decide) hne
  · rintro ⟨hverdict, h⟩ k hk hne
    obtain ⟨hr, hs, ho⟩ := owner_eq hverdict
    by_cases hmem : k ∈ firstKeys
    · rw [hleft k hmem]
      exact h k hmem hne
    · have howner : k ∈ ["owner_decision_options", "owner_decision_reason",
          "owner_decision_reference"] := by
        revert k
        decide
      simp only [List.mem_cons, List.not_mem_nil, or_false] at howner
      rcases howner with rfl | rfl | rfl
      · rw [hoptions]
        change Json.arr [] = .arr (r.ownerDecisionOptions.map .str)
        rw [ho]
        rfl
      · rw [hreason]
        change Json.null = optionalName r.ownerDecisionReason
        rw [hs]
        rfl
      · rw [hreference]
        change Json.null = optionalName r.ownerDecisionReference
        rw [hr]
        rfl

theorem isFirst_firstVersion (r : ProductReviewReceipt) : IsFirst (firstVersion r) := ⟨rfl, rfl⟩

theorem firstVersion_wf (r : ProductReviewReceipt) : (Json.obj (firstVersion r)).WF := by
  have hwf := (Json.wf_obj _).mp (receiptData_wf r)
  rw [Json.wf_obj]
  refine ⟨show firstKeys.Pairwise (· < ·) by decide, fun f hf => ?_⟩
  obtain ⟨k, -, rfl⟩ := List.mem_map.mp hf
  dsimp only
  split_ifs with hk
  · exact Json.wf_int 1
  · exact Codec.getField_wf hwf.2 k

/-- The codec of receipts. A receipt is decoded from the bytes written for it; a record of the
first version is read as a receipt without a decision that keeps all its values, every such receipt
has one, and its own bytes are decoded to it; and no record describes two receipts. -/
theorem receipt_codec :
    (∀ r, decodeProductReviewReceipt (receiptBytes r) = .ok r) ∧
    (∀ r : ProductReviewReceipt, r.verdict ≠ .ownerDecisionNeeded →
      decodeProductReviewReceipt (dumps (.obj (firstVersion r))) = .ok r) ∧
    (∀ fields r, IsFirst fields → decodeValue (.obj fields) = .ok r →
      r.verdict ≠ .ownerDecisionNeeded ∧
      (∀ k ∈ firstKeys, k ≠ "version" → getField fields k = getField (receiptData r) k) ∧
      decodeProductReviewReceipt (receiptBytes r) = .ok r) ∧
    ∀ data r r', IsRecordOf data r → IsRecordOf data r' → r = r' := by
  have hread : ∀ data r, IsRecordOf data r → decodeProductReviewReceipt data = .ok r := by
    rintro data r (h | rfl)
    · exact h
    · exact decode_receiptBytes r
  refine ⟨decode_receiptBytes, fun r hr => ?_, fun fields r hfirst h => ?_,
    fun data r r' h h' => ?_⟩
  · refine bind_of_ok (lookup_eq_ok.mpr (loads_dumps (firstVersion_wf r))) ?_
    refine (decodeValue_first (isFirst_firstVersion r)).mpr ⟨hr, fun k hk hne => ?_⟩
    rw [firstVersion, Codec.getField_map _ hk, if_neg hne]
  · obtain ⟨hverdict, hkeep⟩ := (decodeValue_first hfirst).mp h
    exact ⟨hverdict, hkeep, decode_receiptBytes r⟩
  · have hdecode := hread data r h
    rw [hread data r' h'] at hdecode
    exact (Except.ok.inj hdecode).symm

end Review

end CreatidyKernel
