import CreatidyKernel.Core.Outcomes
import CreatidyKernel.Core.Verification

set_option relaxedAutoImplicit false
set_option autoImplicit false

/-!
# Product reviews

A cold reviewer states a verdict on one exact subject. The receipt holds what was found, or what
an owner has to decide; it can only be built when the verdict agrees with what it holds.

## Main definitions

* `Review.Finding`, `Review.ProductReviewReceipt` — what a reviewer states.
* `Review.OwnerDetails` — what a receipt says about the decision of an owner.
* `Review.ProductReviewReceipt.init` — the constructor with its checks in order.

## Main results

* `Review.ProductReviewReceipt.init_self` — the constructor admits what every receipt holds.
-/

namespace CreatidyKernel

namespace Review

open Checked
open Outcomes (ProductReviewVerdict)

/-- `Finding`, as a reviewer states it; nothing keeps its texts from being blank. -/
structure Finding where
  findingId : String
  fingerprint : String
  subject : EvidenceSubject
  reason : String
deriving DecidableEq

/-- The refusal of a text that is missing or blank. -/
def unidentified : Failure :=
  ⟨.invalidDomainValue, "verification identifiers must be nonempty strings"⟩

/-- `_required`. -/
def required (value : String) : Except Failure Name :=
  if h : Nonblank value then .ok ⟨value, h⟩ else .error unidentified

@[simp] theorem required_val (n : Name) : required n.val = .ok n := dif_pos n.2

/-- `_required`, of a value that is not null. -/
def requiredWhenGiven : Json → Except Failure (Option Name)
  | .null => .ok none
  | .str s => some <$> required s
  | _ => .error unidentified

@[simp] theorem requiredWhenGiven_optionalName (n : Option Name) :
    requiredWhenGiven (optionalName n) = .ok n := by
  cases n with
  | none => rfl
  | some n => exact map_eq_ok.mpr ⟨n, required_val n, rfl⟩

/-- What a receipt says about the decision of an owner: with that verdict a reference, a reason
and two or three options that differ, and with every other verdict nothing. -/
def OwnerDetails (verdict : ProductReviewVerdict) (findings : List Finding)
    (reference reason : Option Name) (options : List String) : Prop :=
  if verdict = .ownerDecisionNeeded then
    findings = [] ∧ reference ≠ none ∧ reason ≠ none ∧ options.length ∈ [2, 3] ∧
      (∀ o ∈ options, Nonblank o) ∧ options.Nodup
  else reference = none ∧ reason = none ∧ options = []

instance (verdict : ProductReviewVerdict) (findings : List Finding)
    (reference reason : Option Name) (options : List String) :
    Decidable (OwnerDetails verdict findings reference reason options) := by
  unfold OwnerDetails
  infer_instance

/-- `ProductReviewReceipt`. -/
structure ProductReviewReceipt where
  reviewId : Name
  requestDigest : Name
  subject : EvidenceSubject
  reviewerId : Name
  reviewerSession : Name
  verdict : ProductReviewVerdict
  findings : List Finding
  observedAt : ℤ
  freshUntil : ℤ
  ownerDecisionReference : Option Name
  ownerDecisionReason : Option Name
  ownerDecisionOptions : List String
  /-- The findings are about the subject, and the receipt is not stale when it is made. -/
  valid : (∀ f ∈ findings, f.subject = subject) ∧ observedAt ≤ freshUntil
  approved : verdict = .approve → findings = []
  actionable : verdict = .requestChanges → findings ≠ []
  owner : OwnerDetails verdict findings ownerDecisionReference ownerDecisionReason
    ownerDecisionOptions
deriving DecidableEq

namespace ProductReviewReceipt

/-- The refusal of the details of a decision, which depends on the verdict. -/
def ownerMessage (verdict : ProductReviewVerdict) : String :=
  if verdict = .ownerDecisionNeeded then
    "owner decision requires a distinct reference, reason and concrete options"
  else "owner-decision details cannot be merged into a software review verdict"

/-- The constructor; a decoder passes the reference and the reason of a decision on as they
are. -/
def init (reviewId requestDigest : String) (subject : EvidenceSubject)
    (reviewerId reviewerSession : String) (verdict : ProductReviewVerdict)
    (findings : List Finding) (observedAt freshUntil : ℤ) (reference reason : Json)
    (options : List String) : Except Failure ProductReviewReceipt := do
  let reviewId ← required reviewId
  let requestDigest ← required requestDigest
  let reviewerId ← required reviewerId
  let reviewerSession ← required reviewerSession
  if hvalid : (∀ f ∈ findings, f.subject = subject) ∧ observedAt ≤ freshUntil then
    if happroved : verdict = .approve → findings = [] then
      if hactionable : verdict = .requestChanges → findings ≠ [] then do
        let reference ← requiredWhenGiven reference
        let reason ← requiredWhenGiven reason
        if howner : OwnerDetails verdict findings reference reason options then
          return ⟨reviewId, requestDigest, subject, reviewerId, reviewerSession, verdict,
            findings, observedAt, freshUntil, reference, reason, options, hvalid, happroved,
            hactionable, howner⟩
        else .error ⟨.invalidDomainValue, ownerMessage verdict⟩
      else .error ⟨.invalidDomainValue, "change-request review must retain actionable findings"⟩
    else .error ⟨.invalidDomainValue, "approved product review cannot contain findings"⟩
  else .error ⟨.invalidDomainValue, "invalid product review receipt"⟩

/-- The constructor admits what a receipt holds. -/
theorem init_self (r : ProductReviewReceipt) :
    init r.reviewId.val r.requestDigest.val r.subject r.reviewerId.val r.reviewerSession.val
      r.verdict r.findings r.observedAt r.freshUntil (optionalName r.ownerDecisionReference)
      (optionalName r.ownerDecisionReason) r.ownerDecisionOptions = .ok r := by
  unfold init
  simp only [required_val, ok_bind, requiredWhenGiven_optionalName]
  rw [dif_pos r.valid, dif_pos r.approved, dif_pos r.actionable, dif_pos r.owner]
  rfl

end ProductReviewReceipt

end Review

end CreatidyKernel
