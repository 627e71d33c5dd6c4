import CreatidyKernel.Routing.Requirements

set_option relaxedAutoImplicit false
set_option autoImplicit false

/-!
# The recommendation client

The client sends one requirement to a Router it does not trust, checks the document that comes
back, and returns one of the runtime bindings it was configured with. What the Router answers, and
what is a date or an instant, are arguments.

## Main definitions

* `Routing.Allocation`, `Routing.RuntimeSupport`, `Routing.ScarcityRouterAllocator` — what is
  configured.
* `Routing.decision` — the checks of a response.
* `Routing.ScarcityRouterAllocator.outgoing`, `Routing.ScarcityRouterAllocator.conclude`,
  `Routing.ScarcityRouterAllocator.select` — the parts of a selection before and after the
  exchange, and the selection.
-/

namespace CreatidyKernel

namespace Routing

open Checked

/-! ## What is configured -/

/-- `UtilizedKnowledge`; the state says whether the reference is of the published contract. -/
structure UtilizedKnowledge where
  utilized : Bool
  source : String
  identifier : String
  version : String
deriving DecidableEq

/-- `Allocation`. -/
structure Allocation where
  runtimeId : Name
  providerId : Name
  modelId : Name
  capabilities : SortedSet String
  contextTokens : ℕ
  rationale : String
  reasoningEffort : Option String
  variant : Option String
  decisionProvenance : Option String
  requirementsProvenance : Option String
  knowledgeUtilization : Option UtilizedKnowledge
deriving DecidableEq

/-- `RuntimeSupport`. -/
structure RuntimeSupport where
  runtimeId : Name
  version : Name
  features : SortedSet String
  outputTokens : ℕ
  evidenceReference : Name
  supported : ∀ f ∈ features.toList, f ∈ supportedFeatures
deriving DecidableEq

/-- `ScarcityRouterAllocator`, without the address of the Router. -/
structure ScarcityRouterAllocator where
  runtimeBindings : List Allocation
  apiKey : Option String
  runtimeSupport : List RuntimeSupport
  profilePolicyVersion : Option ℕ
  configured : runtimeBindings ≠ []
  /-- A runtime has one record of support. -/
  unambiguous : (runtimeSupport.map RuntimeSupport.runtimeId).Nodup
  /-- A provider, a model and an effort have one binding. -/
  distinct : (runtimeBindings.map fun b => (b.providerId, b.modelId, b.reasoningEffort)).Nodup

/-- `ResourceRequest`. -/
structure ResourceRequest where
  workUnitId : Name
  requiredCapabilities : SortedSet String
  contextTokens : ℕ
  requirementsHandoff : Option RequirementsHandoff
deriving DecidableEq

/-- `RouterFailureCategory`. -/
inductive Category
  | requestUnsupported | requestInvalid | endpointUnreachable | httpRejected | invalidResponse
  | noEligibleSelection | selectionIncompatible
deriving DecidableEq, Repr

/-- `ScarcityRouterUnavailable`. -/
structure Unavailable where
  message : String
  provenance : Option String
  category : Category
deriving DecidableEq, Repr

/-- What an exchange with the Router ends in. -/
inductive Reply
  /-- `_ExchangeFailure`. -/
  | failed (category : Category) (message : String)
  /-- `OSError`. -/
  | unreachable
  /-- The body is no document, or the protocol was violated. -/
  | garbled
  | document (fields : Fields)
deriving DecidableEq

/-- Which texts are dates, and which are instants with an offset. -/
structure Calendar where
  isDate : String → Bool
  isInstant : String → Bool

/-! ## Credentials -/

mutual

/-- `_contains_credential`. -/
def containsCredential (credential : String) : Json → Bool
  | .str s => decide (credential.toList <:+: s.toList)
  | .arr items => itemsContain credential items
  | .obj fields => fieldsContain credential fields
  | _ => false

/-- Some item contains the credential. -/
def itemsContain (credential : String) : List Json → Bool
  | [] => false
  | v :: vs => containsCredential credential v || itemsContain credential vs

/-- Some key or some value contains the credential. -/
def fieldsContain (credential : String) : List (String × Json) → Bool
  | [] => false
  | (k, v) :: fs => decide (credential.toList <:+: k.toList) ||
      containsCredential credential v || fieldsContain credential fs

end

/-! ## Responses -/

/-- `_identity`: the provider, the model and the variant. -/
def identity (value : Json) : Except Failure (String × String × String) := do
  let fields ← object value
  let provider ← item fields "provider" >>= string
  let model ← item fields "model" >>= string
  let variant ← item fields "variant" >>= string
  check (Exactly fields ["provider", "model", "variant"] ∧ isIdentifier provider.toList = true ∧
    isIdentifier model.toList = true ∧ isIdentifier variant.toList = true)
    (invalid "invalid identity")
  return (provider, model, variant)

/-- A boolean. -/
def boolean : Json → Except Failure Bool
  | .bool b => .ok b
  | _ => .error (invalid "invalid boolean")

/-- The reasoning effort of a candidate, which is null when none is configured. -/
def reasoningEffort : Json → Except Failure (Option String)
  | .null => .ok none
  | value => some <$> string value

/-- A candidate of a decision. -/
structure Candidate where
  identity : String × String × String
  reasoningEffort : Option String
  degraded : Bool
deriving DecidableEq

/-- The evidence a degraded candidate has. -/
def degradedEvidence (fields : Fields) : Except Failure Unit := do
  let unknown ← item fields "unknown_capacity_decision" >>= object
  let degraded ← item unknown "degraded"
  let eligible ← item unknown "eligible_by_unknown_policy"
  let mode ← item unknown "mode"
  let codes ← item unknown "reason_codes"
  check (degraded = .bool true ∧ eligible = .bool true ∧ mode = .str "degraded" ∧
    codes = .arr [.str "unknown_capacity_degraded"]) (invalid "missing degraded evidence")

/-- The evidence of a candidate that is eligible, or of one that is not. -/
def eligibilityEvidence (fields : Fields) (eligible : Bool) : Except Failure Unit :=
  if eligible = true then do
    let _ ← item fields "capability_margin" >>= integer 0
    check (∀ key ∈ ["exclusion_stage", "hard_constraint_failures", "capability_failures"],
      key ∉ fields.map Prod.fst) (invalid "selected candidate carries failures")
    check ((fields.lookup "reason_codes").getD (.arr []) = .arr [])
      (invalid "selected candidate carries exclusion codes")
  else do
    let _ ← item fields "exclusion_stage" >>= string
    let codes ← item fields "reason_codes" >>= strings
    check (codes ≠ []) (invalid "missing exclusion evidence")

/-- A record that is a dictionary when it is there. -/
def opaqueObject (fields : Fields) (key : String) : Except Failure Unit :=
  forSome (fields.lookup key) fun value => do
    let _ ← object value
    return ()

/-- A record that is a list of dictionaries when it is there. -/
def opaqueObjects (fields : Fields) (key : String) : Except Failure Unit :=
  forSome (fields.lookup key) fun value => do
    let items ← array value
    items.forM fun v => do
      let _ ← object v
      return ()

/-- `_candidate`. -/
def candidate (eligible : Bool) (value : Json) : Except Failure Candidate := do
  let fields ← object value
  let identity ← item fields "identity" >>= identity
  let _ ← item fields "display_name" >>= string
  let effort ← item fields "reasoning_effort" >>= reasoningEffort
  let stated ← item fields "eligible"
  check (stated = .bool eligible) (invalid "invalid eligibility")
  let degraded ← item fields "degraded" >>= boolean
  given (degraded = true) (degradedEvidence fields)
  eligibilityEvidence fields eligible
  ["scarcity_assessment", "unknown_capacity_decision", "blackout_decision",
    "happy_hour_decision", "execution_eligibility"].forM (opaqueObject fields)
  ["reservation_decisions", "replenishment_evaluations", "hard_constraint_failures",
    "capability_failures"].forM (opaqueObjects fields)
  return ⟨identity, effort, degraded⟩

/-- A text of the published form of a knowledge reference. -/
def published (source identifier version : String) : Bool :=
  source = "model_intelligence" && version = "mi.utilization-working/1" &&
    ((after "urn:mi:utilization:sha256:" identifier).any fun d => Intake.isHex64 d.toList)

/-- A text that is not longer than a bound. -/
def bounded (maximum : ℕ) (value : Json) : Except Failure String := do
  let s ← string value
  check (s.length ≤ maximum) (invalid "invalid knowledge utilization value")
  return s

/-- `UtilizedKnowledge.from_reference`. -/
def UtilizedKnowledge.fromReference (value : Json) : Except Failure UtilizedKnowledge := do
  let fields ← object value
  check (Exactly fields ["source", "identifier", "version"])
    (invalid "invalid utilization reference fields")
  let source ← item fields "source" >>= safeId
  let identifier ← item fields "identifier" >>= bounded 512
  let version ← item fields "version" >>= bounded 128
  return ⟨published source identifier version, source, identifier, version⟩

/-- The profile a decision was expanded from. -/
def profileExpansion (decision : Fields) (profile : Option String) (version : Option ℕ) :
    Except Failure Unit :=
  match profile with
  | some profile => do
    let name ← item decision "profile_id"
    check (name = .str profile) (invalid "profile expansion mismatch")
    let stated ← item decision "profile_policy_version" >>= integer 1
    check (some stated = version) (invalid "profile expansion mismatch")
  | none => check ("profile_id" ∉ decision.map Prod.fst ∧
      "profile_policy_version" ∉ decision.map Prod.fst) (invalid "unexpected profile expansion")

/-- What `_decision` returns: the reason codes and the selected candidate, the evidence, and the
knowledge that was used. -/
structure Decision where
  reasonCodes : List String
  selected : Option Candidate
  evidence : String
  knowledge : Option UtilizedKnowledge
deriving DecidableEq

/-- The selected candidate of a decision; the alternatives are those of the decision. -/
def selection (decision : Fields) (codes : List String) (degraded : Bool)
    (alternatives : List Candidate) : Except Failure (Option Candidate) := do
  match ← item decision "selected" with
  | .null => do
    check ("no_eligible_candidate" ∈ codes ∧ alternatives = [] ∧ degraded = false)
      (invalid "invalid refusal")
    return none
  | value => do
    let selected ← candidate true value
    check ("selected_balanced" ∈ codes ∧
      (∀ c ∈ codes, c ∈ ["selected_balanced", "selected_degraded_capacity"]) ∧
      selected.degraded = degraded) (invalid "inconsistent selection")
    check (∀ a ∈ alternatives, a.identity ≠ selected.identity) (invalid "duplicate selection")
    return some selected

/-- The checks of where a decision comes from. -/
def provenance (calendar : Calendar) (decision : Fields) : Except Failure Unit := do
  let _ ← item decision "catalog_version" >>= integer 1
  let _ ← item decision "resource_policy_version" >>= integer 1
  let updated ← item decision "catalog_updated_on" >>= string
  check (calendar.isDate updated = true) (invalid "invalid decision provenance")
  let evaluated ← item decision "evaluated_at" >>= string
  check (calendar.isInstant evaluated = true) (invalid "invalid decision provenance")
  let mode ← item decision "selector_mode"
  check (mode = .str "balanced") (invalid "invalid decision provenance")

/-- `_decision`. -/
def decision (calendar : Calendar) (document : Fields) (requirement : Requirement)
    (profile : Option String) (version : Option ℕ) : Except Failure Decision := do
  let schema ← item document "schema_version"
  check (schema = .int 1) (invalid "unsupported schema")
  let decision ← item document "decision" >>= object
  let stated ← item decision "requirement"
  check (dumps stated = dumps requirement.payload) (invalid "requirement mismatch")
  provenance calendar decision
  profileExpansion decision profile version
  let degraded ← item decision "degraded" >>= boolean
  let codes ← item decision "reason_codes" >>= strings
  let preference ← item decision "preference_order" >>= array
  let _ ← preference.mapM identity
  forSome (decision.lookup "expired_happy_hour_rules") fun value => do
    let _ ← strings value
    return ()
  let alternatives ← item decision "alternatives" >>= array
  let alternatives ← alternatives.mapM (candidate true)
  ["excluded", "closest_candidates", "recoverable_candidates"].forM fun key => do
    let items ← item decision key >>= array
    let _ ← items.mapM (candidate false)
    return ()
  let selected ← selection decision codes degraded alternatives
  let knowledge ← match document.lookup "mi_utilization" with
    | none => .ok none
    | some value => some <$> UtilizedKnowledge.fromReference value
  let evidence := dumps (.obj document)
  check (evidence.length ≤ maxResponseBytes) (invalid "normalized provenance too large")
  return ⟨codes, selected, evidence, knowledge⟩

/-! ## Selection -/

/-- `PRODUCER_REVISION`. -/
def producerRevision : String := "5c48d51f1eb1f11424a5100eb2ccf20a6cba4581"

/-- What is sent for a request: the document, the requirement in it with its profile, and the
interface binding it was merged with. -/
structure Outgoing where
  wire : Json
  requirement : Requirement
  profile : Option String
  binding : Fields
deriving DecidableEq

/-- The document of a requirement. -/
def wireOf (requirement : Requirement) : Option String → Json
  | none => .obj [("requirement", requirement.payload)]
  | some profile => .obj [("profile_id", .str profile), ("tightening", requirement.payload)]

/-- `translate_ordinary`. -/
def translateOrdinary (handoff : RequirementsHandoff) : Except Failure ResourceRequest := do
  let o ← ordinary handoff
  return ⟨⟨"ordinary", by decide⟩, features o, o.requirement.hard.inputContext.getD 0, handoff⟩

/-- The value of a declaration. -/
def declarationValue (d : Intake.Declaration) : Json := (loads d.raw.val).getD .null

/-- `object_from`. -/
def objectFrom (text : String) : Except Failure Fields := do
  let value ← loadsUnique text
  object value

namespace ScarcityRouterAllocator

/-- The record of support of a runtime. -/
def support (a : ScarcityRouterAllocator) (runtimeId : Name) : Option RuntimeSupport :=
  a.runtimeSupport.find? fun s => s.runtimeId = runtimeId

/-- The pins of a requirement hold of a binding. -/
def Pinned (binding : Allocation) (hard : Hard) : Prop :=
  (∀ p ∈ hard.provider, p = binding.providerId.val) ∧
    (∀ m ∈ hard.model, m = (binding.providerId.val, binding.modelId.val)) ∧
    ∀ v ∈ binding.variant, ∀ r ∈ hard.variant, r = v

instance (binding : Allocation) (hard : Hard) : Decidable (Pinned binding hard) :=
  inferInstanceAs (Decidable (_ ∧ _ ∧ ∀ _ ∈ _, ∀ _ ∈ _, _))

/-- `_compatible`. -/
def compatible (a : ScarcityRouterAllocator) (binding : Allocation) (request : ResourceRequest)
    (requirement : Requirement) : Bool :=
  decide (request.contextTokens ≤ binding.contextTokens) &&
    if request.requirementsHandoff = none then
      decide (∀ c ∈ request.requiredCapabilities.toList, c ∈ binding.capabilities.toList)
    else decide (Pinned binding requirement.hard) &&
      (a.support binding.runtimeId).any fun s =>
        decide (∀ c ∈ request.requiredCapabilities.toList, c ∈ s.features.toList) &&
          decide (requirement.hard.outputTokens.getD 0 ≤ s.outputTokens)

/-- What must not contain the credential before a request is sent. -/
def sentEvidence (handoff : RequirementsHandoff) (approval : Fields) (wire : Json)
    (binding : Fields) : List Json :=
  [handoff.draft.payload, declarationValue handoff.draft.declaration, .obj approval, wire,
    .obj binding]

/-- The part of `select` before the exchange, for an approved handoff. -/
def outgoingOrdinary (a : ScarcityRouterAllocator) (request : ResourceRequest)
    (handoff : RequirementsHandoff) : Except Unavailable Outgoing := do
  let changed : Unavailable :=
    ⟨"ordinary requirements invalid or changed", none, .requestUnsupported⟩
  let translated ← (translateOrdinary handoff).mapError fun _ => changed
  check (translated = request) changed
  let o ← (ordinary handoff).mapError fun _ => changed
  check (o.profile = none ∨ a.profilePolicyVersion ≠ none)
    ⟨"profile policy version must be configured", none, .requestUnsupported⟩
  let wire := wireOf o.requirement o.profile
  check (∃ b ∈ a.runtimeBindings, a.compatible b request o.requirement = true)
    ⟨"ordinary requirements incompatible with configured harness", none, .selectionIncompatible⟩
  let approval ← (objectFrom handoff.decisionBytes).mapError fun _ =>
    ⟨"ordinary approval encoding invalid", none, .requestUnsupported⟩
  check (∀ key ∈ a.apiKey, ∀ v ∈ sentEvidence handoff approval wire o.binding,
      containsCredential key v = false)
    ⟨"ordinary evidence contains configured credential", none, .requestUnsupported⟩
  return ⟨wire, o.requirement, o.profile, o.binding⟩

/-- The part of `select` before the exchange, for the reference request. -/
def outgoingReference (request : ResourceRequest) : Except Unavailable Outgoing := do
  check (request.requiredCapabilities = SortedSet.ofList ["reference"])
    ⟨"unsupported Scarcity Router request capabilities", none, .requestUnsupported⟩
  let context := if request.contextTokens = 0 then none else some request.contextTokens
  let requirement : Requirement :=
    ⟨"L0", [], { Hard.none with toolUse := true, inputContext := context }⟩
  return ⟨wireOf requirement none, requirement, none, []⟩

/-- The part of `select` before the exchange. -/
def outgoing (a : ScarcityRouterAllocator) (request : ResourceRequest) :
    Except Unavailable Outgoing :=
  match request.requirementsHandoff with
  | some handoff => a.outgoingOrdinary request handoff
  | none => outgoingReference request

/-- The JSON form of a text that may be missing. -/
def optionalText (s : Option String) : Json := s.elim .null .str

/-- The JSON form of a record of support. -/
def supportPayload (s : RuntimeSupport) : Json :=
  .obj [("evidence_reference", .str s.evidenceReference.val),
    ("features", .arr (s.features.toList.map .str)), ("output_tokens", .int s.outputTokens),
    ("runtime_id", .str s.runtimeId.val), ("version", .str s.version.val)]

/-- The JSON form of a runtime binding. -/
def bindingPayload (b : Allocation) : Json :=
  .obj [("context_tokens", .int b.contextTokens), ("effort", optionalText b.reasoningEffort),
    ("model", .str b.modelId.val), ("provider", .str b.providerId.val),
    ("runtime_id", .str b.runtimeId.val), ("variant", optionalText b.variant)]

/-- The evidence of the requirements of a selection. -/
def requirementsEvidence (handoff : RequirementsHandoff) (out : Outgoing)
    (support : RuntimeSupport) (binding : Allocation) : Json :=
  .obj [("decision_bytes", .str handoff.decisionBytes), ("decision_id", .str handoff.decisionId),
    ("draft", handoff.draft.payload), ("interface", .obj out.binding),
    ("producer_revision", .str producerRevision), ("program_digest", .str handoff.programDigest),
    ("runtime_binding", bindingPayload binding), ("runtime_support", supportPayload support),
    ("sent_request", out.wire), ("version", .int 1)]

/-- The provenance of the requirements of a selection. -/
def requirementsProvenance (a : ScarcityRouterAllocator) (request : ResourceRequest)
    (out : Outgoing) (binding : Allocation) : Except Failure (Option String) :=
  match request.requirementsHandoff with
  | none => .ok none
  | some handoff => do
    let support ← lookup (invalid "StopIteration") a.support binding.runtimeId
    let evidence := requirementsEvidence handoff out support binding
    check (∀ key ∈ a.apiKey, containsCredential key evidence = false)
      (invalid "evidence contains configured credential")
    return some (dumps evidence)

/-- The binding a candidate selects. -/
def matching (a : ScarcityRouterAllocator) (c : Candidate) : List Allocation :=
  a.runtimeBindings.filter fun b => b.providerId.val = c.identity.1 ∧
    b.modelId.val = c.identity.2.1 ∧ b.reasoningEffort = c.reasoningEffort

/-- The allocation a binding and the variant of the selected identity make. -/
def allocated (a : ScarcityRouterAllocator) (request : ResourceRequest) (out : Outgoing)
    (decision : Decision) (binding : Allocation) (variant : String) :
    Except Failure Allocation := do
  let requirements ← a.requirementsProvenance request out binding
  return { binding with
    variant := some variant
    decisionProvenance := some decision.evidence
    rationale := "Scarcity Router: " ++ ", ".intercalate decision.reasonCodes
    requirementsProvenance := requirements
    knowledgeUtilization := decision.knowledge }

/-- The refusal of a response that is not valid. -/
def invalidResponse : Unavailable :=
  ⟨"Scarcity Router unavailable or invalid public response", none, .invalidResponse⟩

/-- The part of `select` about a valid decision. -/
def choose (a : ScarcityRouterAllocator) (request : ResourceRequest) (out : Outgoing)
    (decision : Decision) : Except Unavailable Allocation :=
  let incompatible : Unavailable :=
    ⟨"Scarcity Router selection is incompatible with configured runtime bindings",
      some decision.evidence, .selectionIncompatible⟩
  match decision.selected with
  | none => .error ⟨"Scarcity Router returned no eligible allocation", some decision.evidence,
      .noEligibleSelection⟩
  | some c =>
    match a.matching c with
    | [binding] => do
      let variant := c.identity.2.2
      check (a.compatible binding request out.requirement = true ∧
        (∀ v ∈ binding.variant, v = variant) ∧ ∀ v ∈ out.requirement.hard.variant, v = variant)
        incompatible
      (a.allocated request out decision binding variant).mapError fun _ => invalidResponse
    | _ => .error incompatible

/-- The part of `select` after the exchange. -/
def conclude (a : ScarcityRouterAllocator) (calendar : Calendar)
    (request : ResourceRequest) (out : Outgoing) : Reply → Except Unavailable Allocation
  | .failed category message => .error ⟨message, none, category⟩
  | .unreachable => .error ⟨"Scarcity Router endpoint unreachable", none, .endpointUnreachable⟩
  | .garbled => .error invalidResponse
  | .document fields => do
    check (∀ key ∈ a.apiKey, containsCredential key (.obj fields) = false) invalidResponse
    let decision ← (decision calendar fields out.requirement out.profile
      a.profilePolicyVersion).mapError fun _ => invalidResponse
    a.choose request out decision

/-- `select`; the exchange answers the document that is sent. -/
def select (a : ScarcityRouterAllocator) (calendar : Calendar) (exchange : Json → Reply)
    (request : ResourceRequest) : Except Unavailable Allocation := do
  let out ← a.outgoing request
  a.conclude calendar request out (exchange out.wire)

end ScarcityRouterAllocator

end Routing

end CreatidyKernel
