import CreatidyKernel.Routing.Router
import CreatidyKernel.Codec.Records

set_option relaxedAutoImplicit false
set_option autoImplicit false

/-!
# The codec of allocations

An Attempt is pinned to the text of its allocation. There are four layouts: the dictionary of the
first release, which has no version, and three with one. The encoder picks the version from the
optional parts that are there, and the decoder takes every layout.

## Main definitions

* `Routing.Allocation.Admitted` — what the constructor admits beyond the types of the fields.
* `Routing.encodeAllocation`, `Routing.decodeAllocation`, `Routing.isLegacyAllocation` — the codec.
* `Routing.Versioned`, `Routing.Canonical` — texts with a version, and texts as the encoder
  spells them.

## Main results

* `Routing.decode_encode`, `Routing.admitted_of_decode` — the round trip, and that the decoder
  admits what the constructor does.
* `Routing.allocation_codec` — both directions for every layout.
-/

namespace CreatidyKernel

namespace Routing

open Checked
open Codec (getField)
open ScarcityRouterAllocator (optionalText)

/-! ## What the constructors admit -/

/-- What the constructor of `UtilizedKnowledge` admits. -/
structure UtilizedKnowledge.Admitted (k : UtilizedKnowledge) : Prop where
  source : isIdentifier k.source.toList = true
  identifier : Nonblank k.identifier ∧ k.identifier.length ≤ 512
  version : Nonblank k.version ∧ k.version.length ≤ 128
  /-- The state does not contradict the contract of the producer. -/
  state : k.utilized = published k.source k.identifier k.version

/-- What the constructor of `Allocation` admits; the identities are nonblank and the context is
not negative by their types. -/
structure Allocation.Admitted (a : Allocation) : Prop where
  rationale : Nonblank a.rationale
  reasoningEffort : ∀ s ∈ a.reasoningEffort, Nonblank s
  variant : ∀ s ∈ a.variant, Nonblank s
  decisionProvenance : ∀ s ∈ a.decisionProvenance, Nonblank s
  requirementsProvenance : ∀ s ∈ a.requirementsProvenance, Nonblank s
  capabilities : ∀ c ∈ a.capabilities.toList, Nonblank c
  knowledge : ∀ k ∈ a.knowledgeUtilization, k.Admitted

/-! ## The encoder -/

/-- `KnowledgeState.value`. -/
def stateText (utilized : Bool) : String := if utilized = true then "utilized" else "unsupported_version"

/-- `UtilizedKnowledge.to_document`. -/
def UtilizedKnowledge.toDocument (k : UtilizedKnowledge) : Json :=
  .obj [("identifier", .str k.identifier), ("source", .str k.source),
    ("state", .str (stateText k.utilized)), ("version", .str k.version)]

/-- The version of the layout an allocation is written in. -/
def Allocation.version (a : Allocation) : ℤ :=
  if a.knowledgeUtilization ≠ none then 3
  else if a.requirementsProvenance ≠ none then 2 else 1

/-- The dictionary of an allocation: the knowledge is left out when there is none, and the
requirements in the first version. -/
def Allocation.entries (a : Allocation) : Fields :=
  [("capabilities", .arr (a.capabilities.toList.map .str)),
      ("context_tokens", .int a.contextTokens),
      ("decision_provenance", optionalText a.decisionProvenance)] ++
    (a.knowledgeUtilization.elim [] fun k => [("knowledge_utilization", k.toDocument)]) ++
    [("model_id", .str a.modelId.val), ("provider_id", .str a.providerId.val),
      ("rationale", .str a.rationale), ("reasoning_effort", optionalText a.reasoningEffort)] ++
    (if a.version = 1 then []
      else [("requirements_provenance", optionalText a.requirementsProvenance)]) ++
    [("runtime_id", .str a.runtimeId.val), ("variant", optionalText a.variant)]

/-- The document of an allocation. -/
def Allocation.document (a : Allocation) : Fields :=
  [("allocation", .obj a.entries), ("version", .int a.version)]

/-- `encode_allocation`. -/
def encodeAllocation (a : Allocation) : String := dumps (.obj a.document)

/-! ## The decoder -/

/-- `_object`. -/
def durableObject (data : String) : Except Failure Fields :=
  match loads data with
  | some (.obj fields) => .ok fields
  | some _ => .error (invalid "durable input must be a JSON object")
  | none => .error (invalid "invalid JSON")

/-- The state of a retained document. -/
def retainedState (value : Json) : Except Failure Bool :=
  if value = .str "utilized" then .ok true
  else if value = .str "unsupported_version" then .ok false
  else .error (invalid "invalid retained knowledge state")

/-- The source of a retained document. -/
def retainedSource : Json → Except Failure String
  | .str s => do
    check (isIdentifier s.toList = true) (invalid "invalid retained knowledge source")
    return s
  | _ => .error (invalid "invalid retained knowledge source")

/-- `_bounded`. -/
def retainedText (maximum : ℕ) : Json → Except Failure String
  | .str s => do
    check (Nonblank s ∧ s.length ≤ maximum) (invalid "invalid knowledge utilization value")
    return s
  | _ => .error (invalid "invalid knowledge utilization value")

/-- `UtilizedKnowledge.from_document`, of a dictionary. -/
def UtilizedKnowledge.fromDocument (fields : Fields) : Except Failure UtilizedKnowledge := do
  check (fields.map Prod.fst = ["identifier", "source", "state", "version"])
    (invalid "invalid retained knowledge document")
  let utilized ← retainedState (getField fields "state")
  let source ← retainedSource (getField fields "source")
  let identifier ← retainedText 512 (getField fields "identifier")
  let version ← retainedText 128 (getField fields "version")
  check (utilized = published source identifier version)
    (invalid "knowledge utilization state contradicts producer contract")
  return ⟨utilized, source, identifier, version⟩

/-- `_LEGACY_ALLOCATION`, in key order. -/
def legacyAllocation : List String :=
  ["capabilities", "context_tokens", "model_id", "provider_id", "rationale", "reasoning_effort",
    "runtime_id"]

/-- The keys of an allocation in a version, in key order. -/
def expected (version : ℤ) : List String :=
  ["capabilities", "context_tokens", "decision_provenance"] ++
    (if version = 3 then ["knowledge_utilization"] else []) ++
    ["model_id", "provider_id", "rationale", "reasoning_effort"] ++
    (if 2 ≤ version then ["requirements_provenance"] else []) ++ ["runtime_id", "variant"]

/-- A capability of a dictionary. -/
def capabilityName : Json → Except Failure String
  | .str s => .ok s
  | _ => .error (invalid "invalid allocation capabilities")

/-- The capabilities of a dictionary: distinct texts in order. -/
def capabilityNames : Json → Except Failure (SortedSet String)
  | .arr items => do
    let names ← items.mapM capabilityName
    check (names = (SortedSet.ofList names).toList)
      (invalid "allocation capabilities must be canonical")
    return SortedSet.ofList names
  | _ => .error (invalid "invalid allocation capabilities")

/-- A text the constructor requires to be nonblank. -/
def required (failure : Failure) : Json → Except Failure Name
  | .str s => if h : Nonblank s then .ok ⟨s, h⟩ else .error failure
  | _ => .error failure

/-- A text the constructor requires to be nonblank when there is one. -/
def optionalRequired (failure : Failure) : Json → Except Failure (Option String)
  | .null => .ok none
  | value => (fun n => some n.val) <$> required failure value

/-- `context_tokens`, of the constructor. -/
def contextTokens : Json → Except Failure ℕ
  | .int n => do
    check (0 ≤ n) (invalid "context_tokens must be a nonnegative integer")
    return n.toNat
  | _ => .error (invalid "context_tokens must be a nonnegative integer")

/-- The end of `decode_allocation`: the keys, the capabilities, and the constructor. -/
def allocationFrom (value : Fields) (names : List String) (knowledge : Option UtilizedKnowledge) :
    Except Failure Allocation := do
  check (value.map Prod.fst = names) (invalid "invalid allocation fields")
  let capabilities ← capabilityNames (getField value "capabilities")
  let empty := invalid "allocation identities and rationale must be nonempty"
  let runtimeId ← required empty (getField value "runtime_id")
  let providerId ← required empty (getField value "provider_id")
  let modelId ← required empty (getField value "model_id")
  let rationale ← required empty (getField value "rationale")
  let effort ← optionalRequired (invalid "reasoning_effort must be nonempty when specified")
    (getField value "reasoning_effort")
  let unspecified := invalid "optional allocation evidence must be nonempty when specified"
  let variant ← optionalRequired unspecified (getField value "variant")
  let decision ← optionalRequired unspecified (getField value "decision_provenance")
  let requirements ← optionalRequired unspecified (getField value "requirements_provenance")
  check (∀ c ∈ capabilities.toList, Nonblank c)
    (invalid "capabilities must be an immutable set of nonempty identifiers")
  let contextTokens ← contextTokens (getField value "context_tokens")
  return ⟨runtimeId, providerId, modelId, capabilities, contextTokens, rationale.val, effort,
    variant, decision, requirements, knowledge⟩

/-- The version of a document and the dictionary in it. -/
def versionedObject (document : Fields) : Except Failure (ℤ × Fields) :=
  match getField document "version" with
  | .int version => do
    check (document.map Prod.fst = ["allocation", "version"] ∧ version ∈ [1, 2, 3])
      (invalid "unsupported allocation document version")
    match getField document "allocation" with
    | .obj value => return (version, value)
    | _ => .error (invalid "invalid allocation document")
  | _ => .error (invalid "unsupported allocation document version")

/-- A text that is not empty. -/
def isText : Json → Bool
  | .str s => s != ""
  | _ => false

/-- The requirements of a dictionary, from the second version on; only the second needs some. -/
def requirementsChecked (version : ℤ) (requirements : Json) : Except Failure Unit := do
  given (version = 2) <| check (isText requirements = true)
    (invalid "ordinary allocation requires original requirements evidence")
  given (requirements ≠ .null) <| check (isText requirements = true)
    (invalid "invalid allocation requirements evidence")

/-- The knowledge of a dictionary, which the third version has. -/
def retainedKnowledge (version : ℤ) (retained : Json) :
    Except Failure (Option UtilizedKnowledge) :=
  if version = 3 then
    match retained with
    | .obj fields => some <$> UtilizedKnowledge.fromDocument fields
    | _ => .error (invalid "retained knowledge utilization evidence required")
  else .ok none

/-- `decode_allocation`. -/
def decodeAllocation (data : String) : Except Failure Allocation := do
  let document ← durableObject data
  if "version" ∈ document.map Prod.fst then do
    let (version, value) ← versionedObject document
    given (2 ≤ version) <|
      requirementsChecked version (getField value "requirements_provenance")
    let knowledge ← retainedKnowledge version (getField value "knowledge_utilization")
    allocationFrom value (expected version) knowledge
  else allocationFrom document legacyAllocation none

/-- `is_legacy_allocation`. -/
def isLegacyAllocation (data : String) : Except Failure Bool := do
  let allocation ← decodeAllocation data
  let document ← durableObject data
  return decide ("version" ∉ document.map Prod.fst ∧ allocation.reasoningEffort = none ∧
    allocation.variant = none ∧ allocation.decisionProvenance = none)

/-! ## The parts of a dictionary -/

theorem required_eq_ok {failure : Failure} {value : Json} {n : Name} :
    required failure value = .ok n ↔ value = .str n.val := by
  unfold required
  split
  · next s =>
    constructor
    · intro h
      split at h
      · cases h
        rfl
      · cases h
    · intro h
      cases h
      exact dif_pos n.2
  · next hne => simpa using hne n.val

theorem optionalRequired_eq_ok {failure : Failure} {value : Json} {o : Option String} :
    optionalRequired failure value = .ok o ↔
      value = optionalText o ∧ ∀ s ∈ o, Nonblank s := by
  unfold optionalRequired
  split
  · cases o <;> simp [optionalText]
  · next hne =>
    rw [map_eq_ok]
    constructor
    · rintro ⟨n, hn, rfl⟩
      exact ⟨required_eq_ok.mp hn, by simpa using n.2⟩
    · rintro ⟨rfl, ho⟩
      cases o with
      | none => exact absurd rfl hne
      | some s => exact ⟨⟨s, ho s rfl⟩, required_eq_ok.mpr rfl, rfl⟩

theorem capabilityName_eq_ok {value : Json} {s : String} :
    capabilityName value = .ok s ↔ value = .str s := by
  unfold capabilityName
  split
  · simp
  · next hne => simpa using hne s

theorem capabilityNames_eq_ok {value : Json} {s : SortedSet String} :
    capabilityNames value = .ok s ↔ value = .arr (s.toList.map .str) := by
  unfold capabilityNames
  split
  · next items =>
    constructor
    · intro h
      obtain ⟨names, hnames, h⟩ := bind_eq_ok.mp h
      obtain ⟨hcanonical, h⟩ := check_bind_eq_ok.mp h
      cases h
      rw [← hcanonical]
      have hitems : items = names.map .str := by
        have hall := mapM_eq_ok.mp hnames
        rw [← List.forall₂_eq_eq_eq, List.forall₂_map_right_iff]
        exact hall.imp fun _ _ h => capabilityName_eq_ok.mp h
      rw [hitems]
    · intro h
      cases h
      refine bind_of_ok (mapM_map fun _ _ => rfl) ?_
      rw [SortedSet.ofList_toList]
      exact bind_of_ok (check_of rfl) rfl
  · next hne => simpa using hne (s.toList.map .str)

theorem contextTokens_eq_ok {value : Json} {n : ℕ} :
    contextTokens value = .ok n ↔ value = .int n := by
  unfold contextTokens
  split
  · next m =>
    rw [check_bind_eq_ok, pure_eq_ok, Json.int.injEq]
    omega
  · next hne => simpa using hne n

theorem retainedState_eq_ok {value : Json} {utilized : Bool} :
    retainedState value = .ok utilized ↔ value = .str (stateText utilized) := by
  unfold retainedState
  split_ifs with hu hs
  · subst hu
    cases utilized <;> simp [stateText]
  · subst hs
    cases utilized <;> simp [stateText]
  · cases utilized <;> simp [stateText, hu, hs]

theorem retainedSource_eq_ok {value : Json} {s : String} :
    retainedSource value = .ok s ↔ value = .str s ∧ isIdentifier s.toList = true := by
  unfold retainedSource
  split
  · next t =>
    rw [check_bind_eq_ok, pure_eq_ok, Json.str.injEq]
    constructor
    · rintro ⟨h, rfl⟩
      exact ⟨rfl, h⟩
    · rintro ⟨rfl, h⟩
      exact ⟨h, rfl⟩
  · next hne => simpa using fun h => absurd h (hne s)

theorem retainedText_eq_ok {maximum : ℕ} {value : Json} {s : String} :
    retainedText maximum value = .ok s ↔
      value = .str s ∧ Nonblank s ∧ s.length ≤ maximum := by
  unfold retainedText
  split
  · next t =>
    rw [check_bind_eq_ok, pure_eq_ok, Json.str.injEq]
    constructor
    · rintro ⟨h, rfl⟩
      exact ⟨rfl, h⟩
    · rintro ⟨rfl, h⟩
      exact ⟨h, rfl⟩
  · next hne => simpa using fun h => absurd h (hne s)

/-- A retained document is decoded to the knowledge it is the document of. -/
theorem fromDocument_eq_ok {fields : Fields} {k : UtilizedKnowledge} :
    UtilizedKnowledge.fromDocument fields = .ok k ↔
      .obj fields = k.toDocument ∧ k.Admitted := by
  unfold UtilizedKnowledge.fromDocument
  constructor
  · intro h
    obtain ⟨hkeys, h⟩ := check_bind_eq_ok.mp h
    obtain ⟨utilized, hutilized, h⟩ := bind_eq_ok.mp h
    obtain ⟨source, hsource, h⟩ := bind_eq_ok.mp h
    obtain ⟨identifier, hidentifier, h⟩ := bind_eq_ok.mp h
    obtain ⟨version, hversion, h⟩ := bind_eq_ok.mp h
    obtain ⟨hstate, h⟩ := check_bind_eq_ok.mp h
    cases h
    rw [retainedState_eq_ok] at hutilized
    rw [retainedSource_eq_ok] at hsource
    rw [retainedText_eq_ok] at hidentifier hversion
    refine ⟨?_, hsource.2, hidentifier.2, hversion.2, hstate⟩
    have hfields : fields = _ := Codec.eq_map_getField (by rw [hkeys]; decide)
    rw [hkeys] at hfields
    simp only [List.map_cons, List.map_nil, hutilized, hsource.1, hidentifier.1, hversion.1]
      at hfields
    exact congrArg Json.obj hfields
  · rintro ⟨hfields, hk⟩
    obtain rfl := Json.obj.inj hfields
    exact bind_of_ok (check_of rfl) <| bind_of_ok (retainedState_eq_ok.mpr rfl) <|
      bind_of_ok (retainedSource_eq_ok.mpr ⟨rfl, hk.source⟩) <|
      bind_of_ok (retainedText_eq_ok.mpr ⟨rfl, hk.identifier⟩) <|
      bind_of_ok (retainedText_eq_ok.mpr ⟨rfl, hk.version⟩) <|
      bind_of_ok (check_of hk.state) rfl

/-! ## Dictionaries of allocations -/

/-- What the values of a dictionary say about the allocation that is read from it. -/
structure Describes (value : Fields) (a : Allocation) : Prop where
  capabilities : getField value "capabilities" = .arr (a.capabilities.toList.map .str)
  runtimeId : getField value "runtime_id" = .str a.runtimeId.val
  providerId : getField value "provider_id" = .str a.providerId.val
  modelId : getField value "model_id" = .str a.modelId.val
  rationale : getField value "rationale" = .str a.rationale
  reasoningEffort : getField value "reasoning_effort" = optionalText a.reasoningEffort
  variant : getField value "variant" = optionalText a.variant
  decision : getField value "decision_provenance" = optionalText a.decisionProvenance
  requirements : getField value "requirements_provenance" = optionalText a.requirementsProvenance
  contextTokens : getField value "context_tokens" = .int a.contextTokens

/-- A dictionary is read as the allocation its values state, when the constructor admits it. -/
theorem allocationFrom_eq_ok {value : Fields} {names : List String}
    {knowledge : Option UtilizedKnowledge} {a : Allocation}
    (hk : ∀ k ∈ knowledge, k.Admitted) :
    allocationFrom value names knowledge = .ok a ↔ value.map Prod.fst = names ∧
      Describes value a ∧ a.knowledgeUtilization = knowledge ∧ a.Admitted := by
  unfold allocationFrom
  constructor
  · intro h
    obtain ⟨hkeys, h⟩ := check_bind_eq_ok.mp h
    obtain ⟨capabilities, hcapabilities, h⟩ := bind_eq_ok.mp h
    obtain ⟨runtimeId, hruntime, h⟩ := bind_eq_ok.mp h
    obtain ⟨providerId, hprovider, h⟩ := bind_eq_ok.mp h
    obtain ⟨modelId, hmodel, h⟩ := bind_eq_ok.mp h
    obtain ⟨rationale, hrationale, h⟩ := bind_eq_ok.mp h
    obtain ⟨effort, heffort, h⟩ := bind_eq_ok.mp h
    obtain ⟨variant, hvariant, h⟩ := bind_eq_ok.mp h
    obtain ⟨decision, hdecision, h⟩ := bind_eq_ok.mp h
    obtain ⟨requirements, hrequirements, h⟩ := bind_eq_ok.mp h
    obtain ⟨hnonblank, h⟩ := check_bind_eq_ok.mp h
    obtain ⟨tokens, htokens, h⟩ := bind_eq_ok.mp h
    cases h
    rw [capabilityNames_eq_ok] at hcapabilities
    rw [required_eq_ok] at hruntime hprovider hmodel hrationale
    rw [optionalRequired_eq_ok] at heffort hvariant hdecision hrequirements
    rw [contextTokens_eq_ok] at htokens
    refine ⟨hkeys, ?_, rfl, ?_⟩
    · exact ⟨hcapabilities, hruntime, hprovider, hmodel, hrationale, heffort.1, hvariant.1,
        hdecision.1, hrequirements.1, htokens⟩
    · exact ⟨rationale.2, heffort.2, hvariant.2, hdecision.2, hrequirements.2, hnonblank, hk⟩
  · rintro ⟨hkeys, hs, hknowledge, ha⟩
    refine bind_of_ok (check_of hkeys) <|
      bind_of_ok (capabilityNames_eq_ok.mpr hs.capabilities) <|
      bind_of_ok (required_eq_ok.mpr hs.runtimeId) <|
      bind_of_ok (required_eq_ok.mpr hs.providerId) <|
      bind_of_ok (required_eq_ok.mpr hs.modelId) <|
      bind_of_ok (a := ⟨a.rationale, ha.rationale⟩) (required_eq_ok.mpr hs.rationale) <|
      bind_of_ok (optionalRequired_eq_ok.mpr ⟨hs.reasoningEffort, ha.reasoningEffort⟩) <|
      bind_of_ok (optionalRequired_eq_ok.mpr ⟨hs.variant, ha.variant⟩) <|
      bind_of_ok (optionalRequired_eq_ok.mpr ⟨hs.decision, ha.decisionProvenance⟩) <|
      bind_of_ok (optionalRequired_eq_ok.mpr ⟨hs.requirements, ha.requirementsProvenance⟩) <|
      bind_of_ok (check_of ha.capabilities) <|
      bind_of_ok (contextTokens_eq_ok.mpr hs.contextTokens) ?_
    subst hknowledge
    rfl

/-- The keys of the entries of an allocation are those its version has. -/
theorem entries_keys (a : Allocation) : a.entries.map Prod.fst = expected a.version := by
  unfold Allocation.entries Allocation.version
  cases a.knowledgeUtilization <;> cases a.requirementsProvenance <;> rfl

/-- The entries of an allocation state it. -/
theorem describes_entries (a : Allocation) : Describes a.entries a := by
  obtain ⟨runtimeId, providerId, modelId, capabilities, tokens, rationale, effort, variant,
    decision, requirements, knowledge⟩ := a
  cases knowledge <;> cases requirements <;> constructor <;> rfl

/-- The knowledge among the entries of an allocation. -/
theorem getField_knowledge (a : Allocation) :
    getField a.entries "knowledge_utilization" =
      (a.knowledgeUtilization.elim .null UtilizedKnowledge.toDocument) := by
  obtain ⟨runtimeId, providerId, modelId, capabilities, tokens, rationale, effort, variant,
    decision, requirements, knowledge⟩ := a
  cases knowledge <;> cases requirements <;> rfl

/-- A dictionary with the keys and the values of an allocation is that of the allocation. -/
theorem eq_entries {value : Fields} {a : Allocation} (hkeys : value.map Prod.fst = expected a.version)
    (hs : Describes value a) (hknowledge : getField value "knowledge_utilization" =
      a.knowledgeUtilization.elim .null UtilizedKnowledge.toDocument) : value = a.entries := by
  have hnodup : (expected a.version).Nodup := by
    unfold Allocation.version
    split_ifs <;> decide
  have hsub : ∀ k ∈ expected a.version, k ∈ expected 3 := by
    unfold Allocation.version
    split_ifs <;> decide
  have ha := describes_entries a
  have hget : ∀ k ∈ expected 3, getField value k = getField a.entries k := by
    simp only [expected, List.forall_mem_append, List.forall_mem_cons, List.not_mem_nil,
      IsEmpty.forall_iff, implies_true, and_true, if_true, Int.reduceLE]
    exact ⟨⟨⟨⟨⟨hs.capabilities.trans ha.capabilities.symm,
      hs.contextTokens.trans ha.contextTokens.symm, hs.decision.trans ha.decision.symm⟩,
      hknowledge.trans (getField_knowledge a).symm⟩, hs.modelId.trans ha.modelId.symm,
      hs.providerId.trans ha.providerId.symm, hs.rationale.trans ha.rationale.symm,
      hs.reasoningEffort.trans ha.reasoningEffort.symm⟩,
      hs.requirements.trans ha.requirements.symm⟩, hs.runtimeId.trans ha.runtimeId.symm,
      hs.variant.trans ha.variant.symm⟩
  calc value = (value.map Prod.fst).map fun k => (k, getField value k) :=
        Codec.eq_map_getField (by rw [hkeys]; exact hnodup)
    _ = (expected a.version).map fun k => (k, getField a.entries k) := by
        rw [hkeys]
        exact List.map_congr_left fun k hk => by rw [hget k (hsub k hk)]
    _ = (a.entries.map Prod.fst).map fun k => (k, getField a.entries k) := by rw [entries_keys]
    _ = a.entries := (Codec.eq_map_getField (by rw [entries_keys]; exact hnodup)).symm

theorem versionedObject_eq_ok {document value : Fields} {version : ℤ} :
    versionedObject document = .ok (version, value) ↔
      document = [("allocation", .obj value), ("version", .int version)] ∧
        version ∈ [1, 2, 3] := by
  unfold versionedObject
  constructor
  · intro h
    split at h
    · next n hversion =>
      obtain ⟨⟨hkeys, hn⟩, h⟩ := check_bind_eq_ok.mp h
      split at h
      · next fields hallocation =>
        cases h
        have hdocument : document = _ := Codec.eq_map_getField (by rw [hkeys]; decide)
        rw [hkeys] at hdocument
        simp only [List.map_cons, List.map_nil, hversion, hallocation] at hdocument
        exact ⟨hdocument, hn⟩
      · cases h
    · cases h
  · rintro ⟨rfl, hversion⟩
    exact bind_of_ok (check_of ⟨rfl, hversion⟩) rfl

theorem requirementsChecked_eq_ok {version : ℤ} {requirements : Json} {u : Unit} :
    requirementsChecked version requirements = .ok u ↔
      (version = 2 → isText requirements = true) ∧
        (requirements ≠ .null → isText requirements = true) := by
  unfold requirementsChecked
  constructor
  · intro h
    obtain ⟨_, hsome, h⟩ := bind_eq_ok.mp h
    rw [given_eq_ok] at hsome h
    exact ⟨fun hv => check_eq_ok.mp (hsome hv), fun hr => check_eq_ok.mp (h hr)⟩
  · rintro ⟨hsome, h⟩
    exact bind_of_ok (a := ()) (given_eq_ok.mpr fun hv => check_eq_ok.mpr (hsome hv))
      (given_eq_ok.mpr fun hr => check_eq_ok.mpr (h hr))

theorem isText_optionalText {o : Option String} (h : ∀ s ∈ o, Nonblank s) :
    isText (optionalText o) = true ↔ o ≠ none := by
  cases o with
  | none => simp [optionalText, isText]
  | some s =>
    have hs : s ≠ "" := by
      rintro rfl
      exact absurd (h "" rfl) (by decide)
    simp [optionalText, isText, hs]

theorem retainedKnowledge_eq_ok {version : ℤ} {retained : Json}
    {knowledge : Option UtilizedKnowledge} :
    retainedKnowledge version retained = .ok knowledge ↔
      (version = 3 ↔ knowledge ≠ none) ∧
        ∀ k ∈ knowledge, retained = k.toDocument ∧ k.Admitted := by
  unfold retainedKnowledge
  split_ifs with hversion
  · split
    · next fields =>
      rw [map_eq_ok]
      constructor
      · rintro ⟨k, hk, rfl⟩
        simpa [hversion] using fromDocument_eq_ok.mp hk
      · rintro ⟨hsome, hk⟩
        obtain ⟨k, rfl⟩ := Option.ne_none_iff_exists'.mp (hsome.mp hversion)
        exact ⟨k, fromDocument_eq_ok.mpr (hk k rfl), rfl⟩
    · next hne =>
      refine iff_of_false (by simp) ?_
      rintro ⟨hsome, hk⟩
      obtain ⟨k, rfl⟩ := Option.ne_none_iff_exists'.mp (hsome.mp hversion)
      exact hne _ (hk k rfl).1
  · cases knowledge <;> simp [hversion]

/-- The version of an allocation that was read is that of its document. -/
theorem version_eq {value : Fields} {version : ℤ} {a : Allocation} (hmem : version ∈ [1, 2, 3])
    (hkeys : value.map Prod.fst = expected version) (hs : Describes value a) (ha : a.Admitted)
    (hknowledge : version = 3 ↔ a.knowledgeUtilization ≠ none)
    (hrequirements : version = 2 → isText (getField value "requirements_provenance") = true) :
    a.version = version := by
  have htext := isText_optionalText ha.requirementsProvenance
  rw [← hs.requirements] at htext
  have hnone : version = 1 → a.requirementsProvenance = none := by
    rintro rfl
    have hnull : getField value "requirements_provenance" = .null :=
      Codec.getField_of_notMem (by rw [hkeys]; decide)
    rw [hs.requirements] at hnull
    cases hr : a.requirementsProvenance with
    | none => rfl
    | some s => rw [hr] at hnull; cases hnull
  unfold Allocation.version
  split_ifs with hk hr
  · exact (hknowledge.mpr hk).symm
  · have hthree : version ≠ 3 := fun h => hk (hknowledge.mp h)
    have hone : version ≠ 1 := fun h => hr (hnone h)
    simp only [List.mem_cons, List.not_mem_nil, or_false] at hmem
    omega
  · have hthree : version ≠ 3 := fun h => hk (hknowledge.mp h)
    have htwo : version ≠ 2 := fun h => htext.mp (hrequirements h) (not_not.mp hr)
    simp only [List.mem_cons, List.not_mem_nil, or_false] at hmem
    omega

/-- A document with a version is decoded to the allocation it is the document of, when the
constructor admits it. -/
theorem decode_versioned {data : String} {document : Fields}
    (hload : durableObject data = .ok document) (hversion : "version" ∈ document.map Prod.fst)
    {a : Allocation} :
    decodeAllocation data = .ok a ↔ document = a.document ∧ a.Admitted := by
  unfold decodeAllocation
  rw [hload, ok_bind, if_pos hversion]
  constructor
  · intro h
    obtain ⟨⟨version, value⟩, hobject, h⟩ := bind_eq_ok.mp h
    obtain ⟨_, hrequirements, h⟩ := bind_eq_ok.mp h
    obtain ⟨knowledge, hknowledge, h⟩ := bind_eq_ok.mp h
    obtain ⟨hthree, hk⟩ := retainedKnowledge_eq_ok.mp hknowledge
    obtain ⟨hkeys, hs, hutilized, ha⟩ := (allocationFrom_eq_ok fun k hk' => (hk k hk').2).mp h
    obtain ⟨hdocument, hmem⟩ := versionedObject_eq_ok.mp hobject
    subst hutilized
    have hv : a.version = version := by
      refine version_eq hmem hkeys hs ha hthree fun htwo => ?_
      have hgiven := given_eq_ok.mp hrequirements (by omega)
      exact (requirementsChecked_eq_ok.mp hgiven).1 htwo
    have hread : getField value "knowledge_utilization" =
        a.knowledgeUtilization.elim .null UtilizedKnowledge.toDocument := by
      cases hu : a.knowledgeUtilization with
      | some k => exact (hk k hu).1
      | none =>
        have hthree' : version ≠ 3 := fun h => hthree.mp h hu
        apply Codec.getField_of_notMem
        rw [hkeys, expected, if_neg hthree']
        split_ifs <;> decide
    rw [← hv] at hkeys
    have hvalue := eq_entries hkeys hs hread
    rw [hdocument, hvalue, ← hv]
    exact ⟨rfl, ha⟩
  · rintro ⟨rfl, ha⟩
    have hs := describes_entries a
    have hv : a.version ∈ [1, 2, 3] := by
      unfold Allocation.version
      split_ifs <;> decide
    refine bind_of_ok (versionedObject_eq_ok.mpr ⟨rfl, hv⟩) <| bind_of_ok (a := ()) ?_ <|
      bind_of_ok (a := a.knowledgeUtilization) (retainedKnowledge_eq_ok.mpr ⟨?_, fun k hk => ⟨?_, ha.knowledge k hk⟩⟩) <|
      (allocationFrom_eq_ok ha.knowledge).mpr ⟨entries_keys a, hs, rfl, ha⟩
    · refine given_eq_ok.mpr fun _ => requirementsChecked_eq_ok.mpr ⟨fun htwo => ?_, fun hne => ?_⟩
      · rw [hs.requirements, isText_optionalText ha.requirementsProvenance]
        intro hnone
        have hv2 : a.version ≠ 2 := by
          unfold Allocation.version
          simp only [hnone]
          split_ifs <;> simp_all
        exact hv2 htwo
      · rw [hs.requirements] at hne ⊢
        rw [isText_optionalText ha.requirementsProvenance]
        intro hnone
        rw [hnone] at hne
        exact hne rfl
    · unfold Allocation.version
      split_ifs with h1 h2 <;> simp_all
    · rw [getField_knowledge, Option.mem_def.mp hk]
      rfl

/-! ## The codec -/

/-- The text is a document with a version. -/
def Versioned (data : String) : Prop :=
  ∃ document, durableObject data = .ok document ∧ "version" ∈ document.map Prod.fst

/-- The text is spelled as `json.dumps` spells the value it denotes. -/
def Canonical (data : String) : Prop := ∃ value, loads data = some value ∧ dumps value = data

theorem optionalText_wf (o : Option String) : (optionalText o).WF := by
  cases o <;> simp [optionalText]

theorem document_wf (a : Allocation) : (Json.obj a.document).WF := by
  have hentries : (Json.obj a.entries).WF := by
    have hk : ∀ k : UtilizedKnowledge, k.toDocument.WF := fun k => by
      simp only [UtilizedKnowledge.toDocument, Json.wf_obj, List.map_cons, List.map_nil]
      exact ⟨by decide, by simp⟩
    rw [Json.wf_obj, entries_keys]
    constructor
    · unfold Allocation.version
      split_ifs <;> decide
    · unfold Allocation.entries
      cases a.knowledgeUtilization <;> split_ifs <;> simp [optionalText_wf, hk]
  simp only [Allocation.document, Json.wf_obj, List.map_cons, List.map_nil]
  exact ⟨by decide, by simpa using hentries⟩

theorem durableObject_encode (a : Allocation) :
    durableObject (encodeAllocation a) = .ok a.document := by
  unfold durableObject encodeAllocation
  rw [loads_dumps (document_wf a)]

theorem versioned_encode (a : Allocation) : Versioned (encodeAllocation a) :=
  ⟨a.document, durableObject_encode a, by simp [Allocation.document]⟩

/-- The text of an allocation is decoded to the allocation. -/
theorem decode_encode {a : Allocation} (h : a.Admitted) :
    decodeAllocation (encodeAllocation a) = .ok a :=
  (decode_versioned (durableObject_encode a) (by simp [Allocation.document])).mpr ⟨rfl, h⟩

/-- What is decoded, with or without a version, is what the constructor admits. -/
theorem admitted_of_decode {data : String} {a : Allocation} (h : decodeAllocation data = .ok a) :
    a.Admitted := by
  obtain ⟨document, hload, hrest⟩ := bind_eq_ok.mp h
  by_cases hversion : "version" ∈ document.map Prod.fst
  · exact ((decode_versioned hload hversion).mp h).2
  · rw [if_neg hversion] at hrest
    exact ((allocationFrom_eq_ok (by simp)).mp hrest).2.2.2

/-- A canonical text with a version is the encoding of what it is decoded to. -/
theorem encode_decode {data : String} {a : Allocation} (hversion : Versioned data)
    (hcanonical : Canonical data) (h : decodeAllocation data = .ok a) :
    encodeAllocation a = data := by
  obtain ⟨document, hload, hmem⟩ := hversion
  obtain ⟨value, hvalue, htext⟩ := hcanonical
  obtain ⟨rfl, -⟩ := (decode_versioned hload hmem).mp h
  unfold durableObject at hload
  rw [hvalue] at hload
  cases value with
  | obj fields =>
    cases hload
    exact htext
  | _ => cases hload

/-- The codec of allocations. Every allocation the constructor admits is decoded from its text,
which is not a legacy one, and two of them never share a text; what is decoded is admitted, and
encoding what a canonical text with a version was decoded to gives the text back, so a version is
kept with every field; a text without a version is the encoding of no allocation. -/
theorem allocation_codec :
    (∀ a : Allocation, a.Admitted → decodeAllocation (encodeAllocation a) = .ok a ∧
      isLegacyAllocation (encodeAllocation a) = .ok false) ∧
    (∀ a b : Allocation, a.Admitted → b.Admitted → encodeAllocation a = encodeAllocation b →
      a = b) ∧
    (∀ (data : String) (a : Allocation), decodeAllocation data = .ok a → a.Admitted ∧
      (Versioned data → Canonical data → encodeAllocation a = data)) ∧
    ∀ data : String, ¬Versioned data → ∀ a : Allocation, encodeAllocation a ≠ data := by
  refine ⟨fun a ha => ⟨decode_encode ha, ?_⟩, fun a b ha hb heq => ?_, fun data a h => ?_,
    fun data hdata a heq => ?_⟩
  · refine bind_of_ok (decode_encode ha) (bind_of_ok (durableObject_encode a) ?_)
    simp [Allocation.document]
  · have hdecode := decode_encode ha
    rw [heq, decode_encode hb] at hdecode
    exact (Except.ok.inj hdecode).symm
  · exact ⟨admitted_of_decode h, fun hversion hcanonical => encode_decode hversion hcanonical h⟩
  · rw [← heq] at hdata
    exact hdata (versioned_encode a)

end Routing

end CreatidyKernel
