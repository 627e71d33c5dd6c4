import CreatidyKernel.Intake.Records

set_option relaxedAutoImplicit false
set_option autoImplicit false

/-!
# Requirements of a recommendation

An approved declaration states what a model must be able to do in two markers: the quality
requirement, and the interface binding. Both are texts the proposer wrote; they are read, merged
into one requirement, and projected to a set of features the harness must have.

## Main definitions

* `Routing.parse` — the bounded decoder of the markers, which refuses repeated keys.
* `Routing.Requirement`, `Routing.Interface` — what the markers state.
* `Routing.requirement`, `Routing.interface`, `Routing.merge` — reading and merging them.
* `Routing.ordinary`, `Routing.features` — the requirement of a handoff, and its features.
-/

namespace CreatidyKernel

namespace Routing

open Checked

/-- A refusal of the translation. -/
def invalid (message : String) : Failure := ⟨.valueError, message⟩

/-- The fields of a dictionary. -/
abbrev Fields := List (String × Json)

/-! ## Documents -/

/-- `MAX_RESPONSE_BYTES`. -/
def maxResponseBytes : ℕ := 256 * 1024

/-- `MAX_JSON_DEPTH`. -/
def maxJsonDepth : ℤ := 32

/-- The characters of a text outside its strings: the flags say whether the text so far ends in a
string, and there after a backslash. -/
def outside : Bool → Bool → List Char → List Char
  | _, _, [] => []
  | true, true, _ :: cs => outside true false cs
  | true, false, c :: cs =>
    if c = '\\' then outside true true cs
    else if c = '"' then outside false false cs
    else outside true false cs
  | false, _, c :: cs =>
    if c = '"' then outside true false cs else c :: outside false false cs

/-- The brackets of a text never nest deeper than the bound. -/
def withinDepth : ℤ → List Char → Bool
  | _, [] => true
  | depth, c :: cs =>
    if c = '[' ∨ c = '{' then decide (depth + 1 ≤ maxJsonDepth) && withinDepth (depth + 1) cs
    else if c = ']' ∨ c = '}' then withinDepth (depth - 1) cs
    else withinDepth depth cs

mutual

/-- How many fields the dictionaries in a value have. -/
def fieldCount : Json → ℕ
  | .arr items => fieldCountItems items
  | .obj fields => fieldCountFields fields
  | _ => 0

/-- How many fields the dictionaries in some items have. -/
def fieldCountItems : List Json → ℕ
  | [] => 0
  | v :: vs => fieldCount v + fieldCountItems vs

/-- How many fields some fields and the dictionaries in them have. -/
def fieldCountFields : List (String × Json) → ℕ
  | [] => 0
  | (_, v) :: fs => 1 + fieldCount v + fieldCountFields fs

end

/-- `_object`. -/
def object : Json → Except Failure Fields
  | .obj fields => .ok fields
  | _ => .error (invalid "expected object")

/-- `_array`. -/
def array : Json → Except Failure (List Json)
  | .arr items => .ok items
  | _ => .error (invalid "expected array")

/-- `_string`. -/
def string : Json → Except Failure String
  | .str s => do
    check (Nonblank s) (invalid "expected nonempty string")
    return s
  | _ => .error (invalid "expected nonempty string")

/-- `_integer`. -/
def integer (minimum : ℕ) : Json → Except Failure ℕ
  | .int n => do
    check ((minimum : ℤ) ≤ n) (invalid "expected integer")
    return n.toNat
  | _ => .error (invalid "expected integer")

/-- `_strings`. -/
def strings (value : Json) : Except Failure (List String) := do
  let items ← array value
  items.mapM string

/-- `json.loads` with a hook that refuses repeated keys: every field of the text has its colon
outside the strings, so there are more colons than fields when a key repeats. -/
def loadsUnique (text : String) : Except Failure Json := do
  let value ← lookup (invalid "invalid JSON") loads text
  check ((outside false false text.toList).count ':' = fieldCount value)
    (invalid "duplicate JSON key")
  return value

/-- `_parse`. -/
def parse (text : String) : Except Failure Fields := do
  check (text.utf8ByteSize ≤ maxResponseBytes) (invalid "response too large")
  check (withinDepth 0 (outside false false text.toList) = true) (invalid "JSON too deep")
  let value ← loadsUnique text
  object value

/-- The keys of a dictionary are among some names. -/
def Within (fields : Fields) (names : List String) : Prop := ∀ f ∈ fields, f.1 ∈ names

instance (fields : Fields) (names : List String) : Decidable (Within fields names) :=
  inferInstanceAs (Decidable (∀ _ ∈ _, _))

/-- The keys of a dictionary are some names. -/
def Exactly (fields : Fields) (names : List String) : Prop :=
  Within fields names ∧ ∀ name ∈ names, name ∈ fields.map Prod.fst

instance (fields : Fields) (names : List String) : Decidable (Exactly fields names) :=
  inferInstanceAs (Decidable (_ ∧ _))

/-- `data[name]`. -/
def item (fields : Fields) (name : String) : Except Failure Json :=
  lookup (invalid name) (fields.lookup ·) name

/-- A field that may be missing or null. -/
def optionalItem {α : Type} (fields : Fields) (name : String) (f : Json → Except Failure α) :
    Except Failure (Option α) :=
  match fields.lookup name with
  | none | some .null => .ok none
  | some value => some <$> f value

/-- A boolean field that may be missing. -/
def flag (fields : Fields) (name : String) : Except Failure Bool :=
  match fields.lookup name with
  | none => .ok false
  | some (.bool b) => .ok b
  | some _ => .error (invalid "invalid boolean")

/-- A character of an identifier. -/
def idChar (c : Char) : Bool :=
  ('a' ≤ c && c ≤ 'z') || c.isDigit || c == '.' || c == '_' || c == ':' || c == '-'

/-- The full match of `[a-z0-9][a-z0-9._:-]{0,63}`. -/
def isIdentifier : List Char → Bool
  | [] => false
  | c :: cs => (('a' ≤ c && c ≤ 'z') || c.isDigit) && cs.length ≤ 63 && cs.all idChar

/-- `_safe_id`. -/
def safeId (value : Json) : Except Failure String := do
  let result ← string value
  check (isIdentifier result.toList = true) (invalid "invalid identifier")
  return result

/-- The providers a model may have. -/
def providers : List String := ["openai", "zai"]

/-- `_model`: the provider and the model. -/
def model (value : Json) : Except Failure (String × String) := do
  let fields ← object value
  check (Exactly fields ["provider", "model"]) (invalid "invalid model")
  let provider ← item fields "provider" >>= string
  check (provider ∈ providers) (invalid "invalid model")
  let name ← item fields "model" >>= safeId
  return (provider, name)

/-! ## Requirements -/

/-- The hard constraints of a requirement. -/
structure Hard where
  inputContext : Option ℕ
  outputTokens : Option ℕ
  privacy : Option String
  model : Option (String × String)
  provider : Option String
  variant : Option String
  reasoningMode : Bool
  toolUse : Bool
  vision : Bool
deriving DecidableEq

/-- No constraints. -/
def Hard.none : Hard := ⟨.none, .none, .none, .none, .none, .none, false, false, false⟩

/-- A requirement. -/
structure Requirement where
  taskLevel : String
  minima : List (String × ℕ)
  hard : Hard
deriving DecidableEq

/-- A field that is written when there is a value. -/
def written {α : Type} (name : String) (f : α → Json) : Option α → Fields
  | .none => []
  | some a => [(name, f a)]

/-- A flag is written when it is set. -/
def writtenFlag (name : String) (b : Bool) : Fields := if b then [(name, .bool true)] else []

/-- The JSON form of a model. -/
def modelPayload (m : String × String) : Json := .obj [("model", .str m.2), ("provider", .str m.1)]

/-- The JSON form of the constraints. -/
def Hard.payload (h : Hard) : Json :=
  .obj (written "minimum_input_context_tokens" (fun n : ℕ => .int n) h.inputContext ++
    written "minimum_output_tokens" (fun n : ℕ => .int n) h.outputTokens ++
    written "privacy_constraint" .str h.privacy ++ written "required_model" modelPayload h.model ++
    written "required_provider" .str h.provider ++ written "required_variant" .str h.variant ++
    writtenFlag "requires_reasoning_mode" h.reasoningMode ++
    writtenFlag "requires_tool_use" h.toolUse ++ writtenFlag "requires_vision" h.vision)

/-- The JSON form of a requirement. -/
def Requirement.payload (r : Requirement) : Json :=
  .obj [("capability_minima", .obj (r.minima.map fun m => (m.1, .int m.2))),
    ("hard_constraints", r.hard.payload), ("task_level", .str r.taskLevel)]

/-- `_DIMENSIONS`. -/
def dimensions : List String :=
  ["reasoning", "coding", "scientific_methodological", "writing_editorial", "tool_use",
    "translation_multilingual"]

/-- The loop over the capability minima, which drops the null ones. -/
def readMinima : Fields → Except Failure (List (String × ℕ))
  | [] => .ok []
  | (_, .null) :: rest => readMinima rest
  | (key, value) :: rest => do
    let n ← integer 1 value
    check (n ≤ 5) (invalid "invalid minimum")
    let minima ← readMinima rest
    return (key, n) :: minima

/-- A provider that is supported. -/
def provider (value : Json) : Except Failure String := do
  let name ← safeId value
  check (name ∈ providers) (invalid "unsupported provider")
  return name

/-- The loop over the hard constraints: keys do not repeat, so it is one read of each. -/
def readHard (fields : Fields) : Except Failure Hard := do
  let inputContext ← optionalItem fields "minimum_input_context_tokens" (integer 1)
  let outputTokens ← optionalItem fields "minimum_output_tokens" (integer 1)
  let privacy ← optionalItem fields "privacy_constraint" safeId
  let model ← optionalItem fields "required_model" model
  let provider ← optionalItem fields "required_provider" provider
  let variant ← optionalItem fields "required_variant" safeId
  let reasoningMode ← flag fields "requires_reasoning_mode"
  let toolUse ← flag fields "requires_tool_use"
  let vision ← flag fields "requires_vision"
  return ⟨inputContext, outputTokens, privacy, model, provider, variant, reasoningMode, toolUse,
    vision⟩

/-- The model of some constraints has the provider they require. -/
def Hard.Agrees (h : Hard) : Prop := ∀ p ∈ h.provider, ∀ m ∈ h.model, m.1 = p

instance (h : Hard) : Decidable h.Agrees :=
  inferInstanceAs (Decidable (∀ _ ∈ _, ∀ _ ∈ _, _))

/-- `_requirement`. -/
def requirement (value : Json) : Except Failure Requirement := do
  let fields ← object value
  check (Exactly fields ["task_level", "capability_minima", "hard_constraints"])
    (invalid "invalid requirement fields")
  let taskLevel ← item fields "task_level" >>= string
  check (taskLevel ∈ ["L0", "L1", "L2", "L3", "L4", "L5"]) (invalid "invalid task level")
  let minima ← item fields "capability_minima" >>= object
  check (Within minima dimensions) (invalid "unsupported dimension")
  let minima ← readMinima minima
  let hard ← item fields "hard_constraints" >>= object
  check (Within hard ["minimum_input_context_tokens", "minimum_output_tokens",
    "privacy_constraint", "required_model", "required_provider", "required_variant",
    "requires_reasoning_mode", "requires_tool_use", "requires_vision"])
    (invalid "unsupported hard constraint")
  let hard ← readHard hard
  check hard.Agrees (invalid "contradictory model pin")
  return ⟨taskLevel, minima, hard⟩

/-! ## Markers -/

/-- `RequirementsHandoff`, with the fields of the declaration that its record leaves out. -/
structure RequirementsHandoff where
  draft : Intake.Draft
  context : List Name
  quality : List Name
  interface : List Name
  decisionId : String
  decisionBytes : String
  programDigest : String
deriving DecidableEq

/-- `QUALITY_PREFIX`. -/
def qualityPrefix : String := "scarcity-router.requirement.v1:"

/-- `INTERFACE_PREFIX`. -/
def interfacePrefix : String := "scarcity-router.request.v1:"

/-- What follows a start of a text. -/
def after (start text : String) : Option String :=
  if start.toList <+: text.toList then some (String.ofList (text.toList.drop start.length))
  else none

/-- The document of a quality marker. -/
def qualityDocument (text : String) : Except Failure (Requirement × Option String) := do
  let payload ← parse text
  check (Within payload ["requirement", "profile_id"]) (invalid "invalid marker fields")
  let requirement ← item payload "requirement" >>= requirement
  match payload.lookup "profile_id" with
  | none => return (requirement, none)
  | some value => do
    let profile ← safeId value
    return (requirement, some profile)

/-- The quality marker of a handoff. -/
def qualityMarker (quality : List Name) : Except Failure (Requirement × Option String) := do
  match quality.map fun q => after qualityPrefix q.val with
  | [some text] => (qualityDocument text).mapError fun _ => invalid "quality.invalid_requirement"
  | _ => .error (invalid "quality.unsupported")

/-- The interface marker of a handoff. -/
def interfaceMarker (interface : List Name) : Except Failure Fields := do
  match interface.map fun i => after interfacePrefix i.val with
  | [] => return []
  | [some text] => (parse text).mapError fun _ => invalid "interface.invalid_binding"
  | _ => .error (invalid "interface.unsupported")

/-- What an interface binding states. -/
structure Interface where
  toolCalls : Bool
  structuredOutput : Bool
  streaming : Bool
  reasoningControls : Bool
  inputContext : Option ℕ
  model : Option (String × String)
  variant : Option String
deriving DecidableEq

/-- The fields of an interface binding a recommendation has no use for. -/
def routeOnly : List String := ["profile_alias", "pinned_target", "maximum_output_tokens"]

/-- The reads of an interface binding. -/
def interface (binding : Fields) : Except Failure Interface := do
  let toolCalls ← flag binding "requires_tool_calls"
  let structuredOutput ← flag binding "requires_structured_output"
  let streaming ← flag binding "requires_streaming"
  let reasoningControls ← flag binding "requires_reasoning_controls"
  let inputContext ← optionalItem binding "minimum_input_context_tokens" (integer 1)
  let model ← optionalItem binding "explicit_model" model
  let variant ← optionalItem binding "explicit_variant" safeId
  return ⟨toolCalls, structuredOutput, streaming, reasoningControls, inputContext, model, variant⟩

/-- The updates of the hard constraints by an interface binding. -/
def merge (h : Hard) (i : Interface) : Except Failure Hard := do
  check (∀ m ∈ i.model, h.model.getD m = m ∧ h.provider.getD m.1 = m.1)
    (invalid "contradictory pin")
  check (∀ v ∈ i.variant, h.variant.getD v = v) (invalid "contradictory pin")
  return { h with
    model := i.model.orElse fun _ => h.model
    variant := i.variant.orElse fun _ => h.variant
    toolUse := h.toolUse || i.toolCalls
    reasoningMode := h.reasoningMode || i.reasoningControls
    inputContext := match i.inputContext with
      | .none => h.inputContext
      | some n => some (max (h.inputContext.getD 0) n) }

/-- What `_ordinary` returns. -/
structure Ordinary where
  requirement : Requirement
  interface : Interface
  binding : Fields
  profile : Option String
deriving DecidableEq

/-- `_ordinary`. -/
def ordinary (h : RequirementsHandoff) : Except Failure Ordinary := do
  check (h.draft.declaration.unknowns = []) (invalid "unknowns.unresolved")
  check (h.context = []) (invalid "context.unsupported")
  let (approved, profile) ← qualityMarker h.quality
  check (approved.hard.vision = false) (invalid "quality.vision_channel_unsupported")
  check (approved.hard.privacy = none) (invalid "quality.privacy_unsupported")
  let binding ← interfaceMarker h.interface
  check (Within binding (["requires_tool_calls", "requires_structured_output",
      "requires_streaming", "requires_reasoning_controls", "minimum_input_context_tokens",
      "explicit_model", "explicit_variant"] ++ routeOnly) ∧
    ∀ name ∈ routeOnly, (binding.lookup name).getD .null = .null)
    (invalid "interface.recommendation_unsupported")
  let contradictory := invalid "interface.invalid_or_contradictory_binding"
  let interface ← (interface binding).mapError fun _ => contradictory
  let hard ← (merge approved.hard interface).mapError fun _ => contradictory
  let requirement := { approved with hard }
  check (profile = none ∨ dumps requirement.payload = dumps approved.payload)
    (invalid "quality.profile_requires_full_projection")
  return ⟨requirement, interface, binding, profile⟩

/-- `_FEATURES`. -/
def supportedFeatures : List String :=
  ["tool_calls", "structured_output", "streaming", "reasoning_controls", "reasoning_mode"]

/-- A name that is there under a condition. -/
def named (b : Bool) (names : List String) : List String := if b then names else []

/-- `_features`. -/
def features (o : Ordinary) : SortedSet String :=
  SortedSet.ofList (named o.interface.toolCalls ["tool_calls"] ++
    named o.interface.structuredOutput ["structured_output"] ++
    named o.interface.streaming ["streaming"] ++
    named o.interface.reasoningControls ["reasoning_controls"] ++
    named o.requirement.hard.toolUse ["tool_calls"] ++
    named o.requirement.hard.reasoningMode ["reasoning_mode", "reasoning_controls"])

end Routing

end CreatidyKernel
