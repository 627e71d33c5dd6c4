import CreatidyKernel.Routing.Router

set_option relaxedAutoImplicit false
set_option autoImplicit false

/-!
# Demands of the markers

What the two markers of a handoff demand is read off their documents alone, without the merge. The
merged requirement keeps every demand of either marker, up to the features a recommendation has no
field for, and the document that is sent states every demand the requirement keeps.

## Main definitions

* `Routing.Demand` — a constraint a marker may state.
* `Routing.QualityStates`, `Routing.InterfaceStates` — the demands of the markers.
* `Routing.Hard.Holds` — the demands merged constraints keep.
* `Routing.Carries` — the demands a sent document states.

## Main results

* `Routing.ordinary_holds` — the merged requirement keeps the demands of both markers.
* `Routing.carries_wireOf` — the sent document states the demands of the requirement.
-/

namespace CreatidyKernel

namespace Routing

open Checked

/-! ## Demands -/

/-- A constraint a marker may state. -/
inductive Demand
  | taskLevel (level : String)
  | minimum (dimension : String) (n : ℕ)
  | provider (name : String)
  | model (provider name : String)
  | variant (name : String)
  | privacy (name : String)
  | inputContext (n : ℕ)
  | outputTokens (n : ℕ)
  | feature (name : String)
deriving DecidableEq

/-- A dictionary has the provider and the name of a model under a key. -/
def StatesModel (fields : Fields) (key provider name : String) : Prop :=
  ∃ m, fields.lookup key = some (.obj m) ∧ m.lookup "provider" = some (.str provider) ∧
    m.lookup "model" = some (.str name)

/-- The demands of hard constraints. -/
def HardStates (hard : Fields) : Demand → Prop
  | .provider name => hard.lookup "required_provider" = some (.str name)
  | .model provider name => StatesModel hard "required_model" provider name
  | .variant name => hard.lookup "required_variant" = some (.str name)
  | .privacy name => hard.lookup "privacy_constraint" = some (.str name)
  | .inputContext n => hard.lookup "minimum_input_context_tokens" = some (.int n)
  | .outputTokens n => hard.lookup "minimum_output_tokens" = some (.int n)
  | .feature name => (name = "tool_calls" ∧ hard.lookup "requires_tool_use" = some (.bool true)) ∨
      (name = "vision" ∧ hard.lookup "requires_vision" = some (.bool true)) ∨
      (name = "reasoning_mode" ∧ hard.lookup "requires_reasoning_mode" = some (.bool true))
  | .taskLevel _ | .minimum _ _ => False

/-- The demands of a requirement. -/
def RequirementStates (requirement : Fields) (d : Demand) : Prop :=
  match d with
  | .taskLevel level => requirement.lookup "task_level" = some (.str level)
  | .minimum dimension n => ∃ minima, requirement.lookup "capability_minima" = some (.obj minima) ∧
      minima.lookup dimension = some (.int n)
  | d => ∃ hard, requirement.lookup "hard_constraints" = some (.obj hard) ∧ HardStates hard d

/-- The demands of an interface binding. -/
def BindingStates (binding : Fields) : Demand → Prop
  | .model provider name => StatesModel binding "explicit_model" provider name
  | .variant name => binding.lookup "explicit_variant" = some (.str name)
  | .inputContext n => binding.lookup "minimum_input_context_tokens" = some (.int n)
  | .feature name => binding.lookup ("requires_" ++ name) = some (.bool true)
  | _ => False

/-- The quality marker of a handoff states a demand. -/
def QualityStates (h : RequirementsHandoff) (d : Demand) : Prop :=
  ∃ q ∈ h.quality, ∃ text payload requirement, after qualityPrefix q.val = some text ∧
    parse text = .ok payload ∧ payload.lookup "requirement" = some (.obj requirement) ∧
    RequirementStates requirement d

/-- The interface marker of a handoff states a demand. -/
def InterfaceStates (h : RequirementsHandoff) (d : Demand) : Prop :=
  ∃ i ∈ h.interface, ∃ text binding, after interfacePrefix i.val = some text ∧
    parse text = .ok binding ∧ BindingStates binding d

/-- Either marker of a handoff states a demand. -/
def States (h : RequirementsHandoff) (d : Demand) : Prop := QualityStates h d ∨ InterfaceStates h d

/-- The demands constraints keep. -/
def Hard.Holds (h : Hard) : Demand → Prop
  | .provider name => h.provider = some name
  | .model provider name => h.model = some (provider, name)
  | .variant name => h.variant = some name
  | .privacy name => h.privacy = some name
  | .inputContext n => ∃ m ∈ h.inputContext, n ≤ m
  | .outputTokens n => ∃ m ∈ h.outputTokens, n ≤ m
  | .feature name => (name = "tool_calls" ∧ h.toolUse = true) ∨
      (name = "vision" ∧ h.vision = true) ∨
      ((name = "reasoning_mode" ∨ name = "reasoning_controls") ∧ h.reasoningMode = true)
  | .taskLevel _ | .minimum _ _ => False

/-- The demands a requirement keeps. -/
def Requirement.Holds (r : Requirement) (d : Demand) : Prop :=
  match d with
  | .taskLevel level => r.taskLevel = level
  | .minimum dimension n => r.minima.lookup dimension = some n
  | d => r.hard.Holds d

/-- A requirement keeps the demands of its constraints, its level and its minima. -/
theorem Requirement.holds_iff {r : Requirement} {d : Demand} : r.Holds d ↔ r.hard.Holds d ∨
    (∃ level, d = .taskLevel level ∧ r.taskLevel = level) ∨
      ∃ dimension n, d = .minimum dimension n ∧ r.minima.lookup dimension = some n := by
  cases d with
  | taskLevel level => simpa [Requirement.Holds, Hard.Holds] using eq_comm
  | _ => simp [Requirement.Holds, Hard.Holds]

/-! ## Reading -/

theorem item_eq_ok {fields : Fields} {name : String} {value : Json} :
    item fields name = .ok value ↔ fields.lookup name = some value := lookup_eq_ok

theorem object_eq_ok {value : Json} {fields : Fields} :
    object value = .ok fields ↔ value = .obj fields := by
  unfold object
  split <;> simp_all

theorem string_eq_ok {value : Json} {s : String} (h : string value = .ok s) : value = .str s := by
  unfold string at h
  split at h
  · obtain ⟨-, h⟩ := check_bind_eq_ok.mp h
    cases h
    rfl
  · cases h

theorem safeId_eq_ok {value : Json} {s : String} (h : safeId value = .ok s) : value = .str s := by
  obtain ⟨_, hs, h⟩ := bind_eq_ok.mp h
  obtain ⟨-, h⟩ := check_bind_eq_ok.mp h
  cases h
  exact string_eq_ok hs

theorem provider_eq_ok {value : Json} {s : String} (h : provider value = .ok s) :
    value = .str s := by
  obtain ⟨_, hs, h⟩ := bind_eq_ok.mp h
  obtain ⟨-, h⟩ := check_bind_eq_ok.mp h
  cases h
  exact safeId_eq_ok hs

theorem integer_eq_ok {value : Json} {minimum n : ℕ} (h : integer minimum value = .ok n) :
    value = .int n := by
  unfold integer at h
  split at h
  · obtain ⟨hle, h⟩ := check_bind_eq_ok.mp h
    cases h
    congr
    omega
  · cases h

theorem model_eq_ok {value : Json} {m : String × String} (h : model value = .ok m) :
    ∃ fields, value = .obj fields ∧ fields.lookup "provider" = some (.str m.1) ∧
      fields.lookup "model" = some (.str m.2) := by
  obtain ⟨fields, hfields, h⟩ := bind_eq_ok.mp h
  obtain ⟨-, h⟩ := check_bind_eq_ok.mp h
  obtain ⟨provider, hprovider, h⟩ := bind_eq_ok.mp h
  obtain ⟨-, h⟩ := check_bind_eq_ok.mp h
  obtain ⟨name, hname, h⟩ := bind_eq_ok.mp h
  cases h
  obtain ⟨value, hvalue, hprovider⟩ := bind_eq_ok.mp hprovider
  obtain ⟨value', hvalue', hname⟩ := bind_eq_ok.mp hname
  rw [string_eq_ok hprovider, item_eq_ok] at hvalue
  rw [safeId_eq_ok hname, item_eq_ok] at hvalue'
  exact ⟨fields, object_eq_ok.mp hfields, hvalue, hvalue'⟩

/-- A field with a value is read. -/
theorem optionalItem_eq_ok {α : Type} {fields : Fields} {name : String}
    {f : Json → Except Failure α} {result : Option α}
    (h : optionalItem fields name f = .ok result) {value : Json}
    (hvalue : fields.lookup name = some value) (hne : value ≠ .null) :
    ∃ a, f value = .ok a ∧ result = some a := by
  unfold optionalItem at h
  rw [hvalue] at h
  split at h
  · simp at *
  · simp_all
  · rename_i hlookup
    cases hlookup
    obtain ⟨a, ha, rfl⟩ := map_eq_ok.mp h
    exact ⟨a, ha, rfl⟩

theorem flag_eq_ok {fields : Fields} {name : String} {b : Bool} (h : flag fields name = .ok b)
    (hset : fields.lookup name = some (.bool true)) : b = true := by
  unfold flag at h
  rw [hset] at h
  cases h
  rfl

/-- The text under a key is the one that is read. -/
theorem eq_of_optionalItem_str {fields : Fields} {name s : String}
    {f : Json → Except Failure String} {result : Option String}
    (hf : ∀ value a, f value = .ok a → value = .str a)
    (h : optionalItem fields name f = .ok result) (hs : fields.lookup name = some (.str s)) :
    result = some s := by
  obtain ⟨a, ha, rfl⟩ := optionalItem_eq_ok h hs (by simp)
  cases hf _ _ ha
  rfl

/-- The number under a key is the one that is read. -/
theorem eq_of_optionalItem_int {fields : Fields} {name : String} {minimum n : ℕ}
    {result : Option ℕ} (h : optionalItem fields name (integer minimum) = .ok result)
    (hn : fields.lookup name = some (.int n)) : result = some n := by
  obtain ⟨a, ha, rfl⟩ := optionalItem_eq_ok h hn (by simp)
  have heq := integer_eq_ok ha
  simp only [Json.int.injEq, Nat.cast_inj] at heq
  rw [heq]

/-- The model under a key is the one that is read. -/
theorem eq_of_optionalItem_model {fields : Fields} {key provider name : String}
    {result : Option (String × String)} (h : optionalItem fields key model = .ok result)
    (hm : StatesModel fields key provider name) : result = some (provider, name) := by
  obtain ⟨m, hlookup, hprovider, hname⟩ := hm
  obtain ⟨a, ha, rfl⟩ := optionalItem_eq_ok h hlookup (by simp)
  obtain ⟨fields', heq, hp, hn⟩ := model_eq_ok ha
  cases heq
  rw [hprovider] at hp
  rw [hname] at hn
  cases hp
  cases hn
  rfl

/-! ## The quality marker -/

/-- The minima that are read are the ones that are stated. -/
theorem lookup_of_readMinima {dimension : String} {n : ℕ} :
    ∀ {fields : Fields} {minima : List (String × ℕ)}, readMinima fields = .ok minima →
      fields.lookup dimension = some (.int n) → minima.lookup dimension = some n
  | [], _, _, hn => by simp at hn
  | (key, value) :: rest, minima, h, hn => by
    rw [List.lookup_cons] at hn
    unfold readMinima at h
    split at h
    · simp at *
    · rename_i heq
      cases heq
      split at hn
      · simp at hn
      · exact lookup_of_readMinima h hn
    · rename_i heq
      cases heq
      obtain ⟨m, hm, h⟩ := bind_eq_ok.mp h
      obtain ⟨-, h⟩ := check_bind_eq_ok.mp h
      obtain ⟨minima, hminima, h⟩ := bind_eq_ok.mp h
      cases h
      rw [List.lookup_cons]
      split at hn
      · cases hn
        have heq := integer_eq_ok hm
        simp only [Json.int.injEq, Nat.cast_inj] at heq
        rw [heq]
      · exact lookup_of_readMinima hminima hn

/-- Constraints that are read keep the demands they state. -/
theorem readHard_holds {fields : Fields} {h : Hard} (hread : readHard fields = .ok h) {d : Demand}
    (hd : HardStates fields d) : h.Holds d := by
  obtain ⟨context, hcontext, hread⟩ := bind_eq_ok.mp hread
  obtain ⟨output, houtput, hread⟩ := bind_eq_ok.mp hread
  obtain ⟨privacy, hprivacy, hread⟩ := bind_eq_ok.mp hread
  obtain ⟨model, hmodel, hread⟩ := bind_eq_ok.mp hread
  obtain ⟨name, hname, hread⟩ := bind_eq_ok.mp hread
  obtain ⟨variant, hvariant, hread⟩ := bind_eq_ok.mp hread
  obtain ⟨reasoning, hreasoning, hread⟩ := bind_eq_ok.mp hread
  obtain ⟨tool, htool, hread⟩ := bind_eq_ok.mp hread
  obtain ⟨vision, hvision, hread⟩ := bind_eq_ok.mp hread
  cases hread
  have hid := fun value a => @safeId_eq_ok value a
  cases d with
  | taskLevel level => exact hd
  | minimum dimension n => exact hd
  | provider s => exact eq_of_optionalItem_str (fun value a => @provider_eq_ok value a) hname hd
  | model p m => exact eq_of_optionalItem_model hmodel hd
  | variant s => exact eq_of_optionalItem_str hid hvariant hd
  | privacy s => exact eq_of_optionalItem_str hid hprivacy hd
  | inputContext n => exact ⟨n, eq_of_optionalItem_int hcontext hd, le_rfl⟩
  | outputTokens n => exact ⟨n, eq_of_optionalItem_int houtput hd, le_rfl⟩
  | feature f =>
    rcases hd with ⟨rfl, hd⟩ | ⟨rfl, hd⟩ | ⟨rfl, hd⟩
    · exact .inl ⟨rfl, flag_eq_ok htool hd⟩
    · exact .inr (.inl ⟨rfl, flag_eq_ok hvision hd⟩)
    · exact .inr (.inr ⟨.inl rfl, flag_eq_ok hreasoning hd⟩)

/-- What a requirement is read from. -/
theorem requirement_eq_ok {fields : Fields} {r : Requirement}
    (h : requirement (.obj fields) = .ok r) :
    fields.lookup "task_level" = some (.str r.taskLevel) ∧
      (∃ minima, fields.lookup "capability_minima" = some (.obj minima) ∧
        readMinima minima = .ok r.minima) ∧
      (∃ hard, fields.lookup "hard_constraints" = some (.obj hard) ∧ readHard hard = .ok r.hard) ∧
      r.hard.Agrees := by
  obtain ⟨_, hfields, h⟩ := bind_eq_ok.mp h
  cases hfields
  obtain ⟨-, h⟩ := check_bind_eq_ok.mp h
  obtain ⟨level, hlevel, h⟩ := bind_eq_ok.mp h
  obtain ⟨-, h⟩ := check_bind_eq_ok.mp h
  obtain ⟨stated, hstated, h⟩ := bind_eq_ok.mp h
  obtain ⟨-, h⟩ := check_bind_eq_ok.mp h
  obtain ⟨minima, hminima, h⟩ := bind_eq_ok.mp h
  obtain ⟨hard, hhard, h⟩ := bind_eq_ok.mp h
  obtain ⟨-, h⟩ := check_bind_eq_ok.mp h
  obtain ⟨read, hread, h⟩ := bind_eq_ok.mp h
  obtain ⟨hagrees, h⟩ := check_bind_eq_ok.mp h
  cases h
  obtain ⟨value, hvalue, hlevel⟩ := bind_eq_ok.mp hlevel
  obtain ⟨value', hvalue', hstated⟩ := bind_eq_ok.mp hstated
  obtain ⟨value'', hvalue'', hhard⟩ := bind_eq_ok.mp hhard
  rw [string_eq_ok hlevel, item_eq_ok] at hvalue
  rw [object_eq_ok.mp hstated, item_eq_ok] at hvalue'
  rw [object_eq_ok.mp hhard, item_eq_ok] at hvalue''
  exact ⟨hvalue, ⟨stated, hvalue', hminima⟩, ⟨hard, hvalue'', hread⟩, hagrees⟩

/-- A requirement that is read keeps the demands it states. -/
theorem requirement_holds {fields : Fields} {r : Requirement}
    (h : requirement (.obj fields) = .ok r) {d : Demand} (hd : RequirementStates fields d) :
    r.Holds d := by
  obtain ⟨hlevel, ⟨minima, hminima, hread⟩, ⟨hard, hhard, hhold⟩, -⟩ := requirement_eq_ok h
  have hkeep : (∃ hard, fields.lookup "hard_constraints" = some (.obj hard) ∧
      HardStates hard d) → r.hard.Holds d := by
    rintro ⟨_, hlookup, hd⟩
    rw [hhard] at hlookup
    cases hlookup
    exact readHard_holds hhold hd
  cases d with
  | taskLevel level =>
    have heq := hlevel.symm.trans hd
    simpa [Requirement.Holds] using heq
  | minimum dimension n =>
    obtain ⟨_, hlookup, hn⟩ := hd
    rw [hminima] at hlookup
    cases hlookup
    exact lookup_of_readMinima hread hn
  | _ => exact hkeep hd

/-! ## The merge -/

/-- The merge keeps the demands of the constraints. -/
theorem merge_keeps {h h' : Hard} {i : Interface} (hm : merge h i = .ok h') {d : Demand}
    (hd : h.Holds d) : h'.Holds d := by
  obtain ⟨hmodel, hm⟩ := check_bind_eq_ok.mp hm
  obtain ⟨hvariant, hm⟩ := check_bind_eq_ok.mp hm
  cases hm
  cases d with
  | taskLevel | minimum | provider | privacy | outputTokens => exact hd
  | model p m =>
    have hd : h.model = some (p, m) := hd
    cases hi : i.model with
    | none => simpa [Hard.Holds, hi] using hd
    | some n =>
      have hn := (hmodel n hi).1
      simp [hd] at hn
      simp [Hard.Holds, hn]
  | variant v =>
    have hd : h.variant = some v := hd
    cases hi : i.variant with
    | none => simpa [Hard.Holds, hi] using hd
    | some w =>
      have hw := hvariant w hi
      simp [hd] at hw
      simp [Hard.Holds, hw]
  | inputContext n =>
    obtain ⟨m, hm, hle⟩ := hd
    cases hi : i.inputContext with
    | none => exact ⟨m, by simpa [hi] using hm, hle⟩
    | some k =>
      have hm : h.inputContext = some m := hm
      exact ⟨max m k, by simp [hm], le_trans hle (le_max_left _ _)⟩
  | feature f =>
    rcases hd with ⟨rfl, hd⟩ | ⟨rfl, hd⟩ | ⟨hf, hd⟩
    · exact .inl ⟨rfl, by simp [hd]⟩
    · exact .inr (.inl ⟨rfl, hd⟩)
    · exact .inr (.inr ⟨hf, by simp [hd]⟩)

/-- The model of merged constraints has the provider they require. -/
theorem merge_agrees {h h' : Hard} {i : Interface} (hm : merge h i = .ok h') (ha : h.Agrees) :
    h'.Agrees := by
  obtain ⟨hmodel, hm⟩ := check_bind_eq_ok.mp hm
  obtain ⟨-, hm⟩ := check_bind_eq_ok.mp hm
  cases hm
  intro p hp m hmem
  cases hi : i.model with
  | none => exact ha p hp m (by simpa [hi] using hmem)
  | some n =>
    obtain rfl : n = m := by simpa [hi] using hmem
    have hprovider := (hmodel n hi).2
    have hp : h.provider = some p := hp
    simpa [hp] using hprovider.symm

/-- The demands of an interface the requirement has a field for. -/
def Demand.Wired : Demand → Prop
  | .feature name => name ≠ "structured_output" ∧ name ≠ "streaming"
  | _ => True

/-- The names after the beginning of a flag. -/
theorem requires_injective {s t : String} (h : "requires_" ++ s = "requires_" ++ t) : s = t := by
  have hl := congrArg String.toList h
  rw [String.toList_append, String.toList_append] at hl
  exact String.toList_injective (List.append_cancel_left hl)

/-- A flag begins as every flag does. -/
theorem requires_ne {s t : String} (ht : t.toList.take 9 ≠ "requires_".toList) :
    "requires_" ++ s ≠ t := by
  rintro rfl
  refine ht ?_
  rw [String.toList_append]
  rfl

/-- The fields of an interface binding. -/
def bindingKeys : List String :=
  ["requires_tool_calls", "requires_structured_output", "requires_streaming",
    "requires_reasoning_controls", "minimum_input_context_tokens", "explicit_model",
    "explicit_variant"] ++ routeOnly

/-- The features an interface binding can demand. -/
theorem feature_of_within {binding : Fields} {name : String} {value : Json}
    (hw : Within binding bindingKeys) (h : binding.lookup ("requires_" ++ name) = some value) :
    name = "tool_calls" ∨ name = "structured_output" ∨ name = "streaming" ∨
      name = "reasoning_controls" := by
  obtain ⟨l, l', rfl, -⟩ := List.lookup_eq_some_iff.mp h
  have hmem := hw ("requires_" ++ name, value) (by simp)
  simp only [bindingKeys, routeOnly, List.cons_append, List.nil_append, List.mem_cons,
    List.not_mem_nil, or_false] at hmem
  rcases hmem with h | h | h | h | h | h | h | h | h | h
  · exact .inl (requires_injective h)
  · exact .inr (.inl (requires_injective h))
  · exact .inr (.inr (.inl (requires_injective h)))
  · exact .inr (.inr (.inr (requires_injective h)))
  all_goals exact absurd h (requires_ne (by decide))

/-- An interface binding that is read has its flags. -/
theorem interface_feature {binding : Fields} {i : Interface} (hi : interface binding = .ok i)
    (hw : Within binding bindingKeys) {name : String}
    (h : binding.lookup ("requires_" ++ name) = some (.bool true)) :
    (name = "tool_calls" ∧ i.toolCalls = true) ∨
      (name = "structured_output" ∧ i.structuredOutput = true) ∨
      (name = "streaming" ∧ i.streaming = true) ∨
      (name = "reasoning_controls" ∧ i.reasoningControls = true) := by
  obtain ⟨tool, htool, hi⟩ := bind_eq_ok.mp hi
  obtain ⟨structured, hstructured, hi⟩ := bind_eq_ok.mp hi
  obtain ⟨streaming, hstreaming, hi⟩ := bind_eq_ok.mp hi
  obtain ⟨reasoning, hreasoning, hi⟩ := bind_eq_ok.mp hi
  obtain ⟨context, hcontext, hi⟩ := bind_eq_ok.mp hi
  obtain ⟨model, hmodel, hi⟩ := bind_eq_ok.mp hi
  obtain ⟨variant, hvariant, hi⟩ := bind_eq_ok.mp hi
  cases hi
  rcases feature_of_within hw h with rfl | rfl | rfl | rfl
  · exact .inl ⟨rfl, flag_eq_ok htool h⟩
  · exact .inr (.inl ⟨rfl, flag_eq_ok hstructured h⟩)
  · exact .inr (.inr (.inl ⟨rfl, flag_eq_ok hstreaming h⟩))
  · exact .inr (.inr (.inr ⟨rfl, flag_eq_ok hreasoning h⟩))

/-- The merge takes over the demands of an interface binding. -/
theorem merge_takes {binding : Fields} {i : Interface} {h h' : Hard}
    (hi : interface binding = .ok i) (hw : Within binding bindingKeys)
    (hm : merge h i = .ok h') {d : Demand} (hd : BindingStates binding d) (hwired : d.Wired) :
    h'.Holds d := by
  have hflags := fun name => @interface_feature _ _ hi hw name
  obtain ⟨-, hm⟩ := check_bind_eq_ok.mp hm
  obtain ⟨-, hm⟩ := check_bind_eq_ok.mp hm
  cases hm
  obtain ⟨tool, -, hi⟩ := bind_eq_ok.mp hi
  obtain ⟨structured, -, hi⟩ := bind_eq_ok.mp hi
  obtain ⟨streaming, -, hi⟩ := bind_eq_ok.mp hi
  obtain ⟨reasoning, -, hi⟩ := bind_eq_ok.mp hi
  obtain ⟨context, hcontext, hi⟩ := bind_eq_ok.mp hi
  obtain ⟨model, hmodel, hi⟩ := bind_eq_ok.mp hi
  obtain ⟨variant, hvariant, hi⟩ := bind_eq_ok.mp hi
  cases hi
  cases d with
  | taskLevel | minimum | provider | privacy | outputTokens => exact hd.elim
  | model p m => simp [Hard.Holds, eq_of_optionalItem_model hmodel hd]
  | variant v =>
    simp [Hard.Holds, eq_of_optionalItem_str (fun value a => @safeId_eq_ok value a) hvariant hd]
  | inputContext n =>
    simp [Hard.Holds, eq_of_optionalItem_int hcontext hd]
  | feature f =>
    rcases hflags f hd with ⟨rfl, hf⟩ | ⟨rfl, hf⟩ | ⟨rfl, hf⟩ | ⟨rfl, hf⟩
    · exact .inl ⟨rfl, by simpa using .inr hf⟩
    · exact absurd rfl hwired.1
    · exact absurd rfl hwired.2
    · exact .inr (.inr ⟨.inr rfl, by simpa using .inr hf⟩)

/-! ## The handoff -/

/-- What an accepted handoff is made of. -/
theorem ordinary_eq_ok {h : RequirementsHandoff} {o : Ordinary} (ho : ordinary h = .ok o) :
    ∃ approved, qualityMarker h.quality = .ok (approved, o.profile) ∧
      approved.hard.vision = false ∧ approved.hard.privacy = none ∧
      interfaceMarker h.interface = .ok o.binding ∧ Within o.binding bindingKeys ∧
      interface o.binding = .ok o.interface ∧
      merge approved.hard o.interface = .ok o.requirement.hard ∧
      o.requirement.taskLevel = approved.taskLevel ∧ o.requirement.minima = approved.minima := by
  obtain ⟨-, ho⟩ := check_bind_eq_ok.mp ho
  obtain ⟨-, ho⟩ := check_bind_eq_ok.mp ho
  obtain ⟨⟨approved, profile⟩, hquality, ho⟩ := bind_eq_ok.mp ho
  obtain ⟨hvision, ho⟩ := check_bind_eq_ok.mp ho
  obtain ⟨hprivacy, ho⟩ := check_bind_eq_ok.mp ho
  obtain ⟨binding, hbinding, ho⟩ := bind_eq_ok.mp ho
  obtain ⟨⟨hwithin, -⟩, ho⟩ := check_bind_eq_ok.mp ho
  obtain ⟨i, hi, ho⟩ := bind_eq_ok.mp ho
  obtain ⟨hard, hhard, ho⟩ := bind_eq_ok.mp ho
  obtain ⟨-, ho⟩ := check_bind_eq_ok.mp ho
  cases ho
  exact ⟨approved, hquality, hvision, hprivacy, hbinding, hwithin, mapError_eq_ok.mp hi,
    mapError_eq_ok.mp hhard, rfl, rfl⟩

/-- The document of the quality marker states what the approved requirement keeps. -/
theorem qualityMarker_holds {h : RequirementsHandoff} {approved : Requirement}
    {profile : Option String} (hm : qualityMarker h.quality = .ok (approved, profile))
    {d : Demand} (hd : QualityStates h d) : approved.Holds d := by
  obtain ⟨q, hq, text, payload, fields, hafter, hparse, hlookup, hd⟩ := hd
  unfold qualityMarker at hm
  split at hm
  · rename_i text' hmap
    obtain ⟨q', hquality, hafter'⟩ := List.map_eq_singleton_iff.mp hmap
    rw [hquality, List.mem_singleton] at hq
    subst hq
    rw [hafter] at hafter'
    cases hafter'
    obtain ⟨payload', hparse', hm⟩ := bind_eq_ok.mp (mapError_eq_ok.mp hm)
    rw [hparse] at hparse'
    cases hparse'
    obtain ⟨-, hm⟩ := check_bind_eq_ok.mp hm
    obtain ⟨r, hr, hm⟩ := bind_eq_ok.mp hm
    obtain ⟨value, hvalue, hr⟩ := bind_eq_ok.mp hr
    rw [item_eq_ok, hlookup] at hvalue
    cases hvalue
    have heq : r = approved := by
      split at hm
      · cases hm
        rfl
      · obtain ⟨_, -, hm⟩ := bind_eq_ok.mp hm
        cases hm
        rfl
    exact heq ▸ requirement_holds hr hd
  · cases hm

/-- The approved requirement has a model of the provider it requires. -/
theorem qualityMarker_agrees {quality : List Name} {approved : Requirement}
    {profile : Option String} (hm : qualityMarker quality = .ok (approved, profile)) :
    approved.hard.Agrees := by
  unfold qualityMarker at hm
  split at hm
  · obtain ⟨payload, -, hm⟩ := bind_eq_ok.mp (mapError_eq_ok.mp hm)
    obtain ⟨-, hm⟩ := check_bind_eq_ok.mp hm
    obtain ⟨r, hr, hm⟩ := bind_eq_ok.mp hm
    obtain ⟨value, -, hr⟩ := bind_eq_ok.mp hr
    have heq : r = approved := by
      split at hm
      · cases hm
        rfl
      · obtain ⟨_, -, hm⟩ := bind_eq_ok.mp hm
        cases hm
        rfl
    obtain ⟨fields, hfields, -⟩ := bind_eq_ok.mp hr
    rw [object_eq_ok.mp hfields] at hr
    exact heq ▸ (requirement_eq_ok hr).2.2.2
  · cases hm

/-- The document of the interface marker is the binding that is merged. -/
theorem interfaceMarker_states {h : RequirementsHandoff} {binding : Fields}
    (hm : interfaceMarker h.interface = .ok binding) {d : Demand} (hd : InterfaceStates h d) :
    BindingStates binding d := by
  obtain ⟨i, hi, text, fields, hafter, hparse, hd⟩ := hd
  unfold interfaceMarker at hm
  split at hm
  · rename_i hmap
    rw [List.map_eq_nil_iff.mp hmap] at hi
    cases hi
  · rename_i text' hmap
    obtain ⟨i', hinterface, hafter'⟩ := List.map_eq_singleton_iff.mp hmap
    rw [hinterface, List.mem_singleton] at hi
    subst hi
    rw [hafter] at hafter'
    cases hafter'
    rw [hparse] at hm
    cases hm
    exact hd
  · cases hm

/-- The merged requirement keeps the demands of both markers that it has a field for. -/
theorem ordinary_holds {h : RequirementsHandoff} {o : Ordinary} (ho : ordinary h = .ok o)
    {d : Demand} (hd : States h d) (hwired : d.Wired) : o.requirement.Holds d := by
  obtain ⟨approved, hquality, -, -, hbinding, hwithin, hi, hmerge, hlevel, hminima⟩ :=
    ordinary_eq_ok ho
  rw [Requirement.holds_iff]
  rcases hd with hd | hd
  · rcases Requirement.holds_iff.mp (qualityMarker_holds hquality hd) with hd | hd
    · exact .inl (merge_keeps hmerge hd)
    · exact .inr (by rwa [hlevel, hminima])
  · exact .inl (merge_takes hi hwithin hmerge (interfaceMarker_states hbinding hd) hwired)

/-- The pins of the merged requirement agree. -/
theorem ordinary_agrees {h : RequirementsHandoff} {o : Ordinary} (ho : ordinary h = .ok o) :
    o.requirement.hard.Agrees := by
  obtain ⟨approved, hquality, -, -, -, -, -, hmerge, -⟩ := ordinary_eq_ok ho
  exact merge_agrees hmerge (qualityMarker_agrees hquality)

/-- Nothing else but supported features is demanded, and no privacy. -/
theorem ordinary_refuses {h : RequirementsHandoff} {o : Ordinary} (ho : ordinary h = .ok o) :
    o.requirement.hard.vision = false ∧ o.requirement.hard.privacy = none := by
  obtain ⟨approved, -, hvision, hprivacy, -, -, -, hmerge, -⟩ := ordinary_eq_ok ho
  obtain ⟨-, hmerge⟩ := check_bind_eq_ok.mp hmerge
  obtain ⟨-, hmerge⟩ := check_bind_eq_ok.mp hmerge
  have heq := Except.ok.inj hmerge
  rw [← heq]
  exact ⟨hvision, hprivacy⟩

/-- The features of a handoff are all the ones its markers demand. -/
theorem mem_features {h : RequirementsHandoff} {o : Ordinary} (ho : ordinary h = .ok o)
    {name : String} (hd : States h (.feature name)) : name ∈ features o := by
  obtain ⟨approved, hquality, hvision, -, hbinding, hwithin, hi, hmerge, -⟩ := ordinary_eq_ok ho
  rw [features, SortedSet.mem_ofList]
  have hkept : o.requirement.hard.Holds (.feature name) → name ∈
      named o.requirement.hard.toolUse ["tool_calls"] ∨
        name ∈ named o.requirement.hard.reasoningMode ["reasoning_mode", "reasoning_controls"] := by
    rintro (⟨rfl, ht⟩ | ⟨rfl, hv⟩ | ⟨hn, hr⟩)
    · exact .inl (by simp [named, ht])
    · rw [(ordinary_refuses ho).1] at hv
      cases hv
    · exact .inr (by simpa [named, hr] using hn)
  rcases hd with hd | hd
  · have hmem := hkept (merge_keeps (d := .feature name) hmerge (qualityMarker_holds hquality hd))
    simp only [List.mem_append]
    tauto
  · have hstated := interfaceMarker_states hbinding hd
    simp only [List.mem_append]
    rcases interface_feature hi hwithin hstated with ⟨rfl, hf⟩ | ⟨rfl, hf⟩ | ⟨rfl, hf⟩ | ⟨rfl, hf⟩
      <;> simp [named, hf]

/-! ## The document that is sent -/

/-- The hard constraints of a sent document are at least as strict as a demand. -/
def HardCarries (hard : Fields) : Demand → Prop
  | .inputContext n => ∃ m : ℕ, hard.lookup "minimum_input_context_tokens" = some (.int m) ∧ n ≤ m
  | .outputTokens n => ∃ m : ℕ, hard.lookup "minimum_output_tokens" = some (.int m) ∧ n ≤ m
  | .feature name => hard.lookup ("requires_" ++ name) = some (.bool true) ∨
      (name = "tool_calls" ∧ hard.lookup "requires_tool_use" = some (.bool true)) ∨
      (name = "reasoning_controls" ∧ hard.lookup "requires_reasoning_mode" = some (.bool true))
  | d => HardStates hard d

/-- A requirement in a sent document is at least as strict as a demand. -/
def RequirementCarries (requirement : Fields) (d : Demand) : Prop :=
  match d with
  | .taskLevel level => RequirementStates requirement (.taskLevel level)
  | .minimum dimension n => RequirementStates requirement (.minimum dimension n)
  | d => ∃ hard, requirement.lookup "hard_constraints" = some (.obj hard) ∧ HardCarries hard d

/-- A sent document is at least as strict as a demand. -/
def Carries (wire : Json) (d : Demand) : Prop :=
  ∃ fields requirement, wire = .obj fields ∧
    (fields.lookup "requirement" = some (.obj requirement) ∨
      fields.lookup "tightening" = some (.obj requirement)) ∧ RequirementCarries requirement d

/-- Looking up a key in a field that may be written, and in the ones after it. -/
theorem lookup_written {α : Type} {name key : String} {f : α → Json} {o : Option α}
    {rest : Fields} : (written name f o ++ rest).lookup key =
      if key = name then (o.map f).or (rest.lookup key) else rest.lookup key := by
  cases o with
  | none => simp [written]
  | some a =>
    simp only [written, List.cons_append, List.nil_append, List.lookup_cons, beq_eq_decide]
    split <;> simp_all

/-- Looking up a key in a flag that may be written, and in the ones after it. -/
theorem lookup_writtenFlag {name key : String} {b : Bool} {rest : Fields} :
    (writtenFlag name b ++ rest).lookup key =
      if key = name ∧ b = true then some (.bool true) else rest.lookup key := by
  cases b with
  | false => simp [writtenFlag]
  | true =>
    simp only [writtenFlag, if_true, List.cons_append, List.nil_append, List.lookup_cons,
      beq_eq_decide]
    split <;> simp_all

/-- The entries of the JSON form of constraints. -/
def Hard.entries (h : Hard) : Fields :=
  written "minimum_input_context_tokens" (fun n : ℕ => .int n) h.inputContext ++
    (written "minimum_output_tokens" (fun n : ℕ => .int n) h.outputTokens ++
    (written "privacy_constraint" .str h.privacy ++ (written "required_model" modelPayload h.model ++
    (written "required_provider" .str h.provider ++ (written "required_variant" .str h.variant ++
    (writtenFlag "requires_reasoning_mode" h.reasoningMode ++
    (writtenFlag "requires_tool_use" h.toolUse ++ (writtenFlag "requires_vision" h.vision ++
      []))))))))

theorem Hard.payload_eq (h : Hard) : h.payload = .obj h.entries := by
  simp [payload, entries]

/-- The JSON form of constraints states their demands. -/
theorem hardCarries_entries {h : Hard} {d : Demand} (hd : h.Holds d) : HardCarries h.entries d := by
  cases d with
  | taskLevel level => exact hd
  | minimum dimension n => exact hd
  | provider s =>
    have hd : h.provider = some s := hd
    simp [HardCarries, HardStates, Hard.entries, lookup_written, hd]
  | model p m =>
    have hd : h.model = some (p, m) := hd
    simp [HardCarries, HardStates, StatesModel, Hard.entries, lookup_written, hd, modelPayload,
      List.lookup_cons]
  | variant s =>
    have hd : h.variant = some s := hd
    simp [HardCarries, HardStates, Hard.entries, lookup_written, hd]
  | privacy s =>
    have hd : h.privacy = some s := hd
    simp [HardCarries, HardStates, Hard.entries, lookup_written, hd]
  | inputContext n =>
    obtain ⟨m, hm, hle⟩ := hd
    have hm : h.inputContext = some m := hm
    exact ⟨m, by simp [Hard.entries, lookup_written, hm], hle⟩
  | outputTokens n =>
    obtain ⟨m, hm, hle⟩ := hd
    have hm : h.outputTokens = some m := hm
    exact ⟨m, by simp [Hard.entries, lookup_written, hm], hle⟩
  | feature f =>
    have hkey : "requires_" ++ "vision" = "requires_vision" := by decide
    have hkey' : "requires_" ++ "reasoning_mode" = "requires_reasoning_mode" := by decide
    rcases hd with ⟨rfl, hd⟩ | ⟨rfl, hd⟩ | ⟨rfl | rfl, hd⟩
    · exact .inr (.inl ⟨rfl, by simp [Hard.entries, lookup_written, lookup_writtenFlag, hd]⟩)
    · refine .inl ?_
      rw [hkey]
      simp only [Hard.entries, lookup_written, lookup_writtenFlag]
      simp [hd]
    · refine .inl ?_
      rw [hkey']
      simp [Hard.entries, lookup_written, lookup_writtenFlag, hd]
    · exact .inr (.inr ⟨rfl, by simp [Hard.entries, lookup_written, lookup_writtenFlag, hd]⟩)

/-- The minima of a requirement are those of its JSON form. -/
theorem lookup_minima {dimension : String} : ∀ minima : List (String × ℕ),
    List.lookup dimension (minima.map fun m : String × ℕ => (m.1, Json.int m.2)) =
      (minima.lookup dimension).map fun n : ℕ => Json.int n
  | [] => rfl
  | (key, n) :: rest => by
    simp only [List.map_cons, List.lookup_cons, lookup_minima rest]
    split <;> rfl

/-- The JSON form of a requirement states its demands. -/
theorem requirementCarries_payload {r : Requirement} {d : Demand} (hd : r.Holds d) :
    ∃ fields, r.payload = .obj fields ∧ RequirementCarries fields d := by
  have hcarries {d : Demand} (hd : r.hard.Holds d) :
      ∃ hard, r.hard.payload = .obj hard ∧ HardCarries hard d :=
    ⟨_, r.hard.payload_eq, hardCarries_entries hd⟩
  refine ⟨_, rfl, ?_⟩
  cases d with
  | taskLevel level =>
    have hd : r.taskLevel = level := hd
    simp [RequirementCarries, RequirementStates, List.lookup_cons, hd]
  | minimum dimension n =>
    have hd : r.minima.lookup dimension = some n := hd
    simp [RequirementCarries, RequirementStates, lookup_minima, hd]
  | provider s => simpa [RequirementCarries, List.lookup_cons] using hcarries (d := .provider s) hd
  | model p m => simpa [RequirementCarries, List.lookup_cons] using hcarries (d := .model p m) hd
  | variant s => simpa [RequirementCarries, List.lookup_cons] using hcarries (d := .variant s) hd
  | privacy s => simpa [RequirementCarries, List.lookup_cons] using hcarries (d := .privacy s) hd
  | inputContext n =>
    simpa [RequirementCarries, List.lookup_cons] using hcarries (d := .inputContext n) hd
  | outputTokens n =>
    simpa [RequirementCarries, List.lookup_cons] using hcarries (d := .outputTokens n) hd
  | feature f => simpa [RequirementCarries, List.lookup_cons] using hcarries (d := .feature f) hd

/-- The document of a requirement states its demands. -/
theorem carries_wireOf {r : Requirement} (profile : Option String) {d : Demand} (hd : r.Holds d) :
    Carries (wireOf r profile) d := by
  obtain ⟨fields, hfields, hd⟩ := requirementCarries_payload hd
  cases profile with
  | none => exact ⟨_, fields, rfl, .inl (by simp [hfields]), hd⟩
  | some profile => exact ⟨_, fields, rfl, .inr (by simp [List.lookup_cons, hfields]), hd⟩

end Routing

end CreatidyKernel
