import CreatidyKernel.Routing.Demands

set_option relaxedAutoImplicit false
set_option autoImplicit false

/-!
# Sound selection

Whatever the Router answers, a selection refuses or returns a configured binding of the provider,
the model and the effort of the selected identity, which satisfies every demand of either marker.
What is sent is at least as strict as each marker, except that a recommendation has no field for
structured output and streaming: these two are only asked of the harness.

## Main definitions

* `Routing.Satisfies` — an allocation on a configured harness satisfies a demand.
* `Routing.Selects` — a response selects the identity of an allocation.

## Main results

* `Routing.select_sound` — a selection is sound against any response.
* `Routing.Sample.streaming_not_sent` — a demand of a marker that is not sent.
-/

namespace CreatidyKernel

namespace Routing

open Checked ScarcityRouterAllocator

/-- An allocation on the configured harness satisfies a demand; the level and the minima of a task
are for the Router alone. -/
def Satisfies (a : ScarcityRouterAllocator) (allocation : Allocation) : Demand → Prop
  | .provider name => allocation.providerId.val = name
  | .model provider name => allocation.providerId.val = provider ∧ allocation.modelId.val = name
  | .variant name => allocation.variant = some name
  | .inputContext n => n ≤ allocation.contextTokens
  | .outputTokens n => ∃ s ∈ a.runtimeSupport, s.runtimeId = allocation.runtimeId ∧
      n ≤ s.outputTokens
  | .feature name => ∃ s ∈ a.runtimeSupport, s.runtimeId = allocation.runtimeId ∧
      name ∈ s.features.toList
  | .privacy _ => False
  | .taskLevel _ | .minimum _ _ => True

/-- A response selects the identity, the variant and the effort of an allocation. -/
def Selects (document : Fields) (allocation : Allocation) : Prop :=
  ∃ decision selected identity variant, document.lookup "decision" = some (.obj decision) ∧
    decision.lookup "selected" = some (.obj selected) ∧
    selected.lookup "identity" = some (.obj identity) ∧
    identity.lookup "provider" = some (.str allocation.providerId.val) ∧
    identity.lookup "model" = some (.str allocation.modelId.val) ∧
    identity.lookup "variant" = some (.str variant) ∧ allocation.variant = some variant ∧
    selected.lookup "reasoning_effort" = some (optionalText allocation.reasoningEffort)

/-- An allocation is made of a binding: the variant is chosen when the binding has none, and the
rest is evidence. -/
structure MadeOf (allocation binding : Allocation) : Prop where
  runtimeId : allocation.runtimeId = binding.runtimeId
  providerId : allocation.providerId = binding.providerId
  modelId : allocation.modelId = binding.modelId
  capabilities : allocation.capabilities = binding.capabilities
  contextTokens : allocation.contextTokens = binding.contextTokens
  reasoningEffort : allocation.reasoningEffort = binding.reasoningEffort
  variant : binding.variant = none ∨ binding.variant = allocation.variant

/-- Two demands no allocation satisfies together. -/
def Contradicts : Demand → Demand → Prop
  | .provider p, .provider q => p ≠ q
  | .provider p, .model q _ => p ≠ q
  | .model p _, .provider q => p ≠ q
  | .model p m, .model q n => (p, m) ≠ (q, n)
  | .variant v, .variant w => v ≠ w
  | _, _ => False

/-! ## Before the exchange -/

/-- What is sent for a handoff is the merged requirement, and the request is its translation. -/
theorem outgoing_eq_ok {a : ScarcityRouterAllocator} {request : ResourceRequest}
    {handoff : RequirementsHandoff} {out : Outgoing}
    (h : a.outgoing { request with requirementsHandoff := some handoff } = .ok out) :
    ∃ o, ordinary handoff = .ok o ∧ out.requirement = o.requirement ∧
      out.wire = wireOf o.requirement o.profile ∧ request.requiredCapabilities = features o ∧
      request.contextTokens = o.requirement.hard.inputContext.getD 0 := by
  obtain ⟨translated, htranslated, h⟩ := bind_eq_ok.mp h
  obtain ⟨heq, h⟩ := check_bind_eq_ok.mp h
  obtain ⟨o, ho, h⟩ := bind_eq_ok.mp h
  obtain ⟨-, h⟩ := check_bind_eq_ok.mp h
  obtain ⟨-, h⟩ := check_bind_eq_ok.mp h
  obtain ⟨approval, -, h⟩ := bind_eq_ok.mp h
  obtain ⟨-, h⟩ := check_bind_eq_ok.mp h
  cases h
  rw [mapError_eq_ok] at ho htranslated
  obtain ⟨o', ho', htranslated⟩ := bind_eq_ok.mp htranslated
  rw [ho] at ho'
  cases ho'
  cases htranslated
  refine ⟨o, ho, rfl, rfl, ?_, ?_⟩
  · exact (congrArg ResourceRequest.requiredCapabilities heq).symm
  · exact (congrArg ResourceRequest.contextTokens heq).symm

/-- Markers that contradict each other are refused. -/
theorem not_contradicts {h : RequirementsHandoff} {o : Ordinary} (ho : ordinary h = .ok o)
    {d d' : Demand} (hd : States h d) (hd' : States h d') : ¬Contradicts d d' := by
  intro hc
  have hagrees := ordinary_agrees ho
  cases d with
  | provider p =>
    have hp : o.requirement.hard.provider = some p := ordinary_holds ho hd trivial
    cases d' with
    | provider q =>
      have hq : o.requirement.hard.provider = some q := ordinary_holds ho hd' trivial
      exact hc (by simpa [hp] using hq)
    | model q m =>
      have hq : o.requirement.hard.model = some (q, m) := ordinary_holds ho hd' trivial
      exact hc (hagrees p hp (q, m) hq).symm
    | _ => exact hc
  | model p m =>
    have hp : o.requirement.hard.model = some (p, m) := ordinary_holds ho hd trivial
    cases d' with
    | provider q =>
      have hq : o.requirement.hard.provider = some q := ordinary_holds ho hd' trivial
      exact hc (hagrees q hq (p, m) hp)
    | model q n =>
      have hq : o.requirement.hard.model = some (q, n) := ordinary_holds ho hd' trivial
      exact hc (by simpa [hp] using hq)
    | _ => exact hc
  | variant v =>
    have hv : o.requirement.hard.variant = some v := ordinary_holds ho hd trivial
    cases d' with
    | variant w =>
      have hw : o.requirement.hard.variant = some w := ordinary_holds ho hd' trivial
      exact hc (by simpa [hv] using hw)
    | _ => exact hc
  | _ => exact hc

/-! ## After the exchange -/

/-- The identity of a response. -/
theorem identity_eq_ok {value : Json} {i : String × String × String}
    (h : identity value = .ok i) : ∃ fields, value = .obj fields ∧
      fields.lookup "provider" = some (.str i.1) ∧ fields.lookup "model" = some (.str i.2.1) ∧
      fields.lookup "variant" = some (.str i.2.2) := by
  obtain ⟨fields, hfields, h⟩ := bind_eq_ok.mp h
  obtain ⟨provider, hprovider, h⟩ := bind_eq_ok.mp h
  obtain ⟨model, hmodel, h⟩ := bind_eq_ok.mp h
  obtain ⟨variant, hvariant, h⟩ := bind_eq_ok.mp h
  obtain ⟨-, h⟩ := check_bind_eq_ok.mp h
  cases h
  have hread {name s : String} (hs : (item fields name >>= string) = .ok s) :
      fields.lookup name = some (.str s) := by
    obtain ⟨value, hvalue, hs⟩ := bind_eq_ok.mp hs
    rwa [string_eq_ok hs, item_eq_ok] at hvalue
  exact ⟨fields, object_eq_ok.mp hfields, hread hprovider, hread hmodel, hread hvariant⟩

/-- The candidate of a response. -/
theorem candidate_eq_ok {eligible : Bool} {value : Json} {c : Candidate}
    (h : candidate eligible value = .ok c) : ∃ fields identity, value = .obj fields ∧
      fields.lookup "identity" = some (.obj identity) ∧
      identity.lookup "provider" = some (.str c.identity.1) ∧
      identity.lookup "model" = some (.str c.identity.2.1) ∧
      identity.lookup "variant" = some (.str c.identity.2.2) ∧
      fields.lookup "reasoning_effort" = some (optionalText c.reasoningEffort) := by
  obtain ⟨fields, hfields, h⟩ := bind_eq_ok.mp h
  obtain ⟨named, hnamed, h⟩ := bind_eq_ok.mp h
  obtain ⟨_, -, h⟩ := bind_eq_ok.mp h
  obtain ⟨effort, heffort, h⟩ := bind_eq_ok.mp h
  obtain ⟨_, -, h⟩ := bind_eq_ok.mp h
  obtain ⟨-, h⟩ := check_bind_eq_ok.mp h
  obtain ⟨degraded, -, h⟩ := bind_eq_ok.mp h
  obtain ⟨_, -, h⟩ := bind_eq_ok.mp h
  obtain ⟨_, -, h⟩ := bind_eq_ok.mp h
  obtain ⟨_, -, h⟩ := bind_eq_ok.mp h
  obtain ⟨_, -, h⟩ := bind_eq_ok.mp h
  cases h
  obtain ⟨value', hvalue, hnamed⟩ := bind_eq_ok.mp hnamed
  obtain ⟨identity, rfl, hprovider, hmodel, hvariant⟩ := identity_eq_ok hnamed
  obtain ⟨value', hread, heffort⟩ := bind_eq_ok.mp heffort
  have htext : value' = optionalText effort := by
    unfold reasoningEffort at heffort
    split at heffort
    · cases heffort
      rfl
    · obtain ⟨s, hs, rfl⟩ := map_eq_ok.mp heffort
      exact string_eq_ok hs
  rw [item_eq_ok] at hvalue hread
  exact ⟨fields, identity, object_eq_ok.mp hfields, hvalue, hprovider, hmodel, hvariant,
    htext ▸ hread⟩

/-- The selected candidate of a decision is the one of the document. -/
theorem decision_eq_ok {calendar : Calendar} {document : Fields} {requirement : Requirement}
    {profile : Option String} {version : Option ℕ} {result : Decision}
    (h : decision calendar document requirement profile version = .ok result) {c : Candidate}
    (hc : result.selected = some c) : ∃ fields value,
      document.lookup "decision" = some (.obj fields) ∧ fields.lookup "selected" = some value ∧
        candidate true value = .ok c := by
  obtain ⟨_, -, h⟩ := bind_eq_ok.mp h
  obtain ⟨-, h⟩ := check_bind_eq_ok.mp h
  obtain ⟨fields, hfields, h⟩ := bind_eq_ok.mp h
  obtain ⟨_, -, h⟩ := bind_eq_ok.mp h
  obtain ⟨-, h⟩ := check_bind_eq_ok.mp h
  obtain ⟨_, -, h⟩ := bind_eq_ok.mp h
  obtain ⟨_, -, h⟩ := bind_eq_ok.mp h
  obtain ⟨_, -, h⟩ := bind_eq_ok.mp h
  obtain ⟨_, -, h⟩ := bind_eq_ok.mp h
  obtain ⟨_, -, h⟩ := bind_eq_ok.mp h
  obtain ⟨_, -, h⟩ := bind_eq_ok.mp h
  obtain ⟨_, -, h⟩ := bind_eq_ok.mp h
  obtain ⟨_, -, h⟩ := bind_eq_ok.mp h
  obtain ⟨_, -, h⟩ := bind_eq_ok.mp h
  obtain ⟨_, -, h⟩ := bind_eq_ok.mp h
  obtain ⟨selected, hselected, h⟩ := bind_eq_ok.mp h
  have heq : result.selected = selected := by
    split at h <;>
    · obtain ⟨knowledge, -, h⟩ := bind_eq_ok.mp h
      obtain ⟨-, h⟩ := check_bind_eq_ok.mp h
      cases h
      rfl
  rw [heq] at hc
  obtain ⟨value, hvalue, hfields⟩ := bind_eq_ok.mp hfields
  rw [object_eq_ok.mp hfields, item_eq_ok] at hvalue
  obtain ⟨value', hread, hselected⟩ := bind_eq_ok.mp hselected
  rw [item_eq_ok] at hread
  refine ⟨fields, value', hvalue, hread, ?_⟩
  split at hselected
  · obtain ⟨-, hselected⟩ := check_bind_eq_ok.mp hselected
    cases hselected
    cases hc
  · obtain ⟨c', hc', hselected⟩ := bind_eq_ok.mp hselected
    obtain ⟨-, hselected⟩ := check_bind_eq_ok.mp hselected
    obtain ⟨-, hselected⟩ := check_bind_eq_ok.mp hselected
    cases hselected
    cases hc
    exact hc'

/-- What is chosen is a compatible binding with the variant of the selected identity. -/
theorem choose_eq_ok {a : ScarcityRouterAllocator} {request : ResourceRequest} {out : Outgoing}
    {d : Decision} {allocation : Allocation} (h : a.choose request out d = .ok allocation) :
    ∃ c binding, d.selected = some c ∧ binding ∈ a.runtimeBindings ∧
      binding.providerId.val = c.identity.1 ∧ binding.modelId.val = c.identity.2.1 ∧
      binding.reasoningEffort = c.reasoningEffort ∧
      a.compatible binding request out.requirement = true ∧ MadeOf allocation binding ∧
      allocation.variant = some c.identity.2.2 ∧
      ∀ v ∈ out.requirement.hard.variant, v = c.identity.2.2 := by
  unfold choose at h
  dsimp only at h
  split at h
  · cases h
  · rename_i c hc
    split at h
    · rename_i binding hmatching
      have hmem : binding ∈ a.matching c := by simp [hmatching]
      obtain ⟨hbinding, hfits⟩ := List.mem_filter.mp hmem
      obtain ⟨hprovider, hmodel, heffort⟩ := of_decide_eq_true hfits
      obtain ⟨⟨hcompatible, hvariant, hrequired⟩, h⟩ := check_bind_eq_ok.mp h
      obtain ⟨requirements, -, h⟩ := bind_eq_ok.mp (mapError_eq_ok.mp h)
      cases h
      refine ⟨c, binding, hc, hbinding, hprovider, hmodel, heffort, hcompatible,
        ⟨rfl, rfl, rfl, rfl, rfl, rfl, ?_⟩, rfl, hrequired⟩
      cases hv : binding.variant with
      | none => exact .inl rfl
      | some v => exact .inr (congrArg some (hvariant v hv))
    · cases h

/-- A compatible binding with the required variant satisfies every demand of the markers. -/
theorem satisfies_of_compatible {a : ScarcityRouterAllocator} {request : ResourceRequest}
    {handoff : RequirementsHandoff} {o : Ordinary} (ho : ordinary handoff = .ok o)
    (hfeatures : request.requiredCapabilities = features o)
    (hcontext : request.contextTokens = o.requirement.hard.inputContext.getD 0)
    {allocation binding : Allocation} (hmade : MadeOf allocation binding)
    (hcompatible : a.compatible binding
      { request with requirementsHandoff := some handoff } o.requirement = true)
    (hvariant : ∀ v ∈ o.requirement.hard.variant, allocation.variant = some v) {d : Demand}
    (hd : States handoff d) : Satisfies a allocation d := by
  simp only [compatible, Bool.and_eq_true, decide_eq_true_eq, reduceCtorEq, if_false,
    Option.any_eq_true] at hcompatible
  obtain ⟨hwindow, ⟨hprovider, hmodel, -⟩, s, hs, hcapabilities, houtput⟩ := hcompatible
  have hsupport : s ∈ a.runtimeSupport := List.mem_of_find?_eq_some hs
  have hruntime : s.runtimeId = allocation.runtimeId := by
    rw [hmade.runtimeId]
    simpa using List.find?_some hs
  cases d with
  | taskLevel | minimum => trivial
  | provider p =>
    have hp : o.requirement.hard.provider = some p := ordinary_holds ho hd trivial
    exact (congrArg Subtype.val hmade.providerId).trans (hprovider p hp).symm
  | model p m =>
    have hm : o.requirement.hard.model = some (p, m) := ordinary_holds ho hd trivial
    have heq := Prod.mk.inj (hmodel (p, m) hm)
    exact ⟨(congrArg Subtype.val hmade.providerId).trans heq.1.symm,
      (congrArg Subtype.val hmade.modelId).trans heq.2.symm⟩
  | variant v =>
    have hv : o.requirement.hard.variant = some v := ordinary_holds ho hd trivial
    exact hvariant v hv
  | privacy p =>
    have hp : o.requirement.hard.privacy = some p := ordinary_holds ho hd trivial
    rw [(ordinary_refuses ho).2] at hp
    cases hp
  | inputContext n =>
    obtain ⟨m, hm, hle⟩ : ∃ m ∈ o.requirement.hard.inputContext, n ≤ m :=
      ordinary_holds ho hd trivial
    have hm : o.requirement.hard.inputContext = some m := hm
    rw [hcontext, hm] at hwindow
    exact le_trans hle (hmade.contextTokens ▸ hwindow)
  | outputTokens n =>
    obtain ⟨m, hm, hle⟩ : ∃ m ∈ o.requirement.hard.outputTokens, n ≤ m :=
      ordinary_holds ho hd trivial
    have hm : o.requirement.hard.outputTokens = some m := hm
    rw [hm] at houtput
    exact ⟨s, hsupport, hruntime, le_trans hle houtput⟩
  | feature f =>
    refine ⟨s, hsupport, hruntime, hcapabilities f ?_⟩
    rw [hfeatures]
    exact mem_features ho hd

/-- Whatever the Router answers, a selection for an approved handoff refuses, or returns a
configured binding of the selected provider, model and effort that satisfies every demand of either
marker. What is sent is at least as strict as each marker, up to structured output and streaming,
and contradictory markers are refused before anything is sent. -/
theorem select_sound (a : ScarcityRouterAllocator) (calendar : Calendar) (exchange : Json → Reply)
    (request : ResourceRequest) (handoff : RequirementsHandoff) :
    (∀ allocation, a.select calendar exchange
        { request with requirementsHandoff := some handoff } = .ok allocation →
      (∃ binding ∈ a.runtimeBindings, MadeOf allocation binding) ∧
      (∃ wire document, exchange wire = .document document ∧ Selects document allocation) ∧
      ∀ d, States handoff d → Satisfies a allocation d) ∧
    (∀ out, a.outgoing { request with requirementsHandoff := some handoff } = .ok out →
      ∀ d, States handoff d → d.Wired → Carries out.wire d) ∧
    ∀ d d', States handoff d → States handoff d' → Contradicts d d' →
      ∀ out, a.outgoing { request with requirementsHandoff := some handoff } ≠ .ok out := by
  refine ⟨fun allocation h => ?_, fun out h d hd hwired => ?_, fun d d' hd hd' hc out h => ?_⟩
  · obtain ⟨out, hout, h⟩ := bind_eq_ok.mp h
    obtain ⟨o, ho, hrequirement, -, hfeatures, hcontext⟩ := outgoing_eq_ok hout
    cases hreply : exchange out.wire with
    | failed | unreachable | garbled =>
      rw [hreply] at h
      cases h
    | document document =>
      rw [hreply] at h
      obtain ⟨-, h⟩ := check_bind_eq_ok.mp h
      obtain ⟨result, hresult, h⟩ := bind_eq_ok.mp h
      obtain ⟨c, binding, hc, hbinding, hprovider, hmodel, heffort, hcompatible, hmade, hvariant,
        hrequired⟩ := choose_eq_ok h
      obtain ⟨fields, value, hfields, hvalue, hcandidate⟩ :=
        decision_eq_ok (mapError_eq_ok.mp hresult) hc
      obtain ⟨selected, identity, rfl, hidentity, hp, hm, hv, he⟩ := candidate_eq_ok hcandidate
      rw [← hprovider, ← hmade.providerId] at hp
      rw [← hmodel, ← hmade.modelId] at hm
      rw [← heffort, ← hmade.reasoningEffort] at he
      rw [hrequirement] at hcompatible hrequired
      refine ⟨⟨binding, hbinding, hmade⟩, ⟨_, document, hreply, fields, selected, identity,
        c.identity.2.2, hfields, hvalue, hidentity, hp, hm, hv, hvariant, he⟩, fun d hd => ?_⟩
      exact satisfies_of_compatible ho hfeatures hcontext hmade hcompatible
        (fun v hv => (hrequired v hv) ▸ hvariant) hd
  · obtain ⟨o, ho, -, hwire, -⟩ := outgoing_eq_ok h
    rw [hwire]
    exact carries_wireOf _ (ordinary_holds ho hd hwired)
  · obtain ⟨o, ho, -⟩ := outgoing_eq_ok h
    exact not_contradicts ho hd hd' hc

/-! ## Samples -/

namespace Sample

/-- A text. -/
def text (s : String) (h : decide (s ≠ "") = true := by decide) : Intake.Text :=
  ⟨s, of_decide_eq_true h⟩

/-- An identifier. -/
def name (s : String) (h : decide (Nonblank s) = true := by decide) : Name :=
  ⟨s, of_decide_eq_true h⟩

/-- The quality of the sample, without constraints. -/
def quality : String :=
  "\x7b\"requirement\":\x7b\"capability_minima\":\x7b\x7d,\"hard_constraints\":\x7b\x7d,\"task_level\":\"L0\"\x7d\x7d"

/-- The interface of the sample asks for streaming. -/
def interface : String := "\x7b\"requires_streaming\":true\x7d"

/-- A draft of the task `task`. -/
def draft : Intake.Draft :=
  ⟨"task", 1, none, ⟨text "\x7b\x7d", name "outcome", [], [], [], [], [], []⟩,
    ⟨⟨text "https://forge", text "owner/name", 1, text "main", text "base"⟩, text "issue",
      text "updated", text "open", text "base",
      text "5feceb66ffc86f38d952786c6d696c79c2dbc239dd4e91b46729d73a27fb57e9", text "producer",
      text "reference", text "passed", text "producer", text "reference", text "proof",
      .remains, 1, by decide⟩, by decide⟩

/-- A handoff whose interface asks for streaming. -/
def handoff : RequirementsHandoff :=
  ⟨draft, [], [name (qualityPrefix ++ quality)], [name (interfacePrefix ++ interface)], "decision",
    "\x7b\x7d", "program"⟩

/-- A harness that streams. -/
def allocator : ScarcityRouterAllocator where
  runtimeBindings := [⟨name "runtime", name "openai", name "gpt", SortedSet.ofList [], 0, "basic",
    none, none, none, none, none⟩]
  apiKey := none
  runtimeSupport := [⟨name "runtime", name "1", SortedSet.ofList ["streaming"], 0,
    name "evidence", by decide⟩]
  profilePolicyVersion := none
  configured := by decide
  unambiguous := by decide
  distinct := by decide

/-- The request of the handoff. -/
def request : ResourceRequest :=
  ⟨name "ordinary", SortedSet.ofList ["streaming"], 0, some handoff⟩

/-- The requirement that is sent for the handoff. -/
def requirement : Requirement := ⟨"L0", [], Hard.none⟩

end Sample

/-- Streaming is demanded by the interface marker, and what is sent does not say so. -/
theorem streaming_not_sent : ∃ out, Sample.allocator.outgoing Sample.request = .ok out ∧
    States Sample.handoff (.feature "streaming") ∧ ¬Carries out.wire (.feature "streaming") := by
  have hout : Sample.allocator.outgoing Sample.request =
      .ok ⟨wireOf Sample.requirement none, Sample.requirement, none,
        [("requires_streaming", .bool true)]⟩ := by decide +kernel
  refine ⟨_, hout, .inr ⟨_, List.mem_singleton_self _, Sample.interface,
    [("requires_streaming", .bool true)], by decide +kernel, by decide +kernel, rfl⟩, ?_⟩
  rintro ⟨fields, requirement, hwire, hlookup, hard, hhard, hcarries⟩
  cases hwire
  rcases hlookup with hlookup | hlookup
  · cases hlookup
    cases hhard
    rcases hcarries with hcarries | ⟨hname, -⟩ | ⟨hname, -⟩
    · cases hcarries
    · exact absurd hname (by decide)
    · exact absurd hname (by decide)
  · cases hlookup

end Routing

end CreatidyKernel
