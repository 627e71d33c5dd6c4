import CreatidyKernel.Codec.Program
import CreatidyKernel.Core.Reordering

set_option relaxedAutoImplicit false
set_option autoImplicit false

/-!
# Codec of command inputs

The store records with every history row the canonical text of the input that produced it: the
specification of a creation, or a command with its parameters. The text is decoded and checked
again when the projections are rebuilt. The encoder sorts the tuples of an amendment, so a
decoded amendment is the recorded one up to their order.

## Main definitions

* `Codec.createInput`, `Codec.commandInput` — the dictionaries; their texts are
  `createInputJson` and `commandInputJson`.
* `Codec.commandFrom` — the decoder of a command.
* `Codec.validateCreateInput`, `Codec.validateHistoryInput` — the checks of recorded inputs.

## Main results

* `Codec.commandFrom_input` — decoding the input of a command gives the command with its
  amendment sorted.
* `Codec.validateCreateInput_self`, `Codec.validateHistoryInput_self` — recorded inputs pass
  their checks.
* `Codec.commandInput_meaning` — a recorded command and its decoded form end alike on every
  Program, and a text stands for one command up to reordering.
* `Codec.commandInputJson_injective`, `Codec.createInputJson_injective`,
  `Codec.createInputJson_ne` — a text stands for one Program id and one command.
-/

namespace CreatidyKernel

namespace Codec

open Checked

/-! ## Optional fields -/

/-- An optional value as its form or null. -/
def optional {α : Type} (encode : α → Json) : Option α → Json
  | none => .null
  | some a => encode a

/-- `None if value is None else decode(value)`. -/
def optionalFrom {α : Type} (decode : Json → Except Failure α) :
    Json → Except Failure (Option α)
  | .null => .ok none
  | value => some <$> decode value

/-- `value[name]`, decoded unless it is null. -/
def optionalField {α : Type} (decode : Json → Except Failure α) (value : List (String × Json))
    (name : String) : Except Failure (Option α) := do
  optionalFrom decode (← field value name)

theorem optionalFrom_of_ok {α : Type} {decode : Json → Except Failure α} {v : Json} {a : α}
    (hv : v ≠ .null) (h : decode v = .ok a) : optionalFrom decode v = .ok (some a) := by
  cases v with
  | null => exact absurd rfl hv
  | _ => exact map_eq_ok.2 ⟨a, h, rfl⟩

theorem optional_wf {α : Type} {encode : α → Json} {o : Option α} (h : ∀ a ∈ o, (encode a).WF) :
    (optional encode o).WF := by
  cases o with
  | none => exact Json.wf_null
  | some a => exact h a rfl

/-! ## Amendments -/

/-- `_amendment_data`. -/
def amendmentData (a : SpecAmendment) : Json :=
  .obj [("acceptance_criteria", optional (fun l => names (SortedBy.sortBy id l))
      a.acceptanceCriteria),
    ("authority", optional AuthorityEnvelope.payload a.authority),
    ("budget", optional BudgetPolicy.payload a.budget),
    ("expected_revision", .int a.expectedRevision),
    ("initial_inputs", optional
      (fun l => .arr ((SortedBy.sortBy InputBinding.name l).map InputBinding.payload))
      a.initialInputs),
    ("objective", optionalName a.objective),
    ("policy_references", optional
      (fun l => .arr ((SortedBy.sortBy PolicyReference.key l).map PolicyReference.payload))
      a.policyReferences),
    ("reason", .str a.reason.val),
    ("work_units", optional
      (fun l => .arr ((SortedBy.sortBy WorkUnit.workUnitId l).map WorkUnit.payload))
      a.workUnits)]

/-- `tuple(decode(item) for item in _array(value, label))`. -/
def listFrom {α : Type} (decode : Json → Except Failure α) (label : String) (value : Json) :
    Except Failure (List α) := do
  let items ← array value label
  items.mapM decode

/-- `_amendment_from`. -/
def amendmentFrom (data : Json) : Except Failure SpecAmendment := do
  let value ← mapping data ["acceptance_criteria", "authority", "budget", "expected_revision",
    "initial_inputs", "objective", "policy_references", "reason", "work_units"] "SpecAmendment"
  let budget ← optionalField
    (fun data => budgetFrom data "amended budget" "amended max_attempts"
      "amended max_active_attempts") value "budget"
  let expectedRevision ← integerField value "expected_revision" "amendment expected_revision"
  let objective ← optionalTextField value "objective" "amendment objective"
  let workUnits ← optionalField (listFrom workUnitFrom "amendment work_units") value "work_units"
  let inputs ← optionalField (listFrom bindingFrom "amendment initial_inputs") value
    "initial_inputs"
  let authority ← optionalField authorityFrom value "authority"
  let reason ← textField value "reason" "amendment reason"
  let criteria ← optionalField (fun data => strings data "amendment acceptance_criteria") value
    "acceptance_criteria"
  let policies ← optionalField (listFrom policyFrom "amendment policy_references") value
    "policy_references"
  SpecAmendment.init expectedRevision objective workUnits inputs budget authority reason criteria
    policies

theorem amendmentData_wf (a : SpecAmendment) : (amendmentData a).WF := by
  refine (Json.wf_obj _).2 ⟨by simp only [List.map]; decide, ?_⟩
  simp only [List.forall_mem_cons, List.not_mem_nil, false_imp_iff, implies_true, and_true]
  refine ⟨optional_wf fun l _ => names_wf _, optional_wf fun e _ => e.payload_wf,
    optional_wf fun b _ => b.payload_wf, Json.wf_int _, optional_wf fun l _ => ?_,
    optionalName_wf _, optional_wf fun l _ => ?_, Json.wf_str _, optional_wf fun l _ => ?_⟩
  · simp +contextual [InputBinding.payload_wf]
  · simp +contextual [PolicyReference.payload_wf]
  · simp +contextual [WorkUnit.payload_wf]

/-- An optional list of records, encoded in sorted order, is decoded in sorted order. -/
theorem optionalFrom_list {α κ : Type} [LinearOrder κ] {key : α → κ} {encode : α → Json}
    {decode : Json → Except Failure α} (h : ∀ a, decode (encode a) = .ok a) (label : String)
    (o : Option (List α)) :
    optionalFrom (listFrom decode label)
      (optional (fun l => .arr ((SortedBy.sortBy key l).map encode)) o) =
      .ok (o.map (SortedBy.sortBy key)) := by
  cases o with
  | none => rfl
  | some l => exact optionalFrom_of_ok nofun (bind_of_ok rfl (mapM_map fun a _ => h a))

/-- Decoding the form of an amendment gives the amendment with its tuples sorted. -/
theorem amendmentFrom_data (a : SpecAmendment) :
    amendmentFrom (amendmentData a) = .ok a.sorted := by
  refine bind_of_ok rfl <| bind_of_ok (a := a.budget) ?_ <| bind_of_ok rfl <|
    bind_of_ok (optionalText_optionalName _ _) <|
    bind_of_ok (optionalFrom_list workUnitFrom_payload _ _) <|
    bind_of_ok (optionalFrom_list bindingFrom_payload _ _) <|
    bind_of_ok (a := a.authority) ?_ <| bind_of_ok rfl <|
    bind_of_ok (a := a.sorted.acceptanceCriteria.map fun l : List Name => l.map Subtype.val) ?_ <|
    bind_of_ok (optionalFrom_list policyFrom_payload _ _) a.sorted.init_self
  · show optionalFrom _ (optional _ a.budget) = _
    cases a.budget with
    | none => rfl
    | some b => exact optionalFrom_of_ok nofun (budgetFrom_payload b _ _ _)
  · show optionalFrom _ (optional _ a.authority) = _
    cases a.authority with
    | none => rfl
    | some e => exact optionalFrom_of_ok nofun (authorityFrom_payload e)
  · show optionalFrom _ (optional _ a.acceptanceCriteria) =
      .ok ((a.acceptanceCriteria.map (SortedBy.sortBy id)).map fun l => l.map Subtype.val)
    cases a.acceptanceCriteria with
    | none => rfl
    | some l => exact optionalFrom_of_ok nofun (strings_names _ _)

/-! ## Commands -/

/-- The parameters of a command. -/
def parameters : Request → List (String × Json)
  | .activateProgram => []
  | .pauseProgram => []
  | .resumeProgram => []
  | .cancelProgram => []
  | .cancelWorkUnit workUnitId reason =>
    [("reason", .str reason.val), ("work_unit_id", .str workUnitId.val)]
  | .prepareAttempt attempt => [("attempt", attempt.payload)]
  | .startAttempt attemptId => [("attempt_id", .str attemptId.val)]
  | .finishAttempt attemptId => [("attempt_id", .str attemptId.val)]
  | .failAttempt attemptId => [("attempt_id", .str attemptId.val)]
  | .cancelAttempt attemptId => [("attempt_id", .str attemptId.val)]
  | .satisfyWorkUnit satisfaction => [("satisfaction", satisfactionData satisfaction)]
  | .amendProgramSpec amendment => [("amendment", amendmentData amendment)]

/-- The dictionary of a command for a Program. -/
def commandInput (programId : Name) (c : DomainCommand) : Json :=
  .obj [("actor_id", .str c.actorId.val),
    ("command_type", .str c.request.action.value),
    ("expected_revision", .int c.expectedRevision),
    ("parameters", .obj (parameters c.request)),
    ("program_id", .str programId.val),
    ("schema_version", .int 1)]

/-- `command_input_json`. -/
def commandInputJson (programId : Name) (c : DomainCommand) : String :=
  dumps (commandInput programId c)

/-- The dictionary of a creation. -/
def createInput (spec : ProgramSpec) : Json :=
  .obj [("actor_id", .str spec.authority.ownerId.val),
    ("command_type", .str "create_program"),
    ("program_id", .str spec.programId.val),
    ("schema_version", .int 1),
    ("spec", spec.payload)]

/-- `create_input_json`. -/
def createInputJson (spec : ProgramSpec) : String := dumps (createInput spec)

/-- The request a command type and its parameters stand for. -/
def requestFrom (commandType : String) (fields : List (String × Json)) :
    Except Failure Request := do
  let action ← member domainActionOf? "history has an unknown K1 command type" commandType
  let label := commandType ++ " parameters"
  match action with
  | .activateProgram => (fun _ => .activateProgram) <$> mapping (.obj fields) [] label
  | .pauseProgram => (fun _ => .pauseProgram) <$> mapping (.obj fields) [] label
  | .resumeProgram => (fun _ => .resumeProgram) <$> mapping (.obj fields) [] label
  | .cancelProgram => (fun _ => .cancelProgram) <$> mapping (.obj fields) [] label
  | .cancelWorkUnit =>
    let params ← mapping (.obj fields) ["reason", "work_unit_id"] label
    let workUnitId ← textField params "work_unit_id" "work_unit_id"
    let reason ← textField params "reason" "cancellation reason"
    return .cancelWorkUnit (← nonempty workUnitId "work_unit_id") (← nonempty reason "reason")
  | .prepareAttempt =>
    let params ← mapping (.obj fields) ["attempt"] label
    return .prepareAttempt (← attemptSpecFrom (← field params "attempt"))
  | .startAttempt => .startAttempt <$> attemptIdFrom label
  | .finishAttempt => .finishAttempt <$> attemptIdFrom label
  | .failAttempt => .failAttempt <$> attemptIdFrom label
  | .cancelAttempt => .cancelAttempt <$> attemptIdFrom label
  | .satisfyWorkUnit =>
    let params ← mapping (.obj fields) ["satisfaction"] label
    return .satisfyWorkUnit (← satisfactionFrom (← field params "satisfaction"))
  | .amendSpec =>
    let params ← mapping (.obj fields) ["amendment"] label
    return .amendProgramSpec (← amendmentFrom (← field params "amendment"))
where
  /-- The parameter of the commands on one Attempt. -/
  attemptIdFrom (label : String) : Except Failure Name := do
    let params ← mapping (.obj fields) ["attempt_id"] label
    let attemptId ← textField params "attempt_id" "attempt_id"
    nonempty attemptId "attempt_id"

/-- `_command_from`. -/
def commandFrom (value : List (String × Json)) : Except Failure DomainCommand := do
  let commandType ← textField value "command_type" "command_type"
  let programId ← textField value "program_id" "program_id"
  check (Nonblank programId) (refuse "command program_id must be nonempty")
  let expectedRevision ← integerField value "expected_revision" "command expected_revision"
  let actorId ← textField value "actor_id" "command actor_id"
  let fields ← field value "parameters"
  let fields ← object fields "command parameters"
  let request ← requestFrom commandType fields
  DomainCommand.init expectedRevision actorId request

theorem parameters_wf (r : Request) : (Json.obj (parameters r)).WF := by
  refine (Json.wf_obj _).2 ⟨by cases r <;> simp only [parameters, List.map] <;> decide, ?_⟩
  cases r <;> simp [parameters, AttemptSpec.payload_wf, satisfactionData_wf, amendmentData_wf]

theorem commandInput_wf (programId : Name) (c : DomainCommand) : (commandInput programId c).WF :=
  (Json.wf_obj _).2 ⟨by simp only [List.map]; decide, by
    simp [-Json.wf_obj, parameters_wf]⟩

theorem createInput_wf (spec : ProgramSpec) : (createInput spec).WF :=
  (Json.wf_obj _).2 ⟨by simp only [List.map]; decide, by simp [ProgramSpec.payload_wf]⟩

/-- Decoding the parameters of a command gives its request, with an amendment sorted. -/
theorem requestFrom_parameters (c : DomainCommand) :
    requestFrom c.request.action.value (parameters c.request) = .ok c.sorted.request := by
  obtain ⟨revision, actor, request⟩ := c
  refine bind_of_ok (member_domainAction _ _) ?_
  cases request with
  | cancelWorkUnit workUnitId reason =>
    exact bind_of_ok rfl <| bind_of_ok rfl <| bind_of_ok rfl <|
      bind_of_ok (nonempty_val _ _) <| bind_of_ok (nonempty_val _ _) rfl
  | prepareAttempt attempt =>
    exact bind_of_ok rfl <| bind_of_ok rfl <| bind_of_ok (attemptSpecFrom_payload _) rfl
  | startAttempt attemptId | finishAttempt attemptId | failAttempt attemptId
  | cancelAttempt attemptId =>
    exact map_eq_ok.2 ⟨attemptId, bind_of_ok rfl <| bind_of_ok rfl (nonempty_val _ _), rfl⟩
  | satisfyWorkUnit satisfaction =>
    exact bind_of_ok rfl <| bind_of_ok rfl <| bind_of_ok (satisfactionFrom_data _) rfl
  | amendProgramSpec amendment =>
    exact bind_of_ok rfl <| bind_of_ok rfl <| bind_of_ok (amendmentFrom_data _) rfl
  | _ => rfl

/-- Decoding the input of a command gives the command, with an amendment sorted. -/
theorem commandFrom_input {programId : Name} {c : DomainCommand} {fields : List (String × Json)}
    (h : commandInput programId c = .obj fields) : commandFrom fields = .ok c.sorted := by
  obtain rfl := Json.obj.inj h
  exact bind_of_ok rfl <| bind_of_ok rfl <| bind_of_ok (check_of programId.2) <|
    bind_of_ok rfl <| bind_of_ok rfl <| bind_of_ok rfl <| bind_of_ok rfl <|
    bind_of_ok (requestFrom_parameters c) c.sorted.init_self

/-! ## Texts stand for one command -/

/-- The input of a command is the input of the command with its tuples sorted. -/
theorem commandInput_sorted (programId : Name) (c : DomainCommand) :
    commandInput programId c.sorted = commandInput programId c := by
  obtain ⟨revision, actor, request⟩ := c
  cases request with
  | amendProgramSpec amendment =>
    have hsort {α κ : Type} [LinearOrder κ] {key : α → κ} (l : List α) :
        SortedBy.sortBy key (SortedBy.sortBy key l) = SortedBy.sortBy key l :=
      SortedBy.sortBy_eq_iff.2 (SortedBy.sortBy_reorders l)
    have hoption {α κ : Type} [LinearOrder κ] {key : α → κ} (encode : List α → Json)
        (o : Option (List α)) :
        optional (fun l => encode (SortedBy.sortBy key l)) (o.map (SortedBy.sortBy key)) =
          optional (fun l => encode (SortedBy.sortBy key l)) o := by
      cases o with
      | none => rfl
      | some l => simp only [Option.map_some, optional, hsort]
    have hdata : amendmentData amendment.sorted = amendmentData amendment := by
      simp only [amendmentData, SpecAmendment.sorted,
        hoption (fun l => names l), hoption (fun l => .arr (l.map InputBinding.payload)),
        hoption (fun l => .arr (l.map PolicyReference.payload)),
        hoption (fun l => .arr (l.map WorkUnit.payload))]
    simp only [commandInput, DomainCommand.sorted, parameters, hdata, Request.action]
  | _ => rfl

theorem commandInputJson_injective {p p' : Name} {c c' : DomainCommand}
    (h : commandInputJson p c = commandInputJson p' c') : p = p' ∧ c.sorted = c'.sorted := by
  have he := dumps_injective (commandInput_wf p c) (commandInput_wf p' c') h
  have hc := (commandFrom_input rfl).symm.trans ((congrArg commandFrom (Json.obj.inj he)).trans
    (commandFrom_input rfl))
  simp only [commandInput, Json.obj.injEq, List.cons.injEq, Prod.mk.injEq, Json.str.injEq] at he
  exact ⟨Subtype.ext he.2.2.2.2.1.2, Except.ok.inj hc⟩

theorem createInputJson_injective {spec spec' : ProgramSpec}
    (h : createInputJson spec = createInputJson spec') : spec = spec' := by
  have he := dumps_injective (createInput_wf spec) (createInput_wf spec') h
  simp only [createInput, Json.obj.injEq, List.cons.injEq, Prod.mk.injEq] at he
  exact Except.ok.inj ((specFrom_payload spec).symm.trans
    ((congrArg specFrom he.2.2.2.2.1.2).trans (specFrom_payload spec')))

theorem createInputJson_ne (spec : ProgramSpec) (p : Name) (c : DomainCommand) :
    createInputJson spec ≠ commandInputJson p c := by
  intro h
  have he := dumps_injective (createInput_wf spec) (commandInput_wf p c) h
  simp [createInput, commandInput] at he

/-! ## Checks of recorded inputs -/

section

variable [Sha256]

/-- The metadata of a recorded command. -/
structure InputEnvelope where
  programId : Name
  commandType : String
  actorId : Name
  inputDigest : Name

/-- The keys of a command input are compared with the row. -/
def matchesEnvelope (value : List (String × Json)) (e : InputEnvelope) : Bool :=
  getField value "program_id" = .str e.programId.val ∧
    getField value "command_type" = .str e.commandType ∧
    getField value "actor_id" = .str e.actorId.val

/-- `validate_history_input`. -/
def validateHistoryInput (raw : String) (e : InputEnvelope) : Except Failure Unit := do
  match loads raw with
  | none => .error (refuse "history command input is not valid JSON")
  | some decoded =>
    let value ← mapping decoded ["actor_id", "command_type", "expected_revision", "parameters",
      "program_id", "schema_version"] "history command input"
    let version ← integer (getField value "schema_version") "command schema_version"
    check (version = 1) (refuse "unsupported history command schema version")
    check (matchesEnvelope value e = true)
      (refuse "history command metadata does not match its record envelope")
    let _ ← integerField value "expected_revision" "command expected_revision"
    let _ ← object (← field value "parameters") "command parameters"
    check (domainActionOf? e.commandType ≠ none)
      (refuse "history has an unknown K1 command type")
    check (digest (.obj value) = e.inputDigest)
      (refuse "history command digest does not match its canonical input")
    check (raw = dumps (.obj value)) (refuse "history command input is not canonically encoded")
    let _ ← (commandFrom value).mapError
      (asCodecError "history command input violates K1 value constraints")
    return ()

/-- `validate_create_input`. -/
def validateCreateInput (raw : String) (programId actorId inputDigest : Name) :
    Except Failure Unit := do
  match loads raw with
  | none => .error (refuse "history creation input is not valid JSON")
  | some decoded =>
    let value ← mapping decoded ["actor_id", "command_type", "program_id", "schema_version",
      "spec"] "history creation input"
    let version ← integerField value "schema_version" "create schema_version"
    check (version = 1 ∧ getField value "command_type" = .str "create_program" ∧
        getField value "program_id" = .str programId.val ∧
        getField value "actor_id" = .str actorId.val ∧ digest (.obj value) = inputDigest)
      (refuse "history creation input does not match its record envelope")
    check (raw = dumps (.obj value)) (refuse "history creation input is not canonically encoded")
    let spec ← specFrom (← field value "spec")
    check (spec.programId = programId ∧ spec.authority.ownerId = actorId)
      (refuse "Program creation input has inconsistent identity or owner authority")

omit [Sha256] in
theorem domainActionOf?_value (a : DomainAction) : domainActionOf? a.value = some a := by
  cases a <;> rfl

/-- The recorded input of a command passes its check. -/
theorem validateHistoryInput_self (programId : Name) (c : DomainCommand) :
    validateHistoryInput (commandInputJson programId c)
      ⟨programId, c.request.action.value, c.actorId, digest (commandInput programId c)⟩ =
      .ok () := by
  unfold validateHistoryInput
  rw [commandInputJson, loads_dumps (commandInput_wf programId c)]
  refine bind_of_ok rfl <| bind_of_ok rfl <| bind_of_ok (check_of rfl) <|
    bind_of_ok (check_of ?_) <| bind_of_ok rfl <| bind_of_ok rfl <| bind_of_ok rfl <|
    bind_of_ok (check_of ?_) <| bind_of_ok (check_of rfl) <| bind_of_ok (check_of rfl) <|
    bind_of_ok (a := c.sorted) ?_ rfl
  · simp [matchesEnvelope, getField]
  · simp [domainActionOf?_value]
  · rw [commandFrom_input rfl]
    rfl

/-- The recorded input of a creation passes its check. -/
theorem validateCreateInput_self (spec : ProgramSpec) :
    validateCreateInput (createInputJson spec) spec.programId spec.authority.ownerId
      (digest (createInput spec)) = .ok () := by
  unfold validateCreateInput
  rw [createInputJson, loads_dumps (createInput_wf spec)]
  exact bind_of_ok rfl <| bind_of_ok rfl <| bind_of_ok (check_of ⟨rfl, rfl, rfl, rfl, rfl⟩) <|
    bind_of_ok (check_of rfl) <| bind_of_ok rfl <| bind_of_ok (specFrom_payload spec)
    (check_of ⟨rfl, rfl⟩)

/-! ## Meaning of a recorded command -/

/-- The canonical input of a command is decoded to a command that ends alike on every Program,
but for the class reported for an amendment with both defects; two commands have one input
exactly when they differ at most by the order of the tuples of their amendment; and the input
passes its check. -/
theorem commandInput_meaning (programId : Name) (c : DomainCommand) :
    (∃ fields c', loads (commandInputJson programId c) = some (.obj fields) ∧
      commandFrom fields = .ok c' ∧
      ∀ q : Program, Agree (SameClass (q.Ambivalent c)) (· = ·) (q.apply c') (q.apply c)) ∧
    (∀ programId' c', commandInputJson programId c = commandInputJson programId' c' ↔
      programId = programId' ∧ c.Reorders c') ∧
    validateHistoryInput (commandInputJson programId c)
      ⟨programId, c.request.action.value, c.actorId, digest (commandInput programId c)⟩ =
      .ok () := by
  refine ⟨⟨_, c.sorted, loads_dumps (commandInput_wf programId c), commandFrom_input rfl,
    fun q => q.apply_sorted_agree c⟩, fun programId' c' => ⟨fun h => ?_, ?_⟩,
    validateHistoryInput_self programId c⟩
  · obtain ⟨hp, hc⟩ := commandInputJson_injective h
    exact ⟨hp, DomainCommand.sorted_eq_iff.1 hc⟩
  · rintro ⟨rfl, hc⟩
    rw [commandInputJson, commandInputJson, ← commandInput_sorted programId c,
      DomainCommand.sorted_eq_iff.2 hc, commandInput_sorted]

end

/-- A unit of an amendment with two defects. -/
def Sample.defective (workUnitId : Name) (dependencies outputs : SortedSet Name) : WorkUnit :=
  { Sample.unit with
    workUnitId
    dependencies
    outputs
    disjoint := nofun }

theorem Sample.sorted_missing : ([⟨"missing", Nonblank.missing⟩] : List Name).Pairwise
    fun m n => id m < id n := List.pairwise_singleton _ _

/-- The first unit depends on a missing one, and the other two have an output in common. -/
def Sample.amendment : SpecAmendment where
  expectedRevision := 1
  objective := none
  workUnits := some [
    defective ⟨"z", by decide⟩ ⟨[⟨"missing", Nonblank.missing⟩], sorted_missing⟩ .empty,
    defective ⟨"a", by decide⟩ .empty ⟨[⟨"log", Nonblank.log⟩], List.pairwise_singleton _ _⟩,
    defective ⟨"c", by decide⟩ .empty ⟨[⟨"log", Nonblank.log⟩], List.pairwise_singleton _ _⟩]
  initialInputs := none
  budget := none
  authority := none
  reason := ⟨"split the work", by decide⟩
  acceptanceCriteria := none
  policyReferences := none
  expectedRevisionPos := Nat.one_pos
  replaces := by simp
  inputNames := SpecAmendment.kept_inputs
  criteriaNodup := SpecAmendment.kept_criteria
  policiesNodup := SpecAmendment.kept_policies

/-- The owner amends the new Program. -/
def Sample.amend : DomainCommand := ⟨0, ⟨"owner", Nonblank.owner⟩, .amendProgramSpec amendment⟩

/-- A recorded amendment and its decoded form raise exceptions of different classes. -/
theorem commandInput_class_differs :
    ∃ fields c', loads (commandInputJson Sample.spec.programId Sample.amend) =
        some (.obj fields) ∧ commandFrom fields = .ok c' ∧
      (@Program.apply Sample.sha256 Sample.program Sample.amend).mapError Failure.fault =
        .error .missingReference ∧
      (@Program.apply Sample.sha256 Sample.program c').mapError Failure.fault =
        .error .invalidGraph :=
  ⟨_, Sample.amend.sorted, loads_dumps (commandInput_wf _ _), commandFrom_input rfl,
    by decide +kernel, by decide +kernel⟩

/-! ## The projection of an Attempt -/

/-- `attempt_projection_json`. -/
def attemptProjectionJson (a : Attempt) : String := dumps (envelope (attemptData a))

end Codec

end CreatidyKernel
