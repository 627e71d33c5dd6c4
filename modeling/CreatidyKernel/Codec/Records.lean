import CreatidyKernel.Core.Program
import CreatidyKernel.Lib.JsonText

set_option relaxedAutoImplicit false
set_option autoImplicit false

/-!
# Codecs of the record types

Every record of the domain has a JSON form, which is what the store persists, and a strict
decoder that checks the fields and then runs the constructor of the record.

## Main definitions

* `Codec.mapping`, `Codec.text`, `Codec.integer` and their kin — the strict accessors.
* `Codec.workUnitFrom`, `Codec.specFrom`, `Codec.attemptSpecFrom`, `Codec.satisfactionFrom` and
  their kin — the decoders, each with the form it decodes.

## Main results

* `Codec.specFrom_payload`, `Codec.attemptFrom_data`, `Codec.satisfactionFrom_data` and their
  kin — decoding the form of a record gives the record back.
-/

namespace CreatidyKernel

namespace Codec

open Checked

/-! ## Strict accessors -/

/-- `RecordCodecError`. -/
def refuse (message : String) : Failure := ⟨.recordCodec, message⟩

/-- `_object`: the value is a dictionary, given as its entries in key order. -/
def object (value : Json) (label : String) : Except Failure (List (String × Json)) :=
  match value with
  | .obj fields => .ok fields
  | _ => .error (refuse (label ++ " must be an object"))

/-- `_mapping`: a dictionary with exactly the given keys, which are listed in key order. -/
def mapping (value : Json) (fields : List String) (label : String) :
    Except Failure (List (String × Json)) := do
  let result ← object value label
  check (result.map Prod.fst = fields) (refuse (label ++ " has missing or unknown fields"))
  return result

/-- `value[name]`. -/
def field (value : List (String × Json)) (name : String) : Except Failure Json :=
  match value.find? fun f => f.1 = name with
  | some f => .ok f.2
  | none => .error ⟨.keyError, name⟩

/-- `_array`. -/
def array (value : Json) (label : String) : Except Failure (List Json) :=
  match value with
  | .arr items => .ok items
  | _ => .error (refuse (label ++ " must be an array"))

/-- `_text`. -/
def text (value : Json) (label : String) : Except Failure String :=
  match value with
  | .str s => .ok s
  | _ => .error (refuse (label ++ " must be text"))

/-- `_optional_text`. -/
def optionalText (value : Json) (label : String) : Except Failure (Option String) :=
  match value with
  | .null => .ok none
  | value => some <$> text value label

/-- `_integer`; a Boolean is no integer. -/
def integer (value : Json) (label : String) : Except Failure Int :=
  match value with
  | .int n => .ok n
  | _ => .error (refuse (label ++ " must be an integer"))

/-- `_strings`. -/
def strings (value : Json) (label : String) : Except Failure (List String) := do
  let items ← array value label
  items.mapM fun item => text item label

/-- `_text(value[name], label)`. -/
def textField (value : List (String × Json)) (name label : String) : Except Failure String := do
  text (← field value name) label

/-- `_optional_text(value[name], label)`. -/
def optionalTextField (value : List (String × Json)) (name label : String) :
    Except Failure (Option String) := do
  optionalText (← field value name) label

/-- `_integer(value[name], label)`. -/
def integerField (value : List (String × Json)) (name label : String) : Except Failure Int := do
  integer (← field value name) label

/-- `_strings(value[name], label)`. -/
def stringsField (value : List (String × Json)) (name label : String) :
    Except Failure (List String) := do
  strings (← field value name) label

/-- `tuple(decode(item) for item in _array(value[name], label))`. -/
def arrayField {α : Type} (decode : Json → Except Failure α) (value : List (String × Json))
    (name label : String) : Except Failure (List α) := do
  let items ← array (← field value name) label
  items.mapM decode

/-- `T(text)` for an enumeration, with the error of an unknown value. -/
def member {α : Type} (ofValue? : String → Option α) (message value : String) :
    Except Failure α :=
  match ofValue? value with
  | some a => .ok a
  | none => .error (refuse message)

theorem optionalText_optionalName (n : Option Name) (label : String) :
    optionalText (optionalName n) label = .ok (n.map Subtype.val) := by
  cases n <;> rfl

theorem strings_names (l : List Name) (label : String) :
    strings (names l) label = .ok (l.map Subtype.val) := by
  have hmap : (l.map fun n => Json.str n.val) = (l.map Subtype.val).map Json.str := by
    rw [List.map_map]
    rfl
  refine bind_of_ok rfl ?_
  rw [hmap]
  exact mapM_map fun _ _ => rfl

/-! ## Enumerations -/

/-- The Program status of a text. -/
def programStatusOf? : String → Option ProgramStatus
  | "draft" => some .draft
  | "active" => some .active
  | "paused" => some .paused
  | "completed" => some .completed
  | "cancelled" => some .cancelled
  | _ => none

/-- The WorkUnit status of a text. -/
def workUnitStatusOf? : String → Option WorkUnitStatus
  | "pending" => some .pending
  | "ready" => some .ready
  | "active" => some .active
  | "satisfied" => some .satisfied
  | "cancelled" => some .cancelled
  | _ => none

/-- The Attempt status of a text. -/
def attemptStatusOf? : String → Option AttemptStatus
  | "prepared" => some .prepared
  | "executing" => some .executing
  | "finished" => some .finished
  | "failed" => some .failed
  | "cancelled" => some .cancelled
  | _ => none

/-- The domain action of a text. -/
def domainActionOf? : String → Option DomainAction
  | "activate_program" => some .activateProgram
  | "pause_program" => some .pauseProgram
  | "resume_program" => some .resumeProgram
  | "cancel_program" => some .cancelProgram
  | "cancel_work_unit" => some .cancelWorkUnit
  | "prepare_attempt" => some .prepareAttempt
  | "start_attempt" => some .startAttempt
  | "finish_attempt" => some .finishAttempt
  | "fail_attempt" => some .failAttempt
  | "cancel_attempt" => some .cancelAttempt
  | "satisfy_work_unit" => some .satisfyWorkUnit
  | "amend_spec" => some .amendSpec
  | _ => none

theorem member_programStatus (s : ProgramStatus) (message : String) :
    member programStatusOf? message s.value = .ok s := by
  cases s <;> rfl

theorem member_workUnitStatus (s : WorkUnitStatus) (message : String) :
    member workUnitStatusOf? message s.value = .ok s := by
  cases s <;> rfl

theorem member_attemptStatus (s : AttemptStatus) (message : String) :
    member attemptStatusOf? message s.value = .ok s := by
  cases s <;> rfl

theorem member_domainAction (a : DomainAction) (message : String) :
    member domainActionOf? message a.value = .ok a := by
  cases a <;> rfl

/-! ## Specifications -/

/-- `_policy_from`. -/
def policyFrom (data : Json) : Except Failure PolicyReference := do
  let value ← mapping data ["digest", "policy_id", "version"] "policy reference"
  let policyId ← textField value "policy_id" "policy_id"
  let version ← textField value "version" "version"
  let digest ← textField value "digest" "digest"
  PolicyReference.init policyId version digest

theorem policyFrom_payload (r : PolicyReference) : policyFrom r.payload = .ok r := r.init_self

/-- `_binding_from`. -/
def bindingFrom (data : Json) : Except Failure InputBinding := do
  let value ← mapping data ["name", "output_name", "reference", "satisfaction_id", "source_kind",
    "source_work_unit_id"] "input binding"
  let name ← textField value "name" "input name"
  let reference ← textField value "reference" "input reference"
  let sourceKind ← textField value "source_kind" "input source_kind"
  let sourceWorkUnitId ← optionalTextField value "source_work_unit_id" "source_work_unit_id"
  let satisfactionId ← optionalTextField value "satisfaction_id" "satisfaction_id"
  let outputName ← optionalTextField value "output_name" "output_name"
  InputBinding.init name reference sourceKind sourceWorkUnitId satisfactionId outputName

theorem bindingFrom_payload (b : InputBinding) : bindingFrom b.payload = .ok b :=
  bind_of_ok rfl <| bind_of_ok rfl <| bind_of_ok rfl <| bind_of_ok rfl <|
    bind_of_ok (optionalText_optionalName _ _) <| bind_of_ok (optionalText_optionalName _ _) <|
    bind_of_ok (optionalText_optionalName _ _) b.init_self

/-- An optional policy reference: null, or a policy. -/
def optionalPolicyFrom (data : Json) : Except Failure (Option PolicyReference) :=
  match data with
  | .null => .ok none
  | data => some <$> policyFrom data

/-- `_work_unit_from`. -/
def workUnitFrom (data : Json) : Except Failure WorkUnit := do
  let value ← mapping data ["acceptance_criteria", "acceptance_policy_reference", "dependencies",
    "obligation", "outputs", "required_inputs", "work_unit_id"] "WorkUnit"
  let policy ← field value "acceptance_policy_reference"
  let workUnitId ← textField value "work_unit_id" "work_unit_id"
  let obligation ← textField value "obligation" "obligation"
  let dependencies ← stringsField value "dependencies" "dependencies"
  let requiredInputs ← stringsField value "required_inputs" "required_inputs"
  let outputs ← stringsField value "outputs" "outputs"
  let acceptanceCriteria ← stringsField value "acceptance_criteria" "acceptance_criteria"
  let policy ← optionalPolicyFrom policy
  WorkUnit.init workUnitId obligation dependencies requiredInputs outputs acceptanceCriteria policy

theorem workUnitFrom_payload (u : WorkUnit) : workUnitFrom u.payload = .ok u := by
  refine bind_of_ok rfl <| bind_of_ok rfl <| bind_of_ok rfl <| bind_of_ok rfl <|
    bind_of_ok (strings_names _ _) <| bind_of_ok (strings_names _ _) <|
    bind_of_ok (strings_names _ _) <| bind_of_ok (strings_names _ _) <| bind_of_ok ?_ u.init_self
  cases u.acceptancePolicyReference with
  | none => rfl
  | some r => exact map_eq_ok.2 ⟨r, policyFrom_payload r, rfl⟩

/-- The actions of an envelope. -/
def actionsFrom (values : List String) : Except Failure (List DomainAction) :=
  values.mapM (member domainActionOf? "authority envelope contains an unknown action")

/-- `_authority_from`. -/
def authorityFrom (data : Json) : Except Failure AuthorityEnvelope := do
  let value ← mapping data ["allowed_actions", "delegated_actor_ids", "max_attempts", "owner_id",
    "trusted_satisfaction_issuers"] "authority envelope"
  let actions ← stringsField value "allowed_actions" "allowed_actions"
  let actions ← actionsFrom actions
  let ownerId ← textField value "owner_id" "owner_id"
  let maxAttempts ← integerField value "max_attempts" "authority.max_attempts"
  let trusted ← stringsField value "trusted_satisfaction_issuers" "trusted_satisfaction_issuers"
  let delegated ← stringsField value "delegated_actor_ids" "delegated_actor_ids"
  AuthorityEnvelope.init ownerId actions maxAttempts trusted delegated

theorem strings_actions (l : List DomainAction) (label : String) :
    strings (.arr (l.map fun d => .str d.value)) label = .ok (l.map DomainAction.value) := by
  have hmap : (l.map fun d => Json.str d.value) = (l.map DomainAction.value).map Json.str := by
    rw [List.map_map]
    rfl
  refine bind_of_ok rfl ?_
  rw [hmap]
  exact mapM_map fun _ _ => rfl

theorem authorityFrom_payload (a : AuthorityEnvelope) : authorityFrom a.payload = .ok a :=
  bind_of_ok rfl <| bind_of_ok (strings_actions _ _) <|
    bind_of_ok (mapM_map fun d _ => member_domainAction d _) <| bind_of_ok rfl <|
    bind_of_ok rfl <| bind_of_ok (strings_names _ _) <| bind_of_ok (strings_names _ _) a.init_self

/-- The limits inside a specification. -/
def budgetFrom (data : Json) (label maxAttemptsLabel maxActiveLabel : String) :
    Except Failure BudgetPolicy := do
  let value ← mapping data ["max_active_attempts", "max_attempts"] label
  let maxAttempts ← integerField value "max_attempts" maxAttemptsLabel
  let maxActiveAttempts ← integerField value "max_active_attempts" maxActiveLabel
  BudgetPolicy.init maxAttempts maxActiveAttempts

theorem budgetFrom_payload (b : BudgetPolicy) (label maxAttemptsLabel maxActiveLabel : String) :
    budgetFrom b.payload label maxAttemptsLabel maxActiveLabel = .ok b := b.init_self

/-- `_spec_from`. -/
def specFrom (data : Json) : Except Failure ProgramSpec := do
  let value ← mapping data ["acceptance_criteria", "authority", "budget", "initial_inputs",
    "objective", "parent_digest", "policy_references", "program_id", "revision", "work_units"]
    "ProgramSpec"
  let budget ← field value "budget"
  let programId ← textField value "program_id" "program_id"
  let objective ← textField value "objective" "objective"
  let criteria ← stringsField value "acceptance_criteria" "acceptance_criteria"
  let policies ← arrayField policyFrom value "policy_references" "policy_references"
  let workUnits ← arrayField workUnitFrom value "work_units" "work_units"
  let inputs ← arrayField bindingFrom value "initial_inputs" "initial_inputs"
  let budget ← budgetFrom budget "budget" "budget.max_attempts" "budget.max_active_attempts"
  let authority ← field value "authority"
  let authority ← authorityFrom authority
  let revision ← integerField value "revision" "spec revision"
  let parentDigest ← optionalTextField value "parent_digest" "parent_digest"
  ProgramSpec.construct programId objective workUnits inputs budget authority revision
    parentDigest criteria policies

theorem specFrom_payload (p : ProgramSpec) : specFrom p.payload = .ok p :=
  bind_of_ok rfl <| bind_of_ok rfl <| bind_of_ok rfl <| bind_of_ok rfl <|
    bind_of_ok (strings_names _ _) <|
    bind_of_ok (mapM_map fun r _ => policyFrom_payload r) <|
    bind_of_ok (mapM_map fun u _ => workUnitFrom_payload u) <|
    bind_of_ok (mapM_map fun b _ => bindingFrom_payload b) <|
    bind_of_ok (budgetFrom_payload _ _ _ _) <| bind_of_ok rfl <|
    bind_of_ok (authorityFrom_payload _) <| bind_of_ok rfl <|
    bind_of_ok (optionalText_optionalName _ _) p.construct_self

/-! ## Attempts -/

/-- The keys of a snapshot without lineage. -/
def attemptSpecFields : List String :=
  ["agent_definition_reference", "allocation_reference", "attempt_id", "context_reference",
    "effective_inputs", "program_id", "spec_digest", "spec_revision", "work_unit_id",
    "workspace_reference"]

/-- The keys of a snapshot with lineage. -/
def attemptSpecLineageFields : List String :=
  ["agent_definition_reference", "allocation_reference", "attempt_id", "context_reference",
    "effective_inputs", "program_id", "remediation_of", "spec_digest", "spec_revision",
    "work_unit_id", "workspace_reference"]

/-- `value.get(name)`, which is null when the key is missing. -/
def getField (value : List (String × Json)) (name : String) : Json :=
  match value.find? fun f => f.1 = name with
  | some f => f.2
  | none => .null

theorem getField_cons_self (k : String) (v : Json) (fs : List (String × Json)) :
    getField ((k, v) :: fs) k = v := by
  simp [getField]

theorem getField_cons_of_ne {k l : String} (h : l ≠ k) (v : Json) (fs : List (String × Json)) :
    getField ((l, v) :: fs) k = getField fs k := by
  simp [getField, h]

/-- A key of the first of two dictionaries is read from the first. -/
theorem getField_append_of_mem {fs gs : List (String × Json)} {k : String}
    (h : k ∈ fs.map Prod.fst) : getField (fs ++ gs) k = getField fs k := by
  obtain ⟨f, hf, rfl⟩ := List.mem_map.mp h
  have hsome : (fs.find? fun g => g.1 = f.1).isSome := by
    rw [List.find?_isSome]
    exact ⟨f, hf, by simp⟩
  obtain ⟨g, hg⟩ := Option.isSome_iff_exists.mp hsome
  unfold getField
  rw [List.find?_append, hg]
  rfl

/-- Any other key is read from the second. -/
theorem getField_append_of_notMem {fs gs : List (String × Json)} {k : String}
    (h : k ∉ fs.map Prod.fst) : getField (fs ++ gs) k = getField gs k := by
  have hfind : fs.find? (fun f => f.1 = k) = none :=
    List.find?_eq_none.mpr fun f hf hk =>
      h (List.mem_map.mpr ⟨f, hf, of_decide_eq_true hk⟩)
  unfold getField
  rw [List.find?_append, hfind]
  rfl

/-- A missing key reads as null. -/
theorem getField_of_notMem {fs : List (String × Json)} {k : String} (h : k ∉ fs.map Prod.fst) :
    getField fs k = .null := by
  have happend : getField (fs ++ []) k = getField [] k := getField_append_of_notMem h
  rwa [List.append_nil] at happend

/-- Every value of a dictionary made from a function is read. -/
theorem getField_map {names : List String} (f : String → Json) {k : String} (h : k ∈ names) :
    getField (names.map fun k => (k, f k)) k = f k := by
  induction names with
  | nil => cases h
  | cons l names ih =>
    rw [List.map_cons]
    by_cases hl : l = k
    · subst hl
      exact getField_cons_self l _ _
    · rw [getField_cons_of_ne hl]
      exact ih ((List.mem_cons.mp h).resolve_left (Ne.symm hl))

/-- What is read from a well-formed dictionary is well formed. -/
theorem getField_wf {fs : List (String × Json)} (h : ∀ f ∈ fs, f.2.WF) (k : String) :
    (getField fs k).WF := by
  unfold getField
  split
  · next f hf => exact h f (List.mem_of_find?_eq_some hf)
  · exact Json.wf_null

/-- A dictionary is its keys with the value each has. -/
theorem eq_map_getField {fs : List (String × Json)} (h : (fs.map Prod.fst).Nodup) :
    fs = (fs.map Prod.fst).map fun k => (k, getField fs k) := by
  induction fs with
  | nil => rfl
  | cons f fs ih =>
    obtain ⟨l, v⟩ := f
    rw [List.map_cons, List.nodup_cons] at h
    have htail : (fs.map Prod.fst).map (fun k => (k, getField ((l, v) :: fs) k)) = fs := by
      rw [List.map_congr_left fun k hk => by
        rw [getField_cons_of_ne (show l ≠ k by rintro rfl; exact h.1 hk)]]
      exact (ih h.2).symm
    rw [List.map_cons, List.map_cons, getField_cons_self, htail]

/-- `_attempt_spec_from`. -/
def attemptSpecFrom (data : Json) : Except Failure AttemptSpec := do
  let value ← object data "AttemptSpec"
  check (value.map Prod.fst = attemptSpecFields ∨ value.map Prod.fst = attemptSpecLineageFields)
    (refuse "AttemptSpec has missing or unknown fields")
  let attemptId ← textField value "attempt_id" "attempt_id"
  let programId ← textField value "program_id" "program_id"
  let workUnitId ← textField value "work_unit_id" "work_unit_id"
  let specRevision ← integerField value "spec_revision" "Attempt spec_revision"
  let specDigest ← textField value "spec_digest" "Attempt spec_digest"
  let inputs ← arrayField bindingFrom value "effective_inputs" "Attempt effective_inputs"
  let allocation ← optionalTextField value "allocation_reference" "allocation_reference"
  let agentDefinition ←
    optionalTextField value "agent_definition_reference" "agent_definition_reference"
  let workspace ← optionalTextField value "workspace_reference" "workspace_reference"
  let context ← optionalTextField value "context_reference" "context_reference"
  let remediationOf ← optionalText (getField value "remediation_of") "remediation_of"
  AttemptSpec.init attemptId programId workUnitId specRevision specDigest inputs allocation
    agentDefinition workspace context remediationOf

theorem attemptSpecFrom_payload (s : AttemptSpec) : attemptSpecFrom s.payload = .ok s := by
  have hself := s.init_self
  unfold AttemptSpec.payload
  cases hr : s.remediationOf with
  | none =>
    rw [hr] at hself
    exact bind_of_ok rfl <| bind_of_ok rfl <| bind_of_ok rfl <| bind_of_ok rfl <|
      bind_of_ok rfl <| bind_of_ok rfl <| bind_of_ok rfl <|
      bind_of_ok (mapM_map fun b _ => bindingFrom_payload b) <|
      bind_of_ok (optionalText_optionalName _ _) <| bind_of_ok (optionalText_optionalName _ _) <|
      bind_of_ok (optionalText_optionalName _ _) <| bind_of_ok (optionalText_optionalName _ _) <|
      bind_of_ok rfl hself
  | some r =>
    rw [hr] at hself
    exact bind_of_ok rfl <| bind_of_ok rfl <| bind_of_ok rfl <| bind_of_ok rfl <|
      bind_of_ok rfl <| bind_of_ok rfl <| bind_of_ok rfl <|
      bind_of_ok (mapM_map fun b _ => bindingFrom_payload b) <|
      bind_of_ok (optionalText_optionalName _ _) <| bind_of_ok (optionalText_optionalName _ _) <|
      bind_of_ok (optionalText_optionalName _ _) <| bind_of_ok (optionalText_optionalName _ _) <|
      bind_of_ok rfl hself

/-- The form of an Attempt. -/
def attemptData (a : Attempt) : Json :=
  .obj [("actor_id", .str a.actorId.val), ("spec", a.spec.payload),
    ("status", .str a.status.value)]

theorem attemptData_wf (a : Attempt) : (attemptData a).WF :=
  (Json.wf_obj _).2 ⟨by simp only [List.map]; decide, by simp [AttemptSpec.payload_wf]⟩

/-- The loop body that decodes one Attempt. -/
def attemptFrom (data : Json) : Except Failure Attempt := do
  let value ← mapping data ["actor_id", "spec", "status"] "Attempt"
  let status ← textField value "status" "Attempt status"
  let status ← member attemptStatusOf? "Attempt has an unknown status" status
  let spec ← field value "spec"
  let spec ← attemptSpecFrom spec
  let actorId ← textField value "actor_id" "Attempt actor_id"
  let actorId ← nonempty actorId "Attempt actor_id"
  return ⟨spec, status, actorId⟩

theorem attemptFrom_data (a : Attempt) : attemptFrom (attemptData a) = .ok a :=
  bind_of_ok rfl <| bind_of_ok rfl <| bind_of_ok (member_attemptStatus _ _) <| bind_of_ok rfl <|
    bind_of_ok (attemptSpecFrom_payload _) <| bind_of_ok rfl <|
    bind_of_ok (nonempty_val _ _) rfl

/-! ## Facts -/

/-- `_satisfaction_data`. -/
def satisfactionData (s : TrustedSatisfaction) : Json :=
  .obj [("issuer_id", .str s.issuerId.val),
    ("output_bindings", .arr (s.outputBindings.toList.map InputBinding.payload)),
    ("program_id", .str s.programId.val),
    ("record_order", .int s.recordOrder),
    ("reference_id", .str s.referenceId.val),
    ("source_attempt_id", .str s.sourceAttemptId.val),
    ("spec_digest", .str s.specDigest.val),
    ("spec_revision", .int s.specRevision),
    ("work_unit_fingerprint", .str s.workUnitFingerprint.val),
    ("work_unit_id", .str s.workUnitId.val)]

theorem satisfactionData_wf (s : TrustedSatisfaction) : (satisfactionData s).WF :=
  (Json.wf_obj _).2 ⟨by simp only [List.map]; decide,
    by simp +contextual [InputBinding.payload_wf]⟩

/-- `_satisfaction_from`. -/
def satisfactionFrom (data : Json) : Except Failure TrustedSatisfaction := do
  let value ← mapping data ["issuer_id", "output_bindings", "program_id", "record_order",
    "reference_id", "source_attempt_id", "spec_digest", "spec_revision", "work_unit_fingerprint",
    "work_unit_id"] "TrustedSatisfaction"
  let referenceId ← textField value "reference_id" "satisfaction reference_id"
  let programId ← textField value "program_id" "satisfaction program_id"
  let workUnitId ← textField value "work_unit_id" "satisfaction work_unit_id"
  let specRevision ← integerField value "spec_revision" "satisfaction spec_revision"
  let specDigest ← textField value "spec_digest" "satisfaction spec_digest"
  let fingerprint ←
    textField value "work_unit_fingerprint" "satisfaction work_unit_fingerprint"
  let issuerId ← textField value "issuer_id" "satisfaction issuer_id"
  let sourceAttemptId ← textField value "source_attempt_id" "satisfaction source_attempt_id"
  let outputs ← arrayField bindingFrom value "output_bindings" "satisfaction output_bindings"
  let recordOrder ← integerField value "record_order" "satisfaction record_order"
  TrustedSatisfaction.init referenceId programId workUnitId specRevision specDigest fingerprint
    issuerId sourceAttemptId outputs recordOrder

theorem satisfactionFrom_data (s : TrustedSatisfaction) :
    satisfactionFrom (satisfactionData s) = .ok s :=
  bind_of_ok rfl <| bind_of_ok rfl <| bind_of_ok rfl <| bind_of_ok rfl <| bind_of_ok rfl <|
    bind_of_ok rfl <| bind_of_ok rfl <| bind_of_ok rfl <| bind_of_ok rfl <|
    bind_of_ok (mapM_map fun b _ => bindingFrom_payload b) <| bind_of_ok rfl s.init_self

/-- The form of a cancellation of a unit. -/
def cancellationData (c : WorkUnitCancellation) : Json :=
  .obj [("actor_id", .str c.actorId.val), ("reason", .str c.reason.val),
    ("record_order", .int c.recordOrder), ("spec_digest", .str c.specDigest.val),
    ("spec_revision", .int c.specRevision),
    ("work_unit_fingerprint", .str c.workUnitFingerprint.val),
    ("work_unit_id", .str c.workUnitId.val)]

theorem cancellationData_wf (c : WorkUnitCancellation) : (cancellationData c).WF :=
  (Json.wf_obj _).2 ⟨by simp only [List.map]; decide, by simp⟩

/-- `_cancellation_from`. -/
def cancellationFrom (data : Json) : Except Failure WorkUnitCancellation := do
  let value ← mapping data ["actor_id", "reason", "record_order", "spec_digest", "spec_revision",
    "work_unit_fingerprint", "work_unit_id"] "WorkUnitCancellation"
  let workUnitId ← textField value "work_unit_id" "cancellation work_unit_id"
  let fingerprint ←
    textField value "work_unit_fingerprint" "cancellation work_unit_fingerprint"
  let specRevision ← integerField value "spec_revision" "cancellation spec_revision"
  let specDigest ← textField value "spec_digest" "cancellation spec_digest"
  let actorId ← textField value "actor_id" "cancellation actor_id"
  let reason ← textField value "reason" "cancellation reason"
  let recordOrder ← integerField value "record_order" "cancellation record_order"
  WorkUnitCancellation.init workUnitId fingerprint specRevision specDigest actorId reason
    recordOrder

theorem cancellationFrom_data (c : WorkUnitCancellation) :
    cancellationFrom (cancellationData c) = .ok c := c.init_self

/-- The form of a cancellation of an Attempt. -/
def attemptCancellationData (c : AttemptCancellation) : Json :=
  .obj [("actor_id", .str c.actorId.val), ("attempt_id", .str c.attemptId.val),
    ("reason", .str c.reason.val), ("record_order", .int c.recordOrder)]

theorem attemptCancellationData_wf (c : AttemptCancellation) : (attemptCancellationData c).WF :=
  (Json.wf_obj _).2 ⟨by simp only [List.map]; decide, by simp⟩

/-- `_attempt_cancellation_from`. -/
def attemptCancellationFrom (data : Json) : Except Failure AttemptCancellation := do
  let value ← mapping data ["actor_id", "attempt_id", "reason", "record_order"]
    "AttemptCancellation"
  let attemptId ← textField value "attempt_id" "AttemptCancellation attempt_id"
  let actorId ← textField value "actor_id" "AttemptCancellation actor_id"
  let reason ← textField value "reason" "AttemptCancellation reason"
  let recordOrder ← integerField value "record_order" "AttemptCancellation record_order"
  AttemptCancellation.init attemptId actorId reason recordOrder

theorem attemptCancellationFrom_data (c : AttemptCancellation) :
    attemptCancellationFrom (attemptCancellationData c) = .ok c := c.init_self

/-- The form of a conclusion. -/
def conclusionData (c : ProgramConclusion) : Json :=
  .obj [("record_order", .int c.recordOrder), ("spec_digest", .str c.specDigest.val),
    ("spec_revision", .int c.specRevision), ("status", .str c.status.value)]

theorem conclusionData_wf (c : ProgramConclusion) : (conclusionData c).WF :=
  (Json.wf_obj _).2 ⟨by simp only [List.map]; decide, by simp⟩

/-- `_conclusion_from`. -/
def conclusionFrom (data : Json) : Except Failure ProgramConclusion := do
  let value ← mapping data ["record_order", "spec_digest", "spec_revision", "status"]
    "ProgramConclusion"
  let status ← textField value "status" "conclusion status"
  let status ← member programStatusOf? "ProgramConclusion has an unknown status" status
  let specRevision ← integerField value "spec_revision" "conclusion spec_revision"
  let specDigest ← textField value "spec_digest" "conclusion spec_digest"
  let recordOrder ← integerField value "record_order" "conclusion record_order"
  ProgramConclusion.init status specRevision specDigest recordOrder

theorem conclusionFrom_data (c : ProgramConclusion) : conclusionFrom (conclusionData c) = .ok c :=
  bind_of_ok rfl <| bind_of_ok rfl <| bind_of_ok (member_programStatus _ _) c.init_self

/-- The form of a projected state. -/
def workUnitStateData (s : WorkUnitState) : Json :=
  .obj [("active_attempt_id", optionalName s.activeAttemptId),
    ("satisfaction_id", optionalName s.satisfactionId), ("status", .str s.status.value),
    ("work_unit_id", .str s.workUnitId.val)]

theorem workUnitStateData_wf (s : WorkUnitState) : (workUnitStateData s).WF :=
  (Json.wf_obj _).2 ⟨by simp only [List.map]; decide, by simp⟩

/-- `_work_unit_state_from`. -/
def workUnitStateFrom (data : Json) : Except Failure WorkUnitState := do
  let value ← mapping data ["active_attempt_id", "satisfaction_id", "status", "work_unit_id"]
    "WorkUnitState"
  let status ← textField value "status" "WorkUnitState status"
  let status ← member workUnitStatusOf? "WorkUnitState has an unknown status" status
  let workUnitId ← textField value "work_unit_id" "WorkUnitState work_unit_id"
  let activeAttemptId ← optionalTextField value "active_attempt_id" "active_attempt_id"
  let satisfactionId ← optionalTextField value "satisfaction_id" "satisfaction_id"
  WorkUnitState.init workUnitId status activeAttemptId satisfactionId

theorem workUnitStateFrom_data (s : WorkUnitState) :
    workUnitStateFrom (workUnitStateData s) = .ok s :=
  bind_of_ok rfl <| bind_of_ok rfl <| bind_of_ok (member_workUnitStatus _ _) <| bind_of_ok rfl <|
    bind_of_ok (optionalText_optionalName _ _) <|
    bind_of_ok (optionalText_optionalName _ _) s.init_self

end Codec

end CreatidyKernel
