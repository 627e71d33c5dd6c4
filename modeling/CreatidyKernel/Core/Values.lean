import Mathlib.Data.Prod.Lex
import Mathlib.Tactic
import CreatidyKernel.Lib.Checked
import CreatidyKernel.Lib.Json

set_option relaxedAutoImplicit false
set_option autoImplicit false

/-!
# Domain values

The leaf values of the kernel domain: nonblank identifiers, statuses, admission limits, the
authority envelope, policy references and input bindings, with the JSON payloads they
contribute to a digest.

Each type carries what its Python constructor checks: an identifier is a nonblank string, a
frozen set or sorted tuple is a `SortedBy` list, and an input binding either is initial or
cites its predecessor completely. A constructor that can refuse arguments of the right types
keeps its own function, under the name of the check it makes.

## Main definitions

* `Failure` — the exception classes of the kernel with their messages.
* `Name` — nonblank strings.
* `BudgetPolicy`, `AuthorityEnvelope`, `PolicyReference`, `InputBinding` — the leaf values.
* `criteria`, `policies`, `bindings` — the tuple checks of the constructors.
* `Sha256`, `digest` — SHA-256 of the canonical JSON text, as a parameter.
-/

namespace CreatidyKernel

/-! ## Exceptions -/

/-- The exception classes the domain and the store raise, and the built-in ones their lookups
and argument checks can raise. -/
inductive Fault
  | invalidDomainValue | invalidGraph | missingReference | missingInput | cycleDetected
  | staleRevision | illegalTransition | authorityViolation | budgetExceeded | duplicateAttempt
  | keyError | valueError | recordCodec | corruptHistory | programNotFound
  | programAlreadyExists | programReadChanged | idempotencyConflict | operationConflict
  | ownershipConflict | budgetRefused | executionConflict | overflow
deriving DecidableEq, Repr

/-- A raised exception. -/
structure Failure where
  /-- The exception class. -/
  fault : Fault
  message : String
deriving DecidableEq, Repr

/-- `table[k]` on a Python dictionary. -/
def subscript {κ β : Type} (table : κ → Option β) (k : κ) : Except Failure β :=
  Checked.lookup ⟨.keyError, ""⟩ table k

@[simp] theorem subscript_eq_ok {κ β : Type} {table : κ → Option β} {k : κ} {b : β} :
    subscript table k = .ok b ↔ table k = some b := Checked.lookup_eq_ok

/-! ## Nonblank strings -/

/-- The code points `str.strip` removes. -/
def isSpace (c : Char) : Bool :=
  let n := c.toNat
  (9 ≤ n && n ≤ 13) || (28 ≤ n && n ≤ 32) || n == 133 || n == 160 || n == 5760 ||
    (8192 ≤ n && n ≤ 8202) || n == 8232 || n == 8233 || n == 8239 || n == 8287 || n == 12288

/-- Something remains of the string after `str.strip`. -/
def Nonblank (s : String) : Prop := s.toList.any (fun c => !isSpace c) = true

instance (s : String) : Decidable (Nonblank s) :=
  inferInstanceAs (Decidable (s.toList.any (fun c => !isSpace c) = true))

/-- An identifier: a nonblank string. -/
abbrev Name := {s : String // Nonblank s}

instance : LawfulBEq Name := inferInstance

/-- A revision is positive. -/
theorem pos_of_revision (n : {n : ℕ // 0 < n}) : 0 < n.val := n.2

theorem Nonblank.boot : Nonblank "boot" := by decide

theorem Nonblank.log : Nonblank "log" := by decide

theorem Nonblank.outcome : Nonblank "outcome" := by decide

theorem Nonblank.program : Nonblank "program" := by decide

theorem Nonblank.runtime : Nonblank "runtime" := by decide

theorem Nonblank.a1 : Nonblank "a1" := by decide

theorem Nonblank.report : Nonblank "report" := by decide

theorem Nonblank.repo : Nonblank "repo" := by decide

theorem Nonblank.base : Nonblank "base" := by decide

theorem Nonblank.review : Nonblank "review" := by decide

theorem Nonblank.a2 : Nonblank "a2" := by decide

theorem Nonblank.s1 : Nonblank "s1" := by decide

theorem Nonblank.kernel : Nonblank "kernel" := by decide

theorem Nonblank.done : Nonblank "done" := by decide

theorem Nonblank.p : Nonblank "p" := by decide

theorem Nonblank.one : Nonblank "1" := by decide

theorem Nonblank.d : Nonblank "d" := by decide

theorem Nonblank.owner : Nonblank "owner" := by decide

theorem Nonblank.judge : Nonblank "judge" := by decide

theorem Nonblank.build : Nonblank "build" := by decide

theorem Nonblank.buildTheKernel : Nonblank "build the kernel" := by decide

theorem Nonblank.testsPass : Nonblank "tests pass" := by decide

theorem Nonblank.o1 : Nonblank "o1" := by decide

theorem Nonblank.input : Nonblank "input" := by decide

theorem Nonblank.o2 : Nonblank "o2" := by decide

theorem Nonblank.r1 : Nonblank "r1" := by decide

theorem Nonblank.token : Nonblank "token" := by decide

theorem Nonblank.missing : Nonblank "missing" := by decide

theorem Nonblank.withdrawn :
    Nonblank "amendment withdrew Attempt subject or operational authority" := by decide

/-- `_nonempty`: only nonblank strings are identifiers. -/
def nonempty (value field : String) : Except Failure Name :=
  if h : Nonblank value then .ok ⟨value, h⟩
  else .error ⟨.invalidDomainValue, field ++ " must be a nonempty string"⟩

@[simp] theorem nonempty_val (n : Name) (field : String) : nonempty n.val field = .ok n :=
  dif_pos n.2

/-- `_optional_nonempty`. -/
def optionalNonempty (value : Option String) (field : String) : Except Failure (Option Name) :=
  match value with
  | none => .ok none
  | some value => some <$> nonempty value field

@[simp] theorem optionalNonempty_val (n : Option Name) (field : String) :
    optionalNonempty (n.map Subtype.val) field = .ok n := by
  cases n <;> simp [optionalNonempty, Functor.map, Except.map]

/-- Every string of a list is nonblank. -/
def allNonblank (values : List String) (failure : Failure) : Except Failure (List Name) :=
  values.mapM fun s => if h : Nonblank s then .ok ⟨s, h⟩ else .error failure

@[simp] theorem allNonblank_val (l : List Name) (failure : Failure) :
    allNonblank (l.map Subtype.val) failure = .ok l := by
  refine Checked.mapM_eq_ok.2 ?_
  rw [List.forall₂_map_left_iff]
  exact List.forall₂_same.2 fun n _ => dif_pos n.2

/-- `_immutable_strings`: a frozen set of nonblank identifiers. -/
def immutableStrings (values : List String) (field : String) :
    Except Failure (SortedSet Name) := do
  let l ← allNonblank values
    ⟨.invalidDomainValue, field ++ " must be an immutable set of nonempty identifiers"⟩
  return SortedSet.ofList l

@[simp] theorem immutableStrings_val (s : SortedSet Name) (field : String) :
    immutableStrings (s.toList.map Subtype.val) field = .ok s := by
  rw [immutableStrings, allNonblank_val, Checked.ok_bind, SortedSet.ofList_toList]
  rfl

/-- `_revision` for a counter that may be zero. -/
def natural (value : Int) (field : String) : Except Failure ℕ :=
  if value < 0 then .error ⟨.invalidDomainValue, field ++ " must be a nonnegative integer"⟩
  else .ok value.toNat

@[simp] theorem natural_coe (n : ℕ) (field : String) : natural n field = .ok n := by
  simp [natural]

/-- `_revision` for a counter that starts at one. -/
def positive (value : Int) (field : String) : Except Failure {n : ℕ // 0 < n} :=
  if h : value < 1 then
    .error ⟨.invalidDomainValue, field ++ " must be a positive integer"⟩
  else .ok ⟨value.toNat, by omega⟩

@[simp] theorem positive_coe {n : ℕ} (h : 0 < n) (field : String) :
    positive n field = .ok ⟨n, h⟩ := by
  unfold positive
  rw [dif_neg (by omega)]
  simp

/-- One character inside a Python string literal; only ASCII control characters are escaped
here, the other code points Python deems unprintable stand for themselves. -/
def reprChar (quote c : Char) : List Char :=
  if c = quote ∨ c = '\\' then ['\\', c]
  else if c = '\n' then ['\\', 'n']
  else if c = '\r' then ['\\', 'r']
  else if c = '\t' then ['\\', 't']
  else if c.toNat < 32 ∨ c.toNat = 127 then
    ['\\', 'x', Nat.digitChar (c.toNat / 16), Nat.digitChar (c.toNat % 16)]
  else [c]

/-- `repr` of a string, as it stands in messages. -/
def pyRepr (s : String) : String :=
  let apostrophe := Char.ofNat 39
  let quote := if apostrophe ∈ s.toList ∧ '"' ∉ s.toList then '"' else apostrophe
  String.ofList (quote :: s.toList.flatMap (reprChar quote) ++ [quote])

/-! ## Enumerations -/

inductive ProgramStatus
  | draft | active | paused | completed | cancelled
deriving DecidableEq, Repr

/-- The text of a Program status. -/
def ProgramStatus.value : ProgramStatus → String
  | .draft => "draft"
  | .active => "active"
  | .paused => "paused"
  | .completed => "completed"
  | .cancelled => "cancelled"

inductive WorkUnitStatus
  | pending | ready | active | satisfied | cancelled
deriving DecidableEq, Repr

/-- The text of a WorkUnit status. -/
def WorkUnitStatus.value : WorkUnitStatus → String
  | .pending => "pending"
  | .ready => "ready"
  | .active => "active"
  | .satisfied => "satisfied"
  | .cancelled => "cancelled"

inductive AttemptStatus
  | prepared | executing | finished | failed | cancelled
deriving DecidableEq, Repr

/-- The text of an Attempt status. -/
def AttemptStatus.value : AttemptStatus → String
  | .prepared => "prepared"
  | .executing => "executing"
  | .finished => "finished"
  | .failed => "failed"
  | .cancelled => "cancelled"

inductive DomainAction
  | activateProgram | pauseProgram | resumeProgram | cancelProgram | cancelWorkUnit
  | prepareAttempt | startAttempt | finishAttempt | failAttempt | cancelAttempt
  | satisfyWorkUnit | amendSpec
deriving DecidableEq, Repr

/-- The text of a domain action. -/
def DomainAction.value : DomainAction → String
  | .activateProgram => "activate_program"
  | .pauseProgram => "pause_program"
  | .resumeProgram => "resume_program"
  | .cancelProgram => "cancel_program"
  | .cancelWorkUnit => "cancel_work_unit"
  | .prepareAttempt => "prepare_attempt"
  | .startAttempt => "start_attempt"
  | .finishAttempt => "finish_attempt"
  | .failAttempt => "fail_attempt"
  | .cancelAttempt => "cancel_attempt"
  | .satisfyWorkUnit => "satisfy_work_unit"
  | .amendSpec => "amend_spec"

theorem DomainAction.value_injective : Function.Injective DomainAction.value := by
  intro a b h
  cases a <;> cases b <;> first | rfl | exact absurd h (by decide)

/-! ## Digests -/

/-- SHA-256 of an ASCII text, as its hexadecimal digest. -/
class Sha256 where
  /-- The hexadecimal digest of the bytes of a text. -/
  hexdigest : String → Name

/-- `_digest`: the digest of the canonical JSON text of a value. -/
def digest [Sha256] (value : Json) : Name := Sha256.hexdigest (dumps value)

/-- A list of names as JSON strings. -/
def names (l : List Name) : Json := .arr (l.map fun n => .str n.val)

/-- An optional name as a JSON string or null. -/
def optionalName : Option Name → Json
  | none => .null
  | some n => .str n.val

@[simp] theorem names_wf (l : List Name) : (names l).WF := by
  simp only [names, Json.wf_arr, List.mem_map]
  rintro v ⟨n, -, rfl⟩
  exact Json.wf_str _

@[simp] theorem optionalName_wf (n : Option Name) : (optionalName n).WF := by
  cases n <;> simp [optionalName]

/-! ## Limits and authority -/

/-- Finite admission limits. -/
structure BudgetPolicy where
  maxAttempts : ℕ
  maxActiveAttempts : ℕ
deriving DecidableEq

/-- The constructor of the limits. -/
def BudgetPolicy.init (maxAttempts maxActiveAttempts : Int) : Except Failure BudgetPolicy := do
  let maxAttempts ← natural maxAttempts "max_attempts"
  let maxActiveAttempts ← natural maxActiveAttempts "max_active_attempts"
  return ⟨maxAttempts, maxActiveAttempts⟩

theorem BudgetPolicy.init_self (b : BudgetPolicy) :
    BudgetPolicy.init b.maxAttempts b.maxActiveAttempts = .ok b := by
  simp [BudgetPolicy.init, pure, Except.pure]

/-- The payload of the limits inside a specification. -/
def BudgetPolicy.payload (b : BudgetPolicy) : Json :=
  .obj [("max_active_attempts", .int b.maxActiveAttempts), ("max_attempts", .int b.maxAttempts)]

theorem BudgetPolicy.payload_wf (b : BudgetPolicy) : b.payload.WF :=
  (Json.wf_obj _).2 ⟨by simp only [List.map]; decide, by simp⟩

/-- Owner identity, delegated operational scope, and trusted fact issuers. -/
structure AuthorityEnvelope where
  ownerId : Name
  allowedActions : SortedBy DomainAction.value
  maxAttempts : ℕ
  trustedSatisfactionIssuers : SortedSet Name
  delegatedActorIds : SortedSet Name
  /-- Delegated workers are not trusted satisfaction issuers. -/
  separated : ∀ n, n ∈ trustedSatisfactionIssuers.toList → n ∈ delegatedActorIds.toList → False
deriving DecidableEq

/-- The actions of a frozen set. -/
def actionSet (actions : List DomainAction) : SortedBy DomainAction.value :=
  .ofList actions.dedup (actions.nodup_dedup.map DomainAction.value_injective)

@[simp] theorem actionSet_toList (s : SortedBy DomainAction.value) : actionSet s.toList = s :=
  SortedBy.ext_mem fun _ => (SortedBy.mem_ofList _).trans List.mem_dedup

/-- The constructor of an authority envelope. -/
def AuthorityEnvelope.init (ownerId : String) (allowedActions : List DomainAction)
    (maxAttempts : Int) (trustedSatisfactionIssuers delegatedActorIds : List String) :
    Except Failure AuthorityEnvelope := do
  let ownerId ← nonempty ownerId "owner_id"
  let maxAttempts ← natural maxAttempts "max_attempts"
  let trusted ← immutableStrings trustedSatisfactionIssuers "trusted_satisfaction_issuers"
  let delegated ← immutableStrings delegatedActorIds "delegated_actor_ids"
  if h : ∀ n ∈ trusted.toList, n ∉ delegated.toList then
    return ⟨ownerId, actionSet allowedActions, maxAttempts, trusted, delegated, h⟩
  else .error ⟨.invalidDomainValue,
    "ordinary delegated workers cannot be trusted satisfaction issuers"⟩

/-- The constructor accepts the fields of every envelope. -/
theorem AuthorityEnvelope.init_self (a : AuthorityEnvelope) :
    AuthorityEnvelope.init a.ownerId.val a.allowedActions.toList a.maxAttempts
      (a.trustedSatisfactionIssuers.toList.map Subtype.val)
      (a.delegatedActorIds.toList.map Subtype.val) = .ok a := by
  have h := a.separated
  simp only [AuthorityEnvelope.init, nonempty_val, natural_coe, immutableStrings_val,
    Checked.ok_bind, actionSet_toList, dif_pos h]
  rfl

/-- The payload of an authority envelope. -/
def AuthorityEnvelope.payload (a : AuthorityEnvelope) : Json :=
  .obj [("allowed_actions", .arr (a.allowedActions.toList.map fun d => .str d.value)),
    ("delegated_actor_ids", names a.delegatedActorIds.toList),
    ("max_attempts", .int a.maxAttempts),
    ("owner_id", .str a.ownerId.val),
    ("trusted_satisfaction_issuers", names a.trustedSatisfactionIssuers.toList)]

theorem AuthorityEnvelope.payload_wf (a : AuthorityEnvelope) : a.payload.WF :=
  (Json.wf_obj _).2 ⟨by simp only [List.map]; decide, by simp⟩

/-! ## Policy references -/

/-- Opaque policy identity pinned to an immutable version and digest. -/
structure PolicyReference where
  policyId : Name
  version : Name
  digest : Name
deriving DecidableEq

namespace PolicyReference

/-- The triple references are sorted by. -/
def key (r : PolicyReference) : Name ×ₗ Name ×ₗ Name := toLex (r.policyId, toLex (r.version, r.digest))

theorem key_injective : Function.Injective key := by
  rintro ⟨i, v, d⟩ ⟨i', v', d'⟩ h
  simp only [key, toLex_inj, Prod.mk.injEq] at h
  obtain ⟨rfl, rfl, rfl⟩ := h
  rfl

/-- The constructor of a policy reference. -/
def init (policyId version digest : String) : Except Failure PolicyReference := do
  let policyId ← nonempty policyId "policy_id"
  let version ← nonempty version "version"
  let digest ← nonempty digest "digest"
  return ⟨policyId, version, digest⟩

theorem init_self (r : PolicyReference) : init r.policyId.val r.version.val r.digest.val = .ok r := by
  simp [init, pure, Except.pure]

/-- The payload of a policy reference. -/
def payload (r : PolicyReference) : Json :=
  .obj [("digest", .str r.digest.val), ("policy_id", .str r.policyId.val),
    ("version", .str r.version.val)]

theorem payload_wf (r : PolicyReference) : r.payload.WF :=
  (Json.wf_obj _).2 ⟨by simp only [List.map]; decide, by simp⟩

end PolicyReference

/-! ## Input bindings -/

/-- Where an input reference comes from; a predecessor binding names its own output. -/
inductive InputSource
  | initial
  | predecessor (sourceWorkUnitId satisfactionId : Name)
deriving DecidableEq

/-- An approved opaque reference under a logical name. -/
structure InputBinding where
  name : Name
  reference : Name
  source : InputSource
deriving DecidableEq

namespace InputBinding

/-- The text of the kind of source. -/
def sourceKind (b : InputBinding) : String :=
  match b.source with
  | .initial => "initial"
  | .predecessor _ _ => "predecessor"

/-- The predecessor the binding cites. -/
def sourceWorkUnitId (b : InputBinding) : Option Name :=
  match b.source with
  | .initial => none
  | .predecessor u _ => some u

/-- The satisfaction the binding cites. -/
def satisfactionId (b : InputBinding) : Option Name :=
  match b.source with
  | .initial => none
  | .predecessor _ s => some s

/-- The output the binding cites, which the constructor requires to be its own name. -/
def outputName (b : InputBinding) : Option Name :=
  match b.source with
  | .initial => none
  | .predecessor _ _ => some b.name

/-- A required optional argument: `None` is no nonempty string. -/
def required (value : Option String) (field : String) : Except Failure Name :=
  match value with
  | none => .error ⟨.invalidDomainValue, field ++ " must be a nonempty string"⟩
  | some value => nonempty value field

/-- The constructor of a binding. -/
def init (name reference sourceKind : String)
    (sourceWorkUnitId satisfactionId outputName : Option String) :
    Except Failure InputBinding := do
  let name ← nonempty name "input name"
  let reference ← nonempty reference "input reference"
  if sourceKind = "initial" then
    Checked.check (sourceWorkUnitId = none ∧ satisfactionId = none ∧ outputName = none)
      ⟨.invalidDomainValue, "initial inputs cannot cite a predecessor"⟩
    return ⟨name, reference, .initial⟩
  else if sourceKind = "predecessor" then
    let unit ← required sourceWorkUnitId "source_work_unit_id"
    let satisfaction ← required satisfactionId "satisfaction_id"
    let output ← required outputName "output_name"
    Checked.check (output = name)
      ⟨.invalidDomainValue, "a predecessor binding must name its declared output"⟩
    return ⟨name, reference, .predecessor unit satisfaction⟩
  else .error ⟨.invalidDomainValue, "source_kind must be initial or predecessor"⟩

/-- The constructor accepts the fields of every binding. -/
theorem init_self (b : InputBinding) :
    init b.name.val b.reference.val b.sourceKind (b.sourceWorkUnitId.map Subtype.val)
      (b.satisfactionId.map Subtype.val) (b.outputName.map Subtype.val) = .ok b := by
  obtain ⟨n, r, s⟩ := b
  cases s <;> simp [init, required, Checked.check, sourceKind, sourceWorkUnitId, satisfactionId,
    outputName, pure, Except.pure]

/-- The payload of a binding. -/
def payload (b : InputBinding) : Json :=
  .obj [("name", .str b.name.val), ("output_name", optionalName b.outputName),
    ("reference", .str b.reference.val), ("satisfaction_id", optionalName b.satisfactionId),
    ("source_kind", .str b.sourceKind),
    ("source_work_unit_id", optionalName b.sourceWorkUnitId)]

theorem payload_wf (b : InputBinding) : b.payload.WF :=
  (Json.wf_obj _).2 ⟨by simp only [List.map]; decide, by simp⟩

/-- Acceptance identity: the concrete source and reference, not the record it came from. -/
def subject (b : InputBinding) : Name × Name × String × Option Name × Option Name :=
  (b.name, b.reference, b.sourceKind, b.sourceWorkUnitId, b.outputName)

end InputBinding

/-- Bindings with distinct logical names, sorted by name. -/
abbrev Bindings := SortedBy InputBinding.name

/-! ## Tuple checks -/

/-- A tuple whose elements have distinct keys is stored in key order. -/
def sortedTuple {α κ : Type} [LinearOrder κ] (key : α → κ) (values : List α) (failure : Failure) :
    Except Failure (SortedBy key) :=
  if h : (values.map key).Nodup then .ok (SortedBy.ofList values h) else .error failure

/-- A tuple is accepted exactly when its keys are distinct. -/
theorem sortedTuple_eq_ok {α κ : Type} [LinearOrder κ] {key : α → κ} {values : List α}
    {failure : Failure} {s : SortedBy key} :
    sortedTuple key values failure = .ok s ↔
      ∃ h : (values.map key).Nodup, SortedBy.ofList values h = s := by
  unfold sortedTuple
  split <;> simp_all

@[simp] theorem sortedTuple_toList {α κ : Type} [LinearOrder κ] {key : α → κ} (s : SortedBy key)
    (failure : Failure) : sortedTuple key s.toList failure = .ok s :=
  sortedTuple_eq_ok.2 ⟨s.nodup_keys, s.ofList_toList⟩

/-- No criterion is repeated. -/
def distinctCriteria (values : List Name) (field : String) : Except Failure (SortedSet Name) :=
  sortedTuple id values ⟨.invalidDomainValue, field ++ " must not repeat a criterion"⟩

/-- `_criteria`: criteria are nonblank, and none is repeated. -/
def criteria (values : List String) (field : String) : Except Failure (SortedSet Name) := do
  let names ← allNonblank values
    ⟨.invalidDomainValue, field ++ " must contain nonblank criteria"⟩
  distinctCriteria names field

@[simp] theorem criteria_toList (s : SortedSet Name) (field : String) :
    criteria (s.toList.map Subtype.val) field = .ok s := by
  rw [criteria, allNonblank_val, Checked.ok_bind, distinctCriteria, sortedTuple_toList]

/-- `_policies`: no reference is repeated. -/
def policies (values : List PolicyReference) (field : String) :
    Except Failure (SortedBy PolicyReference.key) :=
  sortedTuple PolicyReference.key values
    ⟨.invalidDomainValue, field ++ " must not repeat a reference"⟩

/-- `_bindings`: logical names are unique. -/
def bindings (values : List InputBinding) (field : String) : Except Failure Bindings :=
  sortedTuple InputBinding.name values
    ⟨.invalidDomainValue, field ++ " must have unique logical names"⟩

end CreatidyKernel
