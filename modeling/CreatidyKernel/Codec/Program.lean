import CreatidyKernel.Codec.Records
import CreatidyKernel.Core.Closure

set_option relaxedAutoImplicit false
set_option autoImplicit false

/-!
# Codec of a Program

A Program is persisted as one canonical JSON text. The encoder and the decoder both run the
consistency check of the aggregate and a second check on the references of the persisted
facts; neither refuses a reachable Program.

## Main definitions

* `Codec.validateReferences` — the check on recorded cancellations and conclusions.
* `Codec.programJson`, `Codec.programFromJson` — the encoder and the decoder.

## Main results

* `Codec.validateReferences_of_coherent` — coherent Programs pass the second check.
* `Codec.program_roundTrip` — a reachable Program is encoded, and decoded to itself.
-/

namespace CreatidyKernel

namespace Codec

open Checked

section

variable [Sha256]

/-! ## References of persisted facts -/

/-- The loop over the cancellations of Attempts; `seen` is `cancellation_ids`. -/
def validateWithdrawals (p : Program) :
    List Name → List AttemptCancellation → Except Failure Unit
  | _, [] => .ok ()
  | seen, c :: rest => do
    let unmatched := refuse "AttemptCancellation must reference an existing cancelled Attempt"
    match index Attempt.attemptId p.attempts c.attemptId with
    | none => .error unmatched
    | some attempt =>
      check (attempt.status = .cancelled) unmatched
      check (c.attemptId ∉ seen) (refuse "AttemptCancellation references must be unique")
      check (c.recordOrder ≤ p.revision)
        (refuse "AttemptCancellation has no authoritative aggregate record order")
      validateWithdrawals p (c.attemptId :: seen) rest

/-- The loop over the conclusions; `previous` is `previous_conclusion_order`. -/
def validateConclusions (p : Program) : ℕ → List ProgramConclusion → Except Failure Unit
  | _, [] => .ok ()
  | previous, c :: rest => do
    check (∃ s ∈ p.specHistory, (s.revision, s.digest) = (c.specRevision, c.specDigest))
      (refuse "ProgramConclusion must cite an existing historical ProgramSpec")
    check (c.recordOrder ≤ p.revision)
      (refuse "ProgramConclusion has no authoritative aggregate record order")
    check (previous < c.recordOrder)
      (refuse "ProgramConclusion facts must preserve authoritative order")
    validateConclusions p c.recordOrder rest

/-- `_validate_persisted_fact_references`. -/
def validateReferences (p : Program) : Except Failure Unit := do
  validateWithdrawals p [] p.attemptCancellations
  validateConclusions p 0 p.conclusions

omit [Sha256] in
theorem validateWithdrawals_eq_ok {p : Program} (hn : (p.attempts.map Attempt.attemptId).Nodup)
    {withdrawals : List AttemptCancellation} {seen : List Name}
    (hcan : ∀ c ∈ withdrawals, ∃ a ∈ p.attempts, a.attemptId = c.attemptId ∧
      a.status = .cancelled)
    (horder : ∀ c ∈ withdrawals, c.recordOrder ≤ p.revision)
    (hseen : ∀ c ∈ withdrawals, c.attemptId ∉ seen)
    (hids : (withdrawals.map AttemptCancellation.attemptId).Nodup) :
    validateWithdrawals p seen withdrawals = .ok () := by
  induction withdrawals generalizing seen with
  | nil => rfl
  | cons c rest ih =>
    rw [List.forall_mem_cons] at hcan horder hseen
    rw [List.map_cons, List.nodup_cons] at hids
    obtain ⟨a, ha, hid, hst⟩ := hcan.1
    have hidx : index Attempt.attemptId p.attempts c.attemptId = some a :=
      (index_eq_some_iff hn).2 ⟨ha, hid⟩
    simp only [validateWithdrawals, hidx, bind_eq_ok, check_eq_ok]
    refine ⟨(), hst, (), hseen.1, (), horder.1, ih hcan.2 horder.2 (fun d hd hm => ?_) hids.2⟩
    rcases List.mem_cons.1 hm with he | hm
    · exact hids.1 (he ▸ List.mem_map_of_mem hd)
    · exact hseen.2 d hd hm

theorem validateConclusions_eq_ok {p : Program} {conclusions : List ProgramConclusion}
    {previous : ℕ}
    (hcite : ∀ c ∈ conclusions, ∃ s, Cites p.specHistory (c.specRevision, c.specDigest) s)
    (horder : ∀ c ∈ conclusions, c.recordOrder ≤ p.revision)
    (hprev : ∀ c ∈ conclusions, previous < c.recordOrder)
    (hinc : conclusions.Pairwise fun a b => a.recordOrder < b.recordOrder) :
    validateConclusions p previous conclusions = .ok () := by
  induction conclusions generalizing previous with
  | nil => rfl
  | cons c rest ih =>
    rw [List.forall_mem_cons] at hcite horder hprev
    rw [List.pairwise_cons] at hinc
    simp only [validateConclusions, bind_eq_ok, check_eq_ok]
    exact ⟨(), hcite.1, (), horder.1, (), hprev.1, ih hcite.2 horder.2 hinc.1 hinc.2⟩

/-- Coherent Programs pass the check on persisted references. -/
theorem validateReferences_of_coherent {p : Program} (h : p.Coherent) :
    validateReferences p = .ok () := by
  refine bind_of_ok (validateWithdrawals_eq_ok h.ledger.attempts.ids (fun c hc => ?_)
    h.ledger.withdrawals.recorded (by simp) h.ledger.withdrawals.ids)
    (validateConclusions_eq_ok h.conclusions.cited h.conclusions.recorded
      (fun c _ => c.recordOrderPos) h.conclusions.increasing)
  exact (h.ledger.withdrawals.exact _).1 (List.mem_map_of_mem hc)

/-! ## Encoding -/

/-- The dictionary of a Program. -/
def programData (p : Program) : Json :=
  .obj [("attempt_cancellations", .arr (p.attemptCancellations.map attemptCancellationData)),
    ("attempts", .arr (p.attempts.map attemptData)),
    ("cancellations", .arr (p.cancellations.map cancellationData)),
    ("conclusions", .arr (p.conclusions.map conclusionData)),
    ("program_id", .str p.programId.val),
    ("revision", .int p.revision),
    ("satisfactions", .arr (p.satisfactions.map satisfactionData)),
    ("spec", p.spec.payload),
    ("spec_history", .arr (p.specHistory.map ProgramSpec.payload)),
    ("status", .str p.status.value),
    ("work_unit_states", .arr (p.workUnitStates.map workUnitStateData))]

/-- The versioned envelope of a record. -/
def envelope (value : Json) : Json := .obj [("schema_version", .int 1), ("value", value)]

omit [Sha256] in
theorem programData_wf (p : Program) : (programData p).WF := by
  refine (Json.wf_obj _).2 ⟨by simp only [List.map]; decide, ?_⟩
  simp +contextual [attemptCancellationData_wf, attemptData_wf, cancellationData_wf,
    conclusionData_wf, satisfactionData_wf, ProgramSpec.payload_wf, workUnitStateData_wf]

omit [Sha256] in
theorem envelope_wf {value : Json} (h : value.WF) : (envelope value).WF :=
  (Json.wf_obj _).2 ⟨by simp only [List.map]; decide, by simpa using h⟩

/-- `_program_value`: a Program is validated before it is encoded. -/
def programValue (p : Program) : Except Failure Json := do
  p.validate
  validateReferences p
  return programData p

/-- `program_json`. -/
def programJson (p : Program) : Except Failure String := do
  let value ← programValue p
  return dumps (envelope value)

/-! ## Decoding -/

/-- `_versioned`: the dictionary inside the envelope. -/
def versioned (raw label : String) : Except Failure (List (String × Json)) := do
  match loads raw with
  | none => .error (refuse (label ++ " is not valid JSON"))
  | some decoded =>
    let value ← mapping decoded ["schema_version", "value"] label
    let version ← integerField value "schema_version" (label ++ ".schema_version")
    check (version = 1) (refuse ("unsupported " ++ label ++ " schema version"))
    let inner ← field value "value"
    object inner (label ++ ".value")

/-- The fields of a decoded Program and its checks. A revision is a count here: a negative one,
which is never encoded, is refused. -/
def programFrom (value : List (String × Json)) : Except Failure Program := do
  let status ← textField value "status" "Program status"
  let status ← member programStatusOf? "Program has an unknown status" status
  let attempts ← arrayField attemptFrom value "attempts" "attempts"
  let spec ← field value "spec"
  let spec ← specFrom spec
  let revision ← integerField value "revision" "Program revision"
  let revision ← natural revision "revision"
  let states ← arrayField workUnitStateFrom value "work_unit_states" "work_unit_states"
  let satisfactions ← arrayField satisfactionFrom value "satisfactions" "satisfactions"
  let cancellations ← arrayField cancellationFrom value "cancellations" "cancellations"
  let attemptCancellations ← arrayField attemptCancellationFrom value "attempt_cancellations"
    "attempt_cancellations"
  let conclusions ← arrayField conclusionFrom value "conclusions" "conclusions"
  let specHistory ← arrayField specFrom value "spec_history" "spec_history"
  let p : Program := {
    spec, status, attempts, satisfactions, cancellations, attemptCancellations, specHistory,
    revision, workUnitStates := states, conclusions }
  let programId ← textField value "program_id" "Program program_id"
  check (p.programId.val = programId)
    (refuse "Program ID differs from its current ProgramSpec")
  p.validate
  validateReferences p
  return p

/-- Exceptions other than codec errors are reported as a violation. -/
def asCodecError (message : String) (e : Failure) : Failure :=
  if e.fault = .recordCodec then e else refuse message

/-- `program_from_json`. -/
def programFromJson (raw : String) : Except Failure Program := do
  let value ← versioned raw "Program record"
  check (value.map Prod.fst = ["attempt_cancellations", "attempts", "cancellations",
      "conclusions", "program_id", "revision", "satisfactions", "spec", "spec_history", "status",
      "work_unit_states"])
    (refuse "Program record has missing or unknown fields")
  (programFrom value).mapError (asCodecError "Program record violates K1 invariants")

omit [Sha256] in
/-- Decoding an envelope gives the dictionary back. -/
theorem versioned_envelope {fields : List (String × Json)} (h : (Json.obj fields).WF)
    (label : String) : versioned (dumps (envelope (.obj fields))) label = .ok fields := by
  rw [versioned, loads_dumps (envelope_wf h)]
  rfl

/-- Decoding the dictionary of a Program gives the Program back if it passes the checks. -/
theorem programFrom_data {p : Program} (hv : p.validate = .ok ())
    (hr : validateReferences p = .ok ()) {fields : List (String × Json)}
    (hf : programData p = .obj fields) : programFrom fields = .ok p := by
  obtain rfl := Json.obj.inj hf
  exact bind_of_ok rfl <| bind_of_ok (member_programStatus _ _) <|
    bind_of_ok (mapM_map fun a _ => attemptFrom_data a) <| bind_of_ok rfl <|
    bind_of_ok (specFrom_payload _) <| bind_of_ok rfl <| bind_of_ok (natural_coe _ _) <|
    bind_of_ok (mapM_map fun s _ => workUnitStateFrom_data s) <|
    bind_of_ok (mapM_map fun s _ => satisfactionFrom_data s) <|
    bind_of_ok (mapM_map fun c _ => cancellationFrom_data c) <|
    bind_of_ok (mapM_map fun c _ => attemptCancellationFrom_data c) <|
    bind_of_ok (mapM_map fun c _ => conclusionFrom_data c) <|
    bind_of_ok (mapM_map fun s _ => specFrom_payload s) <| bind_of_ok rfl <|
    bind_of_ok (check_of rfl) <| bind_of_ok hv <| bind_of_ok hr rfl

/-- Coherent Programs are encoded. -/
theorem programJson_of_coherent {p : Program} (h : p.Coherent) :
    programJson p = .ok (dumps (envelope (programData p))) := by
  rw [programJson, programValue, h.validate, ok_bind, validateReferences_of_coherent h, ok_bind]
  rfl

/-- The text of a coherent Program is decoded to the Program. -/
theorem programFromJson_of_coherent {p : Program} (h : p.Coherent) :
    programFromJson (dumps (envelope (programData p))) = .ok p := by
  have hwf := programData_wf p
  refine bind_of_ok (versioned_envelope hwf _) <| bind_of_ok (check_of rfl) ?_
  rw [programFrom_data h.validate (validateReferences_of_coherent h) rfl]
  rfl

/-- A reachable Program is encoded, and its text is decoded to the same Program; neither the
checks of the encoder nor those of the decoder refuse it. -/
theorem program_roundTrip {p : Program} (hp : p.Reachable) :
    ∃ raw, programJson p = .ok raw ∧ programFromJson raw = .ok p :=
  ⟨_, programJson_of_coherent hp.coherent, programFromJson_of_coherent hp.coherent⟩

end

/-- The completed sample Program survives the codec. -/
theorem program_roundTrip_completed :
    ∃ raw, @programJson Sample.sha256 Sample.completed = .ok raw ∧
      @programFromJson Sample.sha256 raw = .ok Sample.completed :=
  @program_roundTrip Sample.sha256 _ Sample.reachable_completed

end Codec

end CreatidyKernel
