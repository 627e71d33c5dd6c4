import CreatidyKernel.Core.Locality
import CreatidyKernel.Codec.Records
import CreatidyKernel.Core.Closure

set_option relaxedAutoImplicit false
set_option autoImplicit false

/-!
# What a fingerprint tells

The fingerprint of a unit is the digest of a canonical text. When the digest does not collide,
the fingerprint tells the whole intent of the unit, and no more.

## Main results

* `sameIntent_iff_fingerprint` — two specifications give a unit one fingerprint exactly when
  they give it one intent.
* `fingerprint_local` — and then every history gives it one state.
-/

namespace CreatidyKernel

open Checked

namespace Codec

/-- An encoder with a decoder is injective. -/
theorem injective_of_decode {α : Type} {encode : α → Json} {decode : Json → Except Failure α}
    (h : ∀ a, decode (encode a) = .ok a) : Function.Injective encode := fun a b he =>
  Except.ok.inj ((h a).symm.trans ((congrArg decode he).trans (h b)))

theorem names_injective : Function.Injective names := by
  intro l l' h
  refine List.map_injective_iff.2 (fun a b hab => ?_) (Json.arr.inj h)
  exact Subtype.ext (Json.str.inj hab)

theorem intentPayload_wf (p : ProgramSpec) (units : List WorkUnit) :
    (p.intentPayload units).WF := by
  refine (Json.wf_obj _).2 ⟨by simp only [List.map]; decide, ?_⟩
  simp +contextual only [List.forall_mem_cons, List.not_mem_nil, false_imp_iff, implies_true,
    and_true, Json.wf_arr, Json.wf_str, names_wf, List.mem_map, forall_exists_index, and_imp]
  refine ⟨trivial, ?_, trivial, ?_, trivial, ?_⟩
  · rintro _ u - rfl
    exact u.payload_wf
  · rintro _ b - rfl
    exact b.payload_wf
  · rintro _ r - rfl
    exact r.payload_wf

/-- The parts of the intent a payload tells. -/
theorem intentPayload_inj {p q : ProgramSpec} {units units' : List WorkUnit}
    (h : p.intentPayload units = q.intentPayload units') :
    p.programId = q.programId ∧ p.objective = q.objective ∧
      p.acceptanceCriteria = q.acceptanceCriteria ∧ p.policyReferences = q.policyReferences ∧
      units = units' ∧
      (p.initialInputs.toList.filter fun b => b.name ∈ units.flatMap fun u =>
        u.requiredInputs.toList) =
      q.initialInputs.toList.filter fun b => b.name ∈ units'.flatMap fun u =>
        u.requiredInputs.toList := by
  simp only [ProgramSpec.intentPayload, Json.obj.injEq, List.cons.injEq, Prod.mk.injEq,
    Json.arr.injEq, Json.str.injEq, true_and, and_true] at h
  obtain ⟨hcriteria, hunits, hinputs, hobjective, hpolicies, hprogram⟩ := h
  exact ⟨Subtype.ext hprogram, Subtype.ext hobjective, SortedBy.ext (names_injective hcriteria),
    SortedBy.ext (List.map_injective_iff.2 (injective_of_decode policyFrom_payload) hpolicies),
    List.map_injective_iff.2 (injective_of_decode workUnitFrom_payload) hunits,
    List.map_injective_iff.2 (injective_of_decode bindingFrom_payload) hinputs⟩

end Codec

section

variable [Sha256] {p q : ProgramSpec} {n : Name}

/-- Without collisions a fingerprint tells the intent. -/
theorem sameIntent_of_fingerprint (hsha : Function.Injective Sha256.hexdigest)
    (hp : n ∈ p.unitIds) (hq : n ∈ q.unitIds) (h : p.fingerprint n = q.fingerprint n) :
    SameIntent p q n := by
  obtain ⟨units, hu, hf⟩ := p.fingerprint_spec hp
  obtain ⟨units', hu', hf'⟩ := q.fingerprint_spec hq
  rw [hf, hf', Except.ok.injEq] at h
  have hpayload := dumps_injective (Codec.intentPayload_wf p units.toList)
    (Codec.intentPayload_wf q units'.toList) (hsha h)
  obtain ⟨hprogram, hobjective, hcriteria, hpolicies, hunits, hinputs⟩ :=
    Codec.intentPayload_inj hpayload
  obtain rfl := SortedBy.ext hunits
  have hconsumed {p : ProgramSpec} (hu : ∀ u, u ∈ units ↔ p.InCone n u) (b : InputBinding) :
      p.ConsumesInput n b ↔ b ∈ p.initialInputs.toList.filter fun b =>
        b.name ∈ units.toList.flatMap fun u => u.requiredInputs.toList := by
    simp only [List.mem_filter, List.mem_flatMap, SortedBy.mem_toList, hu, decide_eq_true_iff]
    exact Iff.rfl
  exact ⟨hprogram, hobjective, hcriteria, hpolicies, fun u => (hu u).symm.trans (hu' u),
    fun b => by rw [hconsumed hu, hconsumed hu', hinputs]⟩

/-- Two specifications give a unit one fingerprint exactly when they give it one intent. -/
theorem sameIntent_iff_fingerprint (hsha : Function.Injective Sha256.hexdigest)
    (hp : n ∈ p.unitIds) (hq : n ∈ q.unitIds) :
    p.fingerprint n = q.fingerprint n ↔ SameIntent p q n :=
  ⟨sameIntent_of_fingerprint hsha hp hq, fun h => h.fingerprint_eq hp hq⟩

/-- The projection is local: two specifications that give a unit one fingerprint project one
state of it from every history, whatever else they differ in. And the fingerprint differs as
soon as the objective, the criteria, the policies, a unit in its dependency cone or an initial
input consumed there differs. -/
theorem fingerprint_local (hsha : Function.Injective Sha256.hexdigest) (hp : n ∈ p.unitIds)
    (hq : n ∈ q.unitIds) :
    (p.fingerprint n = q.fingerprint n →
      ∀ attempts satisfactions cancellations states states',
        project p attempts satisfactions cancellations = .ok states →
        project q attempts satisfactions cancellations = .ok states' →
        ∃ s, stateById states n = some s ∧ stateById states' n = some s) ∧
    (p.objective ≠ q.objective ∨ p.acceptanceCriteria ≠ q.acceptanceCriteria ∨
        p.policyReferences ≠ q.policyReferences ∨ (∃ u, ¬(p.InCone n u ↔ q.InCone n u)) ∨
        (∃ b, ¬(p.ConsumesInput n b ↔ q.ConsumesInput n b)) →
      p.fingerprint n ≠ q.fingerprint n) := by
  refine ⟨fun h attempts satisfactions cancellations states states' hs hs' => ?_, fun hd h => ?_⟩
  · have hstate := (sameIntent_of_fingerprint hsha hp hq h).project_eq hp hq hs hs'
    obtain ⟨s, hmem, rfl⟩ := List.mem_map.1 ((project_fixedPoint hs).1 ▸ hp)
    have hnd : (states.map WorkUnitState.workUnitId).Nodup :=
      (project_fixedPoint hs).1 ▸ p.workUnits.nodup_keys
    have hself : stateById states s.workUnitId = some s := (index_eq_some_iff hnd).2 ⟨hmem, rfl⟩
    exact ⟨s, hself, hstate ▸ hself⟩
  · have hsame := sameIntent_of_fingerprint hsha hp hq h
    rcases hd with hd | hd | hd | ⟨u, hd⟩ | ⟨b, hd⟩
    · exact hd hsame.objective
    · exact hd hsame.acceptanceCriteria
    · exact hd hsame.policyReferences
    · exact hd (hsame.units u)
    · exact hd (hsame.inputs b)

end

/-! ### Two budgets -/

namespace Sample

/-- A digest that does not collide. -/
@[reducible] def distinct : Sha256 := ⟨fun text => ⟨"sha256:" ++ text, by
  simp [Nonblank, isSpace]⟩⟩

theorem distinct_injective : Function.Injective distinct.hexdigest := by
  intro a b h
  have h : "sha256:" ++ a = "sha256:" ++ b := congrArg Subtype.val h
  simpa using h

/-- The sample specification with another budget. -/
def widened : ProgramSpec := { spec with budget := ⟨9, 4⟩, valid := { spec.valid with } }

theorem sameIntent_widened : SameIntent spec widened unit.workUnitId :=
  ⟨rfl, rfl, rfl, rfl, fun _ => Iff.rfl, fun _ => Iff.rfl⟩

end Sample

/-- The budget does not matter to the state of the sample unit. -/
theorem fingerprint_local_widened :
    ∃ s, (∃ states, @project Sample.distinct Sample.spec [] [] [] = .ok states ∧
        stateById states Sample.unit.workUnitId = some s) ∧
      ∃ states, @project Sample.distinct Sample.widened [] [] [] = .ok states ∧
        stateById states Sample.unit.workUnitId = some s := by
  have hp : Sample.unit.workUnitId ∈ Sample.spec.unitIds := by decide
  have hq : Sample.unit.workUnitId ∈ Sample.widened.unitIds := by decide
  obtain ⟨states, hs⟩ := @project_total Sample.distinct Sample.spec [] [] [] (by simp)
  obtain ⟨states', hs'⟩ := @project_total Sample.distinct Sample.widened [] [] [] (by simp)
  obtain ⟨s, h, h'⟩ := (@fingerprint_local Sample.distinct _ _ _ Sample.distinct_injective hp hq).1
    (@SameIntent.fingerprint_eq _ _ _ Sample.distinct Sample.sameIntent_widened hp hq)
    [] [] [] _ _ hs hs'
  exact ⟨s, ⟨states, hs, h⟩, states', hs', h'⟩

end CreatidyKernel
