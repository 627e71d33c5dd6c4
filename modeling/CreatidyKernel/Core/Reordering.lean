import CreatidyKernel.Core.Program

set_option relaxedAutoImplicit false
set_option autoImplicit false

/-!
# Reordered amendments

An amendment keeps its tuples in the order its author gave them; the specification sorts them.
The order decides which unit the constructor of the specification looks at first, so it can
decide which of two defects of the units is reported: a dependency on a missing unit
(`MissingReference`) or a logical name with two producers (its superclass `InvalidGraph`).
Nothing else depends on it.

## Main definitions

* `SpecArgs.Ambivalent` — the arguments have both defects.
* `SameClass` — two exceptions of one class, or two graph errors of ambivalent arguments.
* `SpecAmendment.Reorders`, `DomainCommand.Reorders` — amendments and commands that differ by the
  order of their tuples.

## Main results

* `SpecArgs.check_perm` — the checks of the constructor end alike on reordered arguments.
* `Program.apply_sorted_agree` — a command and the command with its tuples sorted end alike.
* `DomainCommand.sorted_eq_iff` — two commands are reorderings of each other exactly when they
  are the same once sorted.
-/

namespace CreatidyKernel

open Checked

/-- A graph error that reports a missing or an ambiguous source. -/
def Fault.Graph (f : Fault) : Prop := f = .invalidGraph ∨ f = .missingReference

/-- Two exceptions of one class, or two graph errors where both defects are present. -/
def SameClass (ambivalent : Prop) (e e' : Failure) : Prop :=
  e.fault = e'.fault ∨ ambivalent ∧ e.fault.Graph ∧ e'.fault.Graph

theorem SameClass.refl {ambivalent : Prop} (e : Failure) : SameClass ambivalent e e := .inl rfl

namespace SpecArgs

/-- Some unit depends on a missing unit, and some logical name has two producers. -/
def Ambivalent (a : SpecArgs) : Prop :=
  (∃ u ∈ a.workUnits, ∃ d ∈ u.dependencies.toList,
    d ∉ a.workUnits.map WorkUnit.workUnitId) ∧ ¬(a.producers.map Prod.fst).Nodup

instance (a : SpecArgs) : Decidable a.Ambivalent := inferInstanceAs (Decidable (_ ∧ _))

/-- Whether both defects are present does not depend on the order of the tuples. -/
theorem ambivalent_perm {a a' : SpecArgs} (hu : a.workUnits.Perm a'.workUnits)
    (hi : a.initialInputs.Perm a'.initialInputs) : a.Ambivalent ↔ a'.Ambivalent := by
  have hids := hu.map WorkUnit.workUnitId
  have hprod : a.producers.Perm a'.producers := (hi.map _).append (hu.flatMap_right _)
  simp only [Ambivalent, hu.mem_iff, hids.mem_iff, (hprod.map Prod.fst).nodup_iff]

theorem declareOutputs_error {unitId : Name} {outputs : List Name}
    {producers : List (Name × Option Name)} {e : Failure}
    (h : declareOutputs unitId producers outputs = .error e) :
    e.fault = .invalidGraph ∧
      ¬((producers ++ outputs.map fun o => (o, some unitId)).map Prod.fst).Nodup := by
  induction outputs generalizing producers with
  | nil => cases h
  | cons o rest ih =>
    rw [declareOutputs] at h
    split_ifs at h with ho
    · obtain rfl := Except.error.inj h
      refine ⟨rfl, fun hn => ?_⟩
      rw [List.map_append, List.map_cons] at hn
      exact (List.nodup_append.1 hn).2.2 o ho o List.mem_cons_self rfl
    · obtain ⟨hf, hn⟩ := ih h
      rw [List.append_assoc] at hn
      exact ⟨hf, hn⟩

/-- The loop over the units reports a missing dependency or a second producer. -/
theorem declareUnits_error {ids : List Name} {units : List WorkUnit}
    {producers : List (Name × Option Name)} {e : Failure} (hbase : (producers.map Prod.fst).Nodup)
    (h : declareUnits ids producers units = .error e) :
    (e.fault = .missingReference ∧ ∃ u ∈ units, ∃ d ∈ u.dependencies.toList, d ∉ ids) ∨
      (e.fault = .invalidGraph ∧ ¬((producers ++ units.flatMap fun u =>
        u.outputs.toList.map fun o => (o, some u.workUnitId)).map Prod.fst).Nodup) := by
  induction units generalizing producers with
  | nil => cases h
  | cons u rest ih =>
    rw [List.flatMap_cons, ← List.append_assoc]
    rcases bind_eq_error.1 h with h | ⟨_, -, h⟩
    · obtain ⟨d, hd, he⟩ := exists_of_forM_error h
      obtain ⟨hmem, rfl⟩ := check_eq_error.1 he
      exact .inl ⟨rfl, u, List.mem_cons_self, d, hd, hmem⟩
    · rcases bind_eq_error.1 h with hout | ⟨mid, hout, h⟩
      · obtain ⟨hf, hn⟩ := declareOutputs_error hout
        refine .inr ⟨hf, fun hall => hn ?_⟩
        rw [List.map_append] at hall
        exact (List.nodup_append.1 hall).1
      · obtain ⟨rfl, hmid⟩ := (declareOutputs_eq_ok hbase).1 hout
        rcases ih hmid h with ⟨hf, v, hv, hd⟩ | ⟨hf, hn⟩
        · exact .inl ⟨hf, v, List.mem_cons_of_mem _ hv, hd⟩
        · exact .inr ⟨hf, hn⟩

theorem checkInput_error {producers : List (Name × Option Name)} {u : WorkUnit} {n : Name}
    {e : Failure} (h : checkInput producers u n = .error e) : e.fault = .missingInput := by
  unfold checkInput at h
  split at h
  · exact (Except.error.inj h) ▸ rfl
  · cases h
  · obtain ⟨-, rfl⟩ := check_eq_error.1 h
    rfl


/-- The checks of the constructor end alike on reordered arguments. -/
theorem check_perm {a a' : SpecArgs} (hu : a.workUnits.Perm a'.workUnits)
    (hi : a.initialInputs.Perm a'.initialInputs)
    (hc : a.acceptanceCriteria.Perm a'.acceptanceCriteria)
    (hp : a.policyReferences.Perm a'.policyReferences) (hr : a.revision = a'.revision) :
    Agree (SameClass a.Ambivalent) (· = ·) a.check a'.check := by
  have hrefl : ∀ e, SameClass a.Ambivalent e e := SameClass.refl
  have hids := hu.map WorkUnit.workUnitId
  have hprod : a.producers.Perm a'.producers := (hi.map _).append (hu.flatMap_right _)
  have hsorted {α κ : Type} [LinearOrder κ] {key : α → κ} {l l' : List α} (hl : l.Perm l')
      (e : Failure) : Agree (SameClass a.Ambivalent) (fun _ _ => (l.map key).Nodup)
        (sortedTuple key l e) (sortedTuple key l' e) := by
    have hn := (hl.map key).nodup_iff
    unfold sortedTuple
    by_cases h : (l.map key).Nodup
    · rw [dif_pos h, dif_pos (hn.1 h)]
      exact .ok h
    · rw [dif_neg h, dif_neg (mt hn.2 h)]
      exact .error (hrefl e)
  have hnil {α : Type} {l l' : List α} (hl : l.Perm l') : l ≠ [] ↔ l' ≠ [] :=
    by
    rw [← List.length_pos_iff, ← List.length_pos_iff, hl.length_eq]
  unfold check
  refine .bind (.check (hnil hu) (hrefl _)) fun _ _ _ => ?_
  refine .bind (.check hids.nodup_iff (hrefl _)) fun _ _ _ => ?_
  refine .bind (hsorted hi _) fun _ _ hin => ?_
  refine .bind (.check (forall_congr' fun b => by rw [hi.mem_iff]) (hrefl _)) fun _ _ _ => ?_
  refine .bind (hsorted hc _) fun _ _ _ => ?_
  refine .bind (hsorted hp _) fun _ _ _ => ?_
  refine .bind (.check (and_congr (hnil hc) (hnil hp)) (hrefl _)) fun _ _ _ => ?_
  refine .bind (.check (by rw [hr]) (hrefl _)) fun _ _ _ => ?_
  have hbase : ((a.initialInputs.map fun b => (b.name, (none : Option Name))).map
      Prod.fst).Nodup := by
    simpa [List.map_map, Function.comp_def] using hin
  have hbase' : ((a'.initialInputs.map fun b => (b.name, (none : Option Name))).map
      Prod.fst).Nodup := ((hi.map _).map _).nodup_iff.1 hbase
  have hdeps : (∀ u ∈ a.workUnits, ∀ d ∈ u.dependencies.toList,
      d ∈ a.workUnits.map WorkUnit.workUnitId) ↔ ∀ u ∈ a'.workUnits, ∀ d ∈ u.dependencies.toList,
      d ∈ a'.workUnits.map WorkUnit.workUnitId := by
    simp only [hu.mem_iff, hids.mem_iff]
  have hnodup := (hprod.map Prod.fst).nodup_iff
  refine .bind (S := fun ps ps' => ps = a.producers ∧ ps' = a'.producers ∧
    (a.producers.map Prod.fst).Nodup) (.of_iff ?_ ?_ ?_) ?_
  · simp only [declareUnits_eq_ok hbase, declareUnits_eq_ok hbase', hdeps]
    constructor
    · rintro ⟨_, hd, rfl, hn⟩
      exact ⟨_, hd, rfl, hnodup.1 hn⟩
    · rintro ⟨_, hd, rfl, hn⟩
      exact ⟨_, hd, rfl, hnodup.2 hn⟩
  · intro ps ps' h h'
    obtain ⟨-, rfl, hn⟩ := (declareUnits_eq_ok hbase).1 h
    obtain ⟨-, rfl, -⟩ := (declareUnits_eq_ok hbase').1 h'
    exact ⟨rfl, rfl, hn⟩
  · -- two different classes mean that both defects are present
    intro e e' h h'
    rcases declareUnits_error hbase h with ⟨hf, hd⟩ | ⟨hf, hn⟩ <;>
      rcases declareUnits_error hbase' h' with ⟨hf', hd'⟩ | ⟨hf', hn'⟩
    · exact .inl (hf.trans hf'.symm)
    · exact .inr ⟨⟨hd, mt hnodup.1 hn'⟩, .inr hf, .inl hf'⟩
    · exact .inr ⟨(ambivalent_perm hu hi).2 ⟨hd', mt hnodup.2 hn⟩, .inl hf, .inr hf'⟩
    · exact .inl (hf.trans hf'.symm)
  rintro _ _ ⟨rfl, rfl, hn⟩
  have htopo : topologicalOrder a.workUnits = topologicalOrder a'.workUnits := by
    unfold topologicalOrder
    rw [show Layers.topologicalOrder (dependencyGraph a.workUnits) = _ from
      Layers.topologicalOrder_perm (hu.map _)]
    rfl
  rw [htopo]
  refine .bind_left hrefl fun _ => .of_iff ?_ (fun _ _ _ _ => rfl) fun e e' h h' => ?_
  · have hsource (u : WorkUnit) (n : Name) :
        checkInput a.producers u n = .ok () ↔ checkInput a'.producers u n = .ok () := by
      rw [checkInput_eq_ok hn, checkInput_eq_ok (hnodup.1 hn)]
      simp only [hprod.mem_iff]
    simp only [forM_eq_ok, hu.mem_iff, hsource]
  · have hfault {b : SpecArgs} {e : Failure} (h : (b.workUnits.forM fun u =>
        u.requiredInputs.toList.forM (checkInput b.producers u)) = .error e) :
        e.fault = .missingInput := by
      obtain ⟨u, -, h⟩ := exists_of_forM_error h
      obtain ⟨n, -, h⟩ := exists_of_forM_error h
      exact checkInput_error h
    exact .inl ((hfault h).trans (hfault h').symm)

end SpecArgs

/-! ## Specifications -/

/-- The constructor ends alike on reordered arguments. -/
theorem ProgramSpec.init_agree {a a' : SpecArgs} (hu : a.workUnits.Perm a'.workUnits)
    (hi : a.initialInputs.Perm a'.initialInputs)
    (hc : a.acceptanceCriteria.Perm a'.acceptanceCriteria)
    (hp : a.policyReferences.Perm a'.policyReferences)
    (hrest : (a.programId, a.objective, a.budget, a.authority, a.revision, a.parentDigest) =
      (a'.programId, a'.objective, a'.budget, a'.authority, a'.revision, a'.parentDigest)) :
    Agree (SameClass a.Ambivalent) (· = ·) (init a) (init a') := by
  have hr : a.revision = a'.revision := by
    simp only [Prod.mk.injEq] at hrest
    exact hrest.2.2.2.2.1
  have hcheck := SpecArgs.check_perm hu hi hc hp hr
  have herror {b : SpecArgs} {e : Failure} : init b = .error e ↔ b.check = .error e := by
    unfold init
    split <;> simp_all
  cases h : init a with
  | ok p =>
    rw [init_perm h hu hi hc hp hrest]
    exact .ok rfl
  | error e =>
    rw [herror] at h
    rw [h] at hcheck
    cases h' : a'.check with
    | ok _ =>
      rw [h'] at hcheck
      cases hcheck
    | error e' =>
      rw [h'] at hcheck
      rw [herror.2 h']
      cases hcheck with
      | error he => exact .error he

section

variable [Sha256]

/-- An amendment and the amendment with its tuples sorted end alike. -/
theorem ProgramSpec.amend_sorted_agree (p : ProgramSpec) (a : SpecAmendment) :
    Agree (SameClass (p.amendedArgs a).Ambivalent) (· = ·) (p.amend a.sorted) (p.amend a) := by
  have hperm {α κ : Type} [LinearOrder κ] {key : α → κ} (o : Option (List α)) (l : List α) :
      ((o.map (SortedBy.sortBy key)).getD l).Perm (o.getD l) := by
    cases o with
    | none => exact .refl _
    | some l => exact SortedBy.perm_sortBy l
  have hu : (p.amendedArgs a.sorted).workUnits.Perm (p.amendedArgs a).workUnits := hperm _ _
  have hi : (p.amendedArgs a.sorted).initialInputs.Perm (p.amendedArgs a).initialInputs :=
    hperm _ _
  have hambivalent : (p.amendedArgs a.sorted).Ambivalent ↔ (p.amendedArgs a).Ambivalent :=
    SpecArgs.ambivalent_perm hu hi
  have hinit := init_agree hu hi (hperm _ _) (hperm _ _) rfl
  rw [hambivalent] at hinit
  refine .bind_left SameClass.refl fun _ => .bind hinit ?_
  rintro q _ rfl
  exact .refl SameClass.refl _

namespace Program

/-- The amendment of a command has both defects for a Program. -/
def Ambivalent (p : Program) (c : DomainCommand) : Prop :=
  match c.request with
  | .amendProgramSpec amendment => (p.spec.amendedArgs amendment).Ambivalent
  | _ => False

instance (p : Program) (c : DomainCommand) : Decidable (p.Ambivalent c) := by
  unfold Ambivalent
  split <;> infer_instance

/-- A command and the command with its tuples sorted end alike. -/
theorem apply_sorted_agree (p : Program) (c : DomainCommand) :
    Agree (SameClass (p.Ambivalent c)) (· = ·) (p.apply c.sorted) (p.apply c) := by
  obtain ⟨revision, actor, request⟩ := c
  cases request with
  | amendProgramSpec amendment =>
    have hamend := ProgramSpec.amend_sorted_agree p.spec amendment
    unfold apply guards
    refine .bind (S := (· = ·)) (.bind_left SameClass.refl fun _ => .bind_left SameClass.refl fun _ =>
      .bind_left SameClass.refl fun _ => .bind hamend ?_) ?_
    · rintro spec _ rfl
      exact .refl SameClass.refl _
    · rintro d _ rfl
      exact .refl SameClass.refl _
  | _ => exact .refl SameClass.refl _

end Program

end

/-! ## Commands that differ by the order of their tuples -/

/-- Two optional lists are both absent, or reorderings of each other. -/
def OptionReorders {α κ : Type} [LinearOrder κ] (key : α → κ) (o o' : Option (List α)) : Prop :=
  Option.Rel (SortedBy.Reorders key) o o'

theorem optionReorders_iff {α κ : Type} [LinearOrder κ] {key : α → κ} {o o' : Option (List α)} :
    OptionReorders key o o' ↔ o.map (SortedBy.sortBy key) = o'.map (SortedBy.sortBy key) := by
  cases o with
  | none => cases o' <;> simp [OptionReorders]
  | some l =>
    cases o' with
    | none => simp [OptionReorders]
    | some l' => simp [OptionReorders, SortedBy.sortBy_eq_iff]

/-- Two amendments differ at most by the order of their tuples, and units with one identifier
keep their order. -/
structure SpecAmendment.Reorders (a a' : SpecAmendment) : Prop where
  expectedRevision : a.expectedRevision = a'.expectedRevision
  objective : a.objective = a'.objective
  workUnits : OptionReorders WorkUnit.workUnitId a.workUnits a'.workUnits
  initialInputs : OptionReorders InputBinding.name a.initialInputs a'.initialInputs
  budget : a.budget = a'.budget
  authority : a.authority = a'.authority
  reason : a.reason = a'.reason
  acceptanceCriteria : OptionReorders id a.acceptanceCriteria a'.acceptanceCriteria
  policyReferences : OptionReorders PolicyReference.key a.policyReferences a'.policyReferences

theorem SpecAmendment.sorted_eq_iff {a a' : SpecAmendment} :
    a.sorted = a'.sorted ↔ a.Reorders a' := by
  simp only [sorted, mk.injEq, ← optionReorders_iff]
  constructor
  · rintro ⟨h1, h2, h3, h4, h5, h6, h7, h8, h9⟩
    exact ⟨h1, h2, h3, h4, h5, h6, h7, h8, h9⟩
  · rintro ⟨h1, h2, h3, h4, h5, h6, h7, h8, h9⟩
    exact ⟨h1, h2, h3, h4, h5, h6, h7, h8, h9⟩

/-- Two commands differ at most by the order of the tuples of their amendment. -/
inductive DomainCommand.Reorders : DomainCommand → DomainCommand → Prop
  | refl (c : DomainCommand) : Reorders c c
  | amend {revision : ℕ} {actorId : Name} {a a' : SpecAmendment} (h : a.Reorders a') :
      Reorders ⟨revision, actorId, .amendProgramSpec a⟩ ⟨revision, actorId, .amendProgramSpec a'⟩

/-- Two commands are reorderings of each other exactly when they are the same once sorted. -/
theorem DomainCommand.sorted_eq_iff {c c' : DomainCommand} :
    c.sorted = c'.sorted ↔ c.Reorders c' := by
  constructor
  · intro h
    obtain ⟨revision, actor, request⟩ := c
    obtain ⟨revision', actor', request'⟩ := c'
    simp only [sorted, mk.injEq] at h
    obtain ⟨rfl, rfl, h⟩ := h
    cases request <;> cases request' <;>
      first
      | exact .amend (SpecAmendment.sorted_eq_iff.1 (Request.amendProgramSpec.inj h))
      | cases h <;> exact .refl _
  · intro h
    cases h with
    | refl => rfl
    | amend h => simp only [sorted, SpecAmendment.sorted_eq_iff.2 h]

end CreatidyKernel
