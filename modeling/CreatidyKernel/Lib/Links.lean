import Mathlib.Tactic

set_option relaxedAutoImplicit false
set_option autoImplicit false

/-!
# Records linked to their parents

A record may link to one other record, its parent. Following the links from a record upwards
ends at a root, a record without a parent, or goes on for ever; among finitely many records it
goes on for ever exactly when it runs into a cycle.

## Main definitions

* `Links.Link` — the parent relation of a partial function.
* `Links.Climb` — the records met on the way up from a record to its root.

## Main results

* `Links.Climb.nodup` — a way up that ends meets no record twice.
* `Links.Climb.not_loop` — a record with a way up is on no cycle.
* `Links.exists_climb` — among finitely many records without a cycle every record has a way up.
-/

namespace CreatidyKernel

namespace Links

variable {ν : Type} {parent : ν → Option ν} {a b : ν} {l l' : List ν}

variable (parent) in
/-- The second record is the parent of the first. -/
def Link (a b : ν) : Prop := parent a = some b

variable (parent) in
/-- The records met on the way up from a record, the root last. -/
inductive Climb : ν → List ν → Prop
  | root {a : ν} (h : parent a = none) : Climb a [a]
  | link {a b : ν} {l : List ν} (h : parent a = some b) (hl : Climb b l) : Climb a (a :: l)

namespace Climb

/-- There is only one way up. -/
theorem unique (h : Climb parent a l) (h' : Climb parent a l') : l = l' := by
  induction h generalizing l' with
  | root h =>
    cases h' with
    | root _ => rfl
    | link hb _ => cases h.symm.trans hb
  | link h _ ih =>
    cases h' with
    | root hn => cases h.symm.trans hn
    | link hb hl =>
      obtain rfl := Option.some.inj (h.symm.trans hb)
      rw [ih hl]

theorem mem_self (h : Climb parent a l) : a ∈ l := by
  cases h <;> exact List.mem_cons_self

/-- From a record met on the way the way goes on, and it is no longer. -/
theorem of_mem (h : Climb parent a l) (hb : b ∈ l) :
    ∃ l', Climb parent b l' ∧ l'.length ≤ l.length := by
  induction h with
  | root h =>
    obtain rfl := List.mem_singleton.1 hb
    exact ⟨_, .root h, le_rfl⟩
  | link h hl ih =>
    cases hb with
    | head => exact ⟨_, .link h hl, le_rfl⟩
    | tail _ hb =>
      obtain ⟨l', hl', hle⟩ := ih hb
      exact ⟨l', hl', hle.trans (Nat.le_succ _)⟩

/-- A way up that ends meets no record twice. -/
theorem nodup (h : Climb parent a l) : l.Nodup := by
  induction h with
  | root _ => exact List.nodup_singleton _
  | link h hl ih =>
    refine List.nodup_cons.2 ⟨fun hmem => ?_, ih⟩
    -- the way from the record would be shorter than itself
    obtain ⟨l', hl', hle⟩ := hl.of_mem hmem
    rw [hl'.unique (.link h hl)] at hle
    exact absurd hle (Nat.not_succ_le_self _)

/-- Every record above has a shorter way up. -/
theorem above (h : Climb parent a l) (hab : Relation.TransGen (Link parent) a b) :
    ∃ l', Climb parent b l' ∧ l'.length < l.length := by
  induction hab with
  | single hab =>
    cases h with
    | root hn => cases hn.symm.trans hab
    | link hb hl =>
      obtain rfl := Option.some.inj (hb.symm.trans hab)
      exact ⟨_, hl, Nat.lt_succ_self _⟩
  | tail _ hbc ih =>
    obtain ⟨l', hl', hlt⟩ := ih
    cases hl' with
    | root hn => cases hn.symm.trans hbc
    | link hb hl =>
      obtain rfl := Option.some.inj (hb.symm.trans hbc)
      exact ⟨_, hl, (Nat.lt_succ_self _).trans hlt⟩

/-- A record with a way up is on no cycle. -/
theorem not_loop (h : Climb parent a l) : ¬Relation.TransGen (Link parent) a a := by
  intro ha
  obtain ⟨l', hl', hlt⟩ := h.above ha
  rw [hl'.unique h] at hlt
  exact absurd hlt (lt_irrefl _)

/-- What is closed under parents holds all along the way up. -/
theorem forall_mem {P : ν → Prop} (h : Climb parent a l) (ha : P a)
    (hP : ∀ a b, P a → parent a = some b → P b) : ∀ b ∈ l, P b := by
  induction h with
  | root _ => simpa using ha
  | link hb _ ih => exact List.forall_mem_cons.2 ⟨ha, ih (hP _ _ ha hb)⟩

/-- Neighbours on the way up are linked. -/
theorem isChain (h : Climb parent a l) : l.IsChain (Link parent) := by
  induction h with
  | root _ => exact .singleton _
  | link hb hl ih =>
    cases hl with
    | root _ => exact .cons_cons hb ih
    | link _ _ => exact .cons_cons hb ih

/-- The way up ends at a root. -/
theorem exists_getLast (h : Climb parent a l) : ∃ r ∈ l.getLast?, parent r = none := by
  induction h with
  | root h => exact ⟨_, rfl, h⟩
  | link _ hl ih =>
    obtain ⟨r, hr, hn⟩ := ih
    refine ⟨r, ?_, hn⟩
    rw [Option.mem_def] at hr ⊢
    rw [List.getLast?_cons, hr]
    rfl

end Climb

/-- Among finitely many records without a cycle every record has a way up.

**Proof idea.** On the finitely many records the relation "above" is well founded, and the way up
from a record is found once the one from its parent is. -/
theorem exists_climb {nodes : List ν} (hclosed : ∀ a ∈ nodes, ∀ b, parent a = some b → b ∈ nodes)
    (hloop : ∀ a ∈ nodes, ¬Relation.TransGen (Link parent) a a) (ha : a ∈ nodes) :
    ∃ l, Climb parent a l := by
  have hwf : WellFounded fun a b : {n // n ∈ nodes} =>
      Relation.TransGen (Link parent) b.1 a.1 := by
    have hfinite : Finite {n // n ∈ nodes} := nodes.finite_toSet
    have htrans : IsTrans {n // n ∈ nodes} fun a b => Relation.TransGen (Link parent) b.1 a.1 :=
      ⟨fun _ _ _ hab hbc => hbc.trans hab⟩
    have hirrefl : Std.Irrefl fun a b : {n // n ∈ nodes} =>
        Relation.TransGen (Link parent) b.1 a.1 := ⟨fun a => hloop a.1 a.2⟩
    exact Finite.wellFounded_of_trans_of_irrefl _
  suffices h : ∀ n : {n // n ∈ nodes}, ∃ l, Climb parent n.1 l from h ⟨a, ha⟩
  intro n
  induction n using hwf.induction with
  | h n ih =>
    cases hn : parent n.1 with
    | none => exact ⟨_, .root hn⟩
    | some b =>
      obtain ⟨l, hl⟩ := ih ⟨b, hclosed n.1 n.2 b hn⟩ (.single hn)
      exact ⟨_, .link hn hl⟩

end Links

end CreatidyKernel
