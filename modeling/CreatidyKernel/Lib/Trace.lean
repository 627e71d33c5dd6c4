import Mathlib.Data.List.Basic

set_option relaxedAutoImplicit false
set_option autoImplicit false

/-!
# Traces

A trace records what a program did, oldest first. A rule says what may come after what, and a
trace follows it when every entry is allowed after the entries before it.

## Main definitions

* `Trace.Follows` — every entry is allowed by those before it.

## Main results

* `Trace.follows_concat` — a trace and one more entry.
* `Trace.Follows.not_mem_after` — an entry that is allowed once comes once.
-/

namespace CreatidyKernel

namespace Trace

variable {α : Type} {rule : List α → α → Prop}

variable (rule) in
/-- Every entry is allowed by those before it. -/
def Follows (trace : List α) : Prop :=
  ∀ before a after, trace = before ++ a :: after → rule before a

theorem follows_nil : Follows rule [] := by
  intro before a after h
  simp at h

/-- A trace and one more entry. -/
theorem follows_concat {trace : List α} {a : α} :
    Follows rule (trace ++ [a]) ↔ Follows rule trace ∧ rule trace a := by
  constructor
  · intro h
    refine ⟨fun before b after he => h before b (after ++ [a]) ?_, h trace a [] rfl⟩
    rw [he, List.append_assoc, List.cons_append]
  · rintro ⟨h, ha⟩ before b after he
    rcases List.eq_nil_or_concat after with rfl | ⟨after, c, rfl⟩
    · obtain ⟨rfl, hab⟩ := List.append_inj' he rfl
      cases hab
      exact ha
    · rw [List.concat_eq_append, ← List.cons_append, ← List.append_assoc] at he
      exact h before b after (List.append_inj' he rfl).1

/-- An entry that is only allowed when it did not come before comes once. -/
theorem Follows.not_mem_after {before after : List α} {a : α}
    (h : Follows rule (before ++ a :: after)) (hrule : ∀ trace, rule trace a → a ∉ trace) :
    a ∉ before ∧ a ∉ after := by
  refine ⟨hrule before (h before a after rfl), fun hmem => ?_⟩
  obtain ⟨middle, last, rfl⟩ := List.append_of_mem hmem
  have hlast := h (before ++ a :: middle) a last (by simp)
  exact hrule _ hlast (by simp)

end Trace

end CreatidyKernel
