import Mathlib.Tactic

set_option relaxedAutoImplicit false
set_option autoImplicit false

/-!
# Runs of a transactional system

A system takes one call after another. A call is a transaction: it either commits a new state
with an answer or raises, and a call that raises leaves the state as it was. The rules below
lift what one call preserves to what a whole run preserves.

## Main definitions

* `Runs.settle` — the state a transaction leaves behind, committed or rolled back.
* `Runs.run` — the state after a list of calls.
* `Runs.Occurs` — an event happened at some call of a run.

## Main results

* `Runs.run_invariant`, `Runs.run_invariant_of` — an invariant of every call is an invariant of
  every run; the second form needs each call to meet a condition where it is made.
* `Runs.run_relation` — a preorder every call respects relates the ends of a run.
* `Runs.run_induction` — induction on the last call, with the calls before it in view.
-/

namespace CreatidyKernel

namespace Runs

variable {σ κ ε α : Type}

/-! ## Transactions -/

/-- The state left by a transaction begun in `s`: a commit keeps the new state, an exception
rolls back. -/
def settle (s : σ) : Except ε (α × σ) → σ
  | .ok r => r.2
  | .error _ => s

@[simp] theorem settle_ok (s : σ) (r : α × σ) : settle s (.ok r : Except ε (α × σ)) = r.2 := rfl

@[simp] theorem settle_error (s : σ) (e : ε) : settle s (.error e : Except ε (α × σ)) = s := rfl

/-- What holds before a transaction and after every commit of it holds after the transaction. -/
theorem settle_of {P : σ → Prop} {s : σ} {r : Except ε (α × σ)} (hs : P s)
    (hr : ∀ a s', r = .ok (a, s') → P s') : P (settle s r) := by
  cases r with
  | ok r => exact hr r.1 r.2 rfl
  | error e => exact hs

/-! ## Runs -/

variable (next : σ → κ → σ)

/-- The state after a list of calls. -/
def run (s : σ) (calls : List κ) : σ := calls.foldl next s

@[simp] theorem run_nil (s : σ) : run next s [] = s := rfl

@[simp] theorem run_cons (s : σ) (c : κ) (calls : List κ) :
    run next s (c :: calls) = run next (next s c) calls := rfl

theorem run_append (s : σ) (calls calls' : List κ) :
    run next s (calls ++ calls') = run next (run next s calls) calls' := List.foldl_append

@[simp] theorem run_concat (s : σ) (calls : List κ) (c : κ) :
    run next s (calls ++ [c]) = next (run next s calls) c := by
  rw [run_append, run_cons, run_nil]

variable {next}

/-- An invariant of every call is an invariant of every run. -/
theorem run_invariant {P : σ → Prop} (h : ∀ s c, P s → P (next s c)) {s : σ} (hs : P s)
    (calls : List κ) : P (run next s calls) := by
  induction calls generalizing s with
  | nil => exact hs
  | cons c calls ih => exact ih (h s c hs)

/-- Induction on the last call of a run. -/
theorem run_induction {P : List κ → σ → Prop} {s : σ} (h₀ : P [] s)
    (h : ∀ calls c, P calls (run next s calls) → P (calls ++ [c]) (next (run next s calls) c))
    (calls : List κ) : P calls (run next s calls) := by
  induction calls using List.reverseRecOn with
  | nil => exact h₀
  | append_singleton calls c ih =>
    rw [run_concat]
    exact h calls c ih

/-- A preorder respected by every call relates the two ends of a run. -/
theorem run_relation {P : σ → Prop} {R : σ → σ → Prop} (hrefl : ∀ s, R s s)
    (htrans : ∀ s t u, R s t → R t u → R s u) (hP : ∀ s c, P s → P (next s c))
    (hR : ∀ s c, P s → R s (next s c)) {s : σ} (hs : P s) (calls : List κ) :
    R s (run next s calls) := by
  induction calls generalizing s with
  | nil => exact hrefl s
  | cons c calls ih => exact htrans _ _ _ (hR s c hs) (ih (hP s c hs))

/-! ## Conditions and events along a run -/

variable (next)

/-- Every call of a run meets the condition at the state it is made in. -/
def Meets (A : σ → κ → Prop) : σ → List κ → Prop
  | _, [] => True
  | s, c :: calls => A s c ∧ Meets A (next s c) calls

/-- The event happened at one of the calls of a run. -/
def Occurs (E : σ → κ → Prop) (s : σ) (calls : List κ) : Prop :=
  ∃ before c after, calls = before ++ c :: after ∧ E (run next s before) c

variable {next}

/-- An invariant of every call that meets a condition, along runs whose calls all meet it. -/
theorem run_invariant_of {P : σ → Prop} {A : σ → κ → Prop}
    (h : ∀ s c, P s → A s c → P (next s c)) {s : σ} (hs : P s) {calls : List κ}
    (hA : Meets next A s calls) : P (run next s calls) := by
  induction calls generalizing s with
  | nil => exact hs
  | cons c calls ih => exact ih (h s c hs hA.1) hA.2

/-- The last call is where an event can newly happen. -/
theorem occurs_concat {E : σ → κ → Prop} {s : σ} {calls : List κ} {c : κ} :
    Occurs next E s (calls ++ [c]) ↔ Occurs next E s calls ∨ E (run next s calls) c := by
  constructor
  · rintro ⟨before, c', after, h, hE⟩
    rcases List.eq_nil_or_concat after with rfl | ⟨after, c'', rfl⟩
    · obtain ⟨hcalls, hc⟩ := List.append_inj' h rfl
      obtain rfl : c = c' := by simpa using hc
      exact .inr (hcalls ▸ hE)
    · rw [List.concat_eq_append, ← List.cons_append, ← List.append_assoc] at h
      exact .inl ⟨before, c', after, (List.append_inj' h rfl).1, hE⟩
  · rintro (⟨before, c', after, rfl, hE⟩ | hE)
    · exact ⟨before, c', after ++ [c], by simp, hE⟩
    · exact ⟨calls, c, [], rfl, hE⟩

end Runs

end CreatidyKernel
