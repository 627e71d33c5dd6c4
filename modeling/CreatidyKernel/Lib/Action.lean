import Mathlib.Logic.Basic

set_option relaxedAutoImplicit false
set_option autoImplicit false

/-!
# Actions that keep what they wrote

An action reads and writes a state and ends in a value or in an exception. Unlike a transaction
it keeps what it wrote before an exception, so that a program of several transactions, which may
be cut off between any two of them, is one action.

## Main definitions

* `Action` — the actions, with their monad.
* `Action.raise`, `Action.of`, `Action.read`, `Action.write` — the basic ones.
* `Action.attempt` — an action whose exception is handled by what follows.
* `Action.Spec` — what an action does from the states that meet a condition.
* `Action.Ends` — the same, by which exception is raised.
* `Action.Moves` — how an action may change the state, however it ends.

## Main results

* `Action.Spec.bind`, `Action.Spec.each`, `Action.Spec.weaken` — the rules of `Action.Spec`.
* `Action.Ends.bind`, `Action.Ends.attempt`, `Action.Ends.weaken` — the rules of `Action.Ends`.
* `Action.Moves.bind`, `Action.Moves.seq`, `Action.Moves.weaken` — the rules of `Action.Moves`.
-/

namespace CreatidyKernel

/-- A program over a state that may raise, and keeps what it wrote when it does. -/
def Action (σ ε α : Type) : Type := σ → Except ε α × σ

namespace Action

variable {σ ε α β : Type}

instance : Monad (Action σ ε) where
  pure a := fun s => (.ok a, s)
  bind m f := fun s =>
    match m s with
    | (.ok a, s') => f a s'
    | (.error e, s') => (.error e, s')

/-- Raise an exception. -/
def raise (e : ε) : Action σ ε α := fun s => (.error e, s)

/-- A computation that leaves the state alone. -/
def of (x : Except ε α) : Action σ ε α := fun s => (x, s)

/-- Read the state. -/
def read : Action σ ε σ := fun s => (.ok s, s)

/-- Change the state. -/
def write (g : σ → σ) : Action σ ε Unit := fun s => (.ok (), g s)

/-- An action by each element of a list, in order, with the list of the results. -/
def each (f : α → Action σ ε β) : List α → Action σ ε (List β)
  | [] => pure []
  | a :: l => do
    let b ← f a
    let bs ← each f l
    return b :: bs

/-- Run an action and give its end as a value. -/
def attempt (m : Action σ ε α) : Action σ ε (Except ε α) := fun s => (.ok (m s).1, (m s).2)

@[simp] theorem pure_apply (a : α) (s : σ) : (pure a : Action σ ε α) s = (.ok a, s) := rfl

@[simp] theorem raise_apply (e : ε) (s : σ) : (raise e : Action σ ε α) s = (.error e, s) := rfl

@[simp] theorem of_apply (x : Except ε α) (s : σ) : of x s = (x, s) := rfl

@[simp] theorem read_apply (s : σ) : (read : Action σ ε σ) s = (.ok s, s) := rfl

@[simp] theorem write_apply (g : σ → σ) (s : σ) :
    (write g : Action σ ε Unit) s = (.ok (), g s) := rfl

@[simp] theorem attempt_apply (m : Action σ ε α) (s : σ) :
    attempt m s = (.ok (m s).1, (m s).2) := rfl

theorem of_eq_ok {x : Except ε α} {s s' : σ} {a : α} :
    of x s = (.ok a, s') ↔ x = .ok a ∧ s = s' := by rw [of_apply, Prod.mk.injEq]

/-- The rest of an action, once its first part has returned. -/
theorem bind_of_ok {m : Action σ ε α} {f : α → Action σ ε β} {s s' : σ} {a : α}
    (h : m s = (.ok a, s')) : (m >>= f) s = f a s' := by
  show (match m s with
    | (.ok a, s') => f a s'
    | (.error e, s') => (.error e, s')) = _
  rw [h]

/-- An action whose first part raises. -/
theorem bind_of_error {m : Action σ ε α} {f : α → Action σ ε β} {s s' : σ} {e : ε}
    (h : m s = (.error e, s')) : (m >>= f) s = (.error e, s') := by
  show (match m s with
    | (.ok a, s') => f a s'
    | (.error e, s') => (.error e, s')) = _
  rw [h]

/-- An action that returned is a first part that returned and a rest that did. -/
theorem bind_eq_ok {m : Action σ ε α} {f : α → Action σ ε β} {s s' : σ} {b : β} :
    (m >>= f) s = (.ok b, s') ↔ ∃ a t, m s = (.ok a, t) ∧ f a t = (.ok b, s') := by
  constructor
  · intro h
    cases hr : m s with
    | mk r t =>
      cases r with
      | ok a => exact ⟨a, t, rfl, (bind_of_ok hr).symm.trans h⟩
      | error e =>
        rw [bind_of_error hr] at h
        cases h
  · rintro ⟨a, t, hm, hf⟩
    rw [bind_of_ok hm, hf]

/-- Dropping the value of an action keeps what it wrote. -/
@[simp] theorem drop_snd (m : Action σ ε α) (s : σ) :
    ((do let _ ← m; return ()) s).2 = (m s).2 := by
  cases h : m s with
  | mk r s' =>
    cases r with
    | ok a => rw [bind_of_ok h, pure_apply]
    | error e => rw [bind_of_error h]

/-- From a state that meets `P` the action returns with `Q`, or raises with `E`. -/
def Spec (P : σ → Prop) (m : Action σ ε α) (Q : α → σ → Prop) (E : σ → Prop) : Prop :=
  ∀ s, P s → (∀ a s', m s = (.ok a, s') → Q a s') ∧ ∀ e s', m s = (.error e, s') → E s'

namespace Spec

variable {P P' : σ → Prop} {Q Q' : α → σ → Prop} {E E' : σ → Prop}

theorem pure {a : α} (h : ∀ s, P s → Q a s) : Spec P (Pure.pure a : Action σ ε α) Q E := by
  intro s hs
  exact ⟨by rintro _ _ ⟨⟩; exact h s hs, by rintro _ _ ⟨⟩⟩

theorem raise {e : ε} (h : ∀ s, P s → E s) : Spec P (raise e : Action σ ε α) Q E := by
  intro s hs
  exact ⟨by rintro _ _ ⟨⟩, by rintro _ _ ⟨⟩; exact h s hs⟩

theorem of {x : Except ε α} (hok : ∀ a s, x = .ok a → P s → Q a s) (herror : ∀ s, P s → E s) :
    Spec P (of x) Q E := by
  intro s hs
  cases x with
  | ok a => exact ⟨by rintro _ _ ⟨⟩; exact hok a s rfl hs, by rintro _ _ ⟨⟩⟩
  | error e => exact ⟨by rintro _ _ ⟨⟩, by rintro _ _ ⟨⟩; exact herror s hs⟩

theorem read {Q : σ → σ → Prop} (h : ∀ s, P s → Q s s) :
    Spec P (Action.read : Action σ ε σ) Q E := by
  intro s hs
  exact ⟨by rintro _ _ ⟨⟩; exact h s hs, by rintro _ _ ⟨⟩⟩

theorem write {Q : Unit → σ → Prop} {g : σ → σ} (h : ∀ s, P s → Q () (g s)) :
    Spec P (Action.write g : Action σ ε Unit) Q E := by
  intro s hs
  exact ⟨by rintro _ _ ⟨⟩; exact h s hs, by rintro _ _ ⟨⟩⟩

/-- The rule of sequence. -/
theorem bind {m : Action σ ε α} {f : α → Action σ ε β} {R : α → σ → Prop} {Q : β → σ → Prop}
    (hm : Spec P m R E) (hf : ∀ a, Spec (R a) (f a) Q E) : Spec P (m >>= f) Q E := by
  intro s hs
  obtain ⟨hok, herror⟩ := hm s hs
  cases hr : m s with
  | mk r s' =>
    cases r with
    | ok a =>
      rw [bind_of_ok hr]
      exact hf a s' (hok a s' hr)
    | error e =>
      rw [bind_of_error hr]
      refine ⟨by rintro _ _ ⟨⟩, ?_⟩
      rintro _ _ ⟨⟩
      exact herror e s' hr

/-- The rule of a handled exception. -/
theorem attempt {m : Action σ ε α} {R : Except ε α → σ → Prop}
    (h : Spec P m (fun a => R (.ok a)) fun s => ∀ e, R (.error e) s) :
    Spec P (attempt m) R E := by
  intro s hs
  obtain ⟨hok, herror⟩ := h s hs
  refine ⟨?_, by rintro _ _ ⟨⟩⟩
  rintro _ _ ⟨⟩
  cases hr : m s with
  | mk r s' =>
    cases r with
    | ok a => exact hok a s' hr
    | error e => exact herror e s' hr e

/-- The rule of consequence. -/
theorem weaken {m : Action σ ε α} (h : Spec P m Q E) (hP : ∀ s, P' s → P s)
    (hQ : ∀ a s, Q a s → Q' a s) (hE : ∀ s, E s → E' s) : Spec P' m Q' E' := by
  intro s hs
  obtain ⟨hok, herror⟩ := h s (hP s hs)
  exact ⟨fun a s' hr => hQ a s' (hok a s' hr), fun e s' hr => hE s' (herror e s' hr)⟩

/-- A stronger precondition. -/
theorem pre {m : Action σ ε α} (h : Spec P m Q E) (hP : ∀ s, P' s → P s) : Spec P' m Q E :=
  h.weaken hP (fun _ _ h => h) fun _ h => h

/-- A weaker postcondition. -/
theorem post {m : Action σ ε α} (h : Spec P m Q E) (hQ : ∀ a s, Q a s → Q' a s) :
    Spec P m Q' E := h.weaken (fun _ h => h) hQ fun _ h => h

/-- Two specifications hold together. -/
theorem and {m : Action σ ε α} (h : Spec P m Q E) (h' : Spec P' m Q' E') :
    Spec (fun s => P s ∧ P' s) m (fun a s => Q a s ∧ Q' a s) (fun s => E s ∧ E' s) := by
  intro s hs
  obtain ⟨hok, herror⟩ := h s hs.1
  obtain ⟨hok', herror'⟩ := h' s hs.2
  exact ⟨fun a s' hr => ⟨hok a s' hr, hok' a s' hr⟩,
    fun e s' hr => ⟨herror e s' hr, herror' e s' hr⟩⟩

/-- A specification may suppose of its start what holds there. -/
theorem suppose {m : Action σ ε α} {p : Prop} (hp : ∀ s, P s → p) (h : p → Spec P m Q E) :
    Spec P m Q E := fun s hs => h (hp s hs) s hs

/-- Element by element: every result comes from an element. -/
theorem each {f : α → Action σ ε β} {R : α → β → Prop} {l : List α} (hE : ∀ s, P s → E s)
    (h : ∀ a ∈ l, Spec P (f a) (fun b s => P s ∧ R a b) E) :
    Spec P (each f l) (fun bs s => P s ∧ ∀ b ∈ bs, ∃ a ∈ l, R a b) E := by
  induction l with
  | nil => exact pure fun s hs => ⟨hs, by simp⟩
  | cons a l ih =>
    refine (h a List.mem_cons_self).bind fun b => suppose (fun _ h => h.2) fun hb => ?_
    have hrest := ih fun x hx => h x (List.mem_cons_of_mem _ hx)
    refine (hrest.pre fun _ h => h.1).bind fun bs => pure fun s hs => ⟨hs.1, fun b' hb' => ?_⟩
    rcases List.mem_cons.1 hb' with rfl | hb'
    · exact ⟨a, List.mem_cons_self, hb⟩
    · obtain ⟨a', ha', hR⟩ := hs.2 b' hb'
      exact ⟨a', List.mem_cons_of_mem _ ha', hR⟩

/-- What holds at the end of an action that a specification is known of. -/
theorem final {m : Action σ ε α} {E : σ → Prop} (h : Spec P m (fun _ => E) E) {s : σ} (hs : P s) :
    E (m s).2 := by
  obtain ⟨hok, herror⟩ := h s hs
  cases hr : m s with
  | mk r s' =>
    cases r with
    | ok a => exact hok a s' hr
    | error e => exact herror e s' hr

end Spec

/-- From a state that meets `P` the action returns with `Q`, or raises an exception with `E`. -/
def Ends (P : σ → Prop) (m : Action σ ε α) (Q : α → σ → Prop) (E : ε → σ → Prop) : Prop :=
  ∀ s, P s → (∀ a s', m s = (.ok a, s') → Q a s') ∧ ∀ e s', m s = (.error e, s') → E e s'

namespace Ends

variable {P P' : σ → Prop} {Q Q' : α → σ → Prop} {E E' : ε → σ → Prop}

theorem pure {a : α} (h : ∀ s, P s → Q a s) : Ends P (Pure.pure a : Action σ ε α) Q E := by
  intro s hs
  exact ⟨by rintro _ _ ⟨⟩; exact h s hs, by rintro _ _ ⟨⟩⟩

theorem raise {e : ε} (h : ∀ s, P s → E e s) : Ends P (raise e : Action σ ε α) Q E := by
  intro s hs
  exact ⟨by rintro _ _ ⟨⟩, by rintro _ _ ⟨⟩; exact h s hs⟩

theorem of {x : Except ε α} (hok : ∀ a, x = .ok a → ∀ s, P s → Q a s)
    (herror : ∀ e, x = .error e → ∀ s, P s → E e s) : Ends P (of x) Q E := by
  intro s hs
  cases x with
  | ok a => exact ⟨by rintro _ _ ⟨⟩; exact hok a rfl s hs, by rintro _ _ ⟨⟩⟩
  | error e => exact ⟨by rintro _ _ ⟨⟩, by rintro _ _ ⟨⟩; exact herror e rfl s hs⟩

/-- The value that is read is the state. -/
theorem read : Ends P (Action.read : Action σ ε σ) (fun a s => a = s ∧ P s) E := by
  intro s hs
  exact ⟨by rintro _ _ ⟨⟩; exact ⟨rfl, hs⟩, by rintro _ _ ⟨⟩⟩

theorem write {Q : Unit → σ → Prop} {g : σ → σ} (h : ∀ s, P s → Q () (g s)) :
    Ends P (Action.write g : Action σ ε Unit) Q E := by
  intro s hs
  exact ⟨by rintro _ _ ⟨⟩; exact h s hs, by rintro _ _ ⟨⟩⟩

/-- The rule of sequence. -/
theorem bind {m : Action σ ε α} {f : α → Action σ ε β} {R : α → σ → Prop} {Q : β → σ → Prop}
    (hm : Ends P m R E) (hf : ∀ a, Ends (R a) (f a) Q E) : Ends P (m >>= f) Q E := by
  intro s hs
  obtain ⟨hok, herror⟩ := hm s hs
  cases hr : m s with
  | mk r s' =>
    cases r with
    | ok a =>
      rw [bind_of_ok hr]
      exact hf a s' (hok a s' hr)
    | error e =>
      rw [bind_of_error hr]
      refine ⟨by rintro _ _ ⟨⟩, ?_⟩
      rintro _ _ ⟨⟩
      exact herror e s' hr

/-- The rule of a handled exception. -/
theorem attempt {m : Action σ ε α} {R : Except ε α → σ → Prop}
    (h : Ends P m (fun a => R (.ok a)) fun e => R (.error e)) : Ends P (attempt m) R E := by
  intro s hs
  obtain ⟨hok, herror⟩ := h s hs
  refine ⟨?_, by rintro _ _ ⟨⟩⟩
  rintro _ _ ⟨⟩
  cases hr : m s with
  | mk r s' =>
    cases r with
    | ok a => exact hok a s' hr
    | error e => exact herror e s' hr

/-- The rule of consequence. -/
theorem weaken {m : Action σ ε α} (h : Ends P m Q E) (hP : ∀ s, P' s → P s)
    (hQ : ∀ a s, Q a s → Q' a s) (hE : ∀ e s, E e s → E' e s) : Ends P' m Q' E' := by
  intro s hs
  obtain ⟨hok, herror⟩ := h s (hP s hs)
  exact ⟨fun a s' hr => hQ a s' (hok a s' hr), fun e s' hr => hE e s' (herror e s' hr)⟩

/-- A stronger precondition. -/
theorem pre {m : Action σ ε α} (h : Ends P m Q E) (hP : ∀ s, P' s → P s) : Ends P' m Q E :=
  h.weaken hP (fun _ _ h => h) fun _ _ h => h

/-- A specification may suppose of its start what holds there. -/
theorem suppose {m : Action σ ε α} {p : Prop} (hp : ∀ s, P s → p) (h : p → Ends P m Q E) :
    Ends P m Q E := fun s hs => h (hp s hs) s hs

end Ends

/-- However the action ends, it leaves a state that `R` relates to the one it began in. -/
def Moves (R : σ → σ → Prop) (m : Action σ ε α) : Prop := ∀ s, R s (m s).2

namespace Moves

variable {R R' : σ → σ → Prop}

theorem pure (hR : ∀ s, R s s) (a : α) : Moves R (Pure.pure a : Action σ ε α) := hR

theorem raise (hR : ∀ s, R s s) (e : ε) : Moves R (raise e : Action σ ε α) := hR

theorem of (hR : ∀ s, R s s) (x : Except ε α) : Moves R (of x) := hR

theorem read (hR : ∀ s, R s s) : Moves R (Action.read : Action σ ε σ) := hR

theorem attempt {m : Action σ ε α} (h : Moves R m) : Moves R (attempt m) := h

theorem bind {m : Action σ ε α} {f : α → Action σ ε β}
    (htrans : ∀ s t u, R s t → R t u → R s u) (hm : Moves R m) (hf : ∀ a, Moves R (f a)) :
    Moves R (m >>= f) := by
  intro s
  have hfirst := hm s
  cases hr : m s with
  | mk r t =>
    rw [hr] at hfirst
    cases r with
    | ok a =>
      rw [bind_of_ok hr]
      exact htrans s t _ hfirst (hf a t)
    | error e =>
      rw [bind_of_error hr]
      exact hfirst

/-- The rule of sequence for parts that move differently. -/
theorem seq {S T : σ → σ → Prop} {m : Action σ ε α} {f : α → Action σ ε β} (hm : Moves R m)
    (hf : ∀ a, Moves S (f a)) (hdone : ∀ s t u, R s t → S t u → T s u)
    (hraised : ∀ s t, R s t → T s t) : Moves T (m >>= f) := by
  intro s
  have hfirst := hm s
  cases hr : m s with
  | mk r t =>
    rw [hr] at hfirst
    cases r with
    | ok a =>
      rw [bind_of_ok hr]
      exact hdone s t _ hfirst (hf a t)
    | error e =>
      rw [bind_of_error hr]
      exact hraised s t hfirst

/-- What an action that ended did. -/
theorem of_eq {m : Action σ ε α} {s t : σ} {r : Except ε α} (hm : Moves R m) (h : m s = (r, t)) :
    R s t := by
  have hs := hm s
  rw [h] at hs
  exact hs

theorem weaken {m : Action σ ε α} (h : Moves R m) (hR : ∀ s t, R s t → R' s t) : Moves R' m :=
  fun s => hR s _ (h s)

end Moves

end Action

end CreatidyKernel
