import Mathlib.Tactic

set_option relaxedAutoImplicit false
set_option autoImplicit false

/-!
# Computations that may raise

A function that returns a value or raises an exception is a value of `Except ε α`. The lemmas
below turn "this block returned" into the facts its statements established, and turn facts
about the parts of a loop into the outcome of the loop.

## Main definitions

* `Checked.check` — `if not p: raise e`.
* `Checked.given`, `Checked.forSome` — a check made under a condition, or on a value if there is
  one.
* `Checked.anyM` — `any(f(x) for x in xs)` where evaluating an item may raise.
* `Checked.lookup` — `table[k]`, raising on a missing key.
* `Checked.Agree` — two computations that end alike.

## Main results

* `Checked.bind_eq_ok` — a sequence of two computations returns exactly when both do.
* `Checked.forM_eq_ok`, `Checked.mapM_eq_ok`, `Checked.filterM_eq_ok`, `Checked.anyM_eq_ok` —
  the same for loops, comprehensions and filters.
* `Checked.Agree.bind` — sequences agree when their parts do.
-/

namespace CreatidyKernel

namespace Checked

variable {ε α β κ : Type}

@[simp] theorem pure_eq_ok {a b : α} : (pure a : Except ε α) = .ok b ↔ a = b := by
  simp [pure, Except.pure]

@[simp] theorem ok_bind (a : α) (f : α → Except ε β) : (Except.ok a >>= f) = f a := rfl

@[simp] theorem error_bind (e : ε) (f : α → Except ε β) : (Except.error e >>= f) = .error e := rfl

/-- A sequence of two computations returns exactly when both do. -/
theorem bind_eq_ok {x : Except ε α} {f : α → Except ε β} {b : β} :
    (x >>= f) = .ok b ↔ ∃ a, x = .ok a ∧ f a = .ok b := by
  cases x <;> simp

/-- A sequence of two computations raises when one of them does. -/
theorem bind_eq_error {x : Except ε α} {f : α → Except ε β} {e : ε} :
    (x >>= f) = .error e ↔ x = .error e ∨ ∃ a, x = .ok a ∧ f a = .error e := by
  cases x <;> simp

/-- A step that returned, followed by the rest. -/
theorem bind_of_ok {x : Except ε α} {f : α → Except ε β} {a : α} {b : β} (hx : x = .ok a)
    (hf : f a = .ok b) : (x >>= f) = .ok b := bind_eq_ok.2 ⟨a, hx, hf⟩

/-- Post-processing a result does not raise. -/
theorem map_eq_ok {x : Except ε α} {f : α → β} {b : β} :
    f <$> x = .ok b ↔ ∃ a, x = .ok a ∧ f a = b := by
  cases x <;> simp [Functor.map, Except.map]

/-- A computation whose failure is renamed. -/
theorem mapError_eq_ok {ε ε' α : Type} {x : Except ε α} {f : ε → ε'} {a : α} :
    x.mapError f = .ok a ↔ x = .ok a := by
  cases x <;> simp [Except.mapError]

/-- `if not p: raise e`. -/
def check (p : Prop) [Decidable p] (e : ε) : Except ε Unit := if p then .ok () else .error e

@[simp] theorem check_eq_ok {p : Prop} [Decidable p] {e : ε} {u : Unit} :
    check p e = .ok u ↔ p := by
  unfold check
  split <;> simp_all

/-- A check that holds returns. -/
theorem check_of {p : Prop} [Decidable p] {e : ε} (h : p) : check p e = .ok () := if_pos h

/-- A failed check raises its exception. -/
theorem check_of_not {p : Prop} [Decidable p] {e : ε} (h : ¬p) : check p e = .error e :=
  if_neg h

/-- A check followed by the rest of a block. -/
theorem check_bind_eq_ok {p : Prop} [Decidable p] {e : ε} {f : Unit → Except ε β} {b : β} :
    (check p e >>= f) = .ok b ↔ p ∧ f () = .ok b := by
  unfold check
  split <;> simp_all

/-- `if p: x` for a step that only checks. -/
def given (p : Prop) [Decidable p] (x : Except ε Unit) : Except ε Unit := if p then x else .ok ()

/-- A conditional check returns exactly when it does under its condition. -/
@[simp] theorem given_eq_ok {p : Prop} [Decidable p] {x : Except ε Unit} {u : Unit} :
    given p x = .ok u ↔ (p → x = .ok ()) := by
  unfold given
  split <;> simp_all

/-- `if a is not None: f(a)` for a step that only checks. -/
def forSome (o : Option α) (f : α → Except ε Unit) : Except ε Unit :=
  match o with
  | none => .ok ()
  | some a => f a

@[simp] theorem forSome_eq_ok {o : Option α} {f : α → Except ε Unit} {u : Unit} :
    forSome o f = .ok u ↔ ∀ a ∈ o, f a = .ok () := by
  cases o <;> simp [forSome]

/-- `table[k]`, which raises on a missing key. -/
def lookup (e : ε) (table : κ → Option β) (k : κ) : Except ε β :=
  match table k with
  | some b => .ok b
  | none => .error e

@[simp] theorem lookup_eq_ok {e : ε} {table : κ → Option β} {k : κ} {b : β} :
    lookup e table k = .ok b ↔ table k = some b := by
  unfold lookup
  split <;> simp_all

/-! ## Loops -/

/-- A loop returns exactly when its body returns on every item. -/
theorem forM_eq_ok {f : α → Except ε Unit} {l : List α} {u : Unit} :
    l.forM f = .ok u ↔ ∀ a ∈ l, f a = .ok () := by
  induction l with
  | nil => simp
  | cons a l ih =>
    change (f a >>= fun _ => l.forM f) = .ok u ↔ _
    rw [bind_eq_ok, List.forall_mem_cons, ← ih]
    exact ⟨fun ⟨_, h, hl⟩ => ⟨h, hl⟩, fun ⟨h, hl⟩ => ⟨(), h, hl⟩⟩

/-- A comprehension returns the list of the results of its body. -/
theorem mapM_eq_ok {f : α → Except ε β} {l : List α} {r : List β} :
    l.mapM f = .ok r ↔ List.Forall₂ (fun a b => f a = .ok b) l r := by
  induction l generalizing r with
  | nil => cases r <;> simp
  | cons a l ih =>
    have hcons : (a :: l).mapM f = .ok r ↔
        ∃ b, f a = .ok b ∧ ∃ r', l.mapM f = .ok r' ∧ b :: r' = r := by
      rw [List.mapM_cons, bind_eq_ok]
      simp only [bind_eq_ok, pure_eq_ok]
    rw [hcons]
    constructor
    · rintro ⟨b, hb, r', hr, rfl⟩
      exact .cons hb (ih.1 hr)
    · rintro (_ | ⟨hb, hr⟩)
      exact ⟨_, hb, _, ih.2 hr, rfl⟩

/-- A comprehension inverts a map that its body inverts. -/
theorem mapM_map {f : α → Except ε β} {g : β → α} {l : List β} (h : ∀ b ∈ l, f (g b) = .ok b) :
    (l.map g).mapM f = .ok l := by
  rw [mapM_eq_ok, List.forall₂_map_left_iff]
  exact List.forall₂_same.2 h

/-- Every item has its result in the list. -/
theorem exists_of_mem_mapM {f : α → Except ε β} {l : List α} {r : List β} (h : l.mapM f = .ok r)
    {a : α} (ha : a ∈ l) : ∃ b ∈ r, f a = .ok b := by
  have hall := mapM_eq_ok.1 h
  clear h
  induction hall with
  | nil => cases ha
  | cons hb _ ih =>
    rcases List.mem_cons.1 ha with rfl | ha
    · exact ⟨_, List.mem_cons_self, hb⟩
    · obtain ⟨b, hmem, hb⟩ := ih ha
      exact ⟨b, List.mem_cons_of_mem _ hmem, hb⟩

/-- Every listed result is the result of an item. -/
theorem exists_of_mem_result {f : α → Except ε β} {l : List α} {r : List β}
    (h : l.mapM f = .ok r) {b : β} (hb : b ∈ r) : ∃ a ∈ l, f a = .ok b := by
  have hall := mapM_eq_ok.1 h
  clear h
  induction hall with
  | nil => cases hb
  | cons ha _ ih =>
    rcases List.mem_cons.1 hb with rfl | hb
    · exact ⟨_, List.mem_cons_self, ha⟩
    · obtain ⟨a, hmem, ha⟩ := ih hb
      exact ⟨a, List.mem_cons_of_mem _ hmem, ha⟩

/-- When a result shows what the item it was computed from shows, so does the list. -/
theorem map_mapM {γ : Type} {f : α → Except ε β} {g : β → γ} {k : α → γ} {l : List α} {r : List β}
    (h : l.mapM f = .ok r) (hg : ∀ a ∈ l, ∀ b, f a = .ok b → g b = k a) :
    r.map g = l.map k := by
  have hall := mapM_eq_ok.1 h
  clear h
  induction hall with
  | nil => rfl
  | cons hb _ ih =>
    rw [List.map_cons, List.map_cons, hg _ List.mem_cons_self _ hb,
      ih fun a ha => hg a (List.mem_cons_of_mem _ ha)]

/-- When a result shows the item it was computed from, the results show the list. -/
theorem map_result {f : α → Except ε β} {g : β → α} {l : List α} {r : List β}
    (h : l.mapM f = .ok r) (hg : ∀ a ∈ l, ∀ b, f a = .ok b → g b = a) : r.map g = l := by
  rw [map_mapM (k := id) h hg, List.map_id]

/-- A comprehension returns when its body returns on every item. -/
theorem exists_mapM_eq_ok {f : α → Except ε β} {l : List α} (h : ∀ a ∈ l, ∃ b, f a = .ok b) :
    ∃ r, l.mapM f = .ok r := by
  induction l with
  | nil => exact ⟨[], rfl⟩
  | cons a l ih =>
    obtain ⟨b, hb⟩ := h a List.mem_cons_self
    obtain ⟨r, hr⟩ := ih fun a ha => h a (List.mem_cons_of_mem _ ha)
    exact ⟨b :: r, mapM_eq_ok.2 (.cons hb (mapM_eq_ok.1 hr))⟩

/-- Comprehensions whose bodies agree are equal. -/
theorem mapM_congr {f g : α → Except ε β} {l : List α} (h : ∀ a ∈ l, f a = g a) :
    l.mapM f = l.mapM g := by
  induction l with
  | nil => rfl
  | cons a l ih =>
    rw [List.mapM_cons, List.mapM_cons, h a List.mem_cons_self,
      ih fun a ha => h a (List.mem_cons_of_mem _ ha)]

/-- `[x for x in xs if f(x)]`, where evaluating a condition may raise. -/
def filterM (f : α → Except ε Bool) : List α → Except ε (List α)
  | [] => .ok []
  | a :: l => do
    let b ← f a
    let r ← filterM f l
    return if b then a :: r else r

/-- A filter returns the items whose condition is true, and every condition was evaluated. -/
theorem filterM_eq_ok {f : α → Except ε Bool} {l r : List α} (h : filterM f l = .ok r) :
    (∀ a ∈ l, ∃ b, f a = .ok b) ∧ ∀ a, a ∈ r ↔ a ∈ l ∧ f a = .ok true := by
  induction l generalizing r with
  | nil => obtain rfl := Except.ok.inj h; simp
  | cons a l ih =>
    rw [filterM, bind_eq_ok] at h
    obtain ⟨b, hb, h⟩ := h
    obtain ⟨r', hr', h⟩ := bind_eq_ok.1 h
    obtain ⟨hall, hmem⟩ := ih hr'
    obtain rfl := pure_eq_ok.1 h
    refine ⟨?_, fun x => ?_⟩
    · rintro x (_ | ⟨_, hx⟩)
      exacts [⟨b, hb⟩, hall x hx]
    · cases b with
      | true =>
        simp only [if_true, List.mem_cons, hmem]
        constructor
        · rintro (rfl | h)
          exacts [⟨.inl rfl, hb⟩, ⟨.inr h.1, h.2⟩]
        · rintro ⟨rfl | h, hx⟩
          exacts [.inl rfl, .inr ⟨h, hx⟩]
      | false =>
        simp only [Bool.false_eq_true, if_false, List.mem_cons, hmem]
        constructor
        · exact fun h => ⟨.inr h.1, h.2⟩
        · rintro ⟨rfl | h, hx⟩
          · rw [hb] at hx; cases hx
          · exact ⟨h, hx⟩

/-- A filter returns when every condition can be evaluated. -/
theorem exists_filterM_eq_ok {f : α → Except ε Bool} {l : List α}
    (h : ∀ a ∈ l, ∃ b, f a = .ok b) : ∃ r, filterM f l = .ok r := by
  induction l with
  | nil => exact ⟨[], rfl⟩
  | cons a l ih =>
    obtain ⟨b, hb⟩ := h a List.mem_cons_self
    obtain ⟨r, hr⟩ := ih fun a ha => h a (List.mem_cons_of_mem _ ha)
    exact ⟨_, by rw [filterM, hb, ok_bind, hr, ok_bind]; rfl⟩

/-- Two lists are filtered one after the other. -/
theorem filterM_append (f : α → Except ε Bool) (l l' : List α) :
    filterM f (l ++ l') = do
      let r ← filterM f l
      let r' ← filterM f l'
      return r ++ r' := by
  induction l with
  | nil =>
    show filterM f l' = do let r' ← filterM f l'; return [] ++ r'
    cases filterM f l' <;> rfl
  | cons a l ih =>
    rw [List.cons_append, filterM, filterM, ih]
    cases f a with
    | error e => rfl
    | ok b =>
      cases filterM f l with
      | error e => rfl
      | ok r => cases filterM f l' <;> cases b <;> rfl

/-- Filters whose conditions agree are equal. -/
theorem filterM_congr {f g : α → Except ε Bool} {l : List α} (h : ∀ a ∈ l, f a = g a) :
    filterM f l = filterM g l := by
  induction l with
  | nil => rfl
  | cons a l ih =>
    rw [filterM, filterM, h a List.mem_cons_self,
      ih fun a ha => h a (List.mem_cons_of_mem _ ha)]

/-- `any(f(x) for x in xs)`: evaluation stops at the first true item. -/
def anyM (f : α → Except ε Bool) : List α → Except ε Bool
  | [] => .ok false
  | a :: l => do if ← f a then return true else anyM f l

/-- When every item can be evaluated, `anyM` tells whether one of them is true. -/
theorem anyM_eq_ok {f : α → Except ε Bool} {l : List α} (h : ∀ a ∈ l, ∃ b, f a = .ok b) :
    ∃ b, anyM f l = .ok b ∧ (b = true ↔ ∃ a ∈ l, f a = .ok true) := by
  induction l with
  | nil => exact ⟨false, rfl, by simp⟩
  | cons a l ih =>
    obtain ⟨b, hb⟩ := h a List.mem_cons_self
    cases b with
    | true => exact ⟨true, by rw [anyM, hb]; rfl, by simp [hb]⟩
    | false =>
      obtain ⟨c, hc, hiff⟩ := ih fun a ha => h a (List.mem_cons_of_mem _ ha)
      exact ⟨c, by rw [anyM, hb, ← hc]; rfl, by simp [hb, hiff]⟩

/-- A false answer means that every item was evaluated and was false. -/
theorem anyM_eq_false {f : α → Except ε Bool} {l : List α} (h : anyM f l = .ok false) :
    ∀ a ∈ l, f a = .ok false := by
  induction l with
  | nil => simp
  | cons a l ih =>
    rw [anyM, bind_eq_ok] at h
    obtain ⟨b, hb, h⟩ := h
    cases b with
    | true => simp at h
    | false =>
      rintro x (_ | ⟨_, hx⟩)
      exacts [hb, ih h x hx]

/-- A true answer comes from a true item. -/
theorem anyM_eq_true {f : α → Except ε Bool} {l : List α} (h : anyM f l = .ok true) :
    ∃ a ∈ l, f a = .ok true := by
  induction l with
  | nil => cases h
  | cons a l ih =>
    rw [anyM, bind_eq_ok] at h
    obtain ⟨b, hb, h⟩ := h
    cases b with
    | true => exact ⟨a, List.mem_cons_self, hb⟩
    | false =>
      obtain ⟨x, hx, hfx⟩ := ih h
      exact ⟨x, List.mem_cons_of_mem _ hx, hfx⟩

/-- Tests that agree on every item give one answer. -/
theorem anyM_congr {f g : α → Except ε Bool} {l : List α} (h : ∀ a ∈ l, f a = g a) :
    anyM f l = anyM g l := by
  induction l with
  | nil => rfl
  | cons a l ih =>
    rw [anyM, anyM, h a List.mem_cons_self, ih fun a ha => h a (List.mem_cons_of_mem _ ha)]

/-! ## Computations that end alike -/

/-- Two computations both return, with related results, or both raise, with related
exceptions. -/
inductive Agree (R : ε → ε → Prop) (S : α → β → Prop) : Except ε α → Except ε β → Prop
  | ok {a : α} {b : β} (h : S a b) : Agree R S (.ok a) (.ok b)
  | error {e e' : ε} (h : R e e') : Agree R S (.error e) (.error e')

namespace Agree

variable {R : ε → ε → Prop} {S : α → β → Prop}

theorem refl {R : ε → ε → Prop} (h : ∀ e, R e e) (x : Except ε α) : Agree R (· = ·) x x := by
  cases x with
  | ok a => exact .ok rfl
  | error e => exact .error (h e)

/-- Sequences agree when their parts do. -/
theorem bind {γ δ : Type} {T : γ → δ → Prop} {x : Except ε α} {y : Except ε β}
    {f : α → Except ε γ} {g : β → Except ε δ} (h : Agree R S x y)
    (hf : ∀ a b, S a b → Agree R T (f a) (g b)) : Agree R T (x >>= f) (y >>= g) := by
  cases h with
  | ok h => exact hf _ _ h
  | error h => exact .error h

/-- Sequences with a common first step agree when the rest does. -/
theorem bind_left {γ δ : Type} {T : γ → δ → Prop} (hR : ∀ e, R e e) {x : Except ε α}
    {f : α → Except ε γ} {g : α → Except ε δ} (hf : ∀ a, Agree R T (f a) (g a)) :
    Agree R T (x >>= f) (x >>= g) :=
  bind (refl hR x) fun a _ h => h ▸ hf a

/-- Post-processed results agree. -/
theorem map {γ δ : Type} {T : γ → δ → Prop} {x : Except ε α} {y : Except ε β} {f : α → γ}
    {g : β → δ} (h : Agree R S x y) (hf : ∀ a b, S a b → T (f a) (g b)) :
    Agree R T (f <$> x) (g <$> y) := by
  cases h with
  | ok h => exact .ok (hf _ _ h)
  | error h => exact .error h

/-- Checks of equivalent conditions agree. -/
theorem check {p q : Prop} [Decidable p] [Decidable q] {e e' : ε} (h : p ↔ q) (he : R e e') :
    Agree R (· = ·) (check p e) (check q e') := by
  by_cases hp : p
  · rw [check_of hp, check_of (h.1 hp)]
    exact .ok rfl
  · rw [check_of_not hp, check_of_not (mt h.2 hp)]
    exact .error he

/-- Blocks that return in the same cases agree when their exceptions are related. -/
theorem of_iff {x : Except ε α} {y : Except ε β} (hiff : (∃ a, x = .ok a) ↔ ∃ b, y = .ok b)
    (hok : ∀ a b, x = .ok a → y = .ok b → S a b)
    (herror : ∀ e e', x = .error e → y = .error e' → R e e') : Agree R S x y := by
  cases x with
  | ok a =>
    obtain ⟨b, rfl⟩ := hiff.1 ⟨a, rfl⟩
    exact .ok (hok a b rfl rfl)
  | error e =>
    cases y with
    | ok b =>
      obtain ⟨a, ha⟩ := hiff.2 ⟨b, rfl⟩
      cases ha
    | error e' => exact .error (herror e e' rfl rfl)

end Agree

/-- A loop that raises does so on one of its items. -/
theorem exists_of_forM_error {f : α → Except ε Unit} {l : List α} {e : ε}
    (h : l.forM f = .error e) : ∃ a ∈ l, f a = .error e := by
  induction l with
  | nil => cases h
  | cons a l ih =>
    change (f a >>= fun _ => l.forM f) = .error e at h
    rcases bind_eq_error.1 h with ha | ⟨_, -, h⟩
    · exact ⟨a, List.mem_cons_self, ha⟩
    · obtain ⟨b, hb, he⟩ := ih h
      exact ⟨b, List.mem_cons_of_mem _ hb, he⟩

/-- A loop over a list with one more item at its end. -/
theorem foldlM_concat {f : β → α → Except ε β} {b : β} {l : List α} {a : α} :
    (l ++ [a]).foldlM f b = l.foldlM f b >>= fun c => f c a := by
  rw [List.foldlM_append]
  congr
  funext c
  rw [List.foldlM_cons]
  show (f c a >>= fun d => Except.ok d) = f c a
  cases f c a <;> rfl

/-- A loop with a state that raises does so in a round on one of its items. -/
theorem exists_of_foldlM_error {f : β → α → Except ε β} {b : β} {l : List α} {e : ε}
    (h : l.foldlM f b = .error e) : ∃ c, ∃ a ∈ l, f c a = .error e := by
  induction l generalizing b with
  | nil => cases h
  | cons a l ih =>
    rw [List.foldlM_cons] at h
    rcases bind_eq_error.1 h with ha | ⟨c, -, h⟩
    · exact ⟨b, a, List.mem_cons_self, ha⟩
    · obtain ⟨d, x, hx, he⟩ := ih h
      exact ⟨d, x, List.mem_cons_of_mem _ hx, he⟩

/-- Loops whose bodies agree are equal. -/
theorem forM_congr {f g : α → Except ε Unit} {l : List α} (h : ∀ a ∈ l, f a = g a) :
    l.forM f = l.forM g := by
  induction l with
  | nil => rfl
  | cons a l ih =>
    show (f a >>= fun _ => l.forM f) = g a >>= fun _ => l.forM g
    rw [h a List.mem_cons_self, ih fun a ha => h a (List.mem_cons_of_mem _ ha)]

/-- A failed check raised its exception. -/
@[simp] theorem check_eq_error {p : Prop} [Decidable p] {e e' : ε} :
    Checked.check p e = .error e' ↔ ¬p ∧ e = e' := by
  unfold Checked.check
  split <;> simp_all

end Checked

end CreatidyKernel
