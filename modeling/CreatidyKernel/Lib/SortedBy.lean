import Mathlib.Data.List.Sort
import Mathlib.Data.List.Dedup
import Mathlib.Order.Basic

set_option relaxedAutoImplicit false
set_option autoImplicit false

/-!
# Lists sorted by a key, and dictionaries built from lists

A tuple that a constructor stores as `tuple(sorted(xs, key=k))` after checking that the keys
are distinct is a list whose keys strictly increase. Two such lists with the same elements
are equal, so the type is at the same time the canonical form of a finite set.

## Main definitions

* `SortedBy key` — lists with strictly increasing keys; `SortedSet α` — the case of the
  identity key, a finite set in its canonical order.
* `SortedBy.ofList?` — sort a list if its keys are distinct; `SortedSet.ofList` — sort it
  after dropping repetitions.
* `index key xs k` — the value of the dictionary comprehension `{key(x): x for x in xs}` at
  `k`, where later entries win.

## Main results

* `SortedBy.ext_mem` — a sorted list is determined by its elements.
* `SortedBy.ofList?_toList`, `SortedSet.ofList_toList` — sorting a sorted list changes nothing.
* `SortedBy.ofList?_perm` — sorting forgets the order it was given.
* `SortedBy.sortBy_eq_iff` — two lists have the same sort exactly when they are reorderings
  that keep the order of the elements of one key.
* `index_eq_some_iff` — with distinct keys the dictionary finds exactly the element.
-/

namespace CreatidyKernel

/-- A list whose keys strictly increase. -/
structure SortedBy {α κ : Type} [LinearOrder κ] (key : α → κ) where
  /-- The elements in increasing order of their keys. -/
  toList : List α
  sorted : toList.Pairwise (key · < key ·)

/-- A finite set, as the increasing list of its elements. -/
abbrev SortedSet (α : Type) [LinearOrder α] := SortedBy (id : α → α)

namespace SortedBy

variable {α κ : Type} [LinearOrder κ] {key : α → κ}

instance [DecidableEq α] : DecidableEq (SortedBy key) := fun s t =>
  decidable_of_iff (s.toList = t.toList) ⟨fun h => by cases s; cases t; simpa using h, congrArg _⟩

instance : Membership α (SortedBy key) := ⟨fun s a => a ∈ s.toList⟩

@[simp] theorem mem_toList {s : SortedBy key} {a : α} : a ∈ s.toList ↔ a ∈ s := Iff.rfl

instance [DecidableEq α] (s : SortedBy key) (a : α) : Decidable (a ∈ s) :=
  inferInstanceAs (Decidable (a ∈ s.toList))

@[ext] theorem ext {s t : SortedBy key} (h : s.toList = t.toList) : s = t := by
  cases s; cases t; simpa using h

/-- The keys are distinct. -/
theorem nodup_keys (s : SortedBy key) : (s.toList.map key).Nodup :=
  List.pairwise_map.2 (s.sorted.imp fun h => ne_of_lt h)

/-- The elements are distinct. -/
theorem nodup (s : SortedBy key) : s.toList.Nodup := s.nodup_keys.of_map key

/-- A key names at most one element. -/
theorem eq_of_key_eq (s : SortedBy key) {a b : α} (ha : a ∈ s) (hb : b ∈ s)
    (h : key a = key b) : a = b :=
  List.inj_on_of_nodup_map s.nodup_keys ha hb h

/-- A sorted list is determined by its elements. -/
theorem ext_mem {s t : SortedBy key} (h : ∀ a, a ∈ s ↔ a ∈ t) : s = t := by
  have : Std.Antisymm (fun a b : α => key a < key b) :=
    ⟨fun _ _ hab hba => absurd hab (lt_asymm hba)⟩
  have : Std.Irrefl (fun a b : α => key a < key b) := ⟨fun _ => lt_irrefl _⟩
  exact ext (List.Pairwise.eq_of_mem_iff s.sorted t.sorted (fun a => h a))

/-- Filters of sorted lists with the same elements are equal. -/
theorem filter_eq_filter {s t : SortedBy key} {P Q : α → Prop} [DecidablePred P] [DecidablePred Q]
    (h : ∀ a, a ∈ s ∧ P a ↔ a ∈ t ∧ Q a) :
    s.toList.filter (fun a => P a) = t.toList.filter fun a => Q a := by
  refine congrArg toList (ext_mem (s := ⟨_, s.sorted.filter _⟩) (t := ⟨_, t.sorted.filter _⟩)
    fun a => ?_)
  simpa [← mem_toList, List.mem_filter] using h a

/-- The stable sort by key. -/
def sortBy (key : α → κ) (l : List α) : List α := l.insertionSort (fun a b => key a ≤ key b)

theorem perm_sortBy (l : List α) : (sortBy key l).Perm l := List.perm_insertionSort _ l

@[simp] theorem mem_sortBy {l : List α} {a : α} : a ∈ sortBy key l ↔ a ∈ l :=
  (perm_sortBy l).mem_iff

theorem pairwise_le_sortBy (l : List α) : (sortBy key l).Pairwise (key · ≤ key ·) := by
  have : IsTrans α (fun a b => key a ≤ key b) := ⟨fun _ _ _ => le_trans⟩
  have : Std.Total (fun a b : α => key a ≤ key b) := ⟨fun a b => le_total (key a) (key b)⟩
  exact List.pairwise_insertionSort _ l

/-- Sorting distinct keys makes them strictly increasing. -/
theorem pairwise_sortBy {l : List α} (h : (l.map key).Nodup) :
    (sortBy key l).Pairwise (key · < key ·) := by
  have hle : (sortBy key l).Pairwise (key · ≤ key ·) := pairwise_le_sortBy l
  have hnd : ((sortBy key l).map key).Nodup := ((perm_sortBy l).map key).nodup_iff.2 h
  exact (hle.and (List.pairwise_map.1 hnd)).imp fun h => lt_of_le_of_ne h.1 h.2

/-- Sort a list whose keys are distinct. -/
def ofList (l : List α) (h : (l.map key).Nodup) : SortedBy key := ⟨sortBy key l, pairwise_sortBy h⟩

@[simp] theorem mem_ofList {l : List α} (h : (l.map key).Nodup) {a : α} :
    a ∈ ofList l h ↔ a ∈ l := mem_sortBy

/-- Sort a list if its keys are distinct. -/
def ofList? (key : α → κ) (l : List α) : Option (SortedBy key) :=
  if h : (l.map key).Nodup then some (ofList l h) else none

/-- A sorted list is the sort of itself. -/
theorem ofList_toList (s : SortedBy key) : ofList s.toList s.nodup_keys = s :=
  ext_mem fun _ => mem_ofList _

@[simp] theorem ofList?_toList (s : SortedBy key) : ofList? key s.toList = some s := by
  rw [ofList?, dif_pos s.nodup_keys, ofList_toList]

/-- Sorting forgets the order the list was given in. -/
theorem ofList?_perm {l l' : List α} (h : l.Perm l') : ofList? key l = ofList? key l' := by
  unfold ofList?
  have hiff : (l.map key).Nodup ↔ (l'.map key).Nodup := (h.map key).nodup_iff
  by_cases hl : (l.map key).Nodup
  · rw [dif_pos hl, dif_pos (hiff.1 hl)]
    exact congrArg some (ext_mem fun a => by rw [mem_ofList, mem_ofList, h.mem_iff])
  · rw [dif_neg hl, dif_neg (mt hiff.2 hl)]

/-- The element with a given key. -/
def get? (s : SortedBy key) (k : κ) : Option α := s.toList.find? fun a => key a = k

theorem get?_eq_some_iff (s : SortedBy key) {k : κ} {a : α} :
    s.get? k = some a ↔ a ∈ s ∧ key a = k := by
  constructor
  · intro h
    exact ⟨List.mem_of_find?_eq_some h, by simpa using List.find?_some h⟩
  · rintro ⟨ha, rfl⟩
    obtain ⟨b, hb⟩ : ∃ b, s.get? (key a) = some b :=
      Option.isSome_iff_exists.1 (List.find?_isSome.2 ⟨a, ha, by simp⟩)
    have hkey : key b = key a := by simpa using List.find?_some hb
    rwa [s.eq_of_key_eq (List.mem_of_find?_eq_some hb) ha hkey] at hb

/-! ### Stability -/

/-- Two lists are reorderings that keep the order of the elements of one key. -/
def Reorders (key : α → κ) (l l' : List α) : Prop :=
  ∀ k, l.filter (fun a => key a = k) = l'.filter fun a => key a = k

theorem filter_orderedInsert (a : α) (l : List α) (k : κ) :
    (l.orderedInsert (fun a b => key a ≤ key b) a).filter (fun b => key b = k) =
      (a :: l).filter fun b => key b = k := by
  induction l with
  | nil => rfl
  | cons b l ih =>
    rw [List.orderedInsert]
    split_ifs with h
    · rfl
    · have hne : ¬(key a = k ∧ key b = k) := fun ⟨ha, hb⟩ => h (ha.trans hb.symm).le
      by_cases hb : key b = k
      · have ha : key a ≠ k := fun ha => hne ⟨ha, hb⟩
        simpa [hb, ha] using ih
      · by_cases ha : key a = k <;> simpa [hb, ha] using ih

/-- The sort keeps the order of the elements of one key. -/
theorem sortBy_reorders (l : List α) : Reorders key (sortBy key l) l := by
  intro k
  induction l with
  | nil => rfl
  | cons a l ih =>
    rw [sortBy, List.insertionSort_cons, filter_orderedInsert, List.filter_cons, List.filter_cons]
    exact congrArg (fun t => if decide (key a = k) = true then a :: t else t) ih

theorem Reorders.mem {l l' : List α} (h : Reorders key l l') {a : α} (ha : a ∈ l) : a ∈ l' := by
  have hmem : a ∈ l.filter fun b => key b = key a := List.mem_filter.2 ⟨ha, by simp⟩
  rw [h] at hmem
  exact (List.mem_filter.1 hmem).1

/-- Sorted lists that are reorderings of each other are equal. -/
theorem Reorders.eq {l l' : List α} (hr : Reorders key l l') (h : l.Pairwise (key · ≤ key ·))
    (h' : l'.Pairwise (key · ≤ key ·)) : l = l' := by
  have hsymm : Reorders key l' l := fun k => (hr k).symm
  induction l generalizing l' with
  | nil =>
    cases l' with
    | nil => rfl
    | cons b l' => exact absurd (hsymm.mem List.mem_cons_self) List.not_mem_nil
  | cons a l ih =>
    cases l' with
    | nil => exact absurd (hr.mem List.mem_cons_self) List.not_mem_nil
    | cons b l' =>
      rw [List.pairwise_cons] at h h'
      -- the least key of each list occurs in the other
      have hab : key b ≤ key a := by
        rcases List.mem_cons.1 (hr.mem List.mem_cons_self) with he | ha
        · rw [he]
        · exact h'.1 a ha
      have hba : key a ≤ key b := by
        rcases List.mem_cons.1 (hsymm.mem List.mem_cons_self) with he | hb
        · rw [he]
        · exact h.1 b hb
      have hk : key b = key a := le_antisymm hab hba
      have hhead := hr (key a)
      simp only [List.filter_cons, hk, decide_true, if_true, List.cons.injEq] at hhead
      obtain ⟨rfl, -⟩ := hhead
      have htail : Reorders key l l' := by
        intro k
        have hk := hr k
        by_cases hak : key a = k <;> simpa [hak] using hk
      rw [ih htail h.2 h'.2 fun k => (htail k).symm]

/-- Two lists have the same sort exactly when they are reorderings of each other. -/
theorem sortBy_eq_iff {l l' : List α} : sortBy key l = sortBy key l' ↔ Reorders key l l' := by
  constructor
  · intro h k
    rw [← sortBy_reorders l k, h, sortBy_reorders l' k]
  · intro h
    refine Reorders.eq (fun k => ?_) (pairwise_le_sortBy l) (pairwise_le_sortBy l')
    rw [sortBy_reorders l k, h k, sortBy_reorders l' k]

/-- With distinct keys, reorderings are permutations. -/
theorem reorders_iff_perm {l l' : List α} (hn : (l.map key).Nodup) :
    Reorders key l l' ↔ l.Perm l' := by
  rw [← sortBy_eq_iff]
  constructor
  · intro h
    have hs : (sortBy key l).Perm l' := by
      rw [h]
      exact perm_sortBy l'
    exact (perm_sortBy l).symm.trans hs
  · intro h
    have hn' : (l'.map key).Nodup := (h.map key).nodup_iff.1 hn
    exact congrArg toList (ext_mem (s := ofList l hn) (t := ofList l' hn') fun a => by
      rw [mem_ofList, mem_ofList, h.mem_iff])

end SortedBy

namespace SortedSet

variable {α : Type} [LinearOrder α]

/-- The set of the elements of a list. -/
def ofList (l : List α) : SortedSet α :=
  SortedBy.ofList l.dedup (by simpa using l.nodup_dedup)

@[simp] theorem mem_ofList {l : List α} {a : α} : a ∈ ofList l ↔ a ∈ l :=
  (SortedBy.mem_ofList _).trans List.mem_dedup

@[simp] theorem ofList_toList (s : SortedSet α) : ofList s.toList = s :=
  SortedBy.ext_mem fun _ => mem_ofList

/-- The empty set. -/
def empty : SortedSet α := ⟨[], List.Pairwise.nil⟩

end SortedSet

/-! ## Dictionary comprehensions -/

section Index

variable {α κ : Type} [DecidableEq κ] {key : α → κ}

/-- `{key(x): x for x in xs}.get(k)`: among the entries with key `k` the last one wins. -/
def index (key : α → κ) (xs : List α) (k : κ) : Option α := xs.reverse.find? fun a => key a = k

/-- The dictionary returns an element of the list under its key. -/
theorem index_eq_some {xs : List α} {k : κ} {a : α} (h : index key xs k = some a) :
    a ∈ xs ∧ key a = k :=
  ⟨List.mem_reverse.1 (List.mem_of_find?_eq_some h), by simpa using List.find?_some h⟩

/-- With distinct keys the dictionary finds exactly the element with the key. -/
theorem index_eq_some_iff {xs : List α} (hn : (xs.map key).Nodup) {k : κ} {a : α} :
    index key xs k = some a ↔ a ∈ xs ∧ key a = k := by
  refine ⟨index_eq_some, ?_⟩
  rintro ⟨ha, rfl⟩
  obtain ⟨b, hb⟩ : ∃ b, index key xs (key a) = some b :=
    Option.isSome_iff_exists.1 (List.find?_isSome.2 ⟨a, List.mem_reverse.2 ha, by simp⟩)
  obtain ⟨hmem, hkey⟩ := index_eq_some hb
  rwa [List.inj_on_of_nodup_map hn hmem ha hkey] at hb

/-- The dictionary has no entry exactly when no element has the key. -/
theorem index_eq_none_iff {xs : List α} {k : κ} :
    index key xs k = none ↔ ∀ a ∈ xs, key a ≠ k := by
  simp [index]

/-- An element appended under another key does not change an entry. -/
theorem index_append_of_ne {xs : List α} {a : α} {k : κ} (h : key a ≠ k) :
    index key (xs ++ [a]) k = index key xs k := by
  simp [index, h]

/-- The first element with a key, when keys are distinct, is the only one. -/
theorem find?_key_eq_some_iff {xs : List α} (hn : (xs.map key).Nodup) {k : κ} {a : α} :
    (xs.find? fun x => key x = k) = some a ↔ a ∈ xs ∧ key a = k := by
  constructor
  · intro h
    exact ⟨List.mem_of_find?_eq_some h, by simpa using List.find?_some h⟩
  · rintro ⟨ha, rfl⟩
    obtain ⟨b, hb⟩ : ∃ b, (xs.find? fun x => key x = key a) = some b :=
      Option.isSome_iff_exists.1 (List.find?_isSome.2 ⟨a, ha, by simp⟩)
    have hkey : key b = key a := by simpa using List.find?_some hb
    rwa [List.inj_on_of_nodup_map hn (List.mem_of_find?_eq_some hb) ha hkey] at hb

end Index

end CreatidyKernel
