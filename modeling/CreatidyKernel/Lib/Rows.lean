import Mathlib.Tactic
import CreatidyKernel.Lib.Checked

set_option relaxedAutoImplicit false
set_option autoImplicit false

/-!
# Tables with a primary key

A table is the list of its rows in the order they were inserted, and `key` is the column the
database keeps unique. Rows are found by their key, appended, and updated in place.

## Main definitions

* `Rows.find` — `SELECT … WHERE key = ?`.
* `Rows.update` — `UPDATE … WHERE key = ?`, given the whole new row.
* `Rows.put` — update the row of a key, or append it.
* `Rows.insertOnce` — insert a row unless it is there, and refuse another one of its key.

## Main results

* `Rows.find_eq_some_iff` — with distinct keys, a row is found exactly when it is in the table.
* `Rows.mem_update`, `Rows.map_key_update`, `Rows.find_update` — an update replaces one row.
* `Rows.insertOnce_eq_ok` — a write-once table only grows, by rows of new keys.
-/

namespace CreatidyKernel

namespace Rows

variable {ρ κ γ : Type} [DecidableEq κ] {key : ρ → κ} {rows : List ρ} {r row : ρ} {k : κ}

variable (key) in
/-- The row with a key. -/
def find (rows : List ρ) (k : κ) : Option ρ := rows.find? fun r => key r = k

variable (key) in
/-- The table with the row of the same key replaced. -/
def update (rows : List ρ) (row : ρ) : List ρ := rows.map fun r => if key r = key row then row else r

/-! ## Finding a row -/

theorem mem_of_find (h : find key rows k = some r) : r ∈ rows ∧ key r = k :=
  ⟨List.mem_of_find?_eq_some h, by simpa using List.find?_some h⟩

theorem find_eq_none_iff : find key rows k = none ↔ ∀ r ∈ rows, key r ≠ k := by
  simp [find]

@[simp] theorem find_nil : find key ([] : List ρ) k = none := rfl

theorem find_eq_some_iff (hn : (rows.map key).Nodup) :
    find key rows k = some r ↔ r ∈ rows ∧ key r = k := by
  refine ⟨mem_of_find, fun ⟨hr, hk⟩ => ?_⟩
  cases hf : find key rows k with
  | none => exact absurd hk (find_eq_none_iff.1 hf r hr)
  | some r' =>
    obtain ⟨hr', hk'⟩ := mem_of_find hf
    rw [List.inj_on_of_nodup_map hn hr' hr (hk'.trans hk.symm)]

/-- A row of the table is the one its key finds. -/
theorem find_of_mem (hn : (rows.map key).Nodup) (hr : r ∈ rows) : find key rows (key r) = some r :=
  (find_eq_some_iff hn).2 ⟨hr, rfl⟩

theorem find_append (rows' : List ρ) :
    find key (rows ++ rows') k = (find key rows k).or (find key rows' k) := List.find?_append

theorem find_singleton : find key [r] k = if key r = k then some r else none := by
  by_cases h : key r = k <;> simp [find, h]

/-- A row stays found when rows are appended. -/
theorem find_append_of_some (h : find key rows k = some r) (rows' : List ρ) :
    find key (rows ++ rows') k = some r := by
  rw [find_append, h]
  rfl

/-- Rows are found through a map that keeps their keys. -/
theorem find_map {g : ρ → ρ} (hg : ∀ r, key (g r) = key r) :
    find key (rows.map g) k = (find key rows k).map g := by
  simp [find, List.find?_map, hg]

/-! ## Updating a row -/

@[simp] theorem map_key_update : (update key rows row).map key = rows.map key := by
  rw [update, List.map_map]
  refine List.map_congr_left fun r _ => ?_
  by_cases h : key r = key row <;> simp [h]

/-- A column the update does not change. -/
theorem map_column_update {column : ρ → γ} (hn : (rows.map key).Nodup) (hr : r ∈ rows)
    (hk : key r = key row) (hc : column r = column row) :
    (update key rows row).map column = rows.map column := by
  rw [update, List.map_map]
  refine List.map_congr_left fun r' hr' => ?_
  by_cases h : key r' = key row
  · have : r' = r := List.inj_on_of_nodup_map hn hr' hr (h.trans hk.symm)
    simp [this, hk, hc]
  · simp [h]

theorem mem_update (h : ∃ r ∈ rows, key r = key row) :
    r ∈ update key rows row ↔ r = row ∨ (r ∈ rows ∧ key r ≠ key row) := by
  rw [update, List.mem_map]
  constructor
  · rintro ⟨r', hr', rfl⟩
    by_cases hk : key r' = key row
    · exact .inl (if_pos hk)
    · rw [if_neg hk]
      exact .inr ⟨hr', hk⟩
  · rintro (rfl | ⟨hr, hk⟩)
    · obtain ⟨r', hr', hk⟩ := h
      exact ⟨r', hr', if_pos hk⟩
    · exact ⟨r, hr, if_neg hk⟩

theorem find_update :
    find key (update key rows row) k =
      if k = key row then (find key rows k).map fun _ => row else find key rows k := by
  induction rows with
  | nil => simp [update]
  | cons r rows ih =>
    simp only [find, update, List.map_cons, List.find?_cons] at ih ⊢
    by_cases hr : key r = key row
    · by_cases hk : k = key row
      · simp [hr, hk]
      · simp [hr, hk, Ne.symm hk, ih]
    · by_cases hk : k = key row
      · subst hk
        simpa [hr] using ih
      · by_cases hrk : key r = k
        · simp [hk, hrk]
        · simpa [hr, hk, hrk] using ih

/-! ## Tables that keep the latest row -/

variable (key) in
/-- `table[key] = row` on a dictionary: a new key is appended, an old one keeps its place. -/
def put (rows : List ρ) (row : ρ) : List ρ :=
  match find key rows (key row) with
  | none => rows ++ [row]
  | some _ => update key rows row

theorem find_put :
    find key (put key rows row) k = if k = key row then some row else find key rows k := by
  unfold put
  cases hf : find key rows (key row) with
  | none =>
    show find key (rows ++ [row]) k = _
    rw [find_append, find_singleton]
    by_cases hk : k = key row
    · simp [hk, hf]
    · simp [hk, Ne.symm hk]
  | some old =>
    show find key (update key rows row) k = _
    rw [find_update]
    by_cases hk : k = key row
    · simp [hk, hf]
    · simp [hk]

/-- The keys stay distinct. -/
theorem nodup_put (hn : (rows.map key).Nodup) : ((put key rows row).map key).Nodup := by
  unfold put
  cases hf : find key rows (key row) with
  | none =>
    show ((rows ++ [row]).map key).Nodup
    rw [List.map_append, List.map_singleton, List.nodup_append]
    refine ⟨hn, List.nodup_singleton _, ?_⟩
    intro k hk k' hk'
    obtain ⟨r, hr, rfl⟩ := List.mem_map.1 hk
    rw [List.mem_singleton.1 hk']
    exact find_eq_none_iff.1 hf r hr
  | some old =>
    show ((update key rows row).map key).Nodup
    rwa [map_key_update]

/-- The rows with a key are the one it finds. -/
theorem filter_key (hn : (rows.map key).Nodup) :
    rows.filter (fun r => key r = k) = (find key rows k).toList := by
  induction rows with
  | nil => rfl
  | cons r rows ih =>
    rw [List.map_cons, List.nodup_cons] at hn
    by_cases hk : key r = k
    · have hnone : find key rows k = none :=
        find_eq_none_iff.2 fun r' hr' hk' => hn.1 (hk.trans hk'.symm ▸ List.mem_map_of_mem hr')
      rw [List.filter_cons_of_pos (by simpa using hk), ih hn.2, hnone]
      simp [find, hk]
    · rw [List.filter_cons_of_neg (by simpa using hk), ih hn.2]
      simp [find, hk]

/-! ## Write-once tables -/

section

variable {ε : Type} {failure : ε} [DecidableEq ρ]

variable (key) in
/-- Insert a row; a row already there is left alone, another row of its key is a failure. -/
def insertOnce (failure : ε) (rows : List ρ) (row : ρ) : Except ε (List ρ) :=
  match find key rows (key row) with
  | none => .ok (rows ++ [row])
  | some existing => do
    Checked.check (existing = row) failure
    return rows

theorem insertOnce_eq_ok {rows' : List ρ} :
    insertOnce key failure rows row = .ok rows' ↔
      (find key rows (key row) = none ∧ rows' = rows ++ [row]) ∨
        (find key rows (key row) = some row ∧ rows' = rows) := by
  unfold insertOnce
  cases h : find key rows (key row) with
  | none => simp [eq_comm]
  | some existing =>
    simp only [Checked.check_bind_eq_ok, Checked.pure_eq_ok, reduceCtorEq, false_and, false_or,
      Option.some.injEq]
    constructor <;> rintro ⟨h, h'⟩ <;> exact ⟨h, h'.symm⟩

/-- A row of a new key is appended. -/
theorem insertOnce_of_none (h : find key rows (key row) = none) :
    insertOnce key failure rows row = .ok (rows ++ [row]) := insertOnce_eq_ok.2 (.inl ⟨h, rfl⟩)

/-- Inserting a row again changes nothing. -/
theorem insertOnce_of_some (h : find key rows (key row) = some row) :
    insertOnce key failure rows row = .ok rows := insertOnce_eq_ok.2 (.inr ⟨h, rfl⟩)

/-- The keys stay distinct. -/
theorem nodup_insertOnce {rows' : List ρ} (hn : (rows.map key).Nodup)
    (h : insertOnce key failure rows row = .ok rows') : (rows'.map key).Nodup := by
  rcases insertOnce_eq_ok.1 h with ⟨hnone, rfl⟩ | ⟨-, rfl⟩
  · rw [List.map_append, List.map_singleton, List.nodup_append]
    refine ⟨hn, List.nodup_singleton _, ?_⟩
    intro k hk k' hk'
    obtain ⟨r, hr, rfl⟩ := List.mem_map.1 hk
    rw [List.mem_singleton.1 hk']
    exact find_eq_none_iff.1 hnone r hr
  · exact hn

end

end Rows

end CreatidyKernel
