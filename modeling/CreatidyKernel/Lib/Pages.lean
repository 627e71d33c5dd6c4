import Mathlib.Data.List.Basic

set_option relaxedAutoImplicit false
set_option autoImplicit false

/-!
# Pages of a list

A list read in pieces of at most `n` elements, each from an offset the reader gives.

## Main definitions

* `Pages.piece` — the piece of a list from an offset.
* `Pages.Complete` — no element is left after the piece.

## Main results

* `Pages.flatMap_piece` — pieces from successive offsets, put together, are a beginning of the
  list.
* `Pages.complete_iff` — a piece is complete exactly when the pieces up to it are the whole list.
* `Pages.getElem?_piece` — where an element of the list is.
-/

namespace CreatidyKernel

namespace Pages

variable {α β : Type} {n : ℕ} {l : List α} {start : ℕ}

/-- At most `n` elements of a list, from an offset. -/
def piece (n : ℕ) (l : List α) (start : ℕ) : List α := (l.drop start).take n

/-- Nothing is left after the piece from an offset. -/
def Complete (n : ℕ) (l : List α) (start : ℕ) : Prop := l.length ≤ start + n

instance : Decidable (Complete n l start) := inferInstanceAs (Decidable (_ ≤ _))

theorem piece_map (f : α → β) : piece n (l.map f) start = (piece n l start).map f := by
  rw [piece, piece, List.map_take, List.map_drop]

theorem getElem?_piece {i : ℕ} (hi : i < n) : (piece n l start)[i]? = l[start + i]? := by
  rw [piece, List.getElem?_take_of_lt hi, List.getElem?_drop]

/-- Only a complete piece is shorter than the others. -/
theorem length_piece (h : ¬Complete n l start) : (piece n l start).length = n := by
  unfold Complete at h
  rw [piece, List.length_take, List.length_drop]
  omega

/-- A piece that ends the list tells so by its own length. -/
theorem complete_iff_length (h : start ≤ l.length) :
    Complete n l start ↔ start + (piece n l start).length = l.length := by
  unfold Complete piece
  rw [List.length_take, List.length_drop]
  omega

/-- The first pieces, put together. -/
theorem flatMap_piece (n : ℕ) (l : List α) (k : ℕ) :
    (List.range k).flatMap (fun i => piece n l (i * n)) = l.take (k * n) := by
  induction k with
  | zero => simp
  | succ k ih =>
    rw [List.range_succ, List.flatMap_append, ih, List.flatMap_singleton, piece, Nat.succ_mul,
      List.take_add]

/-- The pieces up to a complete one are the whole list, and only those. -/
theorem complete_iff {k : ℕ} :
    Complete n l (k * n) ↔ (List.range (k + 1)).flatMap (fun i => piece n l (i * n)) = l := by
  rw [flatMap_piece, Complete, ← Nat.succ_mul, Nat.succ_eq_add_one]
  constructor
  · exact List.take_of_length_le
  · intro h
    have hlen := congrArg List.length h
    rw [List.length_take] at hlen
    omega

end Pages

end CreatidyKernel
