import Mathlib.Data.List.TakeWhile
import Mathlib.Tactic

set_option relaxedAutoImplicit false
set_option autoImplicit false

/-!
# Delimited texts

Lists that are joined by a mark and split at it again.

## Main results

* `Delimited.notMem_splitOn` — the mark is in none of the parts.
* `Delimited.splitOn_two` — when two parts are read back.
* `Delimited.append_mark_inj` — when two joined pairs are the same.
* `Delimited.frames_append` — the frames of a text, one by one.
-/

namespace CreatidyKernel

namespace Delimited

variable {α : Type} [DecidableEq α] {c : α}

/-- The mark is in none of the parts. -/
theorem notMem_splitOn {cs : List α} : ∀ part ∈ cs.splitOn c, c ∉ part := by
  induction cs with
  | nil => simp [List.splitOn_eq_singleton List.not_mem_nil]
  | cons x xs ih =>
    rw [List.splitOn_cons_eq_if_modifyHead]
    obtain ⟨first, rest, hsplit⟩ := List.exists_cons_of_ne_nil (List.splitOn_ne_nil c xs)
    rw [hsplit] at ih ⊢
    by_cases hx : x = c
    · simpa [hx] using ih
    · have hne : ¬c = x := fun h => hx h.symm
      simpa [hx, hne] using ih

/-- A text that is split into two parts has one mark, between them. -/
theorem splitOn_eq_two {cs l r : List α} (h : cs.splitOn c = [l, r]) :
    cs = l ++ c :: r ∧ c ∉ l ∧ c ∉ r := by
  have hfree : ∀ part ∈ cs.splitOn c, c ∉ part := notMem_splitOn
  have hjoin : [c].intercalate (cs.splitOn c) = cs := List.intercalate_splitOn c
  rw [h] at hfree hjoin
  refine ⟨?_, hfree l (by simp), hfree r (by simp)⟩
  rw [← hjoin]
  simp [List.intercalate]

/-- Two parts are read back exactly if the mark is in neither. -/
theorem splitOn_two {l r : List α} : (l ++ c :: r).splitOn c = [l, r] ↔ c ∉ l ∧ c ∉ r := by
  constructor
  · intro h
    exact (splitOn_eq_two h).2
  · rintro ⟨hl, hr⟩
    rw [List.splitOn_append_cons_self, List.splitOn_eq_singleton hl, List.splitOn_eq_singleton hr]
    rfl

/-- A joined pair without further marks is joined from no other pair. -/
theorem append_mark_inj {l r l' r' : List α} (hl : c ∉ l) (hr : c ∉ r)
    (h : l' ++ c :: r' = l ++ c :: r) : l' = l ∧ r' = r := by
  have hsplit := splitOn_two.mpr ⟨hl, hr⟩
  rw [← h, List.splitOn_append_cons_self] at hsplit
  obtain ⟨a, as, ha⟩ := List.exists_cons_of_ne_nil (List.splitOn_ne_nil c l')
  obtain ⟨b, bs, hb⟩ := List.exists_cons_of_ne_nil (List.splitOn_ne_nil c r')
  have hjoin : [c].intercalate (l'.splitOn c) = l' := List.intercalate_splitOn c
  have hjoin' : [c].intercalate (r'.splitOn c) = r' := List.intercalate_splitOn c
  rw [ha, hb] at hsplit
  have hlength := congrArg List.length hsplit
  simp only [List.length_append, List.length_cons, List.length_nil] at hlength
  have has : as = [] := List.length_eq_zero_iff.mp (by omega)
  have hbs : bs = [] := List.length_eq_zero_iff.mp (by omega)
  subst has hbs
  simp only [List.cons_append, List.nil_append, List.cons.injEq, and_true] at hsplit
  rw [ha, hsplit.1] at hjoin
  rw [hb, hsplit.2] at hjoin'
  simp only [List.intercalate, List.intersperse_singleton, List.flatten_singleton] at hjoin hjoin'
  exact ⟨hjoin.symm, hjoin'.symm⟩

/-! ## Frames -/

/-- The frames of a text, each ended by the mark; what follows the last mark is none. -/
def frames (c : α) (cs : List α) : List (List α) := (cs.splitOn c).dropLast

/-- The first frame of a text. -/
theorem frames_append {l r : List α} (h : c ∉ l) : frames c (l ++ c :: r) = l :: frames c r := by
  rw [frames, List.splitOn_append_cons_self, List.splitOn_eq_singleton h, List.singleton_append,
    List.dropLast_cons_of_ne_nil (List.splitOn_ne_nil c r), frames]

/-- A text without the mark has no frames. -/
theorem frames_of_notMem {cs : List α} (h : c ∉ cs) : frames c cs = [] := by
  rw [frames, List.splitOn_eq_singleton h, List.dropLast_singleton]

/-- The text before the first mark and the text after it. -/
theorem takeWhile_append_tail {cs : List α} (h : c ∈ cs) :
    cs.takeWhile (· ≠ c) ++ c :: (cs.dropWhile (· ≠ c)).tail = cs := by
  induction cs with
  | nil => cases h
  | cons a cs ih =>
    by_cases ha : a = c
    · simp [ha]
    · have hmem := (List.mem_cons.mp h).resolve_left fun h => ha h.symm
      rw [List.takeWhile_cons_of_pos (by simpa using ha),
        List.dropWhile_cons_of_pos (by simpa using ha), List.cons_append, ih hmem]

/-- The mark is not in the text before it. -/
theorem notMem_takeWhile {cs : List α} : c ∉ cs.takeWhile (· ≠ c) := by
  intro h
  have := List.mem_takeWhile_imp h
  simp at this

/-- A text with a first frame. -/
theorem frames_eq_cons {cs l : List α} {ls : List (List α)} (h : frames c cs = l :: ls) :
    ∃ r, cs = l ++ c :: r ∧ c ∉ l ∧ frames c r = ls := by
  by_cases hmem : c ∈ cs
  · rw [← takeWhile_append_tail hmem, frames_append notMem_takeWhile, List.cons.injEq] at h
    obtain ⟨rfl, rfl⟩ := h
    exact ⟨_, (takeWhile_append_tail hmem).symm, notMem_takeWhile, rfl⟩
  · rw [frames_of_notMem hmem] at h
    cases h

end Delimited

end CreatidyKernel
