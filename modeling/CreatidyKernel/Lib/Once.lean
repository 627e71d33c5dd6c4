import Mathlib.Data.List.Nodup

set_option relaxedAutoImplicit false
set_option autoImplicit false

/-!
# Effects that start at most once

A system that starts effects writes the key of an effect down before it starts it, and never
starts an effect whose key is on record. The lemmas below say that no effect starts twice, for
any notion of being on record that only grows.

## Main definitions

* `Once` — the started effects have distinct keys, all of them on record.

## Main results

* `Once.mono`, `Once.append`, `Once.start` — what keeps it.
-/

namespace CreatidyKernel

/-- Every started effect has its key on record, and no key was used twice. -/
structure Once {κ : Type} (recorded : κ → Prop) (started : List κ) : Prop where
  nodup : started.Nodup
  recorded : ∀ k ∈ started, recorded k

namespace Once

variable {κ : Type} {recorded recorded' : κ → Prop} {started : List κ}

theorem nil (recorded : κ → Prop) : Once recorded [] := ⟨List.nodup_nil, by simp⟩

/-- The record may grow. -/
theorem mono (h : Once recorded started) (hr : ∀ k, recorded k → recorded' k) :
    Once recorded' started := ⟨h.nodup, fun k hk => hr k (h.recorded k hk)⟩

/-- Effects with distinct keys that were not on record, and are now, may start. -/
theorem append (h : Once recorded started) (hr : ∀ k, recorded k → recorded' k) {ks : List κ}
    (hn : ks.Nodup) (hk : ∀ k ∈ ks, ¬recorded k) (hk' : ∀ k ∈ ks, recorded' k) :
    Once recorded' (started ++ ks) := by
  constructor
  · apply h.nodup.append hn
    intro k hmem hmem'
    exact hk k hmem' (h.recorded k hmem)
  · intro k hmem
    rcases List.mem_append.1 hmem with hmem | hmem
    · exact hr k (h.recorded k hmem)
    · exact hk' k hmem

/-- One effect may start. -/
theorem start (h : Once recorded started) (hr : ∀ k, recorded k → recorded' k) {k : κ}
    (hk : ¬recorded k) (hk' : recorded' k) : Once recorded' (started ++ [k]) := by
  apply h.append hr (List.nodup_singleton k)
  · simpa using hk
  · simpa using hk'

end Once

end CreatidyKernel
