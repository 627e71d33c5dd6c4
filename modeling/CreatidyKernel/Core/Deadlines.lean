import Mathlib.Tactic
import CreatidyKernel.Core.Values

set_option relaxedAutoImplicit false
set_option autoImplicit false

/-!
# Deadlines

A task envelope ends at a wall-clock deadline, bound once to a reading of the wall clock and of
the suspend-inclusive boot clock. A later reading of the same boot decides the time as the later
of what the two clocks say; any other reading decides nothing.

The clock identity of a reading is always `linux:CLOCK_BOOTTIME`, which the constructors check,
so it is not a field here.

## Main definitions

* `BootClockReading`, `DeadlineProjection` — the values, with what their constructors check.
* `DeadlineProjection.bind` — the projection of a deadline from a first reading.
* `DeadlineProjection.verifiable`, `DeadlineProjection.decisionTime`.

## Main results

* `DeadlineProjection.wall_le_elapsedTime` — a decision is never before the wall clock.
* `DeadlineProjection.elapsedTime_mono` — decisions follow the readings.
-/

namespace CreatidyKernel

open Checked

/-- One reading of the wall clock (seconds) and of the boot clock (nanoseconds). -/
structure BootClockReading where
  wall : ℕ
  bootNs : ℕ
  bootId : Name
deriving DecidableEq

/-- A deadline bound to its first reading. -/
structure DeadlineProjection where
  wallDeadline : ℕ
  wallAnchor : ℕ
  bootAnchorNs : ℕ
  bootDeadlineNs : ℕ
  bootId : Name
  anchored : wallAnchor < wallDeadline
  projected : bootDeadlineNs = bootAnchorNs + (wallDeadline - wallAnchor) * 1000000000
deriving DecidableEq

namespace DeadlineProjection

/-- `bind`. -/
def bind (deadline : ℕ) (reading : BootClockReading) : Except Failure DeadlineProjection :=
  if h : reading.wall < deadline then
    .ok ⟨deadline, reading.wall, reading.bootNs,
      reading.bootNs + (deadline - reading.wall) * 1000000000, reading.bootId, h, rfl⟩
  else .error ⟨.valueError, "invalid original deadline projection"⟩

/-- `verifiable`: the reading is of the bound boot and not before the anchors. -/
def Verifiable (p : DeadlineProjection) (reading : BootClockReading) : Prop :=
  reading.bootId = p.bootId ∧ p.bootAnchorNs ≤ reading.bootNs ∧ p.wallAnchor ≤ reading.wall

instance (p : DeadlineProjection) (reading : BootClockReading) : Decidable (p.Verifiable reading) :=
  inferInstanceAs (Decidable (_ ∧ _ ∧ _))

/-- The later of the wall clock and of the boot clock seen from the anchors. -/
def elapsedTime (p : DeadlineProjection) (reading : BootClockReading) : ℕ :=
  max reading.wall (p.wallAnchor + (reading.bootNs - p.bootAnchorNs) / 1000000000)

/-- `decision_time`: an unverifiable reading decides the deadline itself. -/
def decisionTime (p : DeadlineProjection) : Option BootClockReading → ℕ
  | some reading => if p.Verifiable reading then p.elapsedTime reading else p.wallDeadline
  | none => p.wallDeadline

theorem wall_le_elapsedTime (p : DeadlineProjection) (reading : BootClockReading) :
    reading.wall ≤ p.elapsedTime reading := le_max_left _ _

/-- Later clocks decide later. -/
theorem elapsedTime_mono (p : DeadlineProjection) {r r' : BootClockReading}
    (hwall : r.wall ≤ r'.wall) (hboot : r.bootNs ≤ r'.bootNs) :
    p.elapsedTime r ≤ p.elapsedTime r' :=
  max_le_max hwall (Nat.add_le_add_left (Nat.div_le_div_right (Nat.sub_le_sub_right hboot _)) _)

end DeadlineProjection

end CreatidyKernel
