import CreatidyKernel.Core.Deadlines

set_option relaxedAutoImplicit false
set_option autoImplicit false

/-!
# The boundary of a deadline

A projection expresses one instant in two units: the wall deadline in seconds, and the boot
deadline in nanoseconds. A reading is decided in whole seconds, rounded down, and yet it is decided
as expired exactly when one of its two clocks has reached the deadline in its own unit.

## Main definitions

* `BootClockReading.init`, `DeadlineProjection.init` — the constructors, on any integers.
* `DeadlineProjection.bindInt` — `bind`, on any integer.
* `DeadlineProjection.Boundary` — how readings are decided.

## Main results

* `DeadlineProjection.le_elapsedTime_iff` — the boundary, for every remainder.
* `DeadlineProjection.projection_boundary` — which deadlines are bound, and the boundary.
-/

namespace CreatidyKernel

open Checked

namespace BootClockReading

/-- The clock of every reading. -/
def clockName : String := "linux:CLOCK_BOOTTIME"

/-- The constructor of a reading. -/
def init (wall bootNs : ℤ) (bootId clock : String) : Except Failure BootClockReading :=
  if h : 0 ≤ wall ∧ 0 ≤ bootNs ∧ Nonblank bootId ∧ clock = clockName then
    .ok ⟨wall.toNat, bootNs.toNat, ⟨bootId, h.2.2.1⟩⟩
  else .error ⟨.valueError, "unverified suspend-inclusive clock reading"⟩

/-- The constructor accepts the fields of every reading. -/
theorem init_self (r : BootClockReading) :
    init r.wall r.bootNs r.bootId.val clockName = .ok r := by
  rw [init, dif_pos ⟨Int.natCast_nonneg _, Int.natCast_nonneg _, r.bootId.2, rfl⟩]
  rfl

end BootClockReading

namespace DeadlineProjection

/-- The constructor of a projection. -/
def init (wallDeadline wallAnchor bootAnchorNs bootDeadlineNs : ℤ) (bootId clock : String) :
    Except Failure DeadlineProjection := do
  let anchor ← BootClockReading.init wallAnchor bootAnchorNs bootId clock
  if h : (anchor.wall : ℤ) < wallDeadline ∧
      bootDeadlineNs = anchor.bootNs + (wallDeadline - anchor.wall) * 1000000000 then
    return ⟨wallDeadline.toNat, anchor.wall, anchor.bootNs, bootDeadlineNs.toNat, anchor.bootId,
      by omega, by omega⟩
  else .error ⟨.valueError, "invalid original deadline projection"⟩

/-- `bind`, of any integer. -/
def bindInt (deadline : ℤ) (reading : BootClockReading) : Except Failure DeadlineProjection :=
  init deadline reading.wall reading.bootNs
    (reading.bootNs + (deadline - reading.wall) * 1000000000) reading.bootId.val
    BootClockReading.clockName

/-- The constructor accepts the fields of every projection. -/
theorem init_self (p : DeadlineProjection) :
    init p.wallDeadline p.wallAnchor p.bootAnchorNs p.bootDeadlineNs p.bootId.val
      BootClockReading.clockName = .ok p := by
  obtain ⟨wallDeadline, wallAnchor, bootAnchorNs, bootDeadlineNs, bootId, hanchor, hprojected⟩ := p
  have hreading := BootClockReading.init_self ⟨wallAnchor, bootAnchorNs, bootId⟩
  refine bind_of_ok hreading ?_
  rw [dif_pos ⟨by exact_mod_cast hanchor, by simp only; omega⟩]
  rfl

/-- Both forms of `bind` agree. -/
theorem bindInt_natCast (deadline : ℕ) (reading : BootClockReading) :
    bindInt deadline reading = bind deadline reading := by
  refine (congrArg (· >>= _) reading.init_self).trans ?_
  rw [ok_bind]
  unfold bind
  by_cases h : reading.wall < deadline
  · rw [dif_pos h, dif_pos ⟨by exact_mod_cast h, rfl⟩]
    refine congrArg Except.ok ?_
    simp only [mk.injEq, Int.toNat_natCast, true_and, and_true]
    omega
  · rw [dif_neg h, dif_neg (by omega)]

/-- A deadline is bound exactly when it is after the reading. -/
theorem bindInt_eq_ok {deadline : ℤ} {reading : BootClockReading} {p : DeadlineProjection} :
    bindInt deadline reading = .ok p ↔ (reading.wall : ℤ) < deadline ∧
      (p.wallDeadline : ℤ) = deadline ∧ p.wallAnchor = reading.wall ∧
      p.bootAnchorNs = reading.bootNs ∧ p.bootId = reading.bootId := by
  constructor
  · intro h
    obtain ⟨anchor, ha, h⟩ := bind_eq_ok.mp h
    rw [reading.init_self] at ha
    obtain rfl := Except.ok.inj ha
    split_ifs at h with hd
    obtain rfl := Except.ok.inj h
    exact ⟨hd.1, by simp only; omega, rfl, rfl, rfl⟩
  · rintro ⟨hlt, hdeadline, hwall, hboot, hid⟩
    subst hdeadline
    rw [bindInt, ← hwall, ← hboot, ← hid]
    have hprojected := p.projected
    have hanchored := p.anchored
    have hsame : (p.bootAnchorNs : ℤ) + (p.wallDeadline - p.wallAnchor) * 1000000000 =
        p.bootDeadlineNs := by omega
    rw [hsame]
    exact p.init_self

/-- **The boundary**: in whole seconds the boot clock has reached the wall deadline exactly when
it has reached the boot deadline in nanoseconds. -/
theorem le_elapsedTime_iff (p : DeadlineProjection) {r : BootClockReading}
    (h : p.bootAnchorNs ≤ r.bootNs) : p.wallDeadline ≤ p.elapsedTime r ↔
      p.wallDeadline ≤ r.wall ∨ p.bootDeadlineNs ≤ r.bootNs := by
  have hprojected := p.projected
  have hanchored := p.anchored
  -- the distance of the deadline is a whole number of seconds, so nothing is lost by rounding
  have hseconds : p.wallDeadline - p.wallAnchor ≤ (r.bootNs - p.bootAnchorNs) / 1000000000 ↔
      (p.wallDeadline - p.wallAnchor) * 1000000000 ≤ r.bootNs - p.bootAnchorNs :=
    Nat.le_div_iff_mul_le (by decide)
  rw [elapsedTime, le_max_iff]
  apply or_congr_right
  omega

/-- How a projection decides readings. -/
structure Boundary (p : DeadlineProjection) : Prop where
  expired_iff : ∀ r, p.Verifiable r → (p.wallDeadline ≤ p.decisionTime (some r) ↔
    p.wallDeadline ≤ r.wall ∨ p.bootDeadlineNs ≤ r.bootNs)
  monotone : ∀ r r', p.Verifiable r → r'.bootId = r.bootId → r.wall ≤ r'.wall →
    r.bootNs ≤ r'.bootNs → p.decisionTime (some r) ≤ p.decisionTime (some r')
  wall_le : ∀ r, p.Verifiable r → r.wall ≤ p.decisionTime (some r)
  unverified : ∀ reading, (∀ r ∈ reading, ¬p.Verifiable r) →
    p.wallDeadline ≤ p.decisionTime reading

/-- A verifiable reading is decided by its clocks. -/
theorem decisionTime_of_verifiable {p : DeadlineProjection} {r : BootClockReading}
    (h : p.Verifiable r) : p.decisionTime (some r) = p.elapsedTime r := if_pos h

/-- Later clocks of the same boot stay verifiable. -/
theorem Verifiable.mono {p : DeadlineProjection} {r r' : BootClockReading} (h : p.Verifiable r)
    (hid : r'.bootId = r.bootId) (hwall : r.wall ≤ r'.wall) (hboot : r.bootNs ≤ r'.bootNs) :
    p.Verifiable r' := ⟨hid.trans h.1, h.2.1.trans hboot, h.2.2.trans hwall⟩

theorem boundary (p : DeadlineProjection) : p.Boundary where
  expired_iff r h := by
    rw [decisionTime_of_verifiable h]
    exact p.le_elapsedTime_iff h.2.1
  monotone r r' h hid hwall hboot := by
    rw [decisionTime_of_verifiable h, decisionTime_of_verifiable (h.mono hid hwall hboot)]
    exact p.elapsedTime_mono hwall hboot
  wall_le r h := by
    rw [decisionTime_of_verifiable h]
    exact p.wall_le_elapsedTime r
  unverified reading h := by
    cases reading with
    | none => exact le_rfl
    | some r => exact (if_neg (h r rfl)).ge

/-- **The projection of a deadline**: it exists exactly when the deadline is after the reading, and
it decides every later reading by the clock that reaches the deadline first. -/
theorem projection_boundary :
    (∀ (deadline : ℤ) (reading : BootClockReading),
      ((∃ p, bindInt deadline reading = .ok p) ↔ (reading.wall : ℤ) < deadline) ∧
      ∀ p, bindInt deadline reading = .ok p →
        (p.wallDeadline : ℤ) = deadline ∧ p.wallAnchor = reading.wall ∧ p.Verifiable reading) ∧
    ∀ p : DeadlineProjection, p.Boundary := by
  refine ⟨fun deadline reading => ⟨⟨?_, fun h => ?_⟩, fun p hp => ?_⟩, boundary⟩
  · rintro ⟨p, hp⟩
    exact (bindInt_eq_ok.mp hp).1
  · obtain ⟨n, rfl⟩ := Int.eq_ofNat_of_zero_le ((Int.natCast_nonneg reading.wall).trans h.le)
    rw [bindInt_natCast, bind, dif_pos (by exact_mod_cast h)]
    exact ⟨_, rfl⟩
  · obtain ⟨-, hdeadline, hwall, hboot, hid⟩ := bindInt_eq_ok.mp hp
    exact ⟨hdeadline, hwall, hid.symm, hboot.le, hwall.le⟩

/-- One nanosecond before the boot deadline the reading is not expired. -/
example : (bind 10 ⟨7, 5, ⟨"boot", by decide⟩⟩).map (fun p =>
    (p.decisionTime (some ⟨7, 3000000004, ⟨"boot", by decide⟩⟩),
      p.decisionTime (some ⟨7, 3000000005, ⟨"boot", by decide⟩⟩))) = .ok (9, 10) := by
  decide

end DeadlineProjection

end CreatidyKernel
