import Mathlib.Algebra.Ring.Nat
import Mathlib.Data.Int.Order.Basic

/-!
# Finite doubles

A finite number of the binary format of 64 bits is a sign and a significand of 53 binary
digits times a power of two.  Quotients of natural numbers are rounded to the nearest such
number, and to the one with an even significand where two are equally near.
-/

namespace BinaryDouble

structure FiniteDouble where
  negative : Bool := false
  significand : Nat := 0
  exponent : Int := 0
  significand_lt : significand < 2 ^ 53 := by decide
  exponent_ge : -1074 ≤ exponent := by decide
  exponent_le : exponent ≤ 971 := by decide
deriving DecidableEq

/-- `a / b` to the nearest natural number, to an even one where two are equally near. -/
def roundHalfEven (a b : Nat) : Nat :=
  if 2 * (a % b) < b then a / b
  else if b < 2 * (a % b) then a / b + 1
  else a / b + a / b % 2

/-- Numerator and denominator of `a / b / 2 ^ e`. -/
def scale (a b : Nat) (e : Int) : Nat × Nat :=
  if 0 ≤ e then (a, b * 2 ^ e.toNat) else (a * 2 ^ (-e).toNat, b)

/-- The exponent with which `a / b` has 53 digits in front of the point, or the least one. -/
def exponentOf (a b : Nat) : Int :=
  let guess : Int := (a.log2 : Int) - b.log2 - 53
  let r := scale a b guess
  max (if r.1 / r.2 < 2 ^ 53 then guess else guess + 1) (-1074)

/-- `a / b`, rounded; `none` if it is too large to be finite. -/
def ofRatio (a b : Nat) : Option FiniteDouble :=
  let e := exponentOf a b
  let r := scale a b e
  let rounded := roundHalfEven r.1 r.2
  -- rounding up can lead to one digit more
  let m := if rounded = 2 ^ 53 then 2 ^ 52 else rounded
  let e := if rounded = 2 ^ 53 then e + 1 else e
  if h : m < 2 ^ 53 ∧ -1074 ≤ e ∧ e ≤ 971 then
    some ⟨false, m, e, h.1, h.2.1, h.2.2⟩
  else none

namespace FiniteDouble

/-- Numerator and denominator of the magnitude. -/
def ratio (x : FiniteDouble) : Nat × Nat :=
  scale x.significand 1 (-x.exponent)

/-- The quotient by a number other than 0. -/
def div (x y : FiniteDouble) : Option FiniteDouble :=
  (ofRatio (x.ratio.1 * y.ratio.2) (x.ratio.2 * y.ratio.1)).map fun z =>
    { z with negative := x.negative != y.negative }

end FiniteDouble

/-- A tenth is not a double; the nearest one is above it. -/
example : (ofRatio 1 10).map (fun x => (x.significand, x.exponent)) =
    some (7205759403792794, -56) := by
  decide +kernel

end BinaryDouble
