/-!
# Rounding quotients

Exact rounding of a quotient of natural numbers, and the two facts about powers that every number
format needs: how many decimal digits stand before the point, and how to shift by a power.

## Main definitions

* `TrellisTagger.roundHalfEven` — the nearest natural number to a quotient, a half to the even one.
* `TrellisTagger.Fraction` — a quotient of naturals, shifted exactly by powers of two and ten.
* `TrellisTagger.Fraction.decade` — the decimal exponent of a positive quotient.

## Main results

* `TrellisTagger.roundHalfEven_mul_right` — a whole quotient is left alone.
-/

namespace TrellisTagger

/-- The natural number nearest to `n / d`; of two equally near ones the even one. -/
def roundHalfEven (n d : Nat) : Nat :=
  let q := n / d
  let r := n % d
  if 2 * r < d then q
  else if d < 2 * r then q + 1
  else if q % 2 = 0 then q else q + 1

/-- A whole quotient is not rounded. -/
theorem roundHalfEven_mul_right (q : Nat) {d : Nat} (h : 0 < d) : roundHalfEven (q * d) d = q := by
  simp [roundHalfEven, Nat.mul_div_cancel q h, h]

/-- A quotient of natural numbers, kept as numerator and denominator. -/
structure Fraction where
  /-- The numerator. -/
  num : Nat
  /-- The denominator. -/
  den : Nat

namespace Fraction

/-- Multiply by an integer power of a base. -/
def scale (base : Nat) (f : Fraction) (k : Int) : Fraction :=
  match k with
  | .ofNat k => ⟨f.num * Nat.pow base k, f.den⟩
  | .negSucc k => ⟨f.num, f.den * Nat.pow base (k + 1)⟩

/-- The nearest natural number, a half to the even one. -/
def round (f : Fraction) : Nat := roundHalfEven f.num f.den

/-- The number of decimal digits of a natural number. -/
def digitCount (n : Nat) : Nat := (Nat.toDigits 10 n).length

/-- The exponent `e` with `10 ^ e ≤ f < 10 ^ (e + 1)`, for a positive quotient. The difference of
the digit counts is either this exponent or one more. -/
def decade (f : Fraction) : Int :=
  let k : Int := (digitCount f.num : Int) - (digitCount f.den : Int)
  let s := f.scale 10 (-k)
  if s.den ≤ s.num then k else k - 1

end Fraction

end TrellisTagger
