import TrellisTagger.Number.Rounding

/-!
# Binary floating point numbers of 64 bits

A view of a `Float` as an exact number, and the way back: the float nearest to a quotient. Division
of integers, reading of decimals and every number format go through these two functions.

## Main definitions

* `TrellisTagger.Binary64.View` — not a number, infinite, or `± mantissa · 2 ^ exponent`.
* `TrellisTagger.Binary64.view` — the view of a float, read off its bits.
* `TrellisTagger.Binary64.nearest` — the float nearest to a quotient of naturals.
* `TrellisTagger.Binary64.ratio` — the quotient of two integers, rounded once.
* `TrellisTagger.Binary64.RangeError` — what can exceed all floats.

## Design

Only `Float.toBits` and `Float.ofBits` are used. A mantissa of 53 bits over the least exponent
`-1074` is laid out as `(exponent + 1074) · 2 ^ 52 + mantissa`; a mantissa that rounds up to
`2 ^ 53`, and one below `2 ^ 52` at the least exponent, both come out right under this formula.
-/

namespace TrellisTagger.Binary64

/-- What a float stands for. -/
inductive View where
  /-- No number. -/
  | nan
  /-- An infinity with its sign. -/
  | infinite (negative : Bool)
  /-- The number `± mantissa · 2 ^ exponent`. -/
  | finite (negative : Bool) (mantissa : Nat) (exponent : Int)

/-- Read a float as an exact number. -/
def view (x : Float) : View :=
  let bits : Nat := x.toBits.toNat
  let negative := decide (Nat.pow 2 63 ≤ bits)
  let biased : Nat := bits / Nat.pow 2 52 % Nat.pow 2 11
  let fraction : Nat := bits % Nat.pow 2 52
  if biased = 2047 then
    if fraction = 0 then .infinite negative else .nan
  else if biased = 0 then .finite negative fraction (-1074)
  else .finite negative (Nat.pow 2 52 + fraction) ((biased : Int) - 1075)

/-- The bits of positive infinity. -/
def infinityBits : Nat := 2047 * Nat.pow 2 52

/-- Lay out a sign and the bits of a magnitude; what exceeds the finite range is infinite. -/
def ofMagnitude (negative : Bool) (bits : Nat) : Float :=
  Float.ofBits (UInt64.ofNat ((if negative then Nat.pow 2 63 else 0) + min bits infinityBits))

/-- Positive or negative infinity. -/
def infinity (negative : Bool) : Float := ofMagnitude negative infinityBits

/-- Not a number. -/
def nan : Float := Float.ofBits (UInt64.ofNat (2047 * Nat.pow 2 52 + Nat.pow 2 51))

/-- The float nearest to a quotient, ties to the even mantissa. -/
def nearest (negative : Bool) (f : Fraction) : Float :=
  if f.num = 0 then ofMagnitude negative 0
  else
    let guess : Int := (f.num.log2 : Int) - (f.den.log2 : Int) - 52
    let scaled := f.scale 2 (-guess)
    let exponent :=
      max (-1074) (if scaled.num < scaled.den * Nat.pow 2 52 then guess - 1 else guess)
    let mantissa := (f.scale 2 (-exponent)).round
    ofMagnitude negative ((exponent + 1074).toNat * Nat.pow 2 52 + mantissa)

/-- The quotient of two integers, rounded once. A quotient by zero is infinite, or no number; zero
by a negative number is negative zero. -/
def ratio (n d : Int) : Float :=
  let negative := decide (n < 0) != decide (d < 0)
  if d = 0 then (if n = 0 then nan else infinity negative)
  else nearest negative ⟨n.natAbs, d.natAbs⟩

/-- The float nearest to an integer. -/
def ofInt (n : Int) : Float := ratio n 1

/-- Whether a float is infinite. -/
def isInfinite (x : Float) : Bool :=
  match view x with
  | .infinite _ => true
  | _ => false

/-- Whether an integer exceeds all floats. -/
def exceeds (n : Int) : Bool := isInfinite (ofInt n)

/-- What can exceed all floats. -/
inductive RangeError where
  /-- An integer. -/
  | integer
  /-- A quotient of integers. -/
  | quotient
  deriving DecidableEq

/-- The wording of an error. -/
def RangeError.message : RangeError → String
  | integer => "int too large to convert to float"
  | quotient => "integer division result too large for a float"

/-- The exact magnitude of a finite number as a quotient. -/
def magnitude (mantissa : Nat) (exponent : Int) : Fraction :=
  Fraction.scale 2 ⟨mantissa, 1⟩ exponent

/-- The greatest natural number of units below a magnitude, and whether it falls short of it. -/
def wholePart (mantissa : Nat) (exponent : Int) : Nat × Bool :=
  let f := magnitude mantissa exponent
  (f.num / f.den, f.num % f.den != 0)

/-- A number without its fraction. What is infinite or no number counts as zero. -/
def truncate (x : Float) : Int :=
  match view x with
  | .finite negative m q =>
    let n : Int := (wholePart m q).1
    if negative then -n else n
  | _ => 0

/-- The least integer that is not below a number. What is infinite or no number counts as zero. -/
def ceil (x : Float) : Int :=
  match view x with
  | .finite negative m q =>
    let (n, short) := wholePart m q
    if negative then -(n : Int) else if short then n + 1 else n
  | _ => 0

/-- The float nearest to `± digits · 10 ^ exponent`. Far outside the range of floats the power is
not formed. -/
def ofDecimal (negative : Bool) (digits : Nat) (exponent : Int) : Float :=
  let top := exponent + Fraction.digitCount digits
  if digits = 0 || decide (top < -400) then ofMagnitude negative 0
  else if 400 < top then infinity negative
  else nearest negative (Fraction.scale 10 ⟨digits, 1⟩ exponent)

end TrellisTagger.Binary64
