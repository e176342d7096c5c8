import TrellisTagger.Number.Binary64

/-!
# Decimal texts of numbers

The ways in which numbers are written: with a fixed number of places, with a fixed number of
significant digits, with as few digits as still read back as the same float, with at most six
digits, and with a comma after every third digit of a count. All work on the exact value of the
float.

## Main definitions

* `TrellisTagger.Decimal.fixed` — so many places after the point, a half to the even neighbour.
* `TrellisTagger.Decimal.scientific` — one digit, a point, so many places, an exponent.
* `TrellisTagger.Decimal.shortest` — the shortest digits that read back, nearest to the value.
* `TrellisTagger.Decimal.plain` — the text of the shortest digits.
* `TrellisTagger.Decimal.compact` — at most six significant digits, without zeros at the end.
* `TrellisTagger.Decimal.grouped` — a count with commas.

## Implementation notes

`shortest` tries 1, 2, … 17 digits. On the grid of `k` digits only the two neighbours of the value
can be the best decimal, so it suffices to ask of each whether it reads back, and of two that do
which one is nearer.
-/

namespace TrellisTagger.Decimal

open Binary64 (View view)

/-- The decimal digits of a natural number. -/
def digits (n : Nat) : String := String.ofList (Nat.toDigits 10 n)

/-- A text filled up with zeros on the left. -/
def zeroFilled (width : Nat) (s : String) : String :=
  "".pushn '0' (width - s.length) ++ s

/-- A minus sign where it is called for. -/
def sign (negative : Bool) : String := if negative then "-" else ""

/-- The text of an infinity. -/
def infinityText (negative : Bool) : String := sign negative ++ "inf"

/-- A natural number of units of `10 ^ -places`, written with a point. -/
def pointed (places units : Nat) : String :=
  let unit := Nat.pow 10 places
  if places = 0 then digits units
  else digits (units / unit) ++ "." ++ zeroFilled places (digits (units % unit))

/-- A float with a fixed number of places, its exact value rounded half to even. -/
def fixed (places : Nat) (x : Float) : String :=
  match view x with
  | .nan => "nan"
  | .infinite negative => infinityText negative
  | .finite negative m q =>
    sign negative ++ pointed places ((Binary64.magnitude m q).scale 10 places).round

/-- An exponent: its sign and at least two digits. -/
def exponentText (e : Int) : String :=
  (if e < 0 then "e-" else "e+") ++ zeroFilled 2 (digits e.natAbs)

/-- A positive quotient rounded to `places + 1` significant digits, with the exponent of the first
one. -/
def significant (places : Nat) (f : Fraction) : Nat × Int :=
  let e := f.decade
  let r := (f.scale 10 (places - e)).round
  if r = Nat.pow 10 (places + 1) then (Nat.pow 10 places, e + 1) else (r, e)

/-- A float in scientific form, its exact value rounded half to even. -/
def scientific (places : Nat) (x : Float) : String :=
  match view x with
  | .nan => "nan"
  | .infinite negative => infinityText negative
  | .finite negative m q =>
    let (r, e) := if m = 0 then (0, 0) else significant places (Binary64.magnitude m q)
    sign negative ++ pointed places r ++ exponentText e

/-- A decimal number `coefficient · 10 ^ exponent`. -/
structure Scaled where
  /-- The digits as a natural number. -/
  coefficient : Nat
  /-- The power of ten of the last digit. -/
  exponent : Int

/-- Whether a positive decimal is read as the given float. -/
def Scaled.reads (d : Scaled) (x : Float) : Bool :=
  (Binary64.ofDecimal false d.coefficient d.exponent).toBits == x.toBits

/-- The best decimal of `k` digits that reads back, if there is one: of the two neighbours of the
value the one that does, of two that do the nearer one, of two equally near the even one. -/
def shortestOf? (x : Float) (f : Fraction) (k : Nat) : Option Scaled :=
  let e : Int := f.decade + 1 - k
  let s := f.scale 10 (-e)
  let below : Scaled := ⟨s.num / s.den, e⟩
  let above : Scaled := ⟨s.num / s.den + 1, e⟩
  match below.reads x, above.reads x with
  | true, true => some (if s.round = below.coefficient then below else above)
  | true, false => some below
  | false, true => some above
  | false, false => none

/-- The shortest decimal that reads back as a positive float. Seventeen digits always suffice. -/
def shortest (x : Float) (f : Fraction) : Scaled :=
  ((List.range 17).findSome? fun k => shortestOf? x f (k + 1)).getD ⟨0, 0⟩

/-- The digits of a decimal without zeros at the end, and the exponent of the first digit. -/
def Scaled.leading (d : Scaled) : List Char × Int :=
  let ds := Nat.toDigits 10 d.coefficient
  let kept := (ds.reverse.dropWhile (· = '0')).reverse
  (kept, d.exponent + ds.length - 1)

/-- Digits with the point where the exponent of the first digit puts it. A whole number ends in a
given way. -/
def positional (wholeEnd : String) (ds : List Char) (e : Int) : String :=
  if e < 0 then "0." ++ "".pushn '0' (-e - 1).toNat ++ String.ofList ds
  else
    let whole := e.toNat + 1
    if ds.length ≤ whole then
      String.ofList ds ++ "".pushn '0' (whole - ds.length) ++ wholeEnd
    else String.ofList (ds.take whole) ++ "." ++ String.ofList (ds.drop whole)

/-- Digits with a point after the first and an exponent. -/
def exponential (ds : List Char) (e : Int) : String :=
  String.ofList (ds.take 1) ++ (if ds.length ≤ 1 then "" else "." ++ String.ofList (ds.drop 1)) ++
    exponentText e

/-- A float in the fewest digits that read back. Exponents from `-4` to `15` are written out, with
`.0` after a whole number; all others are written as such. -/
def plain (x : Float) : String :=
  match view x with
  | .nan => "nan"
  | .infinite negative => infinityText negative
  | .finite negative m q =>
    if m = 0 then sign negative ++ "0.0"
    else
      let (ds, e) := (shortest x.abs (Binary64.magnitude m q)).leading
      sign negative ++ if -4 ≤ e && e < 16 then positional ".0" ds e else exponential ds e

/-- A float in at most six significant digits, its exact value rounded half to even. Exponents from
`-4` to `5` are written out. -/
def compact (x : Float) : String :=
  match view x with
  | .nan => "nan"
  | .infinite negative => infinityText negative
  | .finite negative m q =>
    if m = 0 then sign negative ++ "0"
    else
      let (r, e) := significant 5 (Binary64.magnitude m q)
      let (ds, _) := Scaled.leading ⟨r, 0⟩
      sign negative ++ if -4 ≤ e && e < 6 then positional "" ds e else exponential ds e

/-- Digits with a comma before every third one from the right; the list is given from the right. -/
def groupedDigits : List Char → List Char
  | a :: b :: c :: d :: r => a :: b :: c :: ',' :: groupedDigits (d :: r)
  | ds => ds

/-- A count with a comma between groups of three digits. -/
def grouped (n : Nat) : String :=
  String.ofList (groupedDigits (Nat.toDigits 10 n).reverse).reverse

end TrellisTagger.Decimal
