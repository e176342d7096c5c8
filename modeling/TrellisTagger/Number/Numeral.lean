import TrellisTagger.Number.Binary64
import TrellisTagger.Text.Alphanumeric
import TrellisTagger.Text.Blank

/-!
# Reading numerals

The numerals that are accepted on the command line. White space around a numeral does not matter;
single underscores may stand between digits; the decimal digits of every script count. A whole
number has at most 4300 digits.

## Main definitions

* `TrellisTagger.Numeral.trimmed` — a text without white space around it.
* `TrellisTagger.Numeral.digits?` — digits with single underscores between them.
* `TrellisTagger.Numeral.int?` — a whole number with an optional sign.
* `TrellisTagger.Numeral.float?` — a number with optional sign, point and exponent, or an infinity,
  or what is no number.
-/

namespace TrellisTagger

namespace Numeral

/-- The number that some digits write. -/
def ofDigits (ds : List Nat) : Nat := ds.foldl (fun n d => 10 * n + d) 0

/-- Digits, at least one, with at most one underscore between two of them. -/
def digits? (l : List Char) : Option (List Nat) :=
  let groups := pieces (· == '_') l
  if groups.any List.isEmpty then none else groups.flatten.mapM digitValue?

/-- A sign, and what follows it. -/
def sign (l : List Char) : Bool × List Char :=
  match l with
  | '-' :: r => (true, r)
  | '+' :: r => (false, r)
  | _ => (false, l)

/-- A number with its sign. -/
def signed (negative : Bool) (n : Nat) : Int := if negative then -n else n

/-- A whole number with an optional sign. -/
def integer? (l : List Char) : Option Int :=
  let (negative, r) := sign l
  (digits? r).map fun ds => signed negative (ofDigits ds)

/-- Whether a character may stand around a numeral: the blanks other than information separators. -/
def isMargin (c : Char) : Bool := isBlank c && !(0x1C ≤ c.toNat && c.toNat ≤ 0x1F)

/-- A text without white space around it. -/
def trimmed (s : String) : List Char :=
  ((s.toList.dropWhile isMargin).reverse.dropWhile isMargin).reverse

/-- The greatest number of digits that a whole number may have. -/
def mostDigits : Nat := 4300

/-- A whole number, white space around it aside. Zeros at the front count as digits. -/
def int? (s : String) : Option Int :=
  let l := trimmed s
  if mostDigits < l.countP fun c => (digitValue? c).isSome then none else integer? l

/-- The digits on one side of the point, of which there may be none. -/
def side? (l : List Char) : Option (List Nat) := if l.isEmpty then some [] else digits? l

/-- Digits with an optional point and an optional exponent, as digits and a power of ten. -/
def decimal? (l : List Char) : Option (Nat × Int) := do
  let isMark (c : Char) : Bool := c == 'e' || c == 'E'
  let mantissa := l.takeWhile fun c => !isMark c
  let exponent ← match l.dropWhile fun c => !isMark c with
    | [] => some 0
    | _ :: r => integer? r
  let whole := mantissa.takeWhile (· != '.')
  let fraction := (mantissa.dropWhile (· != '.')).drop 1
  if whole.isEmpty && fraction.isEmpty then none
  else
    let before ← side? whole
    let after ← side? fraction
    return (ofDigits (before ++ after), exponent - after.length)

/-- A number as a float, white space around it aside. -/
def float? (s : String) : Option Float :=
  let (negative, r) := sign (trimmed s)
  let name := String.ofList (r.map Char.toLower)
  if name = "inf" ∨ name = "infinity" then some (Binary64.infinity negative)
  else if name = "nan" then some Binary64.nan
  else (decimal? r).map fun (n, e) => Binary64.ofDecimal negative n e

end Numeral

end TrellisTagger
