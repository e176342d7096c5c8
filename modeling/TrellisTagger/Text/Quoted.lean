import TrellisTagger.Number.Decimal
import TrellisTagger.Text.CodePoints
import TrellisTagger.Text.Hidden

/-!
# Quoted texts

A text between quotes, with every character that would not show written as an escape. Single quotes
are used unless the text holds single quotes and no double ones.

## Main definitions

* `TrellisTagger.codePointEscape` — a code point in hexadecimal.
* `TrellisTagger.CodePoints.quoted` — a text of code points between quotes.
* `TrellisTagger.quoted` — a text between quotes.
-/

namespace TrellisTagger

/-- A code point as an escape of two, four or eight hexadecimal digits. -/
def codePointEscape (n : Nat) : String :=
  let hex := String.ofList (Nat.toDigits 16 n)
  if n < 0x100 then "\\x" ++ Decimal.zeroFilled 2 hex
  else if n < 0x10000 then "\\u" ++ Decimal.zeroFilled 4 hex
  else "\\U" ++ Decimal.zeroFilled 8 hex

/-- A character inside quotes. -/
def quotedChar (quote c : Char) : String :=
  if c = quote ∨ c = '\\' then String.ofList ['\\', c]
  else if c = '\n' then "\\n"
  else if c = '\r' then "\\r"
  else if c = '\t' then "\\t"
  else if isHidden c then codePointEscape c.toNat
  else String.singleton c

/-- A code point inside quotes. Half of a pair does not show. -/
def quotedPoint (quote : Char) (n : Nat) : String :=
  if CodePoints.isHalf n then codePointEscape n else quotedChar quote (Char.ofNat n)

/-- A text of code points between quotes. -/
def CodePoints.quoted (s : CodePoints) : String :=
  let has (c : Char) : Bool := s.points.contains c.toNat
  let quote := if has '\'' && !has '"' then '"' else '\''
  String.singleton quote ++ String.join (s.points.map (quotedPoint quote)) ++ String.singleton quote

/-- A text between quotes. -/
def quoted (s : String) : String := (CodePoints.ofString s).quoted

end TrellisTagger
