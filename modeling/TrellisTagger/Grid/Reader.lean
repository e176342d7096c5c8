import TrellisTagger.Grid.Value
import TrellisTagger.Number.Numeral

/-!
# Reading JSON

The text of a JSON value, with the names of infinities and of what is no number accepted beside the
standard. A name that occurs twice in an object keeps its first place and its last value.

## Main definitions

* `TrellisTagger.Value.JsonError` — the reasons for which a text writes no value.
* `TrellisTagger.Value.ofJson` — the value that a text writes, if the whole text is one.

## Implementation notes

Every reader takes the characters that are left and returns those that it leaves. The readers of
nested values carry the number of levels that are left, and a bound on their steps: no two steps in
a row take no character, so twice the length of the text suffices.
-/

namespace TrellisTagger.Value

/-- The characters between tokens. -/
def isSpace (c : Char) : Bool := c == ' ' || c == '\t' || c == '\n' || c == '\r'

/-- What is left after the characters between tokens. -/
def skip (l : List Char) : List Char := l.dropWhile isSpace

/-- The characters that stand for others after a backslash. -/
def escapes : List (Char × Char) :=
  [('"', '"'), ('\\', '\\'), ('/', '/'), ('b', '\x08'), ('f', '\x0c'), ('n', '\n'), ('r', '\r'),
    ('t', '\t')]

/-- The value of a hexadecimal digit. -/
def hexValue? (c : Char) : Option Nat :=
  if '0' ≤ c ∧ c ≤ '9' then some (c.toNat - 48)
  else if 'a' ≤ c ∧ c ≤ 'f' then some (c.toNat - 87)
  else if 'A' ≤ c ∧ c ≤ 'F' then some (c.toNat - 55)
  else none

/-- The number that four hexadecimal digits write. -/
def hex4? (a b c d : Char) : Option Nat := do
  return 4096 * (← hexValue? a) + 256 * (← hexValue? b) + 16 * (← hexValue? c) + (← hexValue? d)

/-- The code point of two code units that form a pair. -/
def pair? (high low : Nat) : Option Nat :=
  if 0xD800 ≤ high ∧ high < 0xDC00 ∧ 0xDC00 ≤ low ∧ low < 0xE000 then
    some (0x10000 + 1024 * (high - 0xD800) + (low - 0xDC00))
  else none

/-- The code points of code units. A pair of units that belong together is one code point. -/
def ofUnits : List Nat → List Nat
  | high :: low :: l =>
    match pair? high low with
    | some n => n :: ofUnits l
    | none => high :: ofUnits (low :: l)
  | l => l

/-- The code units up to the closing quote. Those read so far are given backwards. -/
def readUnits (read : List Nat) : List Char → Option (List Nat × List Char)
  | '"' :: l => some (read.reverse, l)
  | '\\' :: 'u' :: a :: b :: c :: d :: l =>
    match hex4? a b c d with
    | some n => readUnits (n :: read) l
    | none => none
  | '\\' :: c :: l =>
    match escapes.lookup c with
    | some d => readUnits (d.toNat :: read) l
    | none => none
  | c :: l => if c.toNat < 32 ∨ c = '\\' then none else readUnits (c.toNat :: read) l
  | [] => none

/-- The rest of a text after its opening quote. -/
def readText (l : List Char) : Option (CodePoints × List Char) :=
  (readUnits [] l).map fun (units, rest) => (⟨ofUnits units⟩, rest)

/-- The number that decimal digits write. -/
def natural (ds : List Char) : Nat := ds.foldl (fun n d => 10 * n + (d.toNat - 48)) 0

/-- The digits at the front of a text, and what is left. -/
def readDigits (l : List Char) : List Char × List Char :=
  (l.takeWhile Char.isDigit, l.dropWhile Char.isDigit)

/-- The digits of a fraction, if a point and at least one digit stand at the front. -/
def readFraction (l : List Char) : List Char × List Char :=
  match l with
  | '.' :: r =>
    let (ds, rest) := readDigits r
    if ds.isEmpty then ([], l) else (ds, rest)
  | _ => ([], l)

/-- An exponent, if a mark, an optional sign and at least one digit stand at the front. -/
def readExponent (l : List Char) : Option Int × List Char :=
  match l with
  | mark :: r =>
    let (negative, r) : Bool × List Char :=
      match r with
      | '-' :: s => (true, s)
      | '+' :: s => (false, s)
      | _ => (false, r)
    let (ds, rest) := readDigits r
    if (mark == 'e' || mark == 'E') && !ds.isEmpty then
      (some (if negative then -(natural ds : Int) else natural ds), rest)
    else (none, l)
  | [] => (none, l)

/-- The whole part of a number: a zero on its own, or digits that do not begin with one. -/
def readWhole (l : List Char) : List Char × List Char :=
  match l with
  | '0' :: r => (['0'], r)
  | _ => readDigits l

/-- A number without its sign. A whole number has no more digits than a numeral can have. -/
def readMagnitude (negative : Bool) (l : List Char) : Option (Value × List Char) :=
  let (whole, l) := readWhole l
  let (fraction, l) := readFraction l
  let (exponent, l) := readExponent l
  if whole.isEmpty then none
  else if fraction.isEmpty && exponent.isNone then
    if Numeral.mostDigits < whole.length then none
    else some (.int (Numeral.signed negative (natural whole)), l)
  else
    some (.float (Binary64.ofDecimal negative (natural (whole ++ fraction))
      (exponent.getD 0 - fraction.length)), l)

/-- The values that have a name of their own. -/
def names : List (String × Value) :=
  [("null", .null), ("true", .bool true), ("false", .bool false), ("NaN", .float Binary64.nan),
    ("Infinity", .float (Binary64.infinity false)), ("-Infinity", .float (Binary64.infinity true))]

/-- A named value at the front of a text. -/
def readName (l : List Char) : Option (Value × List Char) :=
  names.findSome? fun (name, v) =>
    if name.toList.isPrefixOf l then some (v, l.drop name.length) else none

/-- A value without parts that are values. -/
def readScalar (l : List Char) : Option (Value × List Char) :=
  match l with
  | '"' :: r => (readText r).map fun (s, rest) => (.string s, rest)
  | '-' :: r => (readName l).or (readMagnitude true r)
  | _ => (readName l).or (readMagnitude false l)

/-- The reasons for which a text writes no value. -/
inductive JsonError where
  /-- It is no JSON text. -/
  | malformed
  /-- A list, or else an object, lies too deep. -/
  | tooDeep (inList : Bool)
  deriving DecidableEq

/-- The wording of an error. -/
def JsonError.message : JsonError → String
  | malformed => "not a JSON value"
  | tooDeep inList =>
    "maximum recursion depth exceeded while decoding a JSON " ++
      (if inList then "array" else "object") ++ " from a unicode string"

/-- The greatest number of lists and objects that can lie one inside another. -/
def mostNested : Nat := 976

/-- What a reader has found, or that it has found nothing. -/
def orMalformed {α : Type} : Option α → Except JsonError α
  | some a => .ok a
  | none => .error .malformed

mutual

/-- A value at the front of a text, given the number of levels that are left. -/
def read (levels bound : Nat) (l : List Char) : Except JsonError (Value × List Char) :=
  match bound, l with
  | 0, _ => .error .malformed
  | bound + 1, '[' :: r =>
    match levels, skip r with
    | 0, _ => .error (.tooDeep true)
    | _ + 1, ']' :: rest => .ok (.list [], rest)
    | levels + 1, first => do
      let (items, rest) ← readItems levels bound first
      return (.list items, rest)
  | bound + 1, '\x7b' :: r =>
    match levels, skip r with
    | 0, _ => .error (.tooDeep false)
    | _ + 1, '\x7d' :: rest => .ok (.object [], rest)
    | levels + 1, first => do
      let (members, rest) ← readMembers levels bound first
      return (.object (Table.ofList members).entries, rest)
  | _ + 1, l => orMalformed (readScalar l)

/-- The items of a list up to its closing bracket. -/
def readItems (levels bound : Nat) (l : List Char) : Except JsonError (List Value × List Char) :=
  match bound with
  | 0 => .error .malformed
  | bound + 1 => do
    let (v, rest) ← read levels bound l
    match skip rest with
    | ']' :: rest => return ([v], rest)
    | ',' :: rest =>
      let (vs, rest) ← readItems levels bound (skip rest)
      return (v :: vs, rest)
    | _ => throw .malformed

/-- The members of an object up to its closing brace. -/
def readMembers (levels bound : Nat) (l : List Char) :
    Except JsonError (List (CodePoints × Value) × List Char) :=
  match bound, l with
  | bound + 1, '"' :: r => do
    let (name, rest) ← orMalformed (readText r)
    match skip rest with
    | ':' :: rest =>
      let (v, rest) ← read levels bound (skip rest)
      match skip rest with
      | '\x7d' :: rest => return ([(name, v)], rest)
      | ',' :: rest =>
        let (vs, rest) ← readMembers levels bound (skip rest)
        return ((name, v) :: vs, rest)
      | _ => throw .malformed
    | _ => throw .malformed
  | _, _ => .error .malformed

end

/-- The value that a text writes, if it writes one and nothing else. -/
def ofJson (s : String) : Except JsonError Value := do
  let (v, rest) ← read mostNested (2 * s.length + 1) (skip s.toList)
  if (skip rest).isEmpty then return v else throw .malformed

end TrellisTagger.Value
