import TrellisTagger.Grid.Value
import TrellisTagger.Number.Numeral
import TrellisTagger.Text.Box

/-!
# Columns of values

The values of a setting, or of a figure, as a column of a report. Texts that write numbers count as
numbers. If all values of a column are numbers, its cells keep to the right, with their points one
below another, and fractions are written in few digits.

## Main definitions

* `TrellisTagger.ColumnKind` — what the values of a column are.
* `TrellisTagger.Value.cellText` — a value as it is shown in a column.
* `TrellisTagger.Box.Column.ofValues` — the column of some values.
-/

namespace TrellisTagger

/-- What a value can be for a report, from the special to the general. -/
inductive ColumnKind where
  /-- No value. -/
  | nothing
  /-- A truth value. -/
  | truth
  /-- A whole number. -/
  | whole
  /-- Any other number. -/
  | number
  /-- Anything else. -/
  | text
  deriving DecidableEq

namespace ColumnKind

/-- The place of a kind between the special and the general. -/
def rank : ColumnKind → Nat
  | nothing => 0
  | truth => 1
  | whole => 2
  | number => 3
  | text => 4

/-- The more general of two kinds. -/
def join (a b : ColumnKind) : ColumnKind := if a.rank < b.rank then b else a

/-- Whether a text writes a number. An infinity, or what is no number, must be written by its short
name. -/
def writesNumber (s : String) : Bool :=
  match Numeral.float? s with
  | none => false
  | some x =>
    match Binary64.view x with
    | .finite _ _ _ => true
    | _ => ["inf", "-inf", "nan"].contains (String.ofList (s.toList.map Char.toLower))

/-- Whether a text is a number with commas between groups of three digits, or what is left of one
without its digits before the point, or without all of it. A line feed may stand at the end. -/
def isGrouped (s : String) : Bool :=
  let l := s.toList
  let l := if l.getLast? = some '\n' then l.dropLast else l
  let (_, digits) := Numeral.sign (l.takeWhile (· != '.'))
  let fraction := l.dropWhile (· != '.')
  let groups := pieces (· == ',') digits
  let isGroup (g : List Char) : Bool := g.length = 3 && g.all Char.isDigit
  let first := groups.headD []
  if l.head?.all (· == '.') then
    fraction.isEmpty || (2 ≤ fraction.length && (fraction.drop 1).all Char.isDigit)
  else
    !first.isEmpty && first.length ≤ 3 && first.all Char.isDigit && (groups.drop 1).all isGroup &&
      (fraction.drop 1).all Char.isDigit

/-- What a text is. Control sequences do not matter. -/
def ofText (s : String) : ColumnKind :=
  let s := String.ofList (visible s.toList)
  if s.isEmpty then nothing
  else if s = "True" ∨ s = "False" then truth
  else if (Numeral.int? s).isSome || (isGrouped s && !s.contains '.') then whole
  else if writesNumber s || isGrouped s then number
  else text

/-- What a value is. -/
def ofValue : Value → ColumnKind
  | .null => nothing
  | .bool _ => truth
  | .int _ => whole
  | .float _ => number
  | .string s => ofText s.text
  | .list _ | .object _ => text

/-- What the values of a column are: the most general of their kinds, and at least truth values. -/
def ofValues (values : List Value) : ColumnKind := (values.map ofValue).foldl join truth

/-- Whether a column holds numbers. -/
def isNumeric : ColumnKind → Bool
  | whole | number => true
  | _ => false

end ColumnKind

/-- The digits of a number, if a character that does not show, the settings of a colour, the digits
and again something that does not show stand at the front: what is before the digits, the digits
with their points, and what is behind them. -/
def colouredDigits? (l : List Char) : Option (List Char × List Char × List Char) := do
  let isEscaped (c : Char) : Bool := !ControlSequence.isBetween 0x20 0x7E c || c == '\\'
  let first :: rest := l | none
  guard (isEscaped first && first.toNat < 0x100)
  guard !(['\t', '\n', '\r', '\\'].contains first)
  let rest := rest.dropWhile fun c => c.isDigit || "abcdefABCDEF".toList.contains c
  let '[' :: rest := rest | none
  let codes := rest.takeWhile Char.isDigit
  let rest := rest.drop codes.length
  let marks := rest.takeWhile fun c => c == 'm' || c == 'M'
  let rest := rest.drop marks.length
  let digits := rest.takeWhile fun c => c.isDigit || c == '.'
  let rest := rest.drop digits.length
  guard (!codes.isEmpty && !marks.isEmpty && !digits.isEmpty && rest.head?.any isEscaped)
  return (l.take (l.length - digits.length - rest.length), digits, rest)

/-- The first number with a colour in a text, from its colour on: what is before its digits, the
digits with their points, and what is behind them. -/
def firstColoured? : List Char → Option (List Char × List Char × List Char)
  | [] => none
  | c :: l => (colouredDigits? (c :: l)).or (firstColoured? l)

/-- Digits without zeros at the front. -/
def withoutZeros (digits : List Char) : List Char :=
  match digits.dropWhile (· == '0') with
  | [] => ['0']
  | kept => kept

/-- A text that writes a whole number. Where the number has a colour, what stands before the colour
is dropped, as are zeros at the front. -/
def wholeText (l : List Char) : List Char :=
  match firstColoured? l with
  | some (before, digits, after) =>
    if digits.all Char.isDigit then before ++ withoutZeros digits ++ after else l
  | none => l

/-- A text among numbers, with its number in few digits. In a report with control sequences they
stay around the number; in any other the commas between the digits are dropped. What writes no
number stays as it is. -/
def numberText (coloured : Bool) (s : String) : String :=
  let shown := String.ofList (if coloured then visible s.toList else s.toList.filter (· != ','))
  match Numeral.float? shown with
  | some x => if coloured then s.replace shown (Decimal.compact x) else Decimal.compact x
  | none => if coloured then s else shown

/-- A value as it is shown in a column of a kind. -/
def Value.cellText (coloured : Bool) (kind : ColumnKind) (v : Value) :
    Except Binary64.RangeError String :=
  match kind, v with
  | _, null => .ok ""
  | .whole, string s => .ok (String.ofList (wholeText s.text.toList))
  | .number, bool b => .ok (if b then "1" else "0")
  | .number, int i =>
    if Binary64.exceeds i then .error .integer else .ok (Decimal.compact (Binary64.ofInt i))
  | .number, float x => .ok (Decimal.compact x)
  | .number, string s => .ok (numberText coloured s.text)
  | _, v => .ok v.text

/-- The number of characters from the point of a number on, or else from behind the mark of its
exponent on. Of a whole number there are none. -/
def tailLength (text : List Char) : Nat :=
  let l := visible text
  let s := String.ofList l
  let tail (isMark : Char → Bool) : Nat :=
    if l.any isMark then (l.reverse.takeWhile fun c => !isMark c).length + 1 else 0
  if (Numeral.int? s).isSome || !(ColumnKind.writesNumber s || ColumnKind.isGrouped s) then 0
  else if l.contains '.' then tail (· == '.')
  else tail fun c => c == 'e' || c == 'E'

/-- Numbers with blanks behind them that bring their points one below another. -/
def alignPoints (texts : List (List Char)) : List (List Char) :=
  let most := (texts.map tailLength).foldl max 0
  texts.map fun text => text ++ List.replicate (most - tailLength text) ' '

/-- The column of some values. -/
def Box.Column.ofValues (coloured : Bool) (heading : String) (values : List Value) :
    Except Binary64.RangeError Box.Column := do
  let kind := ColumnKind.ofValues values
  let texts := (← values.mapM (Value.cellText coloured kind)).map String.toList
  return if kind.isNumeric then ⟨heading.toList, .right, alignPoints texts⟩
    else ⟨heading.toList, .left, texts⟩

end TrellisTagger
