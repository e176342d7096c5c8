import TrellisTagger.Number.Decimal
import TrellisTagger.Table
import TrellisTagger.Text.Quoted

/-!
# Values of settings

The values that a grid search can try for a setting. They are written in JSON, and any JSON value
may stand for any setting: a scorer of a strange name is refused when it is built, and everything
can be read as true or false.

## Main definitions

* `TrellisTagger.Value` — a JSON value.
* `TrellisTagger.Value.text` — how a value is shown in a report or a message.
* `TrellisTagger.Value.isTrue`, `TrellisTagger.Value.number?`, `TrellisTagger.Value.int?` — a value
  as a truth value, as a number, as a whole number.
* `TrellisTagger.Value.levels` — how deep a value is.
* `TrellisTagger.Value.choices?` — the values to try that a value lists.
-/

namespace TrellisTagger

/-- A JSON value. Whole numbers are told apart from other numbers. -/
inductive Value where
  /-- No value. -/
  | null
  /-- A truth value. -/
  | bool (b : Bool)
  /-- A whole number. -/
  | int (i : Int)
  /-- Any other number. -/
  | float (x : Float)
  /-- A text. -/
  | string (s : CodePoints)
  /-- A list of values. -/
  | list (l : List Value)
  /-- Named values. -/
  | object (l : List (CodePoints × Value))

namespace Value

/-- A text of characters as a value. -/
def ofString (s : String) : Value := string (.ofString s)

mutual

/-- A value as it is shown inside a list or an object, where texts are quoted. -/
def inner : Value → String
  | null => "None"
  | bool b => if b then "True" else "False"
  | int i => toString i
  | float x => Decimal.plain x
  | string s => s.quoted
  | list l => "[" ++ ", ".intercalate (innerItems l) ++ "]"
  | object l => "\x7b" ++ ", ".intercalate (innerMembers l) ++ "\x7d"

/-- The items of a list as they are shown. -/
def innerItems : List Value → List String
  | [] => []
  | v :: l => inner v :: innerItems l

/-- The members of an object as they are shown. -/
def innerMembers : List (CodePoints × Value) → List String
  | [] => []
  | (name, v) :: l => (name.quoted ++ ": " ++ inner v) :: innerMembers l

end

/-- A value as it is shown on its own. -/
def text : Value → String
  | string s => s.text
  | v => v.inner

/-- Whether a value counts as true: it is neither absent nor zero nor empty. -/
def isTrue : Value → Bool
  | null => false
  | bool b => b
  | int i => i != 0
  | float x => x != 0
  | string s => !s.points.isEmpty
  | list l => !l.isEmpty
  | object l => !l.isEmpty

/-- A value as a number. -/
def number? : Value → Option Float
  | bool b => some (if b then 1 else 0)
  | int i => some (Binary64.ofInt i)
  | float x => some x
  | _ => none

/-- A whole number as a number. -/
def int? : Value → Option Int
  | int i => some i
  | _ => none

/-- Whether a value is a whole number, or a truth value, which counts as one. -/
def isWhole : Value → Bool
  | bool _ | int _ => true
  | _ => false

/-- Whether a value is a whole number that exceeds all floats. -/
def exceeds : Value → Bool
  | int i => Binary64.exceeds i
  | _ => false

/-- The name that messages have for values of a kind. -/
def kind : Value → String
  | null => "NoneType"
  | bool _ => "bool"
  | int _ => "int"
  | float _ => "float"
  | string _ => "str"
  | list _ => "list"
  | object _ => "dict"

/-- Whether a value consists of others. Such a value names nothing. -/
def isCompound : Value → Bool
  | list _ | object _ => true
  | _ => false

mutual

/-- How many levels deep a value is: three for what has no parts, and two more for each list or
object around it. -/
def levels : Value → Nat
  | list l => levelsOfItems l + 2
  | object l => levelsOfMembers l + 2
  | _ => 3

/-- The levels of the deepest item of a list. -/
def levelsOfItems : List Value → Nat
  | [] => 0
  | v :: l => max v.levels (levelsOfItems l)

/-- The levels of the deepest member of an object, the names included. -/
def levelsOfMembers : List (CodePoints × Value) → Nat
  | [] => 0
  | (_, v) :: l => max (max 3 v.levels) (levelsOfMembers l)

end

/-- The values that a value lists: the elements of a list, the characters of a text, the names of an
object. -/
def choices? : Value → Option (List Value)
  | list l => some l
  | string s => some (s.points.map fun n => string ⟨[n]⟩)
  | object l => some (l.map fun (key, _) => string key)
  | _ => none

end Value

end TrellisTagger
