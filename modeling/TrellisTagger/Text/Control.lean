import TrellisTagger.Text.Alphanumeric
import TrellisTagger.Text.Pieces

/-!
# Control sequences

Sequences of characters that a console obeys and does not show: settings of colour and the like, and
links, of which only the text shows.

## Main definitions

* `TrellisTagger.ControlSequence` — a sequence, with what of it shows.
* `TrellisTagger.controlSequences` — the sequences in a text.
* `TrellisTagger.visible` — what of a text shows.
* `TrellisTagger.visibleWidth` — how many characters show.

## Main results

* `TrellisTagger.visible_eq_self` — a text without escape characters shows as it is.
-/

namespace TrellisTagger

/-- A control sequence. -/
structure ControlSequence where
  /-- All of its characters. -/
  characters : List Char
  /-- Those that show. -/
  shown : List Char

namespace ControlSequence

/-- The character that begins every control sequence. -/
def escape : Char := '\x1b'

/-- Whether the code point of a character lies between two others. -/
def isBetween (low high : Nat) (c : Char) : Bool := low ≤ c.toNat && c.toNat ≤ high

/-- A setting of the console after its two introductory characters: parameters, intermediate
characters, a final one. -/
def setting? (l : List Char) : Option (List Char) :=
  let parameters := l.takeWhile (isBetween 0x30 0x3F)
  let rest := l.dropWhile (isBetween 0x30 0x3F)
  let intermediate := rest.takeWhile (isBetween 0x20 0x2F)
  match rest.dropWhile (isBetween 0x20 0x2F) with
  | final :: _ =>
    if isBetween 0x40 0x7E final then some (parameters ++ intermediate ++ [final]) else none
  | [] => none

/-- What follows a text, if the text stands at the front. -/
def after? (expected : String) (l : List Char) : Option (List Char) :=
  if expected.toList.isPrefixOf l then some (l.drop expected.length) else none

/-- The characters up to the next escape character, of which there is at least one, and what follows
them. -/
def upToEscape? (l : List Char) : Option (List Char × List Char) :=
  let part := l.takeWhile (· != escape)
  if part.isEmpty then none else some (part, l.dropWhile (· != escape))

/-- Whether there are characters, and colons neither among nor behind them. -/
def isName (l : List Char) : Bool := !l.isEmpty && !l.contains ':'

/-- Whether a text is a value behind which a colon may stand. -/
def isLastValue (l : List Char) : Bool :=
  isName (if l.getLast? = some ':' then l.dropLast else l)

/-- Whether a text is a value with the name of the next parameter behind it. The colon between them
can be left out. -/
def isValueAndName (l : List Char) : Bool :=
  match pieces (· == ':') l with
  | [both] => 2 ≤ both.length
  | [value, name] => !value.isEmpty && !name.isEmpty
  | _ => false

/-- Whether the parameters of a link are well formed: there are none, or each is a name and a value
with an equals sign between them, and a colon may follow it. -/
def areParameters (l : List Char) : Bool :=
  l.isEmpty ||
    match pieces (· == '=') l with
    | name :: values =>
      isName name && values.getLast?.any isLastValue && values.dropLast.all isValueAndName
    | [] => false

/-- The text of a link, and what follows the link. A link has parameters, an address and a text. -/
def link? (l : List Char) : Option (List Char × List Char) := do
  let rest ← after? "\x1b]8;" l
  let isParameter (c : Char) : Bool := isWordCharacter c || c == '=' || c == ':'
  guard (areParameters (rest.takeWhile isParameter))
  let rest ← after? ";" (rest.dropWhile isParameter)
  let (_, rest) ← upToEscape? rest
  let rest ← after? "\x1b\\" rest
  let (text, rest) ← upToEscape? rest
  let rest ← after? "\x1b]8;;\x1b\\" rest
  return (text, rest)

/-- The control sequence at the front of a text. -/
def atFront? (l : List Char) : Option ControlSequence :=
  match after? "\x1b[" l with
  | some rest => (setting? rest).map fun part => ⟨escape :: '[' :: part, []⟩
  | none => (link? l).map fun (text, rest) => ⟨l.take (l.length - rest.length), text⟩

end ControlSequence

/-- The parts of a text, of which the first characters belong to a control sequence that has been
read: single characters and control sequences. -/
def controlParts (skipped : Nat) : List Char → List (Char ⊕ ControlSequence)
  | [] => []
  | c :: l =>
    match skipped with
    | n + 1 => controlParts n l
    | 0 =>
      match if c = ControlSequence.escape then ControlSequence.atFront? (c :: l) else none with
      | some s => .inr s :: controlParts (s.characters.length - 1) l
      | none => .inl c :: controlParts 0 l

/-- The control sequences in a text. -/
def controlSequences (l : List Char) : List ControlSequence :=
  (controlParts 0 l).filterMap fun part =>
    match part with
    | .inl _ => none
    | .inr s => some s

/-- What of a text shows. -/
def visible (l : List Char) : List Char :=
  (controlParts 0 l).flatMap fun part =>
    match part with
    | .inl c => [c]
    | .inr s => s.shown

/-- How many characters of a text show. -/
def visibleWidth (l : List Char) : Nat := (visible l).length

/-- A text without escape characters shows as it is. -/
theorem visible_eq_self {l : List Char} (h : ControlSequence.escape ∉ l) : visible l = l := by
  induction l with
  | nil => rfl
  | cons c l ih =>
    obtain ⟨hc, hl⟩ := not_or.1 (mt List.mem_cons.2 h)
    have hne : ¬ c = ControlSequence.escape := fun e => hc e.symm
    have := ih hl
    unfold visible at this ⊢
    simp only [controlParts, if_neg hne, List.flatMap_cons, this, List.cons_append, List.nil_append]

end TrellisTagger
