import TrellisTagger.Text.Alphanumeric
import TrellisTagger.Text.Blank
import TrellisTagger.Text.Control
import TrellisTagger.Text.Lines

/-!
# Breaking lines

A text is broken into lines of a greatest width. Lines are broken between words, behind the hyphen
of a compound, and before or behind a dash; a word that exceeds a line is cut where the line ends.
Blanks at a break are dropped.

## Main definitions

* `TrellisTagger.Wrap.pieces` — the parts of a line that are kept together.
* `TrellisTagger.Wrap.lines` — a line broken into lines of a greatest width.
* `TrellisTagger.Wrap.resume` — lines that end and resume the settings of the console.
* `TrellisTagger.wrap` — a text of several lines, broken into lines of a greatest width.

## Main results

* `TrellisTagger.Wrap.flatten_pieces` — the pieces of a line make up the line.
-/

namespace TrellisTagger

namespace Wrap

/-! ### Pieces -/

/-- The number of characters between two tab stops. -/
def tabWidth : Nat := 8

/-- A line with spaces up to the next tab stop in place of each tab. -/
def expandTabs (column : Nat) : List Char → List Char
  | [] => []
  | '\t' :: l =>
    let n := tabWidth - column % tabWidth
    List.replicate n ' ' ++ expandTabs (column + n) l
  | c :: l => c :: expandTabs (column + 1) l

/-- Whether a character can stand beside a dash between words. -/
def isWordEnd (c : Char) : Bool := isWordCharacter c || "!\"'&.,?".toList.contains c

/-- Whether a dash stands at the front of a text: two or more hyphens with a word character behind
them. What comes before is given backwards and must end a word. -/
def isAtDash (before l : List Char) : Bool :=
  before.head?.any isWordEnd && 2 ≤ (l.takeWhile (· == '-')).length &&
    (l.dropWhile (· == '-')).head?.any isWordCharacter

/-- Whether a text begins with two letters, between which there may be a hyphen. -/
def beginsCompound : List Char → Bool
  | a :: '-' :: b :: _ => isLetter a && isLetter b
  | a :: b :: _ => isLetter a && isLetter b
  | _ => false

/-- Whether a line can be broken behind a hyphen: there are letters on both sides of it. What comes
before the hyphen is given backwards. -/
def isBreakable (before after : List Char) : Bool := beginsCompound before && beginsCompound after

/-- The length of the word at the front of a text, of which the first character is given with what
comes before it, backwards: up to a space, a dash, or behind a hyphen at which it can be broken. -/
def wordLength (before : List Char) : List Char → Nat
  | [] => 1
  | c :: l =>
    if c = ' ' ∨ isAtDash before (c :: l) then 1
    else if c = '-' ∧ isBreakable before l then 2
    else wordLength (c :: before) l + 1

/-- The length of the piece that begins with a character. What comes before is given backwards. -/
def pieceLength (before : List Char) (c : Char) (l : List Char) : Nat :=
  if c = ' ' then (l.takeWhile (· == ' ')).length + 1
  else if isAtDash before (c :: l) then (l.takeWhile (· == '-')).length + 1
  else wordLength (c :: before) l

/-- The pieces of the rest of a line. What comes before is given backwards. -/
def piecesAfter (before l : List Char) : List (List Char) :=
  match l with
  | [] => []
  | c :: r =>
    let n := pieceLength before c r - 1
    (c :: r.take n) :: piecesAfter ((r.take n).reverse ++ c :: before) (r.drop n)
termination_by l.length

/-- The parts of a line that are kept together: spaces, dashes, words and parts of compounds. -/
def pieces (l : List Char) : List (List Char) := piecesAfter [] l

/-- The pieces of a text, one behind the other, are the text, whatever comes before it. -/
theorem flatten_piecesAfter (before l : List Char) : (piecesAfter before l).flatten = l := by
  fun_induction piecesAfter before l with
  | case1 => rfl
  | case2 before c r n ih => rw [List.flatten_cons, ih, List.cons_append, List.take_append_drop]

/-- **The pieces of a text, one behind the other, are the text.** -/
theorem flatten_pieces (l : List Char) : (pieces l).flatten = l := flatten_piecesAfter [] l

/-! ### Lines -/

/-- As many pieces as fit into a width, and the others. -/
def fit (width : Nat) : List (List Char) → List (List Char) × List (List Char)
  | [] => ([], [])
  | p :: ps =>
    if visibleWidth p ≤ width then
      let (taken, rest) := fit (width - visibleWidth p) ps
      (p :: taken, rest)
    else ([], p :: ps)

/-- Whether a text occurs in another. -/
def occursIn (part : List Char) : List Char → Bool
  | [] => part.isEmpty
  | c :: l => part.isPrefixOf (c :: l) || occursIn part l

/-- The number of characters up to the end of the first control sequence. -/
def firstSequenceEnd (l : List Char) : Nat :=
  let parts := controlParts 0 l
  let before := (parts.takeWhile Sum.isLeft).length
  before + ((controlSequences l).head?.elim 0 fun s => s.characters.length)

/-- Where a piece is cut of which a number of characters may show. Every control sequence that
occurs before the cut, and behind those already found, moves it by its length. -/
def cutLength (room : Nat) (piece : List Char) : Nat :=
  let (hidden, _) := (controlSequences piece).foldl (fun (hidden, done) s =>
    let n := s.characters.length
    if occursIn s.characters ((piece.take (room + hidden + n)).drop done) then
      (hidden + n, done + firstSequenceEnd (piece.drop done))
    else (hidden, done)) (0, 0)
  room + hidden

/-- Fill one line: the pieces on it, and those that are left. A piece that exceeds the width of a
line is cut, if the line has room. -/
def fillLine (width : Nat) (ps : List (List Char)) : List (List Char) × List (List Char) :=
  let (taken, rest) := fit width ps
  let room := width - (taken.map visibleWidth).foldr (· + ·) 0
  match rest with
  | [] => (taken, [])
  | p :: rest =>
    if visibleWidth p ≤ width ∨ room = 0 then (taken, p :: rest)
    else
      let n := cutLength room p
      (taken ++ [p.take n], p.drop n :: rest)

/-- Pieces without the last one if it is blank. -/
def dropLastBlank (ps : List (List Char)) : List (List Char) :=
  if ps.getLast?.any isAllBlank then ps.dropLast else ps

/-- Pieces without the first one if it is blank. -/
def dropFirstBlank : List (List Char) → List (List Char)
  | [] => []
  | p :: ps => if isAllBlank p then ps else p :: ps

/-- Lines made of pieces, of at most a number. Blanks are dropped at the end of every line, and at
the beginning of all but the first. -/
def fill (width : Nat) (isFirst : Bool) : Nat → List (List Char) → List (List Char)
  | 0, _ => []
  | bound + 1, ps =>
    if ps.isEmpty then []
    else
      let (taken, rest) := fillLine width (if isFirst then ps else dropFirstBlank ps)
      match dropLastBlank taken with
      | [] => fill width isFirst bound rest
      | line => line.flatten :: fill width false bound rest

/-- A line broken into lines of a greatest width. Every line takes a character or the last piece, so
there are hardly more lines than characters. -/
def lines (width : Nat) (line : List Char) : List (List Char) :=
  let line := expandTabs 0 line
  fill width true (line.length + 2) (pieces line)

/-! ### Settings of the console -/

/-- The control sequence that takes all settings back. -/
def reset : List Char := "\x1b[0m".toList

/-- Lines each of which stands on its own: it begins with the settings in force, and takes back what
is in force at its end. -/
def resume (active : List (List Char)) : List (List Char) → List (List Char)
  | [] => []
  | line :: rest =>
    let after := (controlSequences line).foldl
      (fun active s => if s.characters = reset then [] else active ++ [s.characters]) active
    (active.flatten ++ line ++ if after.isEmpty then [] else reset) :: resume after rest

end Wrap

/-- A text broken into lines of a greatest width. Its own lines are kept apart, and those of nothing
but blanks are dropped. -/
def wrap (width : Nat) (text : List Char) : List (List Char) :=
  let kept := (shownLines text).filter fun line => !isAllBlank line
  Wrap.resume [] (kept.flatMap (Wrap.lines width))

end TrellisTagger
