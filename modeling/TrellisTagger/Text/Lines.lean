import TrellisTagger.Text.Pieces

/-!
# Lines

A line ends at a line feed, at a carriage return, or at a carriage return with a line feed after it.
In a file no other character ends a line. Where a text is laid out, the other characters that begin
a new line on a page end one too.

## Main definitions

* `TrellisTagger.unifyBreaks` — every line end as one line feed.
* `TrellisTagger.lines` — the lines of a file, without their ends.
* `TrellisTagger.endedLines` — the lines of the beginning of a file, as far as they are known.
* `TrellisTagger.shownLines` — the lines of a text that is laid out.
-/

namespace TrellisTagger

/-- Write every line end as a line feed: a carriage return becomes one, and a line feed right after
a carriage return is dropped. -/
def unifyBreaks (text : List Char) : List Char :=
  ((none :: text.map some).zip text).filterMap fun (before, c) =>
    if c = '\n' ∧ before = some '\r' then none
    else some (if c = '\r' then '\n' else c)

/-- The pieces of a text between the characters that end a line. The end of the last line may be
missing; after an end that is there, no further line begins. -/
def linesAt (isEnd : Char → Bool) (text : List Char) : List (List Char) :=
  let all := pieces isEnd (unifyBreaks text)
  if all.getLast? = some [] then all.dropLast else all

/-- The lines of a file. -/
def lines (text : List Char) : List (List Char) := linesAt (· == '\n') text

/-- The lines that are known of a file when only a text at its beginning is: those whose end is in
the text. A carriage return at the end of the text does not yet count, since it may be half of a
line end. -/
def endedLines (text : List Char) : List (List Char) :=
  let sure := if text.getLast? = some '\r' then text.dropLast else text
  (pieces (· == '\n') (unifyBreaks sure)).dropLast

/-- The characters other than line feed and carriage return that begin a new line: vertical tab,
form feed, three of the information separators, next line, line separator and paragraph
separator. -/
def layoutBreaks : List Char :=
  ['\x0b', '\x0c', '\x1c', '\x1d', '\x1e', '\u0085', '\u2028', '\u2029']

/-- The lines of a text that is laid out. -/
def shownLines (text : List Char) : List (List Char) :=
  linesAt (fun c => c == '\n' || layoutBreaks.contains c) text

end TrellisTagger
