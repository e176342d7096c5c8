import TrellisTagger.Text.Pieces
import TrellisTagger.Text.Ranges

/-!
# Blanks

The characters that separate fields: those with the white space property of Unicode, and the four
information separators of ASCII.

## Main definitions

* `TrellisTagger.isBlank` — the table of blanks.
* `TrellisTagger.fields` — what stands between blanks.
* `TrellisTagger.isAllBlank` — nothing but blanks.
* `TrellisTagger.stripRight`, `TrellisTagger.strip` — a text without blanks at its end, or at both.

## Main results

* `TrellisTagger.isBlank_of_isWhitespace` — the white space of ASCII is blank.
-/

namespace TrellisTagger

/-- The ranges of code points that are blank. -/
def blankRanges : Ranges :=
  [(0x0009, 0x000D), (0x001C, 0x0020), (0x0085, 0x0085), (0x00A0, 0x00A0), (0x1680, 0x1680),
    (0x2000, 0x200A), (0x2028, 0x2029), (0x202F, 0x202F), (0x205F, 0x205F), (0x3000, 0x3000)]

/-- Whether a character is a blank. -/
def isBlank (c : Char) : Bool := blankRanges.contains c

/-- The fields of a line: the longest stretches without blanks. -/
def fields (line : List Char) : List (List Char) := runs isBlank line

/-- Whether a text has nothing but blanks. -/
def isAllBlank (l : List Char) : Bool := l.all isBlank

/-- A text without the blanks at its end. -/
def stripRight (l : List Char) : List Char := (l.reverse.dropWhile isBlank).reverse

/-- A text without the blanks at both ends. -/
def strip (l : List Char) : List Char := stripRight (l.dropWhile isBlank)

/-- What the standard library counts as white space is blank. -/
theorem isBlank_of_isWhitespace {c : Char} (h : c.isWhitespace = true) : isBlank c = true := by
  simp only [Char.isWhitespace, Bool.or_eq_true, decide_eq_true_eq] at h
  rcases h with ((rfl | rfl) | rfl) | rfl <;> decide

example : blankRanges.IsAscending := by decide

example : blankRanges.count = 29 := by decide

end TrellisTagger
