import TrellisTagger.Text.Blank

/-!
# Taggings side by side

The correct tags and the tags that were found, written over the words that they belong to. Every
word begins in a column to the right of all that stands before it, and its tags begin in the same
column.

## Main definitions

* `TrellisTagger.Alignment` — the three lines.
* `TrellisTagger.Alignment.push` — write a word with its two tags.
* `TrellisTagger.Alignment.text` — the lines of a tagging.
-/

namespace TrellisTagger

/-- The lines that show two taggings of a sentence. -/
structure Alignment where
  /-- The line of the correct tags. -/
  correct : List Char
  /-- The line of the tags that were found. -/
  found : List Char
  /-- The line of the words. -/
  words : List Char

namespace Alignment

/-- The lines before the first word: their headings. -/
def headings : Alignment where
  correct := "Gold Tags: ".toList
  found := "Guessed Tags: ".toList
  words := "Words: ".toList

/-- The length of the longest line. -/
def width (a : Alignment) : Nat := max a.correct.length (max a.found.length a.words.length)

/-- A line filled up with spaces. -/
def filled (width : Nat) (line : List Char) : List Char :=
  line ++ List.replicate (width - line.length) ' '

/-- Write a word and a space after it, and the two tags above it. Under suppression equal tags are
left out. -/
def push (suppress : Bool) (a : Alignment) (word correct found : List Char) : Alignment :=
  let shown := !(suppress && correct == found)
  { correct := filled a.width a.correct ++ if shown then correct else []
    found := filled a.width a.found ++ if shown then found else []
    words := filled a.width a.words ++ word ++ [' '] }

/-- The lines of a list of words with both tags. -/
def ofItems (suppress : Bool) (items : List (List Char × List Char × List Char)) : Alignment :=
  items.foldl (fun a item => a.push suppress item.1 item.2.1 item.2.2) headings

/-- The lines as one text. The line of the words has no blanks at its end. -/
def render (a : Alignment) : List Char :=
  a.correct ++ '\n' :: (a.found ++ '\n' :: stripRight a.words)

/-- The lines of words with correct tags and tags that were found, as far as there are all three. -/
def text (suppress : Bool) (words correct found : List String) : String :=
  let items := (words.zip (correct.zip found)).map fun (word, a, b) =>
    (word.toList, a.toList, b.toList)
  String.ofList (ofItems suppress items).render

end Alignment

end TrellisTagger
