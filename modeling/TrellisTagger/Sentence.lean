/-!
# Sentences and contexts

A tagged sentence has a tag for each word. Around it stand boundary symbols, so that every position
has two tags before it. A context is a position with its two tags of history; a labelled context
also has the tag at the position.

## Main definitions

* `TrellisTagger.Sentence` — words and tags of equal number.
* `TrellisTagger.padded` — look-up in a list that is padded on both sides.
* `TrellisTagger.Context`, `TrellisTagger.LabelledContext` — a position with its history.
* `TrellisTagger.Sentence.contexts` — the labelled contexts of a sentence, both stop positions
  included.
-/

namespace TrellisTagger

universe u

/-- A word as it stands in the text. -/
abbrev Word := String

/-- The name of a part of speech. -/
abbrev Tag := String

namespace Boundary

/-- The word and tag before a sentence. -/
def start : String := "<S>"

/-- The word and tag after a sentence. -/
def stop : String := "</S>"

end Boundary

/-- The element at a position of a list that goes on for ever on both sides, with one value before
its beginning and another after its end. -/
def padded {α : Type u} (l : List α) (i : Int) (before after : α) : α :=
  if i < 0 then before else l.getD i.toNat after

/-- A symbol at a position of a list of words or tags, with the boundary symbols around it. -/
def atPosition (l : List String) (i : Int) : String := padded l i Boundary.start Boundary.stop

/-- Words with as many tags. -/
structure Sentence where
  /-- The words. -/
  words : List Word
  /-- The tag of each word. -/
  tags : List Tag
  /-- There is a tag for each word and no other. -/
  length_eq : words.length = tags.length
  deriving DecidableEq

/-- The numbers of words and tags where they differ. -/
structure LengthMismatch where
  /-- The number of words. -/
  words : Nat
  /-- The number of tags. -/
  tags : Nat
  deriving DecidableEq

/-- The wording of a mismatch. -/
def LengthMismatch.message (e : LengthMismatch) : String :=
  "Sentence has " ++ toString e.words ++ " words but " ++ toString e.tags ++ " tags."

/-- A position in a sentence with the two tags before it. -/
structure Context where
  /-- The words of the sentence. -/
  words : List Word
  /-- The position. -/
  position : Int
  /-- The tag one position before. -/
  previous : Tag
  /-- The tag two positions before. -/
  beforePrevious : Tag
  deriving DecidableEq

/-- A context with the tag at its position. -/
structure LabelledContext extends Context where
  /-- The tag at the position. -/
  tag : Tag
  deriving DecidableEq

namespace Context

/-- The word at the position, a boundary symbol outside the sentence. -/
def word (c : Context) : Word := atPosition c.words c.position

/-- The text of a history and what follows it. -/
def describe (c : Context) (what : String) : String :=
  "[" ++ c.beforePrevious ++ ", " ++ c.previous ++ ", " ++ what ++ "]"

/-- The text of a context. -/
def text (c : Context) : String := c.describe c.word

end Context

namespace LabelledContext

/-- The tags of the history and the tag at the position. -/
def trigram (c : LabelledContext) : Tag × Tag × Tag := (c.beforePrevious, c.previous, c.tag)

/-- The text of a labelled context. -/
def text (c : LabelledContext) : String := c.describe (c.word ++ "_" ++ c.tag)

end LabelledContext

namespace Sentence

/-- Words and tags as a sentence, if there are as many of both. -/
def ofLists (words : List Word) (tags : List Tag) : Except LengthMismatch Sentence :=
  if h : words.length = tags.length then .ok ⟨words, tags, h⟩
  else .error ⟨words.length, tags.length⟩

/-- Several lists of words and tags as sentences, or the first mismatch among them. -/
def ofAllLists (corpus : List (List Word × List Tag)) : Except LengthMismatch (List Sentence) :=
  corpus.mapM fun (words, tags) => ofLists words tags

/-- The sentence of a list of tagged words. -/
def ofPairs (l : List (Word × Tag)) : Sentence :=
  ⟨l.map Prod.fst, l.map Prod.snd, by simp⟩

/-- The number of words. -/
def size (s : Sentence) : Nat := s.words.length

/-- The text of a sentence: each word joined to its tag. -/
def text (s : Sentence) : String :=
  " ".intercalate ((s.words.zip s.tags).map fun (word, tag) => word ++ "_" ++ tag)

/-- The labelled context of a position. -/
def contextAt (s : Sentence) (i : Int) : LabelledContext where
  words := s.words
  position := i
  previous := atPosition s.tags (i - 1)
  beforePrevious := atPosition s.tags (i - 2)
  tag := atPosition s.tags i

/-- The labelled contexts of a sentence. Two positions after the last word belong to it. -/
def contexts (s : Sentence) : List LabelledContext :=
  (List.range (s.size + 2)).map fun (i : Nat) => s.contextAt i

end Sentence

end TrellisTagger
