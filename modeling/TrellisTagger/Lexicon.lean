import TrellisTagger.Frequency
import TrellisTagger.Sentence
import TrellisTagger.Tally

/-!
# Lexicons

What training tells about words and about neighbouring tags: the frequencies of the tags of each
word, those of the tags of words met for the first time, and which tag trigrams occur at all. Words
that training has not seen are treated like words met for the first time.

## Main definitions

* `TrellisTagger.Lexicon` — the frequencies and the attested trigrams.
* `TrellisTagger.Lexicon.ofContexts` — the lexicon of some labelled contexts.
* `TrellisTagger.Lexicon.row` — the tags of a word.
* `TrellisTagger.Lexicon.candidates` — the tags of a word that its history admits.
-/

namespace TrellisTagger

universe u v

/-- Tags of words, and attested tag trigrams. -/
structure Lexicon (P : Type u) where
  /-- The frequencies of the tags of each word. -/
  known : Table Word (Table Tag P)
  /-- The frequencies of tags among first occurrences of words. -/
  unknown : Table Tag P
  /-- The tag trigrams that occur. -/
  trigrams : List (Tag × Tag × Tag)

namespace Lexicon

variable {P : Type u}

/-- The lexicon before any training. -/
def empty : Lexicon P := ⟨∅, ∅, []⟩

/-- The lexicon of some labelled contexts. -/
def ofContexts [Probability P] (contexts : List LabelledContext) : Lexicon P where
  known := conditionalFrequencies (crossTally (contexts.map fun c => (c.word, c.tag)))
  unknown := relativeFrequencies
    (tally ((distinctBy (fun c => c.word) contexts).map fun c => c.tag))
  trigrams := distinct (contexts.map LabelledContext.trigram)

/-- Whether training has seen a word. -/
def knows (m : Lexicon P) (word : Word) : Bool := m.known.contains word

/-- The tags of a word with their frequencies. -/
def row (m : Lexicon P) (word : Word) : Table Tag P := m.known.getD word m.unknown

/-- Whether a tag forms an attested trigram with two tags before it. -/
def attests (m : Lexicon P) (beforePrevious previous tag : Tag) : Bool :=
  decide ((beforePrevious, previous, tag) ∈ m.trigrams)

/-- The tags of a list that form an attested trigram with two tags before them. -/
def attestedAfter (m : Lexicon P) (tags : List Tag) (beforePrevious previous : Tag) : List Tag :=
  tags.filter (m.attests beforePrevious previous)

/-- Whether a tag is attested after the history of a context. -/
def fits (m : Lexicon P) (c : Context) (tag : Tag) : Bool :=
  m.attests c.beforePrevious c.previous tag

/-- Whether some tag of the word of a context is attested after the history. -/
def someFits (m : Lexicon P) (c : Context) : Bool := (m.row c.word).keys.any (m.fits c)

/-- The tags of the word of a context with their frequencies. Under restriction only those that are
attested after the history, unless that would leave none. -/
def candidates (m : Lexicon P) (restrict : Bool) (c : Context) : Table Tag P :=
  if restrict && m.someFits c then (m.row c.word).filter fun tag _ => m.fits c tag
  else m.row c.word

/-- The log frequencies of the candidates. -/
def logScores {W : Type v} [Logarithm P W] (m : Lexicon P) (restrict : Bool) (c : Context) :
    Table Tag W :=
  (m.candidates restrict c).mapValues fun _ p => Logarithm.log p

end Lexicon

end TrellisTagger
