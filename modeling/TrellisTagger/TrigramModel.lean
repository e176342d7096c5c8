import TrellisTagger.Interpolation
import TrellisTagger.Lexicon

/-!
# The trigram model

A hidden Markov model of order two: a tag is drawn given the two tags before it, and a word given
its tag. Transitions mix the frequencies of trigrams, bigrams and unigrams; emissions are
frequencies of words under their tags. For a word that training has not seen, the emission is the
probability that an occurrence of the tag is the first occurrence of its word.

## Main definitions

* `TrellisTagger.TrigramModel` — the frequencies that make up the model.
* `TrellisTagger.TrigramModel.ofContexts` — the model of some labelled contexts.
* `TrellisTagger.TrigramModel.transition` — the probability of a tag after two others.
* `TrellisTagger.TrigramModel.unknownEmission?` — the probability of an unseen word under a tag.
* `TrellisTagger.TrigramModel.logScores` — the log scores of the tags of a word in its context.
-/

namespace TrellisTagger

universe u v

/-- The frequencies of a hidden Markov model over tags. -/
structure TrigramModel (P : Type u) where
  /-- Tags of words, and attested trigrams. -/
  lexicon : Lexicon P
  /-- The frequency of each tag. -/
  unigrams : Table Tag P
  /-- The frequency of each tag after another. -/
  bigrams : Table Tag (Table Tag P)
  /-- The frequency of each tag after two others. -/
  trigrams : Table (Tag × Tag) (Table Tag P)
  /-- The frequency of each word under a tag. -/
  emissions : Table Tag (Table Word P)
  /-- The number of different words per context. -/
  unknownRate : P

namespace TrigramModel

variable {P : Type u} [Probability P]

/-- The model before any training. -/
def empty : TrigramModel P := ⟨.empty, ∅, ∅, ∅, ∅, 0⟩

/-- The model of some labelled contexts. -/
def ofContexts (contexts : List LabelledContext) : TrigramModel P :=
  let lexicon := Lexicon.ofContexts contexts
  let counts := TagCounts.ofContexts contexts
  { lexicon
    unigrams := relativeFrequencies counts.unigrams
    bigrams := conditionalFrequencies counts.bigrams
    trigrams := conditionalFrequencies counts.trigrams
    emissions := conditionalFrequencies (crossTally (contexts.map fun c => (c.tag, c.word)))
    unknownRate := if contexts.isEmpty then 0 else ratio lexicon.known.size contexts.length }

/-- The probability of a tag after two others. -/
def transition (m : TrigramModel P) (w : Interpolation P) (beforePrevious previous tag : Tag) : P :=
  w.mix ((m.trigrams.getD (beforePrevious, previous) ∅).getD tag 0)
    ((m.bigrams.getD previous ∅).getD tag 0) (m.unigrams.getD tag 0)

/-- The probability of an unseen word under a tag. A tag that occurs, but on no first occurrence of
a word, has none. -/
def unknownEmission? (m : TrigramModel P) (tag : Tag) : Option P :=
  let share : P := m.unigrams.getD tag 0
  if share == 0 then some 0
  else (m.lexicon.unknown.get? tag).map fun p => p * m.unknownRate / share

/-- The probability of a word under a tag. A tag under which no word occurs has none. -/
def emission? (m : TrigramModel P) (word : Word) (tag : Tag) : Option P :=
  if m.lexicon.knows word then (m.emissions.get? tag).map (·.getD word 0)
  else m.unknownEmission? tag

/-- The two factors of the joint probability of a tag and the word of a context: that of the tag
after the history, and that of the word under the tag. -/
def factors (m : TrigramModel P) (w : Interpolation P) (c : Context) (tag : Tag) : P × P :=
  (m.transition w c.beforePrevious c.previous tag, (m.emission? c.word tag).getD 0)

/-- The log scores of the tags of the word of a context. Under restriction a tag that is not
attested after the history is impossible, unless none is attested. -/
def logScores {W : Type v} [LogWeight W] [Logarithm P W] (m : TrigramModel P) (w : Interpolation P)
    (restrict : Bool) (c : Context) : Table Tag W :=
  let restricted := restrict && m.lexicon.someFits c
  (m.lexicon.row c.word).mapValues fun tag _ =>
    if restricted && !m.lexicon.fits c tag then impossible
    else
      let (transition, emission) := m.factors w c tag
      logWeight transition + logWeight emission

end TrigramModel

end TrellisTagger
