import TrellisTagger.Number.Decimal
import TrellisTagger.SentenceTrellis
import TrellisTagger.TrigramModel

/-!
# Scorers

A scorer is a model that has been trained, or not yet, together with the settings under which it
scores the tags of a context.

## Main definitions

* `TrellisTagger.LexicalScorer` — scores each tag by its frequency with the word.
* `TrellisTagger.TrigramScorer` — scores each tag by the trigram model.
* `TrellisTagger.Scorer` — either of them.
* `TrellisTagger.Scorer.train`, `TrellisTagger.Scorer.trainOn` — learn from contexts, or from
  sentences.
* `TrellisTagger.Scorer.logScores` — the scores of the tags of a context.

## Design

Training replaces the model by that of the new contexts. Only the interpolation weights outlive it:
where they are to be estimated and nothing votes on them, the present ones stay.
-/

namespace TrellisTagger

universe u v

/-- A scorer that looks at the word and the attested trigrams. -/
structure LexicalScorer (P : Type u) where
  /-- Whether tags that are not attested after the history are left out. -/
  restrict : Bool
  /-- What training has found. -/
  lexicon : Lexicon P := .empty

/-- A scorer that uses the trigram model. -/
structure TrigramScorer (P : Type u) where
  /-- Whether tags that are not attested after the history are impossible. -/
  restrict : Bool
  /-- Whether training estimates the interpolation weights. -/
  estimate : Bool
  /-- The present interpolation weights. -/
  weights : Interpolation P
  /-- What training has found. -/
  model : TrigramModel P

/-- A scorer of either kind. -/
inductive Scorer (P : Type u) where
  /-- Score by the frequencies of tags with words. -/
  | lexical (s : LexicalScorer P)
  /-- Score by the trigram model. -/
  | trigram (s : TrigramScorer P)

namespace TrigramScorer

variable {P : Type u} [Probability P]

/-- The interpolation weights that a scorer has after training. -/
def weightsAfter (s : TrigramScorer P) (contexts : List LabelledContext) : Interpolation P :=
  if s.estimate then
    match (TagCounts.ofContexts contexts).deletedInterpolation with
    | some shares => ⟨shares.trigram, shares.bigram⟩
    | none => s.weights
  else s.weights

/-- Learn from labelled contexts. -/
def train (s : TrigramScorer P) (contexts : List LabelledContext) : TrigramScorer P :=
  { s with weights := s.weightsAfter contexts, model := .ofContexts contexts }

/-- The scores of the tags of a context. -/
def logScores {W : Type v} [LogWeight W] [Logarithm P W] (s : TrigramScorer P) : Scores W :=
  s.model.logScores s.weights s.restrict

end TrigramScorer

namespace Scorer

section Learning

variable {P : Type u} [Probability P]

/-- Learn from labelled contexts. -/
def train (s : Scorer P) (contexts : List LabelledContext) : Scorer P :=
  match s with
  | .lexical s => .lexical { s with lexicon := .ofContexts contexts }
  | .trigram s => .trigram (s.train contexts)

/-- Learn from words and tags, if every list of words has as many tags. -/
def trainOn (s : Scorer P) (corpus : List (List Word × List Tag)) :
    Except LengthMismatch (Scorer P) :=
  (Sentence.ofAllLists corpus).map fun sentences => s.train (sentences.flatMap Sentence.contexts)

/-- The scores of the tags of a context. -/
def logScores {W : Type v} [LogWeight W] [Logarithm P W] : Scorer P → Scores W
  | .lexical s => s.lexicon.logScores s.restrict
  | .trigram s => s.logScores

end Learning

/-- What a scorer knows about words and attested trigrams. -/
def lexicon {P : Type u} : Scorer P → Lexicon P
  | .lexical s => s.lexicon
  | .trigram s => s.model.lexicon

/-- The text of a truth value. -/
def truth (b : Bool) : String := if b then "True" else "False"

/-- The text of a scorer. -/
def text : Scorer Float → String
  | .lexical s => "MostFrequentTagScorer(restrict_trigrams=" ++ truth s.restrict ++ ")"
  | .trigram s =>
    "TrigramHMMScorer(restrict_trigrams=" ++ truth s.restrict ++ ", lambda1=" ++
      Decimal.fixed 3 s.weights.trigram ++ ", lambda2=" ++ Decimal.fixed 3 s.weights.bigram ++ ")"

end Scorer

end TrellisTagger
