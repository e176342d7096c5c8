import TrellisTagger.Evaluation.Alignment
import TrellisTagger.Evaluation.Average
import TrellisTagger.Journal
import TrellisTagger.Tagging

/-!
# Evaluation

Sentences with correct tags are tagged, and both taggings are compared. A sentence that cannot be
tagged is skipped and counts for nothing else.

## Main definitions

* `TrellisTagger.Outcome` — what came of one sentence.
* `TrellisTagger.Evaluation` — the outcomes of some sentences.
* `TrellisTagger.evaluate` — tag the sentences.
* `TrellisTagger.Stats` — the figures that sum up an evaluation.
* `TrellisTagger.Evaluation.stats` — the figures, given the known words.
-/

namespace TrellisTagger

universe u v

/-- What came of a sentence. -/
inductive Outcome where
  /-- It could not be tagged. -/
  | skipped (reason : DecodeFailure State)
  /-- It was tagged; the flag says whether its correct tags weigh more than those found. -/
  | tagged (found : List Tag) (suboptimal : Bool)

/-- The outcome of each of some sentences. -/
abbrev Evaluation := List (Sentence × Outcome)

/-- The outcome of one sentence: its words are tagged, and the correct tags are weighed against
those found. -/
def outcome {W : Type u} [LogWeight W] (scores : Scores W) (decoder : Decoder) (s : Sentence) :
    Outcome :=
  match tagWords scores decoder s.words with
  | .error e => .skipped e
  | .ok found =>
    .tagged found
      (decide (taggingWeight scores (.ofPairs (s.words.zip found)) < taggingWeight scores s))

/-- Tag each of some sentences. -/
def evaluate {W : Type u} [LogWeight W] (scores : Scores W) (decoder : Decoder)
    (sentences : List Sentence) : Evaluation :=
  sentences.map fun s => (s, outcome scores decoder s)

/-- The figures that sum up an evaluation. -/
structure Stats (P : Type u) where
  /-- The share of tokens with the correct tag. -/
  accuracy : P
  /-- The share of unknown tokens with the correct tag. -/
  unknownAccuracy : P
  /-- The weighted precision of the tags. -/
  precisionScore : P
  /-- The weighted recall of the tags. -/
  recallScore : P
  /-- The weighted F1 score of the tags. -/
  f1Score : P
  /-- The share of sentences with correct tags throughout. -/
  sentenceAccuracy : P
  /-- The number of sentences whose correct tags weigh more than those found. -/
  suboptimalities : Nat
  /-- The number of sentences that could not be tagged. -/
  skipped : Nat
  /-- The seed with which these sentences were split off, if any. -/
  seed : Option Int

/-- A word with its correct tag and the tag found for it. -/
structure Token where
  /-- The word. -/
  word : Word
  /-- The correct tag. -/
  correct : Tag
  /-- The tag found. -/
  found : Tag

/-- Whether the tag found is the correct one. -/
def Token.isCorrect (t : Token) : Bool := t.correct == t.found

namespace Evaluation

/-- The sentences that were tagged, with the tags found. -/
def judged (e : Evaluation) : List (Sentence × List Tag) :=
  e.filterMap fun
    | (s, .tagged found _) => some (s, found)
    | (_, .skipped _) => none

/-- The correct tags of the sentences that were tagged. -/
def truth (e : Evaluation) : List (List Tag) := e.judged.map fun j => j.1.tags

/-- The tags found. -/
def predicted (e : Evaluation) : List (List Tag) := e.judged.map fun j => j.2

/-- The tokens of the sentences that were tagged. -/
def tokens (e : Evaluation) : List Token :=
  e.judged.flatMap fun (s, found) =>
    (s.words.zip (s.tags.zip found)).map fun (word, correct, found) => ⟨word, correct, found⟩

/-- The number of sentences that could not be tagged. -/
def skipped (e : Evaluation) : Nat :=
  e.countP fun
    | (_, .skipped _) => true
    | _ => false

/-- The number of sentences whose correct tags weigh more than those found. -/
def suboptimalities (e : Evaluation) : Nat :=
  e.countP fun
    | (_, .tagged _ suboptimal) => suboptimal
    | _ => false

/-- The share of correct tokens among some tokens. -/
def accuracy {P : Type u} [Probability P] (tokens : List Token) : P :=
  share (tokens.countP Token.isCorrect) tokens.length

/-- The figures of an evaluation. A word outside the vocabulary is unknown, and a seed is only
recorded. -/
def stats {P : Type u} [Probability P] (vocabulary : List Word) (e : Evaluation)
    (seed : Option Int := none) : Stats P :=
  let pairs := e.truth.flatten.zip e.predicted.flatten
  { accuracy := accuracy e.tokens
    unknownAccuracy := accuracy (e.tokens.filter fun t => !vocabulary.contains t.word)
    precisionScore := weightedAverage TagResult.precisionScore pairs
    recallScore := weightedAverage TagResult.recallScore pairs
    f1Score := weightedAverage TagResult.f1Score pairs
    sentenceAccuracy :=
      share (e.judged.countP fun (s, found) => s.tags == found) e.judged.length
    suboptimalities := e.suboptimalities
    skipped := e.skipped
    seed }

/-- What the evaluation of one sentence reports. Only a verbose evaluation compares the taggings. -/
def report (verbose : Bool) : Sentence × Outcome → List Event
  | (s, .skipped reason) => [.sentenceSkipped s.text (reason.message State.text)]
  | (s, .tagged found suboptimal) =>
    if verbose then
      (if suboptimal then [.correctTagsWeighMore] else []) ++
        [.taggingsCompared (Alignment.text true s.words s.tags found)]
    else []

/-- What an evaluation reports. -/
def events (verbose : Bool) (e : Evaluation) : List Event := e.flatMap (report verbose)

end Evaluation

end TrellisTagger
