import TrellisTagger.Grid.Value

/-!
# The journal of a run

What a run reports while it goes on. Each event has a level, a place it comes from and a text.

## Main definitions

* `TrellisTagger.Event` — the things that are reported.
* `TrellisTagger.Event.level`, `TrellisTagger.Event.origin`, `TrellisTagger.Event.text` — how an
  event is shown.
* `TrellisTagger.Event.console` — the text of an event on the console.
-/

namespace TrellisTagger

/-- How much attention an event wants. -/
inductive Level where
  /-- The run goes as planned. -/
  | info
  /-- Something could not be done. -/
  | warning
  deriving DecidableEq

/-- The name of a level. -/
def Level.name : Level → String
  | .info => "INFO"
  | .warning => "WARNING"

/-- What happens in a run. -/
inductive Event where
  /-- A corpus has been read. -/
  | corpusRead (sentences : Nat) (path : String)
  /-- A seed for the split has been chosen. -/
  | seedChosen (seed : Value)
  /-- The training sentences are there. -/
  | trainingSentences (count : Nat)
  /-- The evaluation sentences are there. -/
  | evaluationSentences (count : Nat)
  /-- A tagger is about to be trained. -/
  | trainingBegins (tagger : String)
  /-- The training sentences have been cut into contexts. -/
  | contextsDrawn (contexts sentences : Nat)
  /-- There are no trigrams that could vote on the interpolation weights. -/
  | nothingToEstimate
  /-- The interpolation weights are settled. -/
  | weightsSettled (trigram bigram unigram : Float)
  /-- The evaluation begins. -/
  | evaluationBegins
  /-- A sentence could not be tagged and does not count. -/
  | sentenceSkipped (sentence reason : String)
  /-- The correct tags weigh more than the tags that were found. -/
  | correctTagsWeighMore
  /-- The correct tags and the tags that were found, one above the other. -/
  | taggingsCompared (alignment : String)
  /-- The confusion matrix has been drawn. -/
  | confusionDrawn (path : String)
  /-- A sentence could not be tagged and is written without tags. -/
  | sentenceUntagged (sentence reason : String)
  /-- A corpus has been written. -/
  | corpusWritten (path : String)
  /-- A grid search begins. -/
  | gridBegins (points : Nat)

namespace Event

/-- The level of an event. -/
def level : Event → Level
  | nothingToEstimate | sentenceSkipped .. | correctTagsWeighMore | sentenceUntagged .. => .warning
  | _ => .info

/-- The part of the program that an event comes from. -/
def origin : Event → String
  | seedChosen .. | trainingSentences .. | evaluationSentences .. | trainingBegins ..
  | evaluationBegins => "train_model"
  | contextsDrawn .. => "pos_tagger"
  | nothingToEstimate | weightsSettled .. => "trigram_hmm"
  | gridBegins .. => "gridsearch"
  | _ => "training_utils"

/-- The text of an event. -/
def text : Event → String
  | corpusRead n path => "Read " ++ Decimal.grouped n ++ " sentences from " ++ path ++ "."
  | seedChosen seed =>
    seed.text ++ " is the random seed used for the train/test split."
  | trainingSentences n => Decimal.grouped n ++ " training sentences."
  | evaluationSentences n => Decimal.grouped n ++ " evaluation sentences."
  | trainingBegins tagger => "Training " ++ tagger ++ " with training data."
  | contextsDrawn contexts sentences =>
    "Training on " ++ Decimal.grouped contexts ++ " contexts from " ++ Decimal.grouped sentences ++
      " sentences."
  | nothingToEstimate =>
    "No tag trigrams to estimate interpolation weights from, using initial weights."
  | weightsSettled trigram bigram unigram =>
    "Interpolation weights: trigram=" ++ Decimal.fixed 3 trigram ++ ", bigram=" ++
      Decimal.fixed 3 bigram ++ ", unigram=" ++ Decimal.fixed 3 unigram ++ "."
  | evaluationBegins => "Evaluating tagger with evaluation data."
  | sentenceSkipped sentence reason => "Skipping sentence '" ++ sentence ++ "': " ++ reason
  | correctTagsWeighMore =>
    "Decoder suboptimality detected. Gold tagging has higher score than guessed tagging."
  | taggingsCompared alignment => "\n" ++ alignment
  | confusionDrawn path => "Confusion matrix saved to " ++ path ++ "."
  | sentenceUntagged sentence reason =>
    "Could not tag sentence '" ++ sentence ++ "': " ++ reason
  | corpusWritten path => "Wrote tagged sentences to " ++ path ++ "."
  | gridBegins points =>
    "Grid search over " ++ toString points ++ " hyperparameters combinations."

/-- The text of an event on the console. -/
def console (e : Event) : String := "[" ++ e.level.name ++ "] (" ++ e.origin ++ ") " ++ e.text

end Event

end TrellisTagger
