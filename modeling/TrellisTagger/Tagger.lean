import TrellisTagger.Config
import TrellisTagger.Corpus
import TrellisTagger.Journal
import TrellisTagger.Tagging

/-!
# Taggers

A tagger is a scorer with a decoder.

## Main definitions

* `TrellisTagger.Tagger` — the pair of both.
* `TrellisTagger.Tagger.ofConfig` — the untrained tagger of a configuration.
* `TrellisTagger.Tagger.train` — learn from sentences.
* `TrellisTagger.Tagger.tag`, `TrellisTagger.Tagger.weight` — tag words, and weigh tags.
* `TrellisTagger.Tagger.write` — tag sentences and render them as a corpus.
-/

namespace TrellisTagger

universe u v

/-- A scorer with a decoder. -/
structure Tagger (P : Type u) where
  /-- What scores the tags of a context. -/
  scorer : Scorer P
  /-- What finds a path through the trellis of a sentence. -/
  decoder : Decoder

namespace Tagger

section

variable {P : Type u} [Probability P]

/-- The untrained tagger of a configuration. The scorer is looked at before the decoder. -/
def ofConfig (c : Config P) : Except (ConfigError P) (Tagger P) :=
  match c.scorer, c.decoder with
  | .error e, _ => .error e
  | .ok _, .error e => .error e
  | .ok scorer, .ok decoder => .ok ⟨scorer, decoder⟩

/-- The labelled contexts of some sentences. -/
def contextsOf (sentences : List Sentence) : List LabelledContext :=
  sentences.flatMap Sentence.contexts

/-- Learn from sentences. -/
def train (t : Tagger P) (sentences : List Sentence) : Tagger P :=
  { t with scorer := t.scorer.train (contextsOf sentences) }

variable {W : Type v} [LogWeight W] [Logarithm P W]

/-- The tags found for a sequence of words. -/
def tag (t : Tagger P) (words : List Word) : Except (DecodeFailure State) (List Tag) :=
  tagWords t.scorer.logScores t.decoder words

/-- The log weight of the tags of a sentence. -/
def weight (t : Tagger P) (s : Sentence) : W := taggingWeight t.scorer.logScores s

/-- The words of a sentence with the tags found for them, or with empty tags. -/
def tagged (t : Tagger P) (s : Sentence) : List (Word × Tag) :=
  s.words.zip
    (match t.tag s.words with
      | .ok tags => tags
      | .error _ => List.replicate s.size "")

/-- The sentences as a corpus with the tags found for them. -/
def write (t : Tagger P) (sentences : List Sentence) : String :=
  Corpus.render (sentences.map t.tagged)

/-- What writing sentences reports. -/
def writeEvents (t : Tagger P) (path : String) (sentences : List Sentence) : List Event :=
  sentences.filterMap (fun s =>
    match t.tag s.words with
    | .ok _ => none
    | .error e => some (.sentenceUntagged s.text (e.message State.text))) ++ [.corpusWritten path]

end

/-- The text of a tagger. -/
def text (t : Tagger Float) : String :=
  "POSTagger(scorer=" ++ t.scorer.text ++ ", decoder=" ++ t.decoder.text ++ ")"

/-- What training reports. -/
def trainEvents (t : Tagger Float) (sentences : List Sentence) : List Event :=
  let contexts := contextsOf sentences
  let settled :=
    match t.scorer with
    | .lexical _ => []
    | .trigram s =>
      let votes : Option (ByHistory Float) := (TagCounts.ofContexts contexts).deletedInterpolation
      let weights := s.weightsAfter contexts
      (if s.estimate && votes.isNone then [Event.nothingToEstimate] else []) ++
        [.weightsSettled weights.trigram weights.bigram weights.unigram]
  .contextsDrawn contexts.length sentences.length :: settled

end Tagger

end TrellisTagger
