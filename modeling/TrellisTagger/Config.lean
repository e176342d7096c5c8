import TrellisTagger.Decoder
import TrellisTagger.Scorer

/-!
# Configurations

The settings that a tagger is built from, and the reasons for which they are refused.

## Main definitions

* `TrellisTagger.Config` — the names of scorer and decoder, and the settings of the scorer.
* `TrellisTagger.ConfigError` — what can be wrong with a configuration.
* `TrellisTagger.Config.scorer`, `TrellisTagger.Config.decoder` — what the names stand for.

## Main results

* `TrellisTagger.Config.scorer_eq_ok_lexical` — interpolation weights matter to the trigram scorer
  only.
-/

namespace TrellisTagger

universe u

/-- The settings of a tagger. -/
structure Config (P : Type u) where
  /-- The name of the scorer. -/
  scorerName : String
  /-- The name of the decoder. -/
  decoderName : String
  /-- Whether tag trigrams that are not attested are avoided. -/
  restrict : Bool
  /-- The initial interpolation weights. -/
  weights : Interpolation P
  /-- Whether the interpolation weights are estimated in training. -/
  estimate : Bool

/-- The settings that are used where nothing else is said. -/
def Config.standard : Config Float where
  scorerName := "trigram_hmm"
  decoderName := "viterbi"
  restrict := true
  weights := ⟨0.6, 0.3⟩
  estimate := true

/-- What can be wrong with a configuration. -/
inductive ConfigError (N : Type u) where
  /-- No scorer has this name. -/
  | unknownScorer (name : String)
  /-- No decoder has this name. -/
  | unknownDecoder (name : String)
  /-- The interpolation weights are negative or exceed one. -/
  | weightsRefused (trigram bigram : N)
  deriving DecidableEq

namespace ConfigError

variable {N : Type u}

/-- The wording of an error, given the texts of numbers. -/
def message (number : N → String) : ConfigError N → String
  | unknownScorer name => name ++ " is unknown scorer type."
  | unknownDecoder name => name ++ " is unknown decoder type."
  | weightsRefused trigram bigram =>
    "Interpolation weights must be non-negative and sum to at most 1, got lambda1=" ++
      number trigram ++ ", lambda2=" ++ number bigram ++ "."

end ConfigError

namespace Config

variable {P : Type u} [Probability P]

/-- The untrained scorer of a configuration. -/
def scorer (c : Config P) : Except (ConfigError P) (Scorer P) :=
  if c.scorerName = "most_frequent" then .ok (.lexical ⟨c.restrict, .empty⟩)
  else if c.scorerName = "trigram_hmm" then
    if c.weights.isRefused then .error (.weightsRefused c.weights.trigram c.weights.bigram)
    else .ok (.trigram ⟨c.restrict, c.estimate, c.weights, .empty⟩)
  else .error (.unknownScorer c.scorerName)

omit [Probability P] in
/-- The decoder of a configuration. -/
def decoder (c : Config P) : Except (ConfigError P) Decoder :=
  match Decoder.ofName? c.decoderName with
  | some d => .ok d
  | none => .error (.unknownDecoder c.decoderName)

/-- A configuration that names the scorer of most frequent tags has it, whatever its weights are. -/
theorem scorer_eq_ok_lexical {c : Config P} (h : c.scorerName = "most_frequent") :
    c.scorer = .ok (.lexical ⟨c.restrict, .empty⟩) := if_pos h

end Config

end TrellisTagger
