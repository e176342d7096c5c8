import TrellisTagger.Decoder.Greedy
import TrellisTagger.Decoder.Viterbi

/-!
# Decoders

The decoders that can be chosen by name.

## Main definitions

* `TrellisTagger.Decoder` — the greedy decoder and the Viterbi decoder.
* `TrellisTagger.Decoder.ofName?` — the decoder with a name.
* `TrellisTagger.Decoder.decode` — find a path with the chosen decoder.
-/

namespace TrellisTagger

universe u v

/-- The ways to find a path through a trellis. -/
inductive Decoder where
  /-- Follow the greatest weight at every step. -/
  | greedy
  /-- Find the path of greatest weight. -/
  | viterbi
  deriving DecidableEq

namespace Decoder

/-- The decoder with a name. -/
def ofName? (name : String) : Option Decoder :=
  if name = "greedy" then some .greedy
  else if name = "viterbi" then some .viterbi
  else none

/-- The text of a decoder. -/
def text : Decoder → String
  | .greedy => "GreedyDecoder()"
  | .viterbi => "ViterbiDecoder()"

/-- Find a path through a trellis. -/
def decode {S : Type u} {W : Type v} [DecidableEq S] [LogWeight W] (d : Decoder)
    (t : Trellis S W) : Except (DecodeFailure S) (List S) :=
  match d with
  | .greedy => Greedy.decode t
  | .viterbi => Viterbi.decode t

end Decoder

end TrellisTagger
