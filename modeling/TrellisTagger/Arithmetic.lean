import TrellisTagger.Number.Binary64

/-!
# Probabilities and log weights

The two kinds of number that the tagger computes with. A probability is added, multiplied and
divided; a log weight is only added and compared, and has a least element for what is impossible.
The models and the decoders are written over these two interfaces, so that they run on 64-bit floats
and can be reasoned about in exact arithmetic.

## Main definitions

* `TrellisTagger.Probability` — the operations on probabilities and interpolation weights.
* `TrellisTagger.LogWeight` — the operations on log weights.
* `TrellisTagger.Logarithm` — the way from a probability to a log weight.
* `TrellisTagger.logWeight` — the logarithm, with zero sent to the impossible weight.
* `TrellisTagger.positivePart` — a number, or zero where it is not above zero.

## Implementation notes

The classes hold operations and no laws: addition of floats is not associative and `nan` is not
equal to itself. Laws are hypotheses of the theorems that need them. All comparisons are written so
that a comparison with `nan` fails.
-/

namespace TrellisTagger

universe u v

/-- Numbers that can be probabilities. -/
class Probability (P : Type u) extends
    Zero P, One P, Add P, Sub P, Mul P, Div P, BEq P, LT P, LE P where
  /-- Strict comparison can be decided. -/
  decidableLT : DecidableLT P
  /-- Comparison can be decided. -/
  decidableLE : DecidableLE P
  /-- The quotient of two integers. -/
  ratio : Int → Int → P

/-- Numbers that can be log weights. -/
class LogWeight (W : Type u) extends Zero W, Add W, LT W where
  /-- Strict comparison can be decided. -/
  decidableLT : DecidableLT W
  /-- The weight of what cannot happen. -/
  impossible : W

/-- The logarithm from probabilities to log weights. -/
class Logarithm (P : Type u) (W : outParam (Type v)) where
  /-- The logarithm of a positive probability. -/
  log : P → W

/-- It can be decided whether a probability is less than another. -/
instance instDecidableLTOfProbability {P : Type u} [Probability P] : DecidableLT P :=
  Probability.decidableLT

/-- It can be decided whether a probability is at most another. -/
instance instDecidableLEOfProbability {P : Type u} [Probability P] : DecidableLE P :=
  Probability.decidableLE

/-- It can be decided whether a weight is less than another. -/
instance instDecidableLTOfLogWeight {W : Type u} [LogWeight W] : DecidableLT W :=
  LogWeight.decidableLT

export Probability (ratio)

export LogWeight (impossible)

/-- A number where it is above zero, and zero otherwise. -/
def positivePart {P : Type u} [Probability P] (x : P) : P := if 0 < x then x else 0

/-- The log weight of a probability. What has no positive probability is impossible. -/
def logWeight {P : Type u} {W : Type v} [Probability P] [LogWeight W] [Logarithm P W] (p : P) : W :=
  if p ≤ 0 then impossible else Logarithm.log p

/-- Probabilities as floats. A quotient of integers is rounded once. -/
instance : Probability Float where
  zero := 0
  one := 1
  decidableLT := inferInstance
  decidableLE := inferInstance
  ratio := Binary64.ratio

/-- Log weights as floats, with negative infinity for the impossible. -/
instance : LogWeight Float where
  zero := 0
  decidableLT := inferInstance
  impossible := Binary64.infinity true

/-- Floats are weighed by their natural logarithm. -/
instance : Logarithm Float Float := ⟨Float.log⟩

end TrellisTagger
