import TrellisTagger.Trellis

/-!
# Walks through a trellis

What a path through a trellis is, and what it weighs. The decoders are judged against these
definitions.

## Main definitions

* `TrellisTagger.Trellis.pathWeight` — the sum of the weights along a list of states.
* `TrellisTagger.Trellis.Walk` — the lists of states that lead from one state to another along
  transitions.
-/

namespace TrellisTagger.Trellis

universe u v

variable {S : Type u} {W : Type v} [DecidableEq S]

section Weight

variable [LogWeight W]

/-- Add the weights along a list of states to a total, from left to right. A pair without a
transition makes the whole list impossible. -/
def pathWeightFrom (t : Trellis S W) (total : W) : List S → W
  | a :: b :: path =>
    match t.weight? a b with
    | some w => pathWeightFrom t (total + w) (b :: path)
    | none => impossible
  | _ => total

/-- The weight of a list of states: the sum of the weights of its steps. -/
def pathWeight (t : Trellis S W) (path : List S) : W := t.pathWeightFrom 0 path

end Weight

/-- `t.Walk a b path` says that `path` begins with `a`, ends with `b` and takes a transition of `t`
at every step. -/
inductive Walk (t : Trellis S W) : S → S → List S → Prop
  /-- Staying where one is. -/
  | stay (a : S) : Walk t a a [a]
  /-- A step along a transition, followed by a walk. -/
  | step {a b c : S} {w : W} {path : List S} (h : t.weight? a b = some w) (rest : Walk t b c path) :
    Walk t a c (a :: path)

end TrellisTagger.Trellis
