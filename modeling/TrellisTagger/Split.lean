import TrellisTagger.Number.Binary64

/-!
# Splitting off sentences for evaluation

A part of the sentences is held out for evaluation; the rest is for training. This file says how
many these are. Which ones they are depends on an order in which the world puts the sentences
(`TrellisTagger.World`).

## Main definitions

* `TrellisTagger.Split.sizes` — how many elements are for training and how many for evaluation.
* `TrellisTagger.Split.plan` — the same, with a seed that may be unfit.
-/

namespace TrellisTagger.Split

/-- The reasons for which elements cannot be split. -/
inductive SplitError where
  /-- The part to hold out is not strictly between nothing and everything. -/
  | badFraction (fraction : Float)
  /-- The seed is negative or does not fit into 32 bits. -/
  | badSeed (seed : Int)
  /-- No element is left for training. -/
  | nothingLeft (count : Nat) (fraction : Float)

/-- Whether a number is a part that can be held out. -/
def isPart (fraction : Float) : Bool := decide (0 < fraction) && decide (fraction < 1)

/-- How many of a number of elements are for training and how many for evaluation. The latter are a
fraction of all, rounded up. -/
def sizes (count : Nat) (fraction : Float) : Except SplitError (Nat × Nat) :=
  if isPart fraction then
    let held := (Binary64.ceil (fraction * Binary64.ofInt count)).toNat
    if count ≤ held then .error (.nothingLeft count fraction) else .ok (count - held, held)
  else .error (.badFraction fraction)

/-- The same for a seed that is to be used. A bad part to hold out is worse than a bad seed, and a
bad seed is worse than too few elements. -/
def plan (count : Nat) (fraction : Float) (seed : Int) : Except SplitError (Nat × Nat) :=
  match sizes count fraction with
  | .error (.badFraction fraction) => .error (.badFraction fraction)
  | outcome => if seed < 0 ∨ Nat.pow 2 32 ≤ seed then .error (.badSeed seed) else outcome

end TrellisTagger.Split
