import TrellisTagger.Arithmetic
import TrellisTagger.Tally

/-!
# Relative frequencies

The way from counts to probabilities.

## Main definitions

* `TrellisTagger.relativeFrequencies` — the share of each key in the total of the counts.
* `TrellisTagger.conditionalFrequencies` — the same in every row of a table of counts.
* `TrellisTagger.shares` — the share of each key where the amounts are not counts.
* `TrellisTagger.leaveOneOut` — a relative frequency with the present event removed.
* `TrellisTagger.discounted` — the same where the amounts are not counts.

## Implementation notes

Counts are integers: they are summed exactly and each share is one quotient. Other amounts are
summed from left to right, starting at zero.
-/

namespace TrellisTagger

universe u v w

variable {K : Type u} {L : Type v} {P : Type w} [Probability P]

/-- The share of each key in the total of the counts. Where the total is zero there are no
shares. -/
def relativeFrequencies (counts : Table K Int) : Table K P :=
  let total := counts.total
  if total = 0 then ∅ else counts.mapValues fun _ n => ratio n total

/-- The shares within each row of a table of counts. -/
def conditionalFrequencies (counts : Table K (Table L Int)) : Table K (Table L P) :=
  counts.mapValues fun _ row => relativeFrequencies row

/-- The share of each key in the total of some amounts. Where the total is zero there are no
shares. -/
def shares (amounts : Table K P) : Table K P :=
  let total := amounts.values.foldl (· + ·) 0
  if total == 0 then ∅ else amounts.mapValues fun _ x => x / total

/-- How often an event has occurred among others, the present occurrence taken away from both
counts. Where nothing is left it is zero. -/
def leaveOneOut (n total : Int) : P :=
  if total - 1 ≤ 0 then 0 else ratio (n - 1) (total - 1)

/-- One unit taken away from an amount and from its total, as a share. Where nothing is left it is
zero. -/
def discounted (x total : P) : P :=
  if total - 1 ≤ 0 then 0 else (x - 1) / (total - 1)

end TrellisTagger
