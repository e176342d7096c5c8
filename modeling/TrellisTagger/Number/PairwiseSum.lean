/-!
# Sums by halves

Numbers whose addition rounds are added in an order that keeps the error small. Few numbers are
added from left to right. More of them go into eight lanes in turn, and the sums of the lanes are
added pair by pair. Many numbers are cut into halves, of which the first is filled with whole rounds
of the lanes.

## Main definitions

* `TrellisTagger.PairwiseSum.lanes` — the sums of eight lanes.
* `TrellisTagger.pairwiseSum` — the sum of some numbers.

## Main results

* `TrellisTagger.pairwiseSum_of_length_lt` — few numbers are added from left to right.
-/

namespace TrellisTagger

universe u

variable {P : Type u} [Add P]

namespace PairwiseSum

/-- The number of lanes. -/
def laneCount : Nat := 8

/-- The greatest number of numbers that are not cut into halves. -/
def mostWhole : Nat := 128

/-- The sums of adjacent pairs. -/
def pairUp : List P → List P
  | a :: b :: l => (a + b) :: pairUp l
  | l => l

/-- The sums of the lanes over a number of rounds that follow the first. -/
def lanes (l : List P) (rounds : Nat) : List P :=
  (List.range rounds).foldl
    (fun sums i => List.zipWith (· + ·) sums ((l.drop (laneCount * (i + 1))).take laneCount))
    (l.take laneCount)

variable [Zero P]

/-- The sum of numbers that are not cut into halves. What does not fill the lanes is added last. -/
def whole (l : List P) : P :=
  let rounds := l.length / laneCount
  let sum := if rounds = 0 then 0 else (pairUp (pairUp (pairUp (lanes l (rounds - 1))))).headD 0
  (l.drop (laneCount * rounds)).foldl (· + ·) sum

/-- The number of numbers in the first half. -/
def firstHalf (n : Nat) : Nat := n / 2 - n / 2 % laneCount

end PairwiseSum

open PairwiseSum in
/-- The sum of some numbers. -/
def pairwiseSum [Zero P] (l : List P) : P :=
  if l.length ≤ mostWhole then whole l
  else pairwiseSum (l.take (firstHalf l.length)) + pairwiseSum (l.drop (firstHalf l.length))
termination_by l.length
decreasing_by
  all_goals
    simp only [mostWhole, firstHalf, laneCount, List.length_take, List.length_drop] at *
    omega

/-- Fewer numbers than lanes are added from left to right. -/
theorem pairwiseSum_of_length_lt [Zero P] {l : List P} (h : l.length < PairwiseSum.laneCount) :
    pairwiseSum l = l.foldl (· + ·) 0 := by
  have hr : l.length / PairwiseSum.laneCount = 0 := Nat.div_eq_of_lt h
  rw [pairwiseSum, if_pos (by simp only [PairwiseSum.mostWhole, PairwiseSum.laneCount] at *; omega)]
  simp [PairwiseSum.whole, hr]

end TrellisTagger
