import TrellisTagger.Arithmetic
import TrellisTagger.Number.PairwiseSum
import TrellisTagger.Sentence
import TrellisTagger.Tally

/-!
# Weighted averages over tags

Precision, recall and the F1 score of each tag, averaged with the number of occurrences of the tag
in the correct tags as weight.

## Main definitions

* `TrellisTagger.share` — a quotient of two numbers of things, zero where there is nothing.
* `TrellisTagger.TagResult` — how often a tag is correct, found, and both.
* `TrellisTagger.weightedAverage` — the average of a figure over all tags.
-/

namespace TrellisTagger

universe u

variable {P : Type u} [Probability P]

/-- The share of some things among others; of nothing it is zero. -/
def share (n total : Nat) : P := if total = 0 then 0 else ratio n total

/-- How often a tag occurs in two taggings. -/
structure TagResult where
  /-- How often the tag is correct. -/
  correct : Nat
  /-- How often the tag was found. -/
  found : Nat
  /-- How often it was found where it is correct. -/
  both : Nat

namespace TagResult

/-- The share of what was found that is correct. -/
def precisionScore (r : TagResult) : P := share r.both r.found

/-- The share of what is correct that was found. -/
def recallScore (r : TagResult) : P := share r.both r.correct

/-- The harmonic mean of precision and recall. -/
def f1Score (r : TagResult) : P := share (2 * r.both) (r.correct + r.found)

end TagResult

/-- A tag without the NUL characters at its end. -/
def withoutFinalNuls (tag : Tag) : Tag :=
  String.ofList (tag.toList.reverse.dropWhile (· == '\x00')).reverse

/-- The result of one tag in a list of pairs of correct tag and tag found. -/
def tagResult (pairs : List (Tag × Tag)) (tag : Tag) : TagResult where
  correct := pairs.countP fun p => p.1 == tag
  found := pairs.countP fun p => p.2 == tag
  both := pairs.countP fun p => p.1 == tag && p.2 == tag

/-- The tags that occur in either tagging, sorted. -/
def occurringTags (pairs : List (Tag × Tag)) : List Tag :=
  (distinct (pairs.map Prod.fst ++ pairs.map Prod.snd)).mergeSort fun a b => decide (a ≤ b)

/-- The average of a figure over the tags that occur, weighted by how often each is correct. Tags
that differ only in NUL characters at the end count as one. -/
def weightedAverage (figure : TagResult → P) (pairs : List (Tag × Tag)) : P :=
  if pairs.isEmpty then 0
  else
    let pairs := pairs.map fun p => (withoutFinalNuls p.1, withoutFinalNuls p.2)
    let results := (occurringTags pairs).map (tagResult pairs)
    pairwiseSum (results.map fun r => figure r * ratio r.correct 1) / ratio pairs.length 1

end TrellisTagger
