import TrellisTagger.Frequency
import TrellisTagger.Sentence
import TrellisTagger.Tally

/-!
# Interpolation of tag frequencies

The probability of a tag after two others is a mixture of its frequency after both, after the last
one, and on its own. The weights of the mixture are given, or estimated by deleted interpolation:
every trigram that was seen votes for whichever of the three frequencies predicts it best once its
own occurrence is removed.

## Main definitions

* `TrellisTagger.Interpolation` — the weights of trigrams and bigrams, and what is left for
  unigrams.
* `TrellisTagger.TagCounts` — the counts of tags, tag bigrams and tag trigrams.
* `TrellisTagger.ByHistory.favourite` — the frequency that a trigram votes for.
* `TrellisTagger.TagCounts.deletedInterpolation` — the shares of the votes.
-/

namespace TrellisTagger

universe u

/-- The weights of the mixture. -/
@[ext] structure Interpolation (P : Type u) where
  /-- The weight of the frequency after two tags. -/
  trigram : P
  /-- The weight of the frequency after one tag. -/
  bigram : P

namespace Interpolation

variable {P : Type u} [Probability P]

/-- The weight of the frequency of a tag on its own: what the others leave of one. -/
def unigram (w : Interpolation P) : P := positivePart (1 - w.trigram - w.bigram)

/-- Whether the weights are refused: one of them is negative, or they exceed one together. -/
def isRefused (w : Interpolation P) : Bool :=
  decide (w.trigram < 0) || decide (w.bigram < 0) || decide (1 < w.trigram + w.bigram)

/-- Mix three frequencies. -/
def mix (w : Interpolation P) (trigram bigram unigram : P) : P :=
  w.trigram * trigram + w.bigram * bigram + w.unigram * unigram

end Interpolation

/-- How often tags occur, alone and after others. -/
structure TagCounts where
  /-- How often each tag occurs. -/
  unigrams : Table Tag Int
  /-- How often each tag occurs after another. -/
  bigrams : Table Tag (Table Tag Int)
  /-- How often each tag occurs after two others. -/
  trigrams : Table (Tag × Tag) (Table Tag Int)

/-- The lengths of history that a tag can be predicted from. -/
inductive History where
  /-- Both tags before. -/
  | trigram
  /-- The last tag before. -/
  | bigram
  /-- No tag at all. -/
  | unigram
  deriving DecidableEq

/-- One number for each length of history. -/
@[ext] structure ByHistory (P : Type u) where
  /-- The number for two tags of history. -/
  trigram : P
  /-- The number for one tag of history. -/
  bigram : P
  /-- The number for no history. -/
  unigram : P

namespace ByHistory

variable {P : Type u} [Probability P]

/-- The length of history whose number is strictly greater than both others, or none of it. -/
def favourite (e : ByHistory P) : History :=
  if e.bigram < e.trigram ∧ e.unigram < e.trigram then .trigram
  else if e.trigram < e.bigram ∧ e.unigram < e.bigram then .bigram
  else .unigram

/-- Add to one of the numbers. -/
def add (e : ByHistory P) (h : History) (x : P) : ByHistory P :=
  match h with
  | .trigram => { e with trigram := e.trigram + x }
  | .bigram => { e with bigram := e.bigram + x }
  | .unigram => { e with unigram := e.unigram + x }

/-- The sum of the numbers. -/
def total (e : ByHistory P) : P := e.trigram + e.bigram + e.unigram

end ByHistory

namespace TagCounts

variable {P : Type u} [Probability P]

/-- The counts that labelled contexts give. -/
def ofContexts (contexts : List LabelledContext) : TagCounts where
  unigrams := tally (contexts.map fun c => c.tag)
  bigrams := crossTally (contexts.map fun c => (c.previous, c.tag))
  trigrams := crossTally (contexts.map fun c => ((c.beforePrevious, c.previous), c.tag))

/-- The number of tags counted. -/
def total (counts : TagCounts) : Int := counts.unigrams.total

/-- How often a tag occurs. -/
def unigram (counts : TagCounts) (a : Tag) : Int := counts.unigrams.getD a 0

/-- How often a tag occurs after another. -/
def bigram (counts : TagCounts) (a b : Tag) : Int := (counts.bigrams.getD a ∅).getD b 0

/-- The trigrams with their counts, in the order of the table. -/
def occurrences (counts : TagCounts) : List ((Tag × Tag × Tag) × Int) :=
  counts.trigrams.entries.flatMap fun (history, row) =>
    row.entries.map fun (c, n) => ((history.1, history.2, c), n)

/-- The frequencies of the last tag of a trigram with `n` occurrences, after each length of history,
with one of the occurrences removed. -/
def estimates (counts : TagCounts) (a b c : Tag) (n : Int) : ByHistory P where
  trigram := leaveOneOut n (counts.bigram a b)
  bigram := leaveOneOut (counts.bigram b c) (counts.unigram b)
  unigram := leaveOneOut (counts.unigram c) counts.total

/-- The votes of all trigrams: each gives its count to the history that predicts it best. -/
def votes (counts : TagCounts) : ByHistory P :=
  counts.occurrences.foldl
    (fun sum e =>
      let (a, b, c) := e.1
      sum.add (counts.estimates a b c e.2 : ByHistory P).favourite (ratio e.2 1))
    ⟨0, 0, 0⟩

/-- The share of the votes of each length of history, if there are votes. -/
def deletedInterpolation (counts : TagCounts) : Option (ByHistory P) :=
  let votes : ByHistory P := counts.votes
  let total := votes.total
  if total == 0 then none
  else some ⟨votes.trigram / total, votes.bigram / total, votes.unigram / total⟩

end TagCounts

end TrellisTagger
