import TrellisTagger.Interpolation

/-!
# Frequencies as floats

Counts have no bound and floats have one. The frequencies of counts of any size as floats, with an
error where a quotient of two counts, or a count that is added to a float, exceeds all floats.

## Main definitions

* `TrellisTagger.boundedFrequencies`, `TrellisTagger.boundedConditional` — the shares of counts.
* `TrellisTagger.TagCounts.boundedInterpolation` — the shares of the votes of deleted interpolation.
-/

namespace TrellisTagger

variable {K L : Type}

/-- Quotients of counts, none of which may be infinite. -/
def boundedQuotients (quotients : List Float) : Except Binary64.RangeError Unit :=
  if quotients.any Binary64.isInfinite then .error .quotient else .ok ()

/-- The share of each key in the total of the counts. -/
def boundedFrequencies (counts : Table K Int) : Except Binary64.RangeError (Table K Float) := do
  let shares : Table K Float := relativeFrequencies counts
  boundedQuotients shares.values
  return shares

/-- The shares within each row of a table of counts. -/
def boundedConditional (counts : Table K (Table L Int)) :
    Except Binary64.RangeError (Table K (Table L Float)) := do
  let shares : Table K (Table L Float) := conditionalFrequencies counts
  boundedQuotients (shares.values.flatMap Table.values)
  return shares

namespace TagCounts

/-- Whether one trigram can vote: its frequencies, and then its count, do not exceed all floats. -/
def boundedVote (counts : TagCounts) (e : (Tag × Tag × Tag) × Int) :
    Except Binary64.RangeError Unit := do
  let (a, b, c) := e.1
  let estimates : ByHistory Float := counts.estimates a b c e.2
  boundedQuotients [estimates.trigram, estimates.bigram, estimates.unigram]
  if Binary64.exceeds e.2 then throw .integer

/-- The share of the votes of each length of history, if there are votes. -/
def boundedInterpolation (counts : TagCounts) :
    Except Binary64.RangeError (Option (ByHistory Float)) := do
  counts.occurrences.forM counts.boundedVote
  return counts.deletedInterpolation

end TagCounts

end TrellisTagger
