import TrellisTagger.Proofs.Interpolation
import TrellisTagger.Proofs.Lexicon

/-!
# The numbers of a trained trigram model

In exact arithmetic the transitions of a trained model are mixtures of frequencies, and its
emissions are shares of the occurrences of a tag: those with the word or, for a word that training
has not seen, those that are the first of their word. So the transitions from a history add up to at
most one, and no emission exceeds one.

## Main definitions

* `TrellisTagger.tagsOf` — the tags of some contexts.
* `TrellisTagger.tagsAfter`, `TrellisTagger.tagsAfterBoth`, `TrellisTagger.wordsUnder` — the tags
  after one tag or after two, and the words under a tag.

## Main results

* `TrellisTagger.TrigramModel.isSubdistribution_transition` — the transitions from a history.
* `TrellisTagger.TrigramModel.value_unknownEmission?` — the emission of an unseen word is a share of
  the occurrences of the tag.
* `TrellisTagger.TrigramModel.emission_mem_unitInterval` — emissions lie between zero and one.

## Design

The emission of an unseen word is computed from the shares of tags among first occurrences and among
all occurrences, and the share of first occurrences among all. These come from three tables; that
the number of first occurrences is the same in all of them is `length_firstTags`.
-/

namespace TrellisTagger

/-! ### Lists of events -/

/-- The tags of some contexts. -/
def tagsOf (contexts : List LabelledContext) : List Tag := contexts.map fun c => c.tag

/-- The tags that come after a tag. -/
def tagsAfter (contexts : List LabelledContext) (previous : Tag) : List Tag :=
  under previous (contexts.map fun c => (c.previous, c.tag))

/-- The tags that come after two tags. -/
def tagsAfterBoth (contexts : List LabelledContext) (beforePrevious previous : Tag) : List Tag :=
  under (beforePrevious, previous) (contexts.map fun c => ((c.beforePrevious, c.previous), c.tag))

/-- The words that occur under a tag. -/
def wordsUnder (contexts : List LabelledContext) (tag : Tag) : List Word :=
  under tag (contexts.map fun c => (c.tag, c.word))

/-- First occurrences of words with a tag are occurrences of the tag. -/
lemma count_firstTags_le (contexts : List LabelledContext) (tag : Tag) :
    (firstTags contexts).count tag ≤ (tagsOf contexts).count tag :=
  ((distinctBy_sublist _ contexts).map _).count_le tag

namespace TrigramModel

variable {contexts : List LabelledContext}

/-! ### Transitions -/

/-- A transition mixes the shares of the tag among the tags after both tags, after the last one, and
everywhere. -/
theorem value_transition (contexts : List LabelledContext) (w : Interpolation Exact)
    (beforePrevious previous tag : Tag) :
    ((ofContexts contexts).transition w beforePrevious previous tag).value =
      w.trigram.value * frequency (tagsAfterBoth contexts beforePrevious previous) tag +
        w.bigram.value * frequency (tagsAfter contexts previous) tag +
        w.unigram.value * frequency (tagsOf contexts) tag := by
  rw [transition, ofContexts, TagCounts.ofContexts, getD_conditionalFrequencies,
    getD_conditionalFrequencies, Interpolation.mix]
  simp only [Exact.value_add, Exact.value_mul, value_relativeFrequencies, tagsAfterBoth, tagsAfter,
    tagsOf]

/-- **The transitions from a history add up to at most one.** -/
theorem isSubdistribution_transition (contexts : List LabelledContext) {w : Interpolation Exact}
    (hw : w.IsConvex) (beforePrevious previous : Tag) :
    IsSubdistribution fun tag =>
      ((ofContexts contexts).transition w beforePrevious previous tag).value := by
  simp only [value_transition]
  exact hw.isSubdistribution_mix (isSubdistribution_frequency _) (isSubdistribution_frequency _)
    (isSubdistribution_frequency _)

/-! ### Emissions -/

/-- The frequency of a tag is its share of all tags. -/
lemma value_unigrams (contexts : List LabelledContext) (tag : Tag) :
    ((ofContexts contexts : TrigramModel Exact).unigrams.getD tag 0).value =
      frequency (tagsOf contexts) tag :=
  value_relativeFrequencies _ _

/-- There are as many first occurrences as known words. -/
lemma length_firstTags (contexts : List LabelledContext) :
    (firstTags contexts).length = (Lexicon.ofContexts contexts : Lexicon Exact).known.size := by
  have hkeys : (Lexicon.ofContexts contexts : Lexicon Exact).known.keys =
      (distinctBy (fun c => c.word) contexts).map fun c => c.word := by
    rw [map_distinctBy, Lexicon.ofContexts, keys_conditionalFrequencies, List.map_map]
    rfl
  have hlength := congrArg List.length hkeys
  rw [Table.keys, List.length_map, List.length_map] at hlength
  rw [firstTags, List.length_map, Table.size, hlength]

/-- The rate of unseen words is the share of first occurrences among all. -/
lemma value_unknownRate {contexts : List LabelledContext} (h : contexts ≠ []) :
    (ofContexts contexts : TrigramModel Exact).unknownRate.value =
      (firstTags contexts).length / contexts.length := by
  have hrate : (ofContexts contexts : TrigramModel Exact).unknownRate =
      ratio (firstTags contexts).length contexts.length := by
    rw [ofContexts, length_firstTags]
    exact if_neg (by simpa using h)
  rw [hrate, Exact.value_ratio, Int.cast_natCast, Int.cast_natCast]

/-- **The emission of an unseen word under a tag is a counted share**: that of the first occurrences
of words among the occurrences of the tag.

**Proof sketch.** With `f` first occurrences under the tag, `F` first occurrences, `n` occurrences
of the tag and `N` contexts, the quotient `(f / F) * (F / N) / (n / N)` is `f / n`. Where `n` is
zero so is `f`, and where `f` is zero nothing stands under the tag among the unknown words. -/
theorem value_unknownEmission? (contexts : List LabelledContext) (tag : Tag) :
    (((ofContexts contexts : TrigramModel Exact).unknownEmission? tag).getD 0).value =
      (firstTags contexts).count tag / (tagsOf contexts).count tag := by
  have hshare := value_unigrams contexts tag
  have hfirst : (ofContexts contexts : TrigramModel Exact).lexicon.unknown.get? tag =
      if tag ∈ firstTags contexts then
        some (ratio ((firstTags contexts).count tag) (firstTags contexts).length) else none :=
    get?_relativeFrequencies _ _
  unfold unknownEmission?
  dsimp only
  rw [hfirst]
  by_cases hseen : tag ∈ tagsOf contexts
  · have hpos := frequency_pos hseen
    rw [if_neg (by rw [Exact.beq_iff, hshare]; exact hpos.ne')]
    split
    · rename_i hmem
      have hne : contexts ≠ [] := by
        rintro rfl
        exact List.not_mem_nil hseen
      have hN : (contexts.length : ℚ) ≠ 0 := Nat.cast_ne_zero.2 (List.length_pos_of_ne_nil hne).ne'
      have hF : ((firstTags contexts).length : ℚ) ≠ 0 :=
        Nat.cast_ne_zero.2 (List.length_pos_of_mem hmem).ne'
      have hn : ((tagsOf contexts).count tag : ℚ) ≠ 0 :=
        Nat.cast_ne_zero.2 (List.count_pos_iff.2 hseen).ne'
      have hlength : ((tagsOf contexts).length : ℚ) = contexts.length := by
        rw [tagsOf, List.length_map]
      simp only [Option.map_some, Option.getD_some, Exact.value_div, Exact.value_mul, hshare,
        value_unknownRate hne, Exact.value_ratio, Int.cast_natCast, frequency, hlength]
      -- `F` and `N` cancel
      field_simp
    · rename_i hmem
      rw [List.count_eq_zero_of_not_mem hmem, Nat.cast_zero, zero_div]
      rfl
  · -- a tag that never occurs has the emission zero, and so says the quotient by zero
    have hnone : (tagsOf contexts).count tag = 0 := List.count_eq_zero_of_not_mem hseen
    rw [if_pos (by rw [Exact.beq_iff, hshare]; exact frequency_of_not_mem hseen), hnone,
      Nat.cast_zero, div_zero]
    rfl

/-- The emission of an unseen word is positive under a tag of first occurrences. -/
lemma unknownEmission_pos {tag : Tag} (h : tag ∈ firstTags contexts) :
    0 < (((ofContexts contexts : TrigramModel Exact).unknownEmission? tag).getD 0).value := by
  have hfirst : 0 < (firstTags contexts).count tag := List.count_pos_iff.2 h
  rw [value_unknownEmission?]
  exact div_pos (Nat.cast_pos.2 hfirst)
    (Nat.cast_pos.2 (hfirst.trans_le (count_firstTags_le contexts tag)))

/-- The emission of an unseen word lies between zero and one. -/
lemma unknownEmission_mem_unitInterval (contexts : List LabelledContext) (tag : Tag) :
    0 ≤ (((ofContexts contexts : TrigramModel Exact).unknownEmission? tag).getD 0).value ∧
      (((ofContexts contexts : TrigramModel Exact).unknownEmission? tag).getD 0).value ≤ 1 := by
  rw [value_unknownEmission?]
  exact ⟨div_nonneg (Nat.cast_nonneg _) (Nat.cast_nonneg _),
    div_le_one_of_le₀ (Nat.cast_le.2 (count_firstTags_le contexts tag)) (Nat.cast_nonneg _)⟩

/-- The emission of a known word under a tag is its share of the words under the tag. -/
lemma value_emission?_of_knows {word : Word}
    (h : (ofContexts contexts : TrigramModel Exact).lexicon.knows word = true) (tag : Tag) :
    (((ofContexts contexts : TrigramModel Exact).emission? word tag).getD 0).value =
      frequency (wordsUnder contexts tag) word := by
  have hrow : (ofContexts contexts : TrigramModel Exact).emissions.getD tag ∅ =
      relativeFrequencies (tally (wordsUnder contexts tag)) := getD_conditionalFrequencies _ _
  rw [← value_relativeFrequencies, ← hrow, emission?, if_pos h]
  unfold Table.getD
  cases (ofContexts contexts : TrigramModel Exact).emissions.get? tag <;> rfl

/-- **Emissions lie between zero and one.** -/
theorem emission_mem_unitInterval (contexts : List LabelledContext) (word : Word) (tag : Tag) :
    0 ≤ (((ofContexts contexts : TrigramModel Exact).emission? word tag).getD 0).value ∧
      (((ofContexts contexts : TrigramModel Exact).emission? word tag).getD 0).value ≤ 1 := by
  by_cases h : (ofContexts contexts : TrigramModel Exact).lexicon.knows word = true
  · rw [value_emission?_of_knows h]
    exact ⟨frequency_nonneg _ _, (isSubdistribution_frequency _).le_one _⟩
  · rw [emission?, if_neg h]
    exact unknownEmission_mem_unitInterval contexts tag

end TrigramModel

end TrellisTagger
