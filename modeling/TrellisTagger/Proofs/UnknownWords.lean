import TrellisTagger.Proofs.Table
import TrellisTagger.Proofs.TrigramModel
import TrellisTagger.Scorer

/-!
# What is known of unknown words

The emission of a word that training has not seen is computed by Bayes' rule from three numbers: the
share of the tag among first occurrences of words, the number of words per context, and the share of
the tag among all contexts. This file counts words by the tags of their first occurrences and says
which quotient of counts comes out.

## Main definitions

* `TrellisTagger.wordsFirstUnder` — the words whose first occurrence has a given tag.

## Main results

* `TrellisTagger.mem_distinctBy_iff` — the first element with each key is the one that a search for
  the key finds.
* `TrellisTagger.count_firstTags` — first occurrences under a tag are counted by words.
* `TrellisTagger.TrigramScorer.train_unknownEmission` — the emission of an unseen word is a counted
  share, and these shares add up to the rate of unknown words.

## Design

A word has just one first occurrence, so counting words by the tags of their first occurrences is
counting first occurrences by their tags, and no word is counted under two tags. This is what makes
the shares add up.
-/

namespace TrellisTagger

universe u v

/-! ### First occurrences -/

/-- The first element with each key is the one that a search for its key finds. -/
lemma mem_distinctBy_iff {α : Type u} {κ : Type v} [DecidableEq κ] {key : α → κ} {l : List α}
    {a : α} :
    a ∈ distinctBy key l ↔ l.find? (fun b => key b = key a) = some a := by
  induction l with
  | nil => simp [distinctBy]
  | cons b l ih =>
    rw [distinctBy, List.mem_cons, List.mem_filter, ih]
    by_cases hb : key b = key a
    · -- the search stops here, and nothing with this key is kept later on
      simp [hb, eq_comm]
    · have hne : a ≠ b := fun h => hb (congrArg key h.symm)
      simp [hb, hne, Ne.symm hb]

/-- The words whose first occurrence in some contexts has a given tag. -/
def wordsFirstUnder (contexts : List LabelledContext) (tag : Tag) : Finset Word :=
  {word ∈ (contexts.map fun c => c.word).toFinset |
    (contexts.find? fun c => c.word = word).map (fun c => c.tag) = some tag}

variable {contexts : List LabelledContext} {tag : Tag}

/-- The words whose first occurrence has a tag are those of the first occurrences with the tag. -/
lemma wordsFirstUnder_eq (contexts : List LabelledContext) (tag : Tag) :
    wordsFirstUnder contexts tag =
      (((distinctBy (fun c => c.word) contexts).filter fun c => c.tag = tag).map
        fun c => c.word).toFinset := by
  ext word
  simp only [wordsFirstUnder, Finset.mem_filter, List.mem_toFinset, List.mem_map, List.mem_filter,
    mem_distinctBy_iff, Option.map_eq_some_iff, decide_eq_true_eq]
  constructor
  · rintro ⟨-, c, hfind, htag⟩
    have hword : c.word = word := by simpa using List.find?_some hfind
    exact ⟨c, ⟨hword ▸ hfind, htag⟩, hword⟩
  · rintro ⟨c, ⟨hfind, htag⟩, rfl⟩
    exact ⟨⟨c, List.mem_of_find?_eq_some hfind, rfl⟩, c, hfind, htag⟩

/-- **First occurrences under a tag are counted by words.** -/
theorem count_firstTags (contexts : List LabelledContext) (tag : Tag) :
    (firstTags contexts).count tag = (wordsFirstUnder contexts tag).card := by
  have hnodup : (((distinctBy (fun c => c.word) contexts).filter fun c => c.tag = tag).map
      fun c => c.word).Nodup :=
    (nodup_map_distinctBy _ contexts).sublist (List.filter_sublist.map _)
  rw [wordsFirstUnder_eq, List.toFinset_card_of_nodup hnodup, List.length_map, firstTags,
    List.count, List.countP_map, List.countP_eq_length_filter]
  congr 2

/-- There are as many first occurrences as different words. -/
lemma length_firstTags_eq_card (contexts : List LabelledContext) :
    (firstTags contexts).length = (contexts.map fun c => c.word).toFinset.card := by
  rw [← length_distinct, ← map_distinctBy, firstTags, List.length_map, List.length_map]

namespace TrigramModel

/-- The tags that are known of unknown words are those of first occurrences. -/
lemma keys_unknown (contexts : List LabelledContext) :
    (ofContexts contexts : TrigramModel Exact).lexicon.unknown.keys =
      distinct (firstTags contexts) :=
  keys_relativeFrequencies _

/-- The rate of unknown words is the number of different words per context. -/
lemma value_unknownRate_eq (contexts : List LabelledContext) :
    (ofContexts contexts : TrigramModel Exact).unknownRate.value =
      (contexts.map fun c => c.word).toFinset.card / contexts.length := by
  rcases eq_or_ne contexts [] with rfl | hne
  · simp [ofContexts]
  · rw [value_unknownRate hne, length_firstTags_eq_card]

/-- A tag of first occurrences gives unknown words a positive emission, which is a counted share. -/
lemma exists_unknownEmission?_eq (h : tag ∈ firstTags contexts) :
    ∃ p : Exact, (ofContexts contexts).unknownEmission? tag = some p ∧
      p.value = (wordsFirstUnder contexts tag).card / (tagsOf contexts).count tag ∧
        0 < p.value ∧ p.value ≤ 1 := by
  have hvalue := value_unknownEmission? contexts tag
  have hpos := unknownEmission_pos h
  obtain ⟨-, hle⟩ := unknownEmission_mem_unitInterval contexts tag
  cases hget : (ofContexts contexts : TrigramModel Exact).unknownEmission? tag with
  | none =>
    -- no emission would read as zero
    rw [hget] at hpos
    exact absurd hpos (lt_irrefl 0)
  | some p =>
    rw [hget, Option.getD_some] at hvalue hpos hle
    exact ⟨p, rfl, by rw [hvalue, count_firstTags], hpos, hle⟩

/-- The share of a tag times the emission of unknown words under it is the share of the first
occurrences with the tag among all contexts. -/
lemma value_unigrams_mul_unknownEmission? (contexts : List LabelledContext) (tag : Tag) :
    ((ofContexts contexts : TrigramModel Exact).unigrams.getD tag 0).value *
        (((ofContexts contexts : TrigramModel Exact).unknownEmission? tag).getD 0).value =
      (firstTags contexts).count tag / contexts.length := by
  have hle := count_firstTags_le contexts tag
  rw [value_unigrams, value_unknownEmission?, frequency, tagsOf, List.length_map, ← tagsOf]
  rcases Nat.eq_zero_or_pos ((tagsOf contexts).count tag) with hzero | hpos
  · -- where the tag does not occur, neither does it on first occurrences
    have hfirst : (firstTags contexts).count tag = 0 := by omega
    rw [hfirst, Nat.cast_zero, zero_div, zero_div, mul_zero]
  · have hne : ((tagsOf contexts).count tag : ℚ) ≠ 0 := Nat.cast_ne_zero.2 hpos.ne'
    rw [mul_comm, div_mul_div_cancel₀ hne]

/-- **The emissions of unknown words add up to their rate**, each times the share of its tag. -/
theorem sum_unigrams_mul_unknownEmission? (contexts : List LabelledContext) :
    ((ofContexts contexts : TrigramModel Exact).lexicon.unknown.keys.map fun tag =>
        ((ofContexts contexts : TrigramModel Exact).unigrams.getD tag 0).value *
          (((ofContexts contexts : TrigramModel Exact).unknownEmission? tag).getD 0).value).sum =
      (ofContexts contexts : TrigramModel Exact).unknownRate.value := by
  have hsum :
      ((distinct (firstTags contexts)).map fun tag => ((firstTags contexts).count tag : ℚ)).sum =
      (firstTags contexts).length := by
    have hcast := congrArg (Int.cast (R := ℚ)) (sum_count_distinct (firstTags contexts))
    rw [Int.cast_list_sum, List.map_map] at hcast
    simpa [Function.comp_def] using hcast
  simp only [value_unigrams_mul_unknownEmission?, keys_unknown, div_eq_mul_inv]
  rw [List.sum_map_mul_right, hsum, ← div_eq_mul_inv, length_firstTags_eq_card,
    value_unknownRate_eq]

end TrigramModel

namespace TrigramScorer

/-- **The emission of unknown words is a counted share.** In exact arithmetic, after a trigram
scorer has been trained on any labelled contexts:

* under every tag that is known of unknown words there is an emission for them: the number of words
  whose first occurrence has the tag, divided by the number of contexts with the tag; it lies
  between zero, which it is not, and one;
* these emissions, each times the share of its tag, add up to the rate of unknown words;
* this is the number of different words, divided by the number of contexts.

**Proof sketch.** With `f` words first under the tag, `U` words, `n` contexts with the tag and `N`
contexts, Bayes' rule says `(f / U) * (U / N) / (n / N)`, which is `f / n`, and the summands are
`f / N`. Every word is first under one tag, so the `f` add up to `U`. -/
theorem train_unknownEmission (s : TrigramScorer Exact) (contexts : List LabelledContext) :
    let m := (s.train contexts).model
    (∀ tag ∈ m.lexicon.unknown.keys, ∃ p, m.unknownEmission? tag = some p ∧
        p.value = (wordsFirstUnder contexts tag).card / contexts.countP (fun c => c.tag = tag) ∧
        0 < p.value ∧ p.value ≤ 1) ∧
      (m.lexicon.unknown.keys.map fun tag =>
        (m.unigrams.getD tag 0).value * ((m.unknownEmission? tag).getD 0).value).sum =
          m.unknownRate.value ∧
      m.unknownRate.value = (contexts.map fun c => c.word).toFinset.card / contexts.length := by
  refine ⟨fun tag htag => ?_, TrigramModel.sum_unigrams_mul_unknownEmission? contexts,
    TrigramModel.value_unknownRate_eq contexts⟩
  have hfirst : tag ∈ firstTags contexts := by
    rwa [train, TrigramModel.keys_unknown, mem_distinct] at htag
  have hcount : contexts.countP (fun c => c.tag = tag) = (tagsOf contexts).count tag := by
    rw [tagsOf, List.count, List.countP_map]
    congr 1
  rw [hcount]
  exact TrigramModel.exists_unknownEmission?_eq hfirst

/-- After training on one sentence of two words the stop symbol, which ends it twice, is new
once. -/
theorem train_unknownEmission_stop :
    let contexts := (Sentence.mk ["dogs", "bark"] ["NNS", "VBP"] rfl).contexts
    let s : TrigramScorer Exact := ⟨true, true, ⟨⟨3 / 5⟩, ⟨3 / 10⟩⟩, .empty⟩
    let m := (s.train contexts).model
    (∃ p, m.unknownEmission? Boundary.stop = some p ∧ p.value = 1 / 2) ∧
      m.unknownRate.value = 3 / 4 := by
  intro contexts s m
  obtain ⟨hemission, -, hrate⟩ := train_unknownEmission s contexts
  have hkey : Boundary.stop ∈ m.lexicon.unknown.keys := by
    rw [show m = .ofContexts contexts from rfl, TrigramModel.keys_unknown, mem_distinct]
    decide
  have hfirst : (wordsFirstUnder contexts Boundary.stop).card = 1 := by decide
  have hcount : contexts.countP (fun c => c.tag = Boundary.stop) = 2 := by decide
  have hwords : (contexts.map fun c => c.word).toFinset.card = 3 := by decide
  have hlength : contexts.length = 4 := by decide
  obtain ⟨p, hp, hvalue, -⟩ := hemission _ hkey
  rw [hfirst, hcount] at hvalue
  rw [hwords, hlength] at hrate
  exact ⟨⟨p, hp, by rw [hvalue]; norm_num⟩, by rw [hrate]; norm_num⟩

end TrigramScorer

end TrellisTagger
