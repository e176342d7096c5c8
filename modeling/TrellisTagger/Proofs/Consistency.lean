import TrellisTagger.Proofs.Likelihood

/-!
# Consistency of the tables of a scorer

Training fills seven tables from one list of contexts, in two loops and keyed in different
directions, and scoring reads one table under the keys of another. This file says how the tables fit
together after any trainings, and that scoring never looks up what is not there, divides by zero or
takes the logarithm of a number that is not positive.

## Main definitions

* `TrellisTagger.Table.IsDistribution`, `TrellisTagger.Table.IsConditional` — positive numbers that
  add up to one, and rows of them.
* `TrellisTagger.Lexicon.IsConsistent`, `TrellisTagger.TrigramModel.IsConsistent` — how the tables
  fit together.
* `TrellisTagger.Scorer.checkedScore?` — the score of a tag, if nothing goes wrong on the way.

## Main results

* `TrellisTagger.isDistribution_relativeFrequencies`,
  `TrellisTagger.isConditional_conditionalFrequencies` — whatever is counted.
* `TrellisTagger.TrigramModel.isConsistent_ofContexts` — the tables that are counted from one list.
* `TrellisTagger.Scorer.checkedScore?_eq` — nothing goes wrong.
* `TrellisTagger.Scorer.trainAll_isConsistent` — all of this for scorers of any configuration after
  any trainings.

## Design

`TrigramModel.emission?` reads a missing entry as no value, and the scores read no value as zero.
The checked score gives up instead, at every step at which a reader without defaults would fail, so
that an equation between the two says that no default is ever used in place of a missing entry.
-/

namespace TrellisTagger

universe u v

/-! ### Distributions -/

section Distributions

variable {α : Type u} {κ : Type v}

/-- The numbers of a table are positive, and they add up to one unless there are none. -/
structure Table.IsDistribution (t : Table α Exact) : Prop where
  /-- Every number is positive. -/
  pos : ∀ p ∈ t.values, 0 < p.value
  /-- The numbers add up to one. -/
  mass_eq_one : t.keys ≠ [] → t.mass = 1

/-- Every row of a table is a distribution and has an entry. -/
def Table.IsConditional (t : Table κ (Table α Exact)) : Prop :=
  ∀ row ∈ t.values, row.keys ≠ [] ∧ row.IsDistribution

variable [DecidableEq α] [DecidableEq κ]

/-- Relative frequencies are a distribution. -/
lemma isDistribution_relativeFrequencies (l : List α) :
    (relativeFrequencies (tally l) : Table α Exact).IsDistribution where
  pos p hp := by
    obtain ⟨a, ha⟩ := Table.mem_values_iff.1 hp
    rw [get?_relativeFrequencies] at ha
    split at ha
    · rename_i hmem
      rw [← Option.some.inj ha, Exact.value_ratio, Int.cast_natCast, Int.cast_natCast]
      exact frequency_pos hmem
    · cases ha
  mass_eq_one h := by
    rw [keys_relativeFrequencies, Ne, distinct_eq_nil_iff] at h
    exact mass_relativeFrequencies h

/-- So is every row of relative frequencies under conditions. -/
lemma isConditional_conditionalFrequencies (events : List (κ × α)) :
    (conditionalFrequencies (crossTally events) : Table κ (Table α Exact)).IsConditional := by
  intro row hrow
  obtain ⟨k, hk⟩ := Table.mem_values_iff.1 hrow
  rw [get?_conditionalFrequencies] at hk
  split at hk
  · rename_i hmem
    obtain rfl := Option.some.inj hk
    refine ⟨?_, isDistribution_relativeFrequencies _⟩
    obtain ⟨⟨k, a⟩, he, rfl⟩ := List.mem_map.1 hmem
    rw [keys_relativeFrequencies, Ne, distinct_eq_nil_iff]
    exact List.ne_nil_of_mem (mem_under.2 he)
  · cases hk

/-- A row of relative frequencies lists the events under its condition. -/
lemma mem_keys_getD_conditionalFrequencies {events : List (κ × α)} {k : κ} {a : α} :
    a ∈ ((conditionalFrequencies (crossTally events) : Table κ (Table α Exact)).getD k ∅).keys ↔
      (k, a) ∈ events := by
  rw [getD_conditionalFrequencies, keys_relativeFrequencies, mem_distinct, mem_under]

end Distributions

/-! ### Tables that fit together -/

/-- The frequencies of a lexicon are distributions. -/
structure Lexicon.IsConsistent (m : Lexicon Exact) : Prop where
  /-- The tags of every known word. -/
  known : m.known.IsConditional
  /-- The tags of unknown words. -/
  unknown : m.unknown.IsDistribution

/-- How the tables of a trigram model fit together that was counted from some contexts. -/
structure TrigramModel.IsConsistent (m : TrigramModel Exact) (contexts : List LabelledContext) :
    Prop where
  /-- The tags of words are distributions. -/
  lexicon : m.lexicon.IsConsistent
  /-- The tags are a distribution. -/
  unigrams : m.unigrams.IsDistribution
  /-- The tags after every tag are a distribution. -/
  bigrams : m.bigrams.IsConditional
  /-- The tags after every two tags are a distribution. -/
  trigrams : m.trigrams.IsConditional
  /-- The words under every tag are a distribution. -/
  emissions : m.emissions.IsConditional
  /-- A word has a tag just if the tag has the word. -/
  mem_row_iff : ∀ word tag,
    tag ∈ (m.lexicon.known.getD word ∅).keys ↔ word ∈ (m.emissions.getD tag ∅).keys
  /-- Both ways of multiplying give the frequency of a word with a tag. -/
  joint : ∀ word tag p, (m.lexicon.known.getD word ∅).get? tag = some p →
    ∃ q r, m.unigrams.get? tag = some q ∧ (m.emissions.getD tag ∅).get? word = some r ∧
      q.value * r.value = p.value * (contexts.countP fun c => c.word = word) / contexts.length
  /-- The attested trigrams are those that have a frequency. -/
  attested_iff : ∀ a b c, (a, b, c) ∈ m.lexicon.trigrams ↔ c ∈ (m.trigrams.getD (a, b) ∅).keys
  /-- The bigram and the unigram at the end of an attested trigram have a frequency. -/
  attested : ∀ a b c, (a, b, c) ∈ m.lexicon.trigrams →
    c ∈ (m.bigrams.getD b ∅).keys ∧ c ∈ m.unigrams.keys
  /-- The tags of unknown words have a frequency. -/
  unknown_subset : m.lexicon.unknown.keys ⊆ m.unigrams.keys
  /-- The rate of unknown words is positive, if there are contexts. -/
  unknownRate_pos : contexts ≠ [] → 0 < m.unknownRate.value

section OfContexts

variable {contexts : List LabelledContext}

/-- The tables of a lexicon fit together, whatever contexts it comes from. -/
lemma Lexicon.isConsistent_ofContexts (contexts : List LabelledContext) :
    (ofContexts contexts : Lexicon Exact).IsConsistent :=
  ⟨isConditional_conditionalFrequencies _, isDistribution_relativeFrequencies _⟩

/-- A word occurs under a tag as often as the tag occurs with the word. -/
lemma count_wordsUnder (contexts : List LabelledContext) (word : Word) (tag : Tag) :
    (wordsUnder contexts tag).count word = (tagsWith contexts word).count tag := by
  rw [wordsUnder, tagsWith, wordTags, count_under, count_under, List.count, List.count,
    List.countP_map, List.countP_map]
  refine List.countP_congr fun c _ => ?_
  simp [and_comm]

/-- A word has as many tags, with repetitions, as there are contexts of it. -/
lemma length_tagsWith (contexts : List LabelledContext) (word : Word) :
    (tagsWith contexts word).length = contexts.countP fun c => c.word = word := by
  rw [tagsWith, wordTags, under, List.length_map, ← List.countP_eq_length_filter, List.countP_map]
  rfl

/-- A tag has as many words, with repetitions, as there are contexts with it. -/
lemma length_wordsUnder (contexts : List LabelledContext) (tag : Tag) :
    (wordsUnder contexts tag).length = (tagsOf contexts).count tag := by
  rw [wordsUnder, length_under, List.map_map]
  rfl

namespace TrigramModel

/-- **Both ways of multiplying give the frequency of a word with a tag**: with `n` occurrences of
the word with the tag, `m` of the tag, `k` of the word and `N` contexts, `(m / N) * (n / m)` and
`(n / k) * (k / N)` are `n / N`. -/
lemma joint_ofContexts {word : Word} {tag : Tag} {p : Exact}
    (h : ((ofContexts contexts : TrigramModel Exact).lexicon.known.getD word ∅).get? tag = some p) :
    ∃ q r : Exact, (ofContexts contexts).unigrams.get? tag = some q ∧
      ((ofContexts contexts).emissions.getD tag ∅).get? word = some r ∧
      q.value * r.value = p.value * (contexts.countP fun c => c.word = word) / contexts.length := by
  have hrow : (ofContexts contexts : TrigramModel Exact).lexicon.known.getD word ∅ =
      relativeFrequencies (tally (tagsWith contexts word)) := getD_conditionalFrequencies _ _
  have hemissions : (ofContexts contexts : TrigramModel Exact).emissions.getD tag ∅ =
      relativeFrequencies (tally (wordsUnder contexts tag)) := getD_conditionalFrequencies _ _
  have hunigrams : (ofContexts contexts : TrigramModel Exact).unigrams =
      relativeFrequencies (tally (tagsOf contexts)) := rfl
  rw [hrow, get?_relativeFrequencies] at h
  split at h
  · rename_i hmem
    have hcontext : (word, tag) ∈ wordTags contexts := mem_tagsWith.1 hmem
    obtain ⟨c, hc, heq⟩ := List.mem_map.1 hcontext
    obtain ⟨rfl, rfl⟩ := Prod.mk.inj heq
    have htag : c.tag ∈ tagsOf contexts := List.mem_map_of_mem hc
    have hword : c.word ∈ wordsUnder contexts c.tag := mem_under.2 (List.mem_map.2 ⟨c, hc, rfl⟩)
    rw [hunigrams, hemissions, get?_relativeFrequencies, get?_relativeFrequencies, if_pos htag,
      if_pos hword]
    refine ⟨_, _, rfl, rfl, ?_⟩
    rw [← Option.some.inj h]
    simp only [Exact.value_ratio, Int.cast_natCast]
    rw [count_wordsUnder, length_wordsUnder, ← length_tagsWith]
    have hlength : ((tagsOf contexts).length : ℚ) = contexts.length := by
      rw [tagsOf, List.length_map]
    have htags : ((tagsOf contexts).count c.tag : ℚ) ≠ 0 :=
      Nat.cast_ne_zero.2 (List.count_pos_iff.2 htag).ne'
    have hwords : ((tagsWith contexts c.word).length : ℚ) ≠ 0 :=
      Nat.cast_ne_zero.2 (List.length_pos_of_mem hmem).ne'
    rw [hlength]
    field_simp
  · cases h

/-- **The tables that are counted from one list of contexts fit together.** -/
theorem isConsistent_ofContexts (contexts : List LabelledContext) :
    (ofContexts contexts : TrigramModel Exact).IsConsistent contexts where
  lexicon := Lexicon.isConsistent_ofContexts contexts
  unigrams := isDistribution_relativeFrequencies _
  bigrams := isConditional_conditionalFrequencies _
  trigrams := isConditional_conditionalFrequencies _
  emissions := isConditional_conditionalFrequencies _
  mem_row_iff word tag := by
    rw [ofContexts, Lexicon.ofContexts, mem_keys_getD_conditionalFrequencies,
      mem_keys_getD_conditionalFrequencies]
    simp [and_comm]
  joint _ _ _ h := joint_ofContexts h
  attested_iff a b c := by
    rw [ofContexts, Lexicon.ofContexts, TagCounts.ofContexts, mem_distinct,
      mem_keys_getD_conditionalFrequencies]
    simp [LabelledContext.trigram, and_assoc]
  attested a b c h := by
    rw [ofContexts, Lexicon.ofContexts, mem_distinct] at h
    obtain ⟨context, hcontext, heq⟩ := List.mem_map.1 h
    cases heq
    rw [ofContexts, TagCounts.ofContexts, mem_keys_getD_conditionalFrequencies,
      keys_relativeFrequencies, mem_distinct]
    exact ⟨List.mem_map_of_mem hcontext, List.mem_map_of_mem hcontext⟩
  unknown_subset tag h := by
    rw [ofContexts, Lexicon.ofContexts, keys_relativeFrequencies, mem_distinct] at h
    rw [ofContexts, TagCounts.ofContexts, keys_relativeFrequencies, mem_distinct]
    obtain ⟨context, hcontext, rfl⟩ := List.mem_map.1 h
    exact List.mem_map_of_mem (mem_of_mem_distinctBy hcontext)
  unknownRate_pos h := by
    rw [value_unknownRate h]
    obtain ⟨context, rest, rfl⟩ := List.exists_cons_of_ne_nil h
    exact div_pos (Nat.cast_pos.2 (by simp [firstTags, distinctBy])) (Nat.cast_pos.2 (by simp))

end TrigramModel

end OfContexts

/-! ### Scoring step by step -/

section Checked

variable {P : Type u} [Probability P]

/-- A quotient, if the divisor is not zero. -/
def checkedQuotient? (p q : P) : Option P := if q == 0 then none else some (p / q)

/-- The emission of a word under a tag, if all that is looked up is there and no divisor is zero. -/
def TrigramModel.checkedEmission? (m : TrigramModel P) (word : Word) (tag : Tag) : Option P :=
  if m.lexicon.knows word then (m.emissions.get? tag).map (·.getD word 0)
  else
    let share := m.unigrams.getD tag 0
    if share == 0 then some 0
    else (m.lexicon.unknown.get? tag).bind fun p => checkedQuotient? (p * m.unknownRate) share

/-- The divisor is looked at before dividing. -/
lemma TrigramModel.checkedEmission?_eq (m : TrigramModel P) (word : Word) (tag : Tag) :
    m.checkedEmission? word tag = m.emission? word tag := by
  unfold checkedEmission? emission? unknownEmission?
  dsimp only
  split
  · rfl
  split
  · rfl
  · rename_i hshare
    simp only [checkedQuotient?, if_neg hshare]
    cases m.lexicon.unknown.get? tag <;> rfl

variable {W : Type v} [LogWeight W] [Logarithm P W]

/-- The logarithm of a number, if it is positive. -/
def checkedLog? (p : P) : Option W := if 0 < p then some (Logarithm.log p) else none

/-- The log weight of a number that is looked at before its logarithm is taken. -/
def checkedLogWeight? (p : P) : Option W := if p ≤ 0 then some impossible else checkedLog? p

/-- The score of a tag, if all that is looked up is there, no divisor is zero, and logarithms are
taken of positive numbers only. -/
def Scorer.checkedScore? (s : Scorer P) (c : Context) (tag : Tag) : Option W :=
  match s with
  | .lexical s => ((s.lexicon.candidates s.restrict c).get? tag).bind checkedLog?
  | .trigram s =>
    if s.model.lexicon.excludes s.restrict c tag then some impossible
    else
      (s.model.checkedEmission? c.word tag).bind fun emission =>
        (checkedLogWeight?
            (s.model.transition s.weights c.beforePrevious c.previous tag)).bind fun w =>
          (checkedLogWeight? emission).map fun w' => w + w'

end Checked

namespace Scorer

variable {W : Type v} [LogWeight W] [Logarithm Exact W] {s : Scorer Exact}
  {contexts : List LabelledContext}

/-- No logarithm is taken of a number that is not positive. -/
lemma checkedLogWeight?_eq (p : Exact) : (checkedLogWeight? p : Option W) = some (logWeight p) := by
  unfold checkedLogWeight? logWeight checkedLog?
  split
  · rfl
  · rename_i h
    rw [Exact.le_iff, not_le] at h
    exact if_pos h

/-- **Nothing goes wrong in scoring**: each tag that is scored has the score that a reader finds who
looks at everything first. -/
theorem checkedScore?_eq (hmodel : s.IsModelOf contexts) (c : Context) {tag : Tag}
    (htag : tag ∈ (s.logScores c : Table Tag W).keys) :
    s.checkedScore? c tag = (s.logScores c : Table Tag W).get? tag := by
  obtain ⟨w, hw⟩ := Table.mem_keys_iff.1 htag
  cases s with
  | lexical s =>
    rw [checkedScore?, logScores, Lexicon.logScores, Table.get?_mapValues]
    cases hget : (s.lexicon.candidates s.restrict c).get? tag with
    | none => rfl
    | some p =>
      obtain ⟨n, d, hn, hd, rfl⟩ :=
        isDefinedAt_lexical hmodel p (Table.mem_values_iff.2 ⟨tag, hget⟩)
      have hpos : (0 : Exact) < ratio n d := by
        rw [Exact.lt_iff, Exact.value_ratio, Int.cast_natCast, Int.cast_natCast]
        exact div_pos (Nat.cast_pos.2 hn) (Nat.cast_pos.2 (hn.trans_le hd))
      exact if_pos hpos
  | trigram s =>
    rw [keys_logScores (s := .trigram s) fun h => h] at htag
    obtain ⟨p, hp⟩ := Table.mem_keys_iff.1 htag
    obtain ⟨e, he⟩ := Option.isSome_iff_exists.1 (isDefinedAt_trigram hmodel tag htag)
    have hrow : s.model.lexicon.row c.word = (Scorer.trigram s).lexicon.row c.word := rfl
    rw [checkedScore?, logScores, TrigramScorer.logScores, TrigramModel.logScores,
      Table.get?_mapValues, hrow, hp, TrigramModel.checkedEmission?_eq, he]
    simp only [Option.bind_some, checkedLogWeight?_eq, Option.map_some, TrigramModel.factors, he,
      Option.getD_some]
    show (if s.model.lexicon.excludes s.restrict c tag then _ else _) =
      some (if s.model.lexicon.excludes s.restrict c tag then _ else _)
    split <;> rfl

/-- The tables of a scorer fit together. -/
def IsConsistent (s : Scorer Exact) (contexts : List LabelledContext) : Prop :=
  match s with
  | .lexical s => s.lexicon.IsConsistent
  | .trigram s => s.model.IsConsistent contexts

/-- The tables of a scorer whose model is that of some contexts fit together. -/
lemma IsModelOf.isConsistent (h : s.IsModelOf contexts) : s.IsConsistent contexts := by
  cases s with
  | lexical s =>
    have hlexicon : s.lexicon = .ofContexts contexts := h
    rw [IsConsistent, hlexicon]
    exact Lexicon.isConsistent_ofContexts contexts
  | trigram s =>
    have hm : s.model = .ofContexts contexts := h
    rw [IsConsistent, hm]
    exact TrigramModel.isConsistent_ofContexts contexts

/-- **The tables of a scorer fit together after any trainings**, and before the first. Take a scorer
of any configuration in exact arithmetic and let it learn from any lists of labelled contexts, one
after another. Its tables are distributions that were counted from the last of these lists, and in
no context anything goes wrong when it scores tags: whatever is looked up is there, no divisor is
zero, and logarithms are taken of positive numbers only. -/
theorem trainAll_isConsistent {c : Config Exact} (h : c.scorer = .ok s)
    (trainings : List (List LabelledContext)) :
    (s.trainAll trainings).IsConsistent (trainings.getLast?.getD []) ∧
      ∀ (context : Context) (tag : Tag),
        tag ∈ ((s.trainAll trainings).logScores context : Table Tag W).keys →
        (s.trainAll trainings).checkedScore? context tag =
          ((s.trainAll trainings).logScores context : Table Tag W).get? tag := by
  have hmodel := isModelOf_trainAll_getD h trainings
  exact ⟨hmodel.isConsistent, fun context tag htag => checkedScore?_eq hmodel context htag⟩

/-- The tables of a scorer that was trained on nothing, and then on a sentence. -/
theorem trainAll_isConsistent_dogs :
    ∃ s : Scorer Exact,
      Config.scorer ⟨"trigram_hmm", "viterbi", true, ⟨⟨1 / 2⟩, ⟨1 / 2⟩⟩, true⟩ = .ok s ∧
      (s.trainAll [[], Tagger.contextsOf [⟨["dogs", "bark"], ["NNS", "VBP"], rfl⟩]]).IsConsistent
        (Tagger.contextsOf [⟨["dogs", "bark"], ["NNS", "VBP"], rfl⟩]) := by
  have hconvex : Interpolation.IsConvex ⟨⟨1 / 2⟩, ⟨1 / 2⟩⟩ :=
    ⟨by norm_num, by norm_num, by norm_num⟩
  have hscorer := scorer_eq_ok_trigram
    (c := ⟨"trigram_hmm", "viterbi", true, ⟨⟨1 / 2⟩, ⟨1 / 2⟩⟩, true⟩) rfl hconvex
  exact ⟨_, hscorer, (trainAll_isConsistent (W := WithBot ℝ) hscorer
    [[], Tagger.contextsOf [⟨["dogs", "bark"], ["NNS", "VBP"], rfl⟩]]).1⟩

end Scorer

end TrellisTagger
