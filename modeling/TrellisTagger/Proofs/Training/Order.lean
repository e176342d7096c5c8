import TrellisTagger.Proofs.Interpolation.Shares
import TrellisTagger.Proofs.Table

/-!
# The order of sentences

Training reads its sentences in order, and its tables list words and tags in the order in which they
came. Only one of them holds something else when the sentences come in another order: that of the
first occurrences of words, from which unknown words are scored. Everything that is looked up for a
known word stays the same, and so do the interpolation weights as long as counts are added exactly.

## Main definitions

* `TrellisTagger.Lexicon.Agrees`, `TrellisTagger.TrigramModel.Agrees` — models that differ in
  nothing but the order of their tables and what they know of first occurrences.

## Main results

* `TrellisTagger.TrigramModel.agrees_ofContexts` — training on the same contexts in another order.
* `TrellisTagger.TrigramModel.Agrees.same_logScores` — known words are scored alike.
* `TrellisTagger.TrigramScorer.train_perm` — what does not depend on the order of sentences.
-/

namespace TrellisTagger

universe u v

open Table

/-! ### Lexicons that agree -/

/-- Two lexicons agree on known words and on trigrams. They may differ in the order of their tables,
and in the tags of first occurrences. -/
structure Lexicon.Agrees {P : Type u} (m m' : Lexicon P) : Prop where
  /-- Known words have the same tags, with the same frequencies. -/
  known : SameRows m.known m'.known
  /-- The same trigrams are attested. -/
  mem_trigrams {x : Tag × Tag × Tag} : x ∈ m.trigrams ↔ x ∈ m'.trigrams

namespace Lexicon

variable {P : Type u}

section Learning

variable [Probability P] {contexts contexts' : List LabelledContext}

/-- The lexicons of reordered contexts agree. -/
lemma agrees_ofContexts (h : contexts.Perm contexts') :
    (ofContexts contexts : Lexicon P).Agrees (ofContexts contexts') where
  known := (sameRows_crossTally (h.map _)).conditionalFrequencies
  mem_trigrams {x} := by rw [ofContexts, ofContexts, mem_distinct, mem_distinct, (h.map _).mem_iff]

end Learning

namespace Agrees

variable {m m' : Lexicon P} (h : m.Agrees m')
include h

/-- The same words are known. -/
lemma knows_eq (word : Word) : m.knows word = m'.knows word := by
  rw [Bool.eq_iff_iff, knows, knows, contains_iff, contains_iff]
  exact h.known.mem_keys_iff

/-- What is read of a known word does not depend on first occurrences. -/
lemma same_row {word : Word} (hknown : m.knows word = true) : Same (m.row word) (m'.row word) := by
  have hknown' : m'.knows word = true := h.knows_eq word ▸ hknown
  rw [knows, contains_iff] at hknown hknown'
  rw [row, row, getD_of_mem_keys hknown _ ∅, getD_of_mem_keys hknown' _ ∅]
  exact h.known.getD word

/-- The same tags fit into a context. -/
lemma fits_eq (c : Context) : m.fits c = m'.fits c := by
  funext tag
  exact decide_eq_decide.2 h.mem_trigrams

/-- Some tag of a known word fits into a context for both or for neither. -/
lemma someFits_eq {c : Context} (hknown : m.knows c.word = true) :
    m.someFits c = m'.someFits c := by
  rw [someFits, someFits, h.fits_eq]
  exact (h.same_row hknown).keys_perm.any_eq

end Agrees

end Lexicon

/-! ### Models that agree -/

/-- Two models agree on known words and on transitions. They may differ in the order of their
tables, and in the tags of first occurrences. -/
structure TrigramModel.Agrees {P : Type u} (m m' : TrigramModel P) : Prop where
  /-- The lexicons agree. -/
  lexicon : m.lexicon.Agrees m'.lexicon
  /-- Tags have the same frequencies. -/
  unigrams : Same m.unigrams m'.unigrams
  /-- Tags have the same frequencies after every tag. -/
  bigrams : SameRows m.bigrams m'.bigrams
  /-- Tags have the same frequencies after every two tags. -/
  trigrams : SameRows m.trigrams m'.trigrams
  /-- Words have the same frequencies under every tag. -/
  emissions : SameRows m.emissions m'.emissions
  /-- There are as many different words per context. -/
  unknownRate : m.unknownRate = m'.unknownRate

namespace TrigramModel

variable {P : Type u} [Probability P]

/-- **Contexts in another order make a model that agrees.** -/
theorem agrees_ofContexts {contexts contexts' : List LabelledContext}
    (h : contexts.Perm contexts') :
    (ofContexts contexts : TrigramModel P).Agrees (ofContexts contexts') := by
  have hlexicon := Lexicon.agrees_ofContexts (P := P) h
  have hcounts := TagCounts.same_ofContexts h
  refine ⟨hlexicon, hcounts.unigrams.relativeFrequencies, hcounts.bigrams.conditionalFrequencies,
    hcounts.trigrams.conditionalFrequencies,
    (sameRows_crossTally (h.map _)).conditionalFrequencies, ?_⟩
  have hsize : (Lexicon.ofContexts contexts : Lexicon P).known.size =
      (Lexicon.ofContexts contexts' : Lexicon P).known.size := by
    rw [← length_keys, ← length_keys]
    exact hlexicon.known.keys_perm.length_eq
  have hempty : contexts.isEmpty = contexts'.isEmpty := h.isEmpty_eq
  simp only [ofContexts, hsize, hempty, h.length_eq]

/-- The emission of a known word is looked up under the tag. -/
lemma getD_emission?_of_knows {m : TrigramModel P} {word : Word} (h : m.lexicon.knows word = true)
    (tag : Tag) : (m.emission? word tag).getD 0 = (m.emissions.getD tag ∅).getD word 0 := by
  simp only [emission?, if_pos h, Table.getD]
  cases m.emissions.get? tag <;> rfl

namespace Agrees

variable {m m' : TrigramModel P} (h : m.Agrees m')
include h

/-- Transitions are equally probable. -/
lemma transition_eq (w : Interpolation P) (a b c : Tag) :
    m.transition w a b c = m'.transition w a b c := by
  rw [transition, transition, (h.trigrams.getD (a, b)).getD, (h.bigrams.getD b).getD,
    h.unigrams.getD]

/-- Neither factor of a known word depends on first occurrences. -/
lemma factors_eq (w : Interpolation P) {c : Context} (hknown : m.lexicon.knows c.word = true)
    (tag : Tag) :
    m.factors w c tag = m'.factors w c tag := by
  have hknown' : m'.lexicon.knows c.word = true := h.lexicon.knows_eq c.word ▸ hknown
  rw [factors, factors, h.transition_eq, getD_emission?_of_knows hknown,
    getD_emission?_of_knows hknown', (h.emissions.getD tag).getD]

/-- **Known words are scored alike.** -/
theorem same_logScores {W : Type v} [LogWeight W] [Logarithm P W] (w : Interpolation P)
    (restrict : Bool) {c : Context} (hknown : m.lexicon.knows c.word = true) :
    Same (m.logScores w restrict c : Table Tag W) (m'.logScores w restrict c) := by
  intro tag
  simp only [logScores, get?_mapValues, h.lexicon.same_row hknown tag, h.lexicon.someFits_eq hknown,
    h.lexicon.fits_eq, h.factors_eq w hknown]

end Agrees

end TrigramModel

/-! ### Training on sentences in another order -/

/-- The weight of a tagging is made from the scores of its contexts. -/
lemma taggingWeight_congr {W : Type v} [LogWeight W] {scores scores' : Scores W} {x : Sentence}
    (h : ∀ c ∈ x.contexts, Same (scores c.toContext) (scores' c.toContext)) :
    taggingWeight scores x = taggingWeight scores' x := by
  refine List.foldl_ext _ _ _ fun total c hc => ?_
  rw [contextWeight, contextWeight, (h c hc).getD]

/-- The words of the contexts of a sentence are its words and the stop symbol. -/
lemma Sentence.word_mem_contexts {x : Sentence} {c : LabelledContext} (hc : c ∈ x.contexts) :
    c.word ∈ x.words ∨ c.word = Boundary.stop := by
  have hmem : (c.word, c.tag) ∈ wordTags x.contexts := List.mem_map_of_mem hc
  rw [x.wordTags_contexts] at hmem
  rcases List.mem_append.1 hmem with hzip | hstop
  · exact .inl (List.of_mem_zip hzip).1
  · simp only [List.mem_cons, List.not_mem_nil, or_false, or_self, Prod.mk.injEq] at hstop
    exact .inr hstop.1

/-- Training on a sentence tells of the stop symbol. -/
lemma Lexicon.knows_stop {P : Type u} [Probability P] {sentences : List Sentence}
    (h : sentences ≠ []) :
    (ofContexts (Tagger.contextsOf sentences) : Lexicon P).knows Boundary.stop = true := by
  obtain ⟨s, hs⟩ := List.exists_mem_of_ne_nil sentences h
  rw [knows_ofContexts]
  exact List.mem_map.2
    ⟨(Boundary.stop, Boundary.stop), mem_wordTags_contextsOf.2 ⟨s, hs, .inr rfl⟩, rfl⟩

namespace TrigramScorer

variable {P : Type u} [Probability P] {s : TrigramScorer P}

/-- The weights do not depend on the order of contexts, as long as these are counted exactly. -/
lemma weightsAfter_perm {contexts contexts' : List LabelledContext} (h : contexts.Perm contexts')
    (hP : s.estimate = true → AddsCounts P contexts.length) :
    s.weightsAfter contexts = s.weightsAfter contexts' := by
  unfold weightsAfter
  split
  · rename_i hestimate
    rw [(TagCounts.same_ofContexts h).deletedInterpolation_eq (hP hestimate)
      (fun e he => (TagCounts.pos_of_mem_occurrences e he).le)
      (TagCounts.trigramTotal_ofContexts contexts).le]
  · rfl

/-- **The order of training sentences does not matter to known words.** Let a trigram scorer learn
from some sentences, or from the same sentences in another order. Its model holds the same, up to
the order of tables, of all but first occurrences. If counts are added exactly, as exact numbers
always are and floats below `2 ^ 53`, or if the weights are not estimated, then

* the weights are the same;
* every context of a known word gives its tags the same scores;
* every tagging of known words has the same weight.

**Proof sketch.** The contexts are the same in another order. Counts do not depend on it, and votes
on the weights are a sum of counts. The scores of a known word look nothing up among first
occurrences. -/
theorem train_perm {W : Type v} [LogWeight W] [Logarithm P W] {sentences sentences' : List Sentence}
    (h : sentences.Perm sentences') :
    let trained := s.train (Tagger.contextsOf sentences)
    let trained' := s.train (Tagger.contextsOf sentences')
    trained.model.Agrees trained'.model ∧
      ((s.estimate = true → AddsCounts P (Tagger.contextsOf sentences).length) →
        trained.weights = trained'.weights ∧
          (∀ c : Context, trained.model.lexicon.knows c.word = true →
            Same (trained.logScores c : Table Tag W) (trained'.logScores c)) ∧
          ∀ x : Sentence, (∀ word ∈ x.words, trained.model.lexicon.knows word = true) →
            (taggingWeight trained.logScores x : W) = taggingWeight trained'.logScores x) := by
  intro trained trained'
  have hcontexts : (Tagger.contextsOf sentences).Perm (Tagger.contextsOf sentences') :=
    h.flatMap_right _
  have hmodel : trained.model.Agrees trained'.model := TrigramModel.agrees_ofContexts hcontexts
  refine ⟨hmodel, fun hP => ?_⟩
  have hweights : trained.weights = trained'.weights := weightsAfter_perm hcontexts hP
  have hscores : ∀ c : Context, trained.model.lexicon.knows c.word = true →
      Same (trained.logScores c : Table Tag W) (trained'.logScores c) := by
    intro c hknown
    rw [logScores, logScores, ← hweights]
    exact hmodel.same_logScores _ _ hknown
  refine ⟨hweights, hscores, fun x hwords => ?_⟩
  rcases eq_or_ne sentences [] with rfl | hne
  · obtain rfl := List.nil_perm.1 h
    rfl
  · refine taggingWeight_congr fun c hc => hscores _ ?_
    rcases Sentence.word_mem_contexts hc with hword | hstop
    · exact hwords _ hword
    · rw [hstop]
      exact Lexicon.knows_stop hne

/-- The standard scorer, on floats: two sentences that have a word in common, in both orders. -/
theorem train_perm_dogs :
    ∃ s : TrigramScorer Float, Config.standard.scorer = .ok (.trigram s) ∧
      let sentences : List Sentence :=
        [⟨["dogs", "bark"], ["NNS", "VBP"], rfl⟩, ⟨["bark"], ["NN"], rfl⟩]
      let trained := s.train (Tagger.contextsOf sentences)
      let trained' := s.train (Tagger.contextsOf sentences.reverse)
      trained.weights = trained'.weights ∧
        (taggingWeight trained.logScores ⟨["bark", "dogs"], ["NN", "NNS"], rfl⟩ : Float) =
          taggingWeight trained'.logScores ⟨["bark", "dogs"], ["NN", "NNS"], rfl⟩ := by
  refine ⟨⟨true, true, ⟨0.6, 0.3⟩, .empty⟩, if_neg (by decide), ?_⟩
  obtain ⟨-, htrained⟩ := train_perm (W := Float) (s := ⟨true, true, ⟨0.6, 0.3⟩, .empty⟩)
    (List.reverse_perm [⟨["dogs", "bark"], ["NNS", "VBP"], rfl⟩, ⟨["bark"], ["NN"], rfl⟩]).symm
  obtain ⟨hweights, -, htaggings⟩ := htrained fun _ => addsCounts_float (by decide)
  exact ⟨hweights, htaggings _ (by decide)⟩

/-- First occurrences do depend on the order. -/
example : firstTags (Tagger.contextsOf [⟨["bark"], ["NN"], rfl⟩, ⟨["bark"], ["VBP"], rfl⟩]) ≠
    firstTags (Tagger.contextsOf [⟨["bark"], ["VBP"], rfl⟩, ⟨["bark"], ["NN"], rfl⟩]) := by decide

end TrigramScorer

end TrellisTagger
