import TrellisTagger.Proofs.Training
import TrellisTagger.Proofs.Votes

/-!
# Training as a state machine

What a scorer knows after any number of trainings, some of which fail, is what a fresh scorer knows
after the last one that did not fail. The interpolation weights alone can be older: they are
estimated from the last contexts there were any of. Where the two scorers have different weights,
they score nothing.

## Main definitions

* `TrellisTagger.Sentence.IsFirstMismatch` — the first sentence of a corpus with more or fewer tags
  than words.
* `TrellisTagger.Scorer.trainLast` — learn from the last of several lists of sentences only.
* `TrellisTagger.Scorer.model?`, `TrellisTagger.Scorer.weights?` — the model and the weights of the
  trigram scorer.
* `TrellisTagger.estimatedWeights?` — the weights that training estimates.
* `TrellisTagger.TrigramScorer.weightsAfterAll` — the weights after several trainings.

## Main results

* `TrellisTagger.Sentence.ofAllLists_eq_error_iff` — which corpora are refused, and why.
* `TrellisTagger.TrigramScorer.foldl_train` — the trigram scorer after several trainings.
* `TrellisTagger.TrigramScorer.logScores_train` — the scores depend on the contexts of the last
  training, and on the weights only if there were any contexts.
* `TrellisTagger.Scorer.attemptAll_replaces` — all of this, for scorers of any configuration.
-/

namespace TrellisTagger

universe u v

/-! ### Corpora that are refused -/

namespace Sentence

/-- The first sentence of a corpus whose words and tags differ in number has these numbers of
them. -/
def IsFirstMismatch (corpus : List (List Word × List Tag)) (e : LengthMismatch) : Prop :=
  ∃ before words tags after, corpus = before ++ (words, tags) :: after ∧
    (∀ x ∈ before, x.1.length = x.2.length) ∧ words.length ≠ tags.length ∧
    e = ⟨words.length, tags.length⟩

/-- The first mismatch is that of the first sentence, or else the first one of the others. -/
lemma isFirstMismatch_cons {words : List Word} {tags : List Tag}
    {corpus : List (List Word × List Tag)} {e : LengthMismatch} :
    IsFirstMismatch ((words, tags) :: corpus) e ↔
      words.length ≠ tags.length ∧ e = ⟨words.length, tags.length⟩ ∨
        words.length = tags.length ∧ IsFirstMismatch corpus e := by
  constructor
  · rintro ⟨before, words', tags', after, hcorpus, hbefore, hne, he⟩
    rcases List.cons_eq_append_iff.1 hcorpus with ⟨rfl, hcons⟩ | ⟨before', rfl, rfl⟩
    · cases hcons
      exact .inl ⟨hne, he⟩
    · rw [List.forall_mem_cons] at hbefore
      exact .inr ⟨hbefore.1, before', words', tags', after, rfl, hbefore.2, hne, he⟩
  · rintro (⟨hne, he⟩ | ⟨heq, before, words', tags', after, rfl, hbefore, hne, he⟩)
    · exact ⟨[], words, tags, corpus, rfl, by simp, hne, he⟩
    · exact ⟨(words, tags) :: before, words', tags', after, rfl,
        List.forall_mem_cons.2 ⟨heq, hbefore⟩, hne, he⟩

/-- Sentences are read one after another, up to the first mismatch. -/
lemma ofAllLists_cons (words : List Word) (tags : List Tag) (corpus : List (List Word × List Tag)) :
    ofAllLists ((words, tags) :: corpus) =
      if h : words.length = tags.length then
        (ofAllLists corpus).map fun sentences => ⟨words, tags, h⟩ :: sentences
      else .error ⟨words.length, tags.length⟩ := by
  rw [ofAllLists, List.mapM_cons, ← ofAllLists]
  dsimp only
  unfold ofLists
  split
  · cases ofAllLists corpus <;> rfl
  · rfl

/-- **A corpus is refused for the first sentence of it that has more or fewer tags than words**,
wherever it stands. -/
theorem ofAllLists_eq_error_iff {corpus : List (List Word × List Tag)} {e : LengthMismatch} :
    ofAllLists corpus = .error e ↔ IsFirstMismatch corpus e := by
  induction corpus with
  | nil =>
    constructor
    · intro h
      cases h
    · rintro ⟨before, words, tags, after, h, -⟩
      simp at h
  | cons x corpus ih =>
    obtain ⟨words, tags⟩ := x
    rw [isFirstMismatch_cons, ← ih, ofAllLists_cons]
    by_cases h : words.length = tags.length
    · rw [dif_pos h]
      cases ofAllLists corpus <;> simp [h, Except.map]
    · rw [dif_neg h]
      simp [h, eq_comm]

end Sentence

/-! ### Weights through trainings -/

section Weights

variable {P : Type u} [Probability P]

/-- The weights that training on some contexts estimates, if they vote at all. -/
def estimatedWeights? (contexts : List LabelledContext) : Option (Interpolation P) :=
  (TagCounts.ofContexts contexts).deletedInterpolation.map fun shares =>
    ⟨shares.trigram, shares.bigram⟩

/-- Weights cannot be estimated just if there are no contexts. -/
lemma estimatedWeights?_eq_none_iff [PositiveCounts P] {contexts : List LabelledContext} :
    (estimatedWeights? contexts : Option (Interpolation P)) = none ↔ contexts = [] := by
  rw [estimatedWeights?, Option.map_eq_none_iff, TagCounts.deletedInterpolation_eq_none_iff]

namespace TrigramScorer

/-- After training the weights are the estimated ones, if they are to be estimated and can be. -/
lemma weightsAfter_eq (s : TrigramScorer P) (contexts : List LabelledContext) :
    s.weightsAfter contexts =
      if s.estimate then (estimatedWeights? contexts).getD s.weights else s.weights := by
  unfold weightsAfter estimatedWeights?
  split
  · cases (TagCounts.ofContexts contexts).deletedInterpolation (P := P) <;> rfl
  · rfl

/-- The weights after several trainings: those estimated last, if weights are estimated and there
was anything to estimate them from. -/
def weightsAfterAll (s : TrigramScorer P) (trainings : List (List LabelledContext)) :
    Interpolation P :=
  if s.estimate then (trainings.filterMap estimatedWeights?).getLast?.getD s.weights else s.weights

/-- **The trigram scorer after several trainings** has the model of the last one, and the weights
that were estimated last. -/
theorem foldl_train (s : TrigramScorer P) (trainings : List (List LabelledContext)) :
    trainings.foldl train s =
      { s with
        weights := s.weightsAfterAll trainings
        model := (trainings.getLast?.map TrigramModel.ofContexts).getD s.model } := by
  induction trainings using List.reverseRecOn with
  | nil =>
    rw [weightsAfterAll, List.filterMap_nil, List.getLast?_nil, Option.getD_none, ite_self]
    rfl
  | append_singleton trainings contexts ih =>
    rw [List.foldl_concat, ih, train, weightsAfter_eq, List.getLast?_concat]
    congr 1
    simp only [weightsAfterAll, List.filterMap_append, List.filterMap_cons, List.filterMap_nil]
    -- what is estimated now takes the place of what was estimated before
    by_cases hestimate : s.estimate = true
    · simp only [hestimate, if_true]
      cases (estimatedWeights? contexts : Option (Interpolation P)) <;> simp
    · simp [hestimate]

variable [PositiveCounts P]

/-- Weights stay as they are where nothing is estimated. -/
lemma weightsAfterAll_eq_weights {s : TrigramScorer P} {trainings : List (List LabelledContext)}
    (h : s.estimate = false ∨ ∀ contexts ∈ trainings, contexts = []) :
    s.weightsAfterAll trainings = s.weights := by
  rw [weightsAfterAll]
  split
  · rename_i hestimate
    have hnil := h.resolve_left fun hfalse => by simp [hestimate] at hfalse
    rw [List.filterMap_eq_nil_iff.2 fun contexts hmem =>
      estimatedWeights?_eq_none_iff.2 (hnil contexts hmem)]
    rfl
  · rfl

/-- Weights that are estimated are those of the last contexts there were any of. -/
lemma exists_weightsAfterAll_eq {s : TrigramScorer P} (hestimate : s.estimate = true)
    (earlier : List (List LabelledContext)) {later : List (List LabelledContext)}
    {contexts : List LabelledContext} (hne : contexts ≠ [])
    (hlater : ∀ contexts' ∈ later, contexts' = []) :
    ∃ shares : ByHistory P, (TagCounts.ofContexts contexts).deletedInterpolation = some shares ∧
      s.weightsAfterAll (earlier ++ contexts :: later) = ⟨shares.trigram, shares.bigram⟩ := by
  obtain ⟨shares, hshares⟩ := Option.ne_none_iff_exists'.1
    (mt (TagCounts.deletedInterpolation_eq_none_iff (P := P)).1 hne)
  have hnow : (estimatedWeights? contexts : Option (Interpolation P)) =
      some ⟨shares.trigram, shares.bigram⟩ := by
    rw [estimatedWeights?, hshares]
    rfl
  have hnever : later.filterMap (estimatedWeights? (P := P)) = [] :=
    List.filterMap_eq_nil_iff.2 fun contexts' hmem =>
      estimatedWeights?_eq_none_iff.2 (hlater contexts' hmem)
  refine ⟨shares, hshares, ?_⟩
  rw [weightsAfterAll, if_pos hestimate, List.filterMap_append, List.filterMap_cons_some hnow,
    hnever, List.getLast?_concat, Option.getD_some]

variable {W : Type v} [LogWeight W] [Logarithm P W]

/-- **The scores depend on nothing before the last training**: the weights that a scorer had before
count only if none are estimated from the new contexts, and then either they never change or nothing
is scored. -/
theorem logScores_train (s : TrigramScorer P) {w : Interpolation P}
    (hw : s.estimate = false → w = s.weights) (m : TrigramModel P) (contexts : List LabelledContext)
    (c : Context) :
    ((TrigramScorer.mk s.restrict s.estimate w m).train contexts).logScores c =
      ((s.train contexts).logScores c : Table Tag W) := by
  by_cases hne : contexts = []
  · subst hne
    rfl
  · have hweights : (TrigramScorer.mk s.restrict s.estimate w m).weightsAfter contexts =
        s.weightsAfter contexts := by
      rw [weightsAfter_eq, weightsAfter_eq]
      split
      · obtain ⟨w', hw'⟩ := Option.ne_none_iff_exists'.1
          (mt (estimatedWeights?_eq_none_iff (P := P)).1 hne)
        rw [hw']
        rfl
      · rename_i hestimate
        exact hw (Bool.eq_false_iff.2 hestimate)
    rw [train, hweights]
    rfl

end TrigramScorer

end Weights

/-! ### Runs of training and fresh scorers -/

namespace Scorer

variable {P : Type u} [Probability P]

/-- The model of the trigram scorer. -/
def model? : Scorer P → Option (TrigramModel P)
  | .lexical _ => none
  | .trigram s => some s.model

/-- The interpolation weights of the trigram scorer. -/
def weights? : Scorer P → Option (Interpolation P)
  | .lexical _ => none
  | .trigram s => some s.weights

/-- Learn from the last of several lists of sentences, if there is one. -/
def trainLast (s : Scorer P) (lists : List (List Sentence)) : Scorer P :=
  match lists.getLast? with
  | some sentences => s.train (Tagger.contextsOf sentences)
  | none => s

/-- The trainings of a trigram scorer are trainings of its parts. -/
lemma trainAll_trigram (s : TrigramScorer P) (trainings : List (List LabelledContext)) :
    (Scorer.trigram s).trainAll trainings = .trigram (trainings.foldl TrigramScorer.train s) := by
  induction trainings generalizing s with
  | nil => rfl
  | cons contexts trainings ih => exact ih (s.train contexts)

variable {c : Config P} {s : Scorer P}

/-- An untrained scorer has the weights of its configuration, if it has weights at all. -/
lemma weights?_of_scorer (h : c.scorer = .ok s) :
    s.weights? = if c.scorerName = "trigram_hmm" then some c.weights else none := by
  rcases Config.scorer_cases h with ⟨hname, rfl⟩ | ⟨hname, -, rfl⟩
  · rw [hname]
    rfl
  · rw [if_pos hname]
    rfl

/-- A scorer that was never trained knows nothing. -/
lemma eq_empty_of_scorer (h : c.scorer = .ok s) :
    s.lexicon = .empty ∧ ∀ m ∈ s.model?, m = .empty := by
  rcases Config.scorer_cases h with ⟨-, rfl⟩ | ⟨-, -, rfl⟩
  · exact ⟨rfl, fun m hm => by cases hm⟩
  · exact ⟨rfl, fun m hm => (Option.some.inj hm).symm⟩

/-- A scorer that was trained several times knows what it would know after the last training
alone. -/
lemma trainAll_model (s : Scorer P) (lists : List (List Sentence)) :
    (s.trainAll (lists.map Tagger.contextsOf)).lexicon = (s.trainLast lists).lexicon ∧
      (s.trainAll (lists.map Tagger.contextsOf)).model? = (s.trainLast lists).model? := by
  cases s with
  | lexical s =>
    rw [trainAll_lexical, trainLast, List.getLast?_map]
    cases lists.getLast? <;> exact ⟨rfl, rfl⟩
  | trigram s =>
    rw [trainAll_trigram, TrigramScorer.foldl_train, trainLast, List.getLast?_map]
    cases lists.getLast? <;> exact ⟨rfl, rfl⟩

section Weights

variable [PositiveCounts P]

/-- Whatever the weights of the two scorers are, they score alike. -/
lemma logScores_trainAll {W : Type v} [LogWeight W] [Logarithm P W] (s : Scorer P)
    (lists : List (List Sentence)) (context : Context) :
    (s.trainAll (lists.map Tagger.contextsOf)).logScores context =
      ((s.trainLast lists).logScores context : Table Tag W) := by
  rcases List.eq_nil_or_concat lists with rfl | ⟨earlier, sentences, rfl⟩
  · rfl
  rw [trainLast, List.concat_eq_append, List.getLast?_concat, List.map_append, List.map_cons,
    List.map_nil]
  cases s with
  | lexical s =>
    rw [trainAll_lexical, List.getLast?_concat]
    rfl
  | trigram s =>
    rw [trainAll_trigram, List.foldl_concat, TrigramScorer.foldl_train]
    exact s.logScores_train (fun h => TrigramScorer.weightsAfterAll_eq_weights (.inl h)) _ _ _

/-- Weights stay as they were made, unless they are to be estimated and there is something to
estimate them from. -/
lemma weights?_trainAll_of_fixed (h : c.scorer = .ok s) {trainings : List (List LabelledContext)}
    (hfixed : c.estimate = false ∨ ∀ contexts ∈ trainings, contexts = []) :
    (s.trainAll trainings).weights? = s.weights? := by
  rcases Config.scorer_cases h with ⟨-, rfl⟩ | ⟨-, -, rfl⟩
  · rw [trainAll_lexical]
    rfl
  · rw [trainAll_trigram, TrigramScorer.foldl_train, weights?,
      TrigramScorer.weightsAfterAll_eq_weights hfixed]
    rfl

/-- Weights that are to be estimated are estimated from the last contexts there were any of. -/
lemma exists_weights?_trainAll (h : c.scorer = .ok s) (hestimate : c.estimate = true)
    (earlier : List (List LabelledContext)) {later : List (List LabelledContext)}
    {contexts : List LabelledContext} (hne : contexts ≠ [])
    (hlater : ∀ contexts' ∈ later, contexts' = []) :
    ∃ shares : ByHistory P, (TagCounts.ofContexts contexts).deletedInterpolation = some shares ∧
      (s.trainAll (earlier ++ contexts :: later)).weights? =
        s.weights?.map fun _ => ⟨shares.trigram, shares.bigram⟩ := by
  obtain ⟨shares, hshares, hweights⟩ := TrigramScorer.exists_weightsAfterAll_eq
    (s := ⟨c.restrict, c.estimate, c.weights, .empty⟩) hestimate earlier hne hlater
  refine ⟨shares, hshares, ?_⟩
  rcases Config.scorer_cases h with ⟨-, rfl⟩ | ⟨-, -, rfl⟩
  · rw [trainAll_lexical]
    rfl
  · rw [trainAll_trigram, TrigramScorer.foldl_train, weights?, hweights]
    rfl

/-- **Training as a state machine.** Take a scorer of any configuration and let it learn from any
corpora, one after another. A corpus is refused just for the first sentence of it whose words and
tags differ in number, and then nothing is learned from it. In the end

* the scorer knows about words and tags what it would know if it had learned from nothing but the
  last corpus that was not refused, and nothing if there is none;
* its weights, if it has any, are those of the configuration, where these are fixed or there never
  was a context to estimate them from, and else those that are estimated from the last corpus with a
  context;
* it scores the tags of every context as if it had learned from the last corpus alone.

**Proof sketch.** Every training replaces the model and, at most, the weights. Votes on the weights
never add up to zero, so the weights are estimated from any corpus with a context; where the last
one has none, nothing is scored and the weights do not matter. -/
theorem attemptAll_replaces {W : Type v} [LogWeight W] [Logarithm P W] (h : c.scorer = .ok s)
    (corpora : List (List (List Word × List Tag))) :
    let lists := wellFormed corpora
    let trained := s.attemptAll corpora
    (∀ (t : Scorer P) (corpus : List (List Word × List Tag)) (e : LengthMismatch),
        t.trainOn corpus = .error e ↔ Sentence.IsFirstMismatch corpus e) ∧
      (trained.lexicon = (s.trainLast lists).lexicon ∧
        trained.model? = (s.trainLast lists).model?) ∧
      (lists = [] → trained.lexicon = .empty ∧ ∀ m ∈ trained.model?, m = .empty) ∧
      (s.weights? = if c.scorerName = "trigram_hmm" then some c.weights else none) ∧
      ((c.estimate = false ∨ ∀ sentences ∈ lists, Tagger.contextsOf sentences = []) →
        trained.weights? = s.weights?) ∧
      (c.estimate = true → ∀ earlier sentences later, lists = earlier ++ sentences :: later →
        Tagger.contextsOf sentences ≠ [] →
        (∀ sentences' ∈ later, Tagger.contextsOf sentences' = []) →
        ∃ shares : ByHistory P,
          (TagCounts.ofContexts (Tagger.contextsOf sentences)).deletedInterpolation = some shares ∧
            trained.weights? = s.weights?.map fun _ => ⟨shares.trigram, shares.bigram⟩) ∧
      ∀ context : Context,
        (trained.logScores context : Table Tag W) = (s.trainLast lists).logScores context := by
  intro lists trained
  have htrained : trained = s.trainAll (lists.map Tagger.contextsOf) := attemptAll_eq s corpora
  rw [htrained]
  refine ⟨fun t corpus e => ?_, trainAll_model s lists, fun hnil => ?_, weights?_of_scorer h,
    fun hfixed => ?_, fun hestimate => ?_, logScores_trainAll s lists⟩
  · rw [← Sentence.ofAllLists_eq_error_iff, trainOn]
    cases Sentence.ofAllLists corpus <;> simp [Except.map]
  · rw [hnil]
    exact eq_empty_of_scorer h
  · refine weights?_trainAll_of_fixed h (hfixed.imp_right fun hnil => ?_)
    exact List.forall_mem_map.2 hnil
  · intro earlier sentences later hlists hne hlater
    rw [hlists, List.map_append, List.map_cons]
    exact exists_weights?_trainAll h hestimate _ hne (List.forall_mem_map.2 hlater)

/-- Three trainings on floats: one from which weights are estimated, one that fails in its second
sentence, and one without sentences, after which the estimated weights are kept and nothing is
scored. -/
theorem attemptAll_replaces_dogs :
    ∃ s : Scorer Float, Config.standard.scorer = .ok s ∧
      ∃ shares : ByHistory Float, (TagCounts.ofContexts (Tagger.contextsOf
          [⟨["dogs", "bark"], ["NNS", "VBP"], rfl⟩])).deletedInterpolation = some shares ∧
        (s.attemptAll [[(["dogs", "bark"], ["NNS", "VBP"])], [(["cats"], ["NNS"]), (["cats"], [])],
          []]).weights? = some ⟨shares.trigram, shares.bigram⟩ := by
  have hscorer : Config.standard.scorer = .ok (Scorer.trigram ⟨true, true, ⟨0.6, 0.3⟩, .empty⟩) :=
    if_neg (by decide)
  refine ⟨_, hscorer, ?_⟩
  obtain ⟨-, -, -, -, -, hestimated, -⟩ := attemptAll_replaces (W := Float) hscorer
    [[(["dogs", "bark"], ["NNS", "VBP"])], [(["cats"], ["NNS"]), (["cats"], [])], []]
  exact hestimated rfl [] _ [[]] rfl (contextsOf_ne_nil (List.cons_ne_nil _ _))
    (by simp [Tagger.contextsOf])

end Weights

end Scorer

end TrellisTagger
