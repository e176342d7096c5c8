import TrellisTagger.Proofs.Tagging.Likelihood

/-!
# What a scorer was trained on

A trained scorer finds nothing impossible that it has seen. A tag that was seen with the word of a
context, or on some first occurrence if the word is new, and after the two tags before it, is scored
there, and every factor of its likelihood has been counted at least once. So the sentences of the
last training are possible as a whole.

## Main definitions

* `TrellisTagger.IsAttested` — a tag was seen after the two tags before it.

## Main results

* `TrellisTagger.TrigramModel.transition_pos`, `TrellisTagger.TrigramModel.emission_pos` — the
  factors are positive, for any convex weights.
* `TrellisTagger.Scorer.likelihood_pos_of_isAttested` — so is the likelihood, with or without
  restriction.
* `TrellisTagger.Scorer.trainAll_accepts` — contexts and sentences of the last training are
  possible, for scorers of any configuration.

## Design

Restriction never excludes a tag that has been seen after the same history: the trigram is attested.
The three frequencies that a transition mixes all are positive, so it does not matter which of the
weights are zero.
-/

namespace TrellisTagger

variable {contexts : List LabelledContext} {c : Context} {tag : Tag}

/-- A tag is attested in a context if it was seen after the same two tags. -/
def IsAttested (contexts : List LabelledContext) (c : Context) (tag : Tag) : Prop :=
  (c.beforePrevious, c.previous, tag) ∈ contexts.map LabelledContext.trigram

/-- It can be decided whether a tag is attested in a context. -/
instance : Decidable (IsAttested contexts c tag) :=
  inferInstanceAs (Decidable (_ ∈ contexts.map LabelledContext.trigram))

/-- A tag that was seen in a context is attested there. -/
lemma isAttested_of_mem {x : LabelledContext} (hx : x ∈ contexts) :
    IsAttested contexts x.toContext x.tag :=
  List.mem_map_of_mem hx

/-- A tag that was seen with a word tells of it. -/
lemma mem_evidence_of_mem {x : LabelledContext} (hx : x ∈ contexts) :
    x.tag ∈ evidence contexts x.word := by
  have hmem : (x.word, x.tag) ∈ wordTags contexts := List.mem_map.2 ⟨x, hx, rfl⟩
  rw [evidence, if_pos (List.mem_map_of_mem hmem)]
  exact mem_tagsWith.2 hmem

namespace Lexicon

variable {P : Type*} [Probability P]

/-- A trained lexicon knows which tags are attested. -/
lemma fits_iff :
    (ofContexts contexts : Lexicon P).fits c tag = true ↔ IsAttested contexts c tag := by
  rw [fits, attests, decide_eq_true_iff]
  exact mem_distinct

/-- A tag that is attested gives way to no other. -/
lemma excludes_of_isAttested (h : IsAttested contexts c tag) (restrict : Bool) :
    (ofContexts contexts : Lexicon P).excludes restrict c tag = false := by
  rw [excludes, fits_iff.2 h, Bool.not_true, Bool.and_false]

/-- Some tag of a word fits just if some tag that tells of the word is attested. -/
lemma someFits_iff :
    (ofContexts contexts : Lexicon P).someFits c = true ↔
      ∃ tag ∈ evidence contexts c.word, IsAttested contexts c tag := by
  simp only [someFits, List.any_eq_true, mem_keys_row, fits_iff]

end Lexicon

namespace TrigramModel

/-- **The transition to a tag that is attested is positive**, whatever the weights are. -/
lemma transition_pos {w : Interpolation Exact} (hw : w.IsConvex) (h : IsAttested contexts c tag) :
    0 < ((ofContexts contexts).transition w c.beforePrevious c.previous tag).value := by
  obtain ⟨x, hx, heq⟩ := List.mem_map.1 h
  simp only [LabelledContext.trigram, Prod.mk.injEq] at heq
  obtain ⟨hbefore, hprevious, htag⟩ := heq
  rw [value_transition]
  refine hw.mix_pos (frequency_pos ?_) (frequency_pos ?_) (frequency_pos ?_)
  · exact mem_under.2 (List.mem_map.2 ⟨x, hx, by rw [hbefore, hprevious, htag]⟩)
  · exact mem_under.2 (List.mem_map.2 ⟨x, hx, by rw [hprevious, htag]⟩)
  · exact List.mem_map.2 ⟨x, hx, htag⟩

/-- **The emission of a word is positive** under every tag that tells of the word: a known word was
seen under the tag, and for a new one some first occurrence was. -/
lemma emission_pos {word : Word} (h : tag ∈ evidence contexts word) :
    0 < (((ofContexts contexts : TrigramModel Exact).emission? word tag).getD 0).value := by
  by_cases hword : word ∈ (wordTags contexts).map Prod.fst
  · have hknows : (ofContexts contexts : TrigramModel Exact).lexicon.knows word = true :=
      Lexicon.knows_ofContexts.2 hword
    rw [evidence, if_pos hword] at h
    obtain ⟨x, hx, heq⟩ := List.mem_map.1 (mem_tagsWith.1 h)
    obtain ⟨hword, htag⟩ := Prod.mk.inj heq
    rw [value_emission?_of_knows hknows]
    exact frequency_pos (mem_under.2 (List.mem_map.2 ⟨x, hx, by rw [hword, htag]⟩))
  · have hknows : ¬ (ofContexts contexts : TrigramModel Exact).lexicon.knows word = true :=
      mt Lexicon.knows_ofContexts.1 hword
    rw [evidence, if_neg hword] at h
    rw [emission?, if_neg hknows]
    exact unknownEmission_pos h

end TrigramModel

namespace Scorer

variable {s : Scorer Exact}

/-- **A tag that tells of the word of a context has a positive likelihood there, if it is
attested.** -/
theorem likelihood_pos_of_isAttested (hmodel : s.IsModelOf contexts) (hweights : s.HasConvexWeights)
    (hevidence : tag ∈ evidence contexts c.word) (h : IsAttested contexts c tag) :
    0 < s.likelihood c tag := by
  cases s with
  | lexical s =>
    have hlexicon : s.lexicon = .ofContexts contexts := hmodel
    rw [likelihood, likelihoods, Table.getD, Lexicon.get?_candidates, hlexicon,
      if_neg (Bool.eq_false_iff.1 (Lexicon.excludes_of_isAttested h _)), ← Table.getD,
      Lexicon.value_row]
    exact frequency_pos hevidence
  | trigram s =>
    have hm : s.model = .ofContexts contexts := hmodel
    have hrow : tag ∈ ((TrigramModel.ofContexts contexts : TrigramModel Exact).lexicon.row
        c.word).keys := Lexicon.mem_keys_row.2 hevidence
    obtain ⟨p, hp⟩ := Table.mem_keys_iff.1 hrow
    have hexcludes : (TrigramModel.ofContexts contexts : TrigramModel Exact).lexicon.excludes
        s.restrict c tag = false := Lexicon.excludes_of_isAttested h s.restrict
    rw [likelihood, likelihoods, hm, Table.getD, Table.get?_mapValues, hp, Option.map_some,
      Option.getD_some, if_neg (Bool.eq_false_iff.1 hexcludes)]
    exact mul_pos (TrigramModel.transition_pos hweights h) (TrigramModel.emission_pos hevidence)

/-- A tag that was seen in a context has a positive likelihood there. -/
lemma likelihood_pos (hmodel : s.IsModelOf contexts) (hweights : s.HasConvexWeights)
    {x : LabelledContext} (hx : x ∈ contexts) : 0 < s.likelihood x.toContext x.tag :=
  likelihood_pos_of_isAttested hmodel hweights (mem_evidence_of_mem hx) (isAttested_of_mem hx)

/-- A tag of positive likelihood is scored, and not as impossible. -/
lemma exists_get?_logScores (hmodel : s.IsModelOf contexts) (hweights : s.HasConvexWeights)
    (h : 0 < s.likelihood c tag) :
    ∃ w : WithBot ℝ, (s.logScores c).get? tag = some w ∧ impossible < w := by
  rw [logScores_eq hmodel hweights, Table.get?_mapValues]
  rw [likelihood, Table.getD] at h
  cases hget : (s.likelihoods c).get? tag with
  | none =>
    rw [hget] at h
    exact absurd h (lt_irrefl 0)
  | some p =>
    rw [hget, Option.getD_some] at h
    refine ⟨logWeight p, rfl, impossible_lt_iff.2 ?_⟩
    rw [antilog_logWeight h.le]
    exact Rat.cast_pos.2 h

/-- **The model accepts what it was trained on.** In exact arithmetic, for a scorer of any
configuration that is not refused, after any trainings:

* each labelled context of the last training has its tag scored, and not as impossible;
* if the last training was on sentences, none of them is impossible with its tags.

**Proof sketch.** The model is that of the last training and the weights are convex, so the
likelihood of every context that was seen is positive. The weight of a sentence is the logarithm of
the product of those of its contexts. -/
theorem trainAll_accepts {c : Config Exact} (h : c.scorer = .ok s)
    {trainings : List (List LabelledContext)} (hlast : trainings.getLast? = some contexts) :
    (∀ x ∈ contexts, ∃ w : WithBot ℝ,
        ((s.trainAll trainings).logScores x.toContext).get? x.tag = some w ∧ impossible < w) ∧
      ∀ sentences, contexts = Tagger.contextsOf sentences → ∀ x ∈ sentences,
        (impossible : WithBot ℝ) < taggingWeight (s.trainAll trainings).logScores x := by
  have hmodel : (s.trainAll trainings).IsModelOf contexts := isModelOf_trainAll hlast
  have hweights := hasConvexWeights_trainAll (hasConvexWeights_of_scorer h) trainings
  refine ⟨fun x hx => exists_get?_logScores hmodel hweights (likelihood_pos hmodel hweights hx), ?_⟩
  rintro sentences rfl x hx
  have hpos : ∀ y ∈ x.contexts, 0 < (s.trainAll trainings).likelihood y.toContext y.tag :=
    fun y hy => likelihood_pos hmodel hweights (List.mem_flatMap.2 ⟨x, hx, hy⟩)
  rw [impossible_lt_iff, antilog_taggingWeight hmodel hweights, jointLikelihood, Rat.cast_pos]
  exact List.prod_pos (List.forall_mem_map.2 hpos)

/-- A sentence is possible under the trigram model that was trained on it, although the model was
trained on nothing before, and has estimated its weights. -/
theorem trainAll_accepts_dogs :
    (impossible : WithBot ℝ) < taggingWeight (untrained.trainAll [[], barkingDogs]).logScores
      ⟨["dogs", "bark"], ["NNS", "VBP"], rfl⟩ := by
  have hconvex : Interpolation.IsConvex ⟨⟨3 / 5⟩, ⟨3 / 10⟩⟩ :=
    ⟨by norm_num, by norm_num, by norm_num⟩
  have hscorer := scorer_eq_ok_trigram
    (c := ⟨"trigram_hmm", "viterbi", true, ⟨⟨3 / 5⟩, ⟨3 / 10⟩⟩, true⟩) rfl hconvex
  have hlast : [[], barkingDogs].getLast? = some barkingDogs := rfl
  exact (trainAll_accepts hscorer hlast).2 [⟨["dogs", "bark"], ["NNS", "VBP"], rfl⟩] rfl _
    (List.mem_singleton_self _)

end Scorer

end TrellisTagger
