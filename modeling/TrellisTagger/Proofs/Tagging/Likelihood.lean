import Mathlib.Topology.Algebra.InfiniteSum.Real
import TrellisTagger.Proofs.Likelihood
import TrellisTagger.Proofs.SentenceTrellis.Taggings

/-!
# Taggings as events

In exact arithmetic the weight of a tagging is the logarithm of the product of the likelihoods along
it. Where the likelihoods of the tags of every context add up to at most one, so do those of all
taggings of the words of a sentence, although the context of a tag depends on the tags before it.

## Main definitions

* `TrellisTagger.jointLikelihood` — the product of the likelihoods along some labelled contexts.

## Main results

* `TrellisTagger.sum_jointLikelihood_le_one` — the sum over tag sequences of one length.
* `TrellisTagger.Scorer.antilog_taggingWeight` — what the weight of a tagging is the logarithm of.
* `TrellisTagger.Scorer.scores_are_subprobabilities` — the sums over the tags of a context and over
  the taggings of a sentence, for scorers of any configuration after any trainings.
-/

namespace TrellisTagger

open Finset

/-! ### Sums over tag sequences -/

section Sequences

variable {p : Context → Tag → ℚ}

/-- The product of the likelihoods of the tags of some labelled contexts. -/
def jointLikelihood (p : Context → Tag → ℚ) (contexts : List LabelledContext) : ℚ :=
  (contexts.map fun c => p c.toContext c.tag).prod

/-- No joint likelihood is negative. -/
lemma jointLikelihood_nonneg (hp : ∀ c, IsSubdistribution (p c)) (contexts : List LabelledContext) :
    0 ≤ jointLikelihood p contexts :=
  List.prod_nonneg fun x hx => by
    obtain ⟨c, -, rfl⟩ := List.mem_map.1 hx
    exact (hp c.toContext).nonneg c.tag

/-- **The likelihoods of tag sequences of one length add up to at most one**, from any state on.

**Proof sketch.** Induction on the length. The sequences are among those that put one of their first
tags before one of their rests. For each first tag the rests add up to at most one, from the state
that the tag leads to; and so do the first tags. -/
lemma sum_jointLikelihood_le_one (hp : ∀ c, IsSubdistribution (p c)) (words : List Word) {n : Nat}
    (s : State) {sequences : Finset (List Tag)} (hlen : ∀ tags ∈ sequences, tags.length = n) :
    ∑ tags ∈ sequences, jointLikelihood p (contextsAlong words s tags) ≤ 1 := by
  induction n generalizing s sequences with
  | zero =>
    have hsub : sequences ⊆ {[]} := fun tags htags =>
      mem_singleton.2 (List.length_eq_zero_iff.1 (hlen tags htags))
    calc ∑ tags ∈ sequences, jointLikelihood p (contextsAlong words s tags)
        ≤ ∑ tags ∈ {[]}, jointLikelihood p (contextsAlong words s tags) :=
          sum_le_sum_of_subset_of_nonneg hsub fun _ _ _ => jointLikelihood_nonneg hp _
      _ = 1 := by rw [sum_singleton]; rfl
  | succ n ih =>
    -- the histories of the rests differ, but each first tag settles the state that its rests start
    -- from
    let firsts := sequences.image fun tags => tags.headD ""
    let rests := sequences.image List.tail
    have hrests : ∀ tags ∈ rests, tags.length = n := by
      intro tags htags
      obtain ⟨whole, hwhole, rfl⟩ := mem_image.1 htags
      rw [List.length_tail, hlen whole hwhole, Nat.add_sub_cancel]
    have hsub : sequences ⊆ (firsts ×ˢ rests).image fun x => x.1 :: x.2 := by
      intro tags htags
      obtain ⟨tag, rest, rfl⟩ := List.exists_cons_of_length_eq_add_one (hlen tags htags)
      exact mem_image.2 ⟨(tag, rest), mem_product.2
        ⟨mem_image.2 ⟨_, htags, rfl⟩, mem_image.2 ⟨_, htags, rfl⟩⟩, rfl⟩
    have hinjective :
        Set.InjOn (fun x : Tag × List Tag => x.1 :: x.2) (firsts ×ˢ rests : Finset _) :=
      fun x _ y _ heq => Prod.ext (List.cons.inj heq).1 (List.cons.inj heq).2
    calc ∑ tags ∈ sequences, jointLikelihood p (contextsAlong words s tags)
        ≤ ∑ tags ∈ (firsts ×ˢ rests).image fun x => x.1 :: x.2,
            jointLikelihood p (contextsAlong words s tags) :=
          sum_le_sum_of_subset_of_nonneg hsub fun _ _ _ => jointLikelihood_nonneg hp _
      _ = ∑ tag ∈ firsts, p (s.context words) tag *
            ∑ rest ∈ rests, jointLikelihood p (contextsAlong words (s.next tag) rest) := by
          rw [sum_image hinjective, sum_product]
          simp only [mul_sum]
          rfl
      _ ≤ ∑ tag ∈ firsts, p (s.context words) tag :=
          sum_le_sum fun tag _ =>
            mul_le_of_le_one_right ((hp _).nonneg tag) (ih (s.next tag) hrests)
      _ ≤ 1 := (hp _).sum_le_one firsts

/-- The likelihoods of the taggings of some words add up to at most one. -/
lemma isSubdistribution_taggings (hp : ∀ c, IsSubdistribution (p c)) (words : List Word) :
    IsSubdistribution fun t : {tags : List Tag // words.length = tags.length} =>
      jointLikelihood p (Sentence.mk words t.1 t.2).contexts where
  nonneg _ := jointLikelihood_nonneg hp _
  sum_le_one taggings := by
    have hinjective : Set.InjOn
        (fun t : {tags : List Tag // words.length = tags.length} =>
          t.1 ++ [Boundary.stop, Boundary.stop])
        taggings := fun _ _ _ _ heq => Subtype.ext (List.append_left_injective _ heq)
    -- the contexts of a tagging are those of its tags and two stop symbols
    simp only [Sentence.contexts_eq]
    rw [← sum_image (f := fun tags => jointLikelihood p (contextsAlong words State.start tags))
      hinjective]
    refine sum_jointLikelihood_le_one hp words (n := words.length + 2) State.start ?_
    intro tags htags
    obtain ⟨t, -, rfl⟩ := mem_image.1 htags
    simp [t.2]

end Sequences

namespace Scorer

section Weights

variable {s : Scorer Exact} {contexts : List LabelledContext}

/-- The weight of a labelled context is the logarithm of its likelihood. -/
lemma antilog_contextWeight (hmodel : s.IsModelOf contexts) (hweights : s.HasConvexWeights)
    (c : LabelledContext) :
    antilog (contextWeight s.logScores c) = s.likelihood c.toContext c.tag := by
  have hpos := (isSubdistribution_likelihood hmodel hweights c.toContext).nonneg c.tag
  rw [contextWeight, logScores_eq hmodel hweights, Table.getD, Table.get?_mapValues]
  rw [likelihood, Table.getD] at hpos ⊢
  cases hget : (s.likelihoods c.toContext).get? c.tag with
  | none => simp
  | some q =>
    rw [hget] at hpos
    exact antilog_logWeight hpos

/-- A sum of weights is the logarithm of the product of the likelihoods. -/
lemma antilog_foldl_contextWeight (hmodel : s.IsModelOf contexts) (hweights : s.HasConvexWeights)
    (l : List LabelledContext) (total : WithBot ℝ) :
    antilog (l.foldl (fun total c => total + contextWeight s.logScores c) total) =
      antilog total * jointLikelihood s.likelihood l := by
  induction l generalizing total with
  | nil => simp [jointLikelihood]
  | cons c l ih =>
    rw [List.foldl_cons, ih, antilog_add, antilog_contextWeight hmodel hweights, jointLikelihood,
      jointLikelihood, List.map_cons, List.prod_cons, Rat.cast_mul, mul_assoc]

/-- **The weight of a tagging is the logarithm of the product of the likelihoods along it.** -/
theorem antilog_taggingWeight (hmodel : s.IsModelOf contexts) (hweights : s.HasConvexWeights)
    (x : Sentence) :
    antilog (taggingWeight s.logScores x) = jointLikelihood s.likelihood x.contexts := by
  rw [taggingWeight, antilog_foldl_contextWeight hmodel hweights, antilog_zero, one_mul]

/-- No sum of finitely many taggings exceeds one. -/
lemma sum_antilog_taggingWeight_le_one (hmodel : s.IsModelOf contexts)
    (hweights : s.HasConvexWeights) (words : List Word)
    (taggings : Finset {tags : List Tag // words.length = tags.length}) :
    ∑ t ∈ taggings, antilog (taggingWeight s.logScores ⟨words, t.1, t.2⟩) ≤ 1 := by
  have hsum := (isSubdistribution_taggings (isSubdistribution_likelihood hmodel hweights)
    words).sum_le_one taggings
  simp only [antilog_taggingWeight hmodel hweights]
  exact_mod_cast hsum

end Weights

/-- Training leaves the restriction of a scorer as it is. -/
lemma exists_trainAll_lexical {P : Type*} [Probability P] (s : LexicalScorer P)
    (trainings : List (List LabelledContext)) :
    ∃ lexicon, (Scorer.lexical s).trainAll trainings = .lexical ⟨s.restrict, lexicon⟩ :=
  ⟨_, trainAll_lexical s trainings⟩

/-- **Scores are logarithms of subprobabilities.** In exact arithmetic, for a scorer of any
configuration that is not refused, after any trainings on any labelled contexts:

* the scores of the tags of a context are the logarithms of likelihoods, which are nonnegative and
  add up to at most one; to one for the scorer of word frequencies without restriction, if the last
  training saw any context;
* for any words, the numbers of which the weights of the taggings are the logarithms add up to at
  most one.

**Proof sketch.** The model is always that of some contexts and the weights are always convex, so
`isSubdistribution_likelihood` applies to every context. The weight of a tagging is the logarithm of
a product along it, and `sum_jointLikelihood_le_one` sums these products. -/
theorem scores_are_subprobabilities {c : Config Exact} {s : Scorer Exact} (h : c.scorer = .ok s)
    (trainings : List (List LabelledContext)) :
    (∀ context : Context,
      ((s.trainAll trainings).logScores context : Table Tag (WithBot ℝ)) =
          ((s.trainAll trainings).likelihoods context).mapValues (fun _ p => logWeight p) ∧
        (∀ p ∈ ((s.trainAll trainings).likelihoods context).values, 0 ≤ p.value) ∧
        ((s.trainAll trainings).likelihoods context).mass ≤ 1 ∧
        (c.scorerName = "most_frequent" → c.restrict = false →
          (∃ last, trainings.getLast? = some last ∧ last ≠ []) →
            ((s.trainAll trainings).likelihoods context).mass = 1)) ∧
      ∀ words : List Word,
        Summable (fun t : {tags : List Tag // words.length = tags.length} =>
          antilog (taggingWeight (s.trainAll trainings).logScores ⟨words, t.1, t.2⟩)) ∧
        tsum (fun t : {tags : List Tag // words.length = tags.length} =>
          antilog (taggingWeight (s.trainAll trainings).logScores ⟨words, t.1, t.2⟩)) ≤ 1 := by
  obtain ⟨contexts, hmodel⟩ := exists_isModelOf_trainAll ⟨[], isModelOf_nil h⟩ trainings
  have hweights := hasConvexWeights_trainAll (hasConvexWeights_of_scorer h) trainings
  refine ⟨fun context => ⟨logScores_eq hmodel hweights context,
    nonneg_of_mem_likelihoods hmodel hweights context,
    mass_le_one (isSubdistribution_likelihood hmodel hweights context), ?_⟩, fun words => ?_⟩
  · rintro hname hrestrict ⟨last, hlast, hne⟩
    rw [Config.scorer_eq_ok_lexical hname, hrestrict] at h
    obtain rfl := Except.ok.inj h
    have hlastModel := isModelOf_trainAll (P := Exact) (s := .lexical ⟨false, .empty⟩) hlast
    obtain ⟨lexicon, htrained⟩ := exists_trainAll_lexical (P := Exact) ⟨false, .empty⟩ trainings
    rw [htrained] at hlastModel ⊢
    exact mass_likelihoods hlastModel hne rfl context
  · have hnonneg := fun t : {tags : List Tag // words.length = tags.length} =>
      antilog_nonneg (taggingWeight (s.trainAll trainings).logScores ⟨words, t.1, t.2⟩)
    have hsum := sum_antilog_taggingWeight_le_one hmodel hweights words
    exact ⟨summable_of_sum_le hnonneg hsum, Real.tsum_le_of_sum_le hnonneg hsum⟩

/-- A scorer that uses the trigram model and estimates its weights, before any training. -/
def untrained : Scorer Exact := .trigram ⟨true, true, ⟨⟨3 / 5⟩, ⟨3 / 10⟩⟩, .empty⟩

/-- One sentence to learn from. -/
def barkingDogs : List LabelledContext :=
  Tagger.contextsOf [⟨["dogs", "bark"], ["NNS", "VBP"], rfl⟩]

/-- The sums over the tags of an unseen word, under both models, and over the taggings of two words,
after training on one sentence. -/
theorem scores_are_subprobabilities_unseen :
    ((untrained.trainAll [barkingDogs]).likelihoods
        ⟨["cats"], 0, Boundary.start, Boundary.start⟩).mass ≤ 1 ∧
      (((Scorer.lexical ⟨false, .empty⟩).trainAll [barkingDogs]).likelihoods
        ⟨["cats"], 0, Boundary.start, Boundary.start⟩).mass = 1 ∧
      tsum (fun t : {tags : List Tag // ["cats", "bark"].length = tags.length} =>
        antilog (taggingWeight (untrained.trainAll [barkingDogs]).logScores
          ⟨["cats", "bark"], t.1, t.2⟩)) ≤ 1 := by
  have haccepted : (⟨⟨3 / 5⟩, ⟨3 / 10⟩⟩ : Interpolation Exact).isRefused = false := by
    decide +kernel
  have htrigram :
      (⟨"trigram_hmm", "viterbi", true, ⟨⟨3 / 5⟩, ⟨3 / 10⟩⟩, true⟩ : Config Exact).scorer =
      .ok untrained := by
    unfold Config.scorer
    rw [if_neg (by decide), if_pos rfl, haccepted]
    rfl
  have hlexical : (⟨"most_frequent", "greedy", false, ⟨0, 0⟩, false⟩ : Config Exact).scorer =
      .ok (.lexical ⟨false, .empty⟩) := rfl
  obtain ⟨htags, hwords⟩ := scores_are_subprobabilities htrigram [barkingDogs]
  obtain ⟨htags', -⟩ := scores_are_subprobabilities hlexical [barkingDogs]
  exact ⟨(htags _).2.2.1, (htags' _).2.2.2 rfl rfl ⟨barkingDogs, rfl, List.cons_ne_nil _ _⟩,
    (hwords _).2⟩

end Scorer

end TrellisTagger
