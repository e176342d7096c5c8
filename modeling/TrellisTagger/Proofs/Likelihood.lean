import TrellisTagger.Config
import TrellisTagger.Proofs.Training
import TrellisTagger.Proofs.TrigramModel

/-!
# What scores are logarithms of

A scorer multiplies and adds probabilities and returns logarithms. This file says which numbers
these are the logarithms of, and that in exact arithmetic those of the tags of a context are
nonnegative and add up to at most one, for scorers of any configuration after any trainings.

## Main definitions

* `TrellisTagger.Scorer.likelihoods`, `TrellisTagger.Scorer.likelihood` — the numbers of which the
  scores are the logarithms, as a table and one by one.
* `TrellisTagger.Lexicon.excludes` — whether a tag gives way to others that are attested after the
  history.
* `TrellisTagger.Scorer.HasConvexWeights` — the weights of the scorer, if it has any, are convex.

## Main results

* `TrellisTagger.Scorer.logScores_eq` — the scores are the logarithms of the likelihoods.
* `TrellisTagger.Scorer.isSubdistribution_likelihood` — the likelihoods of a context add up to at
  most one.
* `TrellisTagger.Scorer.mass_likelihoods` — they add up to one, if the scorer looks at the word
  only.
-/

namespace TrellisTagger

universe u

namespace Lexicon

/-- Whether a tag gives way to others, because these are attested after the history and it is
not. -/
def excludes {P : Type u} (m : Lexicon P) (restrict : Bool) (c : Context) (tag : Tag) : Bool :=
  restrict && m.someFits c && !m.fits c tag

/-- The tags of a word that are not excluded are candidates, with the same frequencies. -/
lemma get?_candidates {P : Type u} (m : Lexicon P) (restrict : Bool) (c : Context) (tag : Tag) :
    (m.candidates restrict c).get? tag =
      if m.excludes restrict c tag then none else (m.row c.word).get? tag := by
  unfold candidates excludes
  split
  · rename_i h
    rw [Table.get?_filter, h]
    cases m.fits c tag <;> rfl
  · rename_i h
    rw [Bool.eq_false_iff.2 h]
    rfl

/-- The frequency of a tag in a row is its share of the evidence for the word. -/
lemma value_row (contexts : List LabelledContext) (word : Word) (tag : Tag) :
    (((ofContexts contexts : Lexicon Exact).row word).getD tag 0).value =
      frequency (evidence contexts word) tag := by
  rw [row_ofContexts, value_relativeFrequencies]

end Lexicon

namespace Scorer

/-- The numbers of which the scores of a context are the logarithms: the frequency of the tag with
the word, or the product of a transition and an emission, and zero where a tag is excluded. -/
def likelihoods {P : Type u} [Probability P] (s : Scorer P) (c : Context) : Table Tag P :=
  match s with
  | .lexical s => s.lexicon.candidates s.restrict c
  | .trigram s => (s.model.lexicon.row c.word).mapValues fun tag _ =>
      if s.model.lexicon.excludes s.restrict c tag then 0
      else
        s.model.transition s.weights c.beforePrevious c.previous tag *
          (s.model.emission? c.word tag).getD 0

/-- The likelihood of a tag in a context: zero, if the tag is not scored at all. -/
def likelihood (s : Scorer Exact) (c : Context) (tag : Tag) : ℚ :=
  ((s.likelihoods c).getD tag 0).value

/-- The weights of the trigram scorer are convex; the other scorer has none. -/
def HasConvexWeights : Scorer Exact → Prop
  | .lexical _ => True
  | .trigram s => s.weights.IsConvex

/-! ### Weights through training -/

section Training

variable {s : Scorer Exact}

/-- Weights that are not refused are convex. -/
lemma hasConvexWeights_of_scorer {c : Config Exact} (h : c.scorer = .ok s) :
    s.HasConvexWeights := by
  rcases Config.scorer_cases h with ⟨-, rfl⟩ | ⟨-, haccepted, rfl⟩
  · trivial
  · exact Interpolation.isRefused_eq_false_iff.1 haccepted

/-- Convex weights make a trigram scorer. -/
lemma scorer_eq_ok_trigram {c : Config Exact} (hname : c.scorerName = "trigram_hmm")
    (hweights : c.weights.IsConvex) :
    c.scorer = .ok (.trigram ⟨c.restrict, c.estimate, c.weights, .empty⟩) := by
  rw [Config.scorer, if_neg (by rw [hname]; decide), if_pos hname,
    Interpolation.isRefused_eq_false_iff.2 hweights]
  rfl

/-- **The weights stay convex** through any trainings. -/
lemma hasConvexWeights_trainAll (h : s.HasConvexWeights) (trainings : List (List LabelledContext)) :
    (s.trainAll trainings).HasConvexWeights := by
  refine trainAll_preserves (fun s contexts hs => ?_) h trainings
  cases s with
  | lexical s => trivial
  | trigram s => exact s.isConvex_weightsAfter hs contexts

end Training

/-! ### Sums -/

section Sums

variable {s : Scorer Exact} {contexts : List LabelledContext}

/-- The likelihood of a tag is no more than its share of the evidence for the word. -/
lemma likelihood_lexical_bounds {s : LexicalScorer Exact} (hmodel : IsModelOf (.lexical s) contexts)
    (c : Context) (tag : Tag) :
    0 ≤ (Scorer.lexical s).likelihood c tag ∧
      (Scorer.lexical s).likelihood c tag ≤ frequency (evidence contexts c.word) tag := by
  have hlexicon : s.lexicon = .ofContexts contexts := hmodel
  have hpos := frequency_nonneg (evidence contexts c.word) tag
  rw [likelihood, likelihoods, Table.getD, Lexicon.get?_candidates]
  split
  · exact ⟨le_refl 0, hpos⟩
  · rw [← Table.getD, hlexicon, Lexicon.value_row]
    exact ⟨hpos, le_refl _⟩

/-- The likelihood of a tag is no more than the transition to it. -/
lemma likelihood_trigram_bounds {s : TrigramScorer Exact} (hmodel : IsModelOf (.trigram s) contexts)
    (hweights : s.weights.IsConvex) (c : Context) (tag : Tag) :
    0 ≤ (Scorer.trigram s).likelihood c tag ∧
      (Scorer.trigram s).likelihood c tag ≤
        ((TrigramModel.ofContexts contexts).transition s.weights c.beforePrevious c.previous
          tag).value := by
  have hm : s.model = .ofContexts contexts := hmodel
  have ht := (TrigramModel.isSubdistribution_transition contexts hweights c.beforePrevious
    c.previous).nonneg tag
  obtain ⟨he, he'⟩ := TrigramModel.emission_mem_unitInterval contexts c.word tag
  rw [likelihood, likelihoods, Table.getD, Table.get?_mapValues, hm]
  cases Table.get? _ tag with
  | none => exact ⟨le_refl 0, ht⟩
  | some p =>
    rw [Option.map_some, Option.getD_some]
    split
    · exact ⟨le_refl 0, ht⟩
    · exact ⟨mul_nonneg ht he, mul_le_of_le_one_right ht he'⟩

/-- **The likelihoods of the tags of a context add up to at most one**: they are no more than shares
of the evidence for the word, or than transitions from the history. -/
theorem isSubdistribution_likelihood (hmodel : s.IsModelOf contexts) (hweights : s.HasConvexWeights)
    (c : Context) : IsSubdistribution (s.likelihood c) := by
  cases s with
  | lexical s =>
    have hbounds := likelihood_lexical_bounds hmodel c
    exact (isSubdistribution_frequency _).of_le (fun tag => (hbounds tag).1) fun tag =>
      (hbounds tag).2
  | trigram s =>
    have hbounds := likelihood_trigram_bounds hmodel hweights c
    exact (TrigramModel.isSubdistribution_transition contexts hweights _ _).of_le
      (fun tag => (hbounds tag).1) fun tag => (hbounds tag).2

/-- No likelihood is negative. -/
lemma nonneg_of_mem_likelihoods (hmodel : s.IsModelOf contexts) (hweights : s.HasConvexWeights)
    (c : Context) : ∀ p ∈ (s.likelihoods c).values, 0 ≤ p.value := by
  intro p hp
  rw [Table.values_eq_map_keys _ 0] at hp
  obtain ⟨tag, -, rfl⟩ := List.mem_map.1 hp
  exact (isSubdistribution_likelihood hmodel hweights c).nonneg tag

/-- **They add up to one** for a scorer that looks at the word only, if it was trained at all. -/
lemma mass_likelihoods {s : LexicalScorer Exact} (hmodel : IsModelOf (.lexical s) contexts)
    (hne : contexts ≠ []) (hrestrict : s.restrict = false) (c : Context) :
    ((Scorer.lexical s).likelihoods c).mass = 1 := by
  have hlexicon : s.lexicon = .ofContexts contexts := hmodel
  rw [likelihoods, hrestrict, Lexicon.candidates_false, hlexicon, Lexicon.row_ofContexts]
  exact mass_relativeFrequencies (evidence_ne_nil hne c.word)

/-! ### Scores -/

/-- **The scores of a context are the logarithms of its likelihoods.**

**Proof sketch.** The one scorer takes logarithms without looking, but only of shares of tags that
occur. The other adds the logarithms of two factors, neither of which is negative. -/
theorem logScores_eq (hmodel : s.IsModelOf contexts) (hweights : s.HasConvexWeights) (c : Context) :
    (s.logScores c : Table Tag (WithBot ℝ)) =
      (s.likelihoods c).mapValues fun _ p => logWeight p := by
  cases s with
  | lexical s =>
    refine Table.ext (List.map_congr_left fun e he => ?_)
    -- nothing is checked before the logarithm is taken: a tag that is listed has been counted
    obtain ⟨n, d, hn, hd, hratio⟩ := isDefinedAt_lexical hmodel e.2 (List.mem_map_of_mem he)
    have hpos : 0 < e.2.value := by
      rw [hratio, Exact.value_ratio, Int.cast_natCast, Int.cast_natCast]
      exact div_pos (Nat.cast_pos.2 hn) (Nat.cast_pos.2 (hn.trans_le hd))
    exact congrArg (Prod.mk e.1) (logWeight_of_pos hpos).symm
  | trigram s =>
    have hm : s.model = .ofContexts contexts := hmodel
    refine Table.ext ?_
    rw [logScores, TrigramScorer.logScores, TrigramModel.logScores, likelihoods]
    simp only [Table.mapValues, List.map_map]
    refine List.map_congr_left fun e _ => ?_
    have ht := (TrigramModel.isSubdistribution_transition contexts hweights c.beforePrevious
      c.previous).nonneg e.1
    obtain ⟨he, -⟩ := TrigramModel.emission_mem_unitInterval contexts c.word e.1
    rw [← hm] at ht he
    refine Prod.ext rfl ?_
    show (if s.model.lexicon.excludes s.restrict c e.1 then impossible else _) =
      logWeight (ite _ _ _)
    split
    · exact (logWeight_of_eq_zero Exact.value_zero).symm
    · exact (logWeight_mul ht he).symm

end Sums

end Scorer

end TrellisTagger
