import TrellisTagger.Proofs.Tagging.Acceptance
import TrellisTagger.Proofs.Training.Replacement

/-!
# What restriction does

Under restriction the two scorers do different things with the tags that are not attested: the one
leaves them out, the other finds them impossible. Neither does anything where no tag of the word is
attested. This file compares a scorer with restriction to the same scorer without it, and the two
scorers to each other.

## Main definitions

* `TrellisTagger.Scorer.setRestrict` — the same scorer, with restriction or without.
* `TrellisTagger.possibleTags` — the tags that are scored, and not as impossible.

## Main results

* `TrellisTagger.Scorer.logScores_setRestrict_lexical`,
  `TrellisTagger.Scorer.logScores_setRestrict_trigram` — what becomes of the scores of the others,
  where some tag is attested.
* `TrellisTagger.Scorer.possibleTags_logScores` — under restriction the possible tags of a context
  are those that tell of its word and are attested.
* `TrellisTagger.Scorer.restriction_keeps_attested` — all of this, for scorers of any configuration.

## Design

That restriction changes scores in this way has nothing to do with what the scores are, and is shown
for any arithmetic. That the scores of the attested tags are possible is what
`likelihood_pos_of_isAttested` says, and needs exact arithmetic. Settings are switched on the
trained scorer, which is the same as on the untrained one since training does not look at them.
-/

namespace TrellisTagger

universe u v w

/-! ### Tables -/

namespace Table

variable {K : Type u} {V : Type v} {W : Type w} {X : Type*}

/-- Keys are tested before or after values are changed. -/
lemma mapValues_filter (p : K → Bool) (f : K → V → W) (t : Table K V) :
    (t.filter fun k _ => p k).mapValues f = (t.mapValues f).filter fun k _ => p k := by
  refine Table.ext ?_
  simp only [mapValues, filter, List.filter_map]
  rfl

/-- Values are changed twice. -/
lemma mapValues_mapValues (f : K → V → W) (g : K → W → X) (t : Table K V) :
    (t.mapValues f).mapValues g = t.mapValues fun k v => g k (f k v) := by
  refine Table.ext ?_
  simp only [mapValues, List.map_map]
  rfl

/-- What is not among the entries does not matter. -/
lemma mapValues_congr {f g : K → V → W} {t : Table K V}
    (h : ∀ k v, (k, v) ∈ t.entries → f k v = g k v) :
    t.mapValues f = t.mapValues g :=
  Table.ext (List.map_congr_left fun e he => congrArg (Prod.mk e.1) (h e.1 e.2 he))

end Table

/-- The tags that are scored, and not as impossible. -/
def possibleTags {W : Type v} [LogWeight W] (scores : Table Tag W) : Set Tag :=
  {tag | ∃ w, scores.get? tag = some w ∧ impossible < w}

/-! ### Switching restriction -/

namespace Scorer

section Settings

variable {P : Type u}

/-- The same scorer, with restriction or without. -/
def setRestrict (restrict : Bool) : Scorer P → Scorer P
  | .lexical s => .lexical { s with restrict }
  | .trigram s => .trigram { s with restrict }

/-- Restriction leaves the lexicon as it is. -/
lemma lexicon_setRestrict (restrict : Bool) (s : Scorer P) :
    (s.setRestrict restrict).lexicon = s.lexicon := by
  cases s <;> rfl

variable [Probability P]

/-- Whether the scorer of a configuration restricts is up to the setting alone. -/
lemma scorer_eq_ok_setRestrict {c : Config P} {restrict : Bool} {s : Scorer P}
    (h : { c with restrict }.scorer = .ok s) (restrict' : Bool) :
    { c with restrict := restrict' }.scorer = .ok (s.setRestrict restrict') := by
  rcases Config.scorer_cases h with ⟨hname, rfl⟩ | ⟨hname, haccepted, rfl⟩
  · exact Config.scorer_eq_ok_lexical hname
  · have hname : c.scorerName = "trigram_hmm" := hname
    have haccepted : c.weights.isRefused = false := haccepted
    rw [Config.scorer, if_neg (by rw [hname]; decide), if_pos hname, haccepted]
    rfl

/-- Training does not look at the setting. -/
lemma trainAll_setRestrict (restrict : Bool) (s : Scorer P)
    (trainings : List (List LabelledContext)) :
    (s.setRestrict restrict).trainAll trainings = (s.trainAll trainings).setRestrict restrict := by
  induction trainings generalizing s with
  | nil => rfl
  | cons contexts trainings ih =>
    have hstep : (s.setRestrict restrict).train contexts =
        (s.train contexts).setRestrict restrict := by
      cases s <;> rfl
    rw [trainAll, List.foldl_cons, hstep]
    exact ih (s.train contexts)

/-- Configurations that differ in the setting alone give scorers that do, after any trainings. -/
lemma trainAll_eq_setRestrict {c : Config P} {restrict restrict' : Bool} {s s' : Scorer P}
    (h : { c with restrict }.scorer = .ok s) (h' : { c with restrict := restrict' }.scorer = .ok s')
    (trainings : List (List LabelledContext)) :
    s'.trainAll trainings = (s.trainAll trainings).setRestrict restrict' := by
  have hsame := Except.ok.inj (h'.symm.trans (scorer_eq_ok_setRestrict h restrict'))
  rw [hsame, trainAll_setRestrict]

/-- Training leaves the kind of the scorer to the name in the configuration. -/
lemma trainAll_cases {c : Config P} {s : Scorer P} (h : c.scorer = .ok s)
    (trainings : List (List LabelledContext)) :
    (c.scorerName = "most_frequent" ∧ ∃ s', s.trainAll trainings = .lexical s') ∨
      c.scorerName = "trigram_hmm" ∧ ∃ s', s.trainAll trainings = .trigram s' := by
  rcases Config.scorer_cases h with ⟨hname, rfl⟩ | ⟨hname, -, rfl⟩
  · exact .inl ⟨hname, _, trainAll_lexical _ _⟩
  · exact .inr ⟨hname, _, trainAll_trigram _ _⟩

/-- Restriction leaves the model as it is. -/
lemma isModelOf_setRestrict {s : Scorer P} {contexts : List LabelledContext}
    (h : s.IsModelOf contexts) (restrict : Bool) : (s.setRestrict restrict).IsModelOf contexts := by
  cases s <;> exact h

end Settings

/-! ### What becomes of the scores -/

section Scores

variable {P : Type u} [Probability P] {W : Type v} [LogWeight W] [Logarithm P W]
variable {contexts : List LabelledContext} {c : Context}

/-- The scorer without restriction scores the tags that tell of the word. -/
lemma mem_keys_logScores_unrestricted {s : Scorer P} (hmodel : s.IsModelOf contexts) {tag : Tag} :
    tag ∈ ((s.setRestrict false).logScores c : Table Tag W).keys ↔
      tag ∈ evidence contexts c.word := by
  have hkeeps : ¬ (s.setRestrict false).OmitsTags := by
    cases s with
    | lexical s => exact Bool.false_ne_true
    | trigram s => exact id
  rw [keys_logScores hkeeps, lexicon_setRestrict, hmodel.lexicon_eq, Lexicon.mem_keys_row]

/-- Where no tag of the word is attested, restriction does nothing. -/
lemma logScores_setRestrict_of_not_exists {s : Scorer P} (hmodel : s.IsModelOf contexts)
    (h : ¬ ∃ tag ∈ evidence contexts c.word, IsAttested contexts c tag) :
    ((s.setRestrict true).logScores c : Table Tag W) = (s.setRestrict false).logScores c := by
  have hfits : (Lexicon.ofContexts contexts : Lexicon P).someFits c = false :=
    Bool.eq_false_iff.2 (mt Lexicon.someFits_iff.1 h)
  cases s with
  | lexical s =>
    have hlexicon : s.lexicon = .ofContexts contexts := hmodel
    show s.lexicon.logScores true c = s.lexicon.logScores false c
    rw [Lexicon.logScores, Lexicon.logScores, Lexicon.candidates, hlexicon, hfits]
    rfl
  | trigram s =>
    have hm : s.model = .ofContexts contexts := hmodel
    show s.model.logScores s.weights true c = s.model.logScores s.weights false c
    have hfits : (TrigramModel.ofContexts contexts : TrigramModel P).lexicon.someFits c = false :=
      hfits
    rw [TrigramModel.logScores, TrigramModel.logScores, hm, hfits]
    rfl

/-- **Where some tag of the word is attested, the scorer of word frequencies leaves out the
others.** -/
lemma logScores_setRestrict_lexical {s : LexicalScorer P} (hmodel : IsModelOf (.lexical s) contexts)
    (h : ∃ tag ∈ evidence contexts c.word, IsAttested contexts c tag) :
    (((Scorer.lexical s).setRestrict true).logScores c : Table Tag W) =
      (((Scorer.lexical s).setRestrict false).logScores c).filter fun tag _ =>
        IsAttested contexts c tag := by
  have hlexicon : s.lexicon = .ofContexts contexts := hmodel
  have hattested :
      (fun (tag : Tag) (_ : P) => (Lexicon.ofContexts contexts : Lexicon P).fits c tag) =
      fun tag _ => decide (IsAttested contexts c tag) :=
    funext fun tag => funext fun _ =>
      Bool.eq_iff_iff.2 (Lexicon.fits_iff.trans decide_eq_true_iff.symm)
  show s.lexicon.logScores true c = (s.lexicon.logScores false c).filter _
  rw [Lexicon.logScores, Lexicon.logScores, Lexicon.candidates_false, Lexicon.candidates, hlexicon,
    Lexicon.someFits_iff.2 h, Bool.and_true, if_pos rfl, hattested]
  exact Table.mapValues_filter _ _ _

/-- **Where some tag of the word is attested, the trigram model finds the others impossible.** -/
lemma logScores_setRestrict_trigram {s : TrigramScorer P} (hmodel : IsModelOf (.trigram s) contexts)
    (h : ∃ tag ∈ evidence contexts c.word, IsAttested contexts c tag) :
    (((Scorer.trigram s).setRestrict true).logScores c : Table Tag W) =
      (((Scorer.trigram s).setRestrict false).logScores c).mapValues fun tag w =>
        if IsAttested contexts c tag then w else impossible := by
  have hm : s.model = .ofContexts contexts := hmodel
  have hfits : s.model.lexicon.someFits c = true := by
    rw [hm]
    exact Lexicon.someFits_iff.2 h
  show s.model.logScores s.weights true c = (s.model.logScores s.weights false c).mapValues _
  rw [TrigramModel.logScores, TrigramModel.logScores, hfits, Table.mapValues_mapValues]
  refine Table.mapValues_congr fun tag p _ => ?_
  have hattested : s.model.lexicon.fits c tag = true ↔ IsAttested contexts c tag := by
    rw [hm]
    exact Lexicon.fits_iff
  by_cases htag : IsAttested contexts c tag
  · simp [htag, hattested.2 htag]
  · simp [htag, Bool.eq_false_iff.2 (mt hattested.1 htag)]

end Scores

/-! ### Which tags are possible -/

section Possible

variable {s : Scorer Exact} {contexts : List LabelledContext} {c : Context}

/-- Restriction leaves the weights as they are. -/
lemma hasConvexWeights_setRestrict (h : s.HasConvexWeights) (restrict : Bool) :
    (s.setRestrict restrict).HasConvexWeights := by
  cases s <;> exact h

/-- A tag that tells of the word and is attested is possible, with restriction or without. -/
lemma mem_possibleTags_of_isAttested (hmodel : s.IsModelOf contexts) (hweights : s.HasConvexWeights)
    {tag : Tag} (hevidence : tag ∈ evidence contexts c.word) (h : IsAttested contexts c tag) :
    tag ∈ possibleTags (s.logScores c : Table Tag (WithBot ℝ)) :=
  exists_get?_logScores hmodel hweights (likelihood_pos_of_isAttested hmodel hweights hevidence h)

/-- **Under restriction the possible tags are those that tell of the word and are attested**, if
there are any, whatever the scorer is. -/
theorem possibleTags_logScores (hmodel : s.IsModelOf contexts) (hweights : s.HasConvexWeights)
    (h : ∃ tag ∈ evidence contexts c.word, IsAttested contexts c tag) :
    possibleTags ((s.setRestrict true).logScores c : Table Tag (WithBot ℝ)) =
      {tag | tag ∈ evidence contexts c.word ∧ IsAttested contexts c tag} := by
  ext tag
  constructor
  · rintro ⟨w, hget, hw⟩
    cases s with
    | lexical s =>
      rw [logScores_setRestrict_lexical hmodel h, Table.get?_filter] at hget
      obtain ⟨hattested, hget⟩ := Option.ite_none_right_eq_some.1 hget
      exact ⟨(mem_keys_logScores_unrestricted hmodel).1 (Table.mem_keys_of_get? hget),
        of_decide_eq_true hattested⟩
    | trigram s =>
      rw [logScores_setRestrict_trigram hmodel h, Table.get?_mapValues] at hget
      obtain ⟨w', hget', rfl⟩ := Option.map_eq_some_iff.1 hget
      refine ⟨(mem_keys_logScores_unrestricted hmodel).1 (Table.mem_keys_of_get? hget'), ?_⟩
      by_contra hattested
      rw [if_neg hattested] at hw
      exact lt_irrefl _ hw
  · rintro ⟨hevidence, hattested⟩
    exact mem_possibleTags_of_isAttested (isModelOf_setRestrict hmodel true)
      (hasConvexWeights_setRestrict hweights true) hevidence hattested

/-- The same after any trainings, where what tells of a word and what is attested is found in the
last. -/
lemma possibleTags_trainAll {c : Config Exact} (hbound : { c with restrict := true }.scorer = .ok s)
    (trainings : List (List LabelledContext)) {context : Context}
    (h : ∃ tag ∈ evidence (trainings.getLast?.getD []) context.word,
      IsAttested (trainings.getLast?.getD []) context tag) :
    possibleTags ((s.trainAll trainings).logScores context : Table Tag (WithBot ℝ)) =
      {tag | tag ∈ evidence (trainings.getLast?.getD []) context.word ∧
        IsAttested (trainings.getLast?.getD []) context tag} := by
  rw [trainAll_eq_setRestrict hbound hbound]
  exact possibleTags_logScores (isModelOf_trainAll_getD hbound trainings)
    (hasConvexWeights_trainAll (hasConvexWeights_of_scorer hbound) trainings) h

/-- **Restriction keeps the attested tags.** In exact arithmetic, take a scorer of any configuration
that is not refused, with restriction and without, and train both on the same lists of contexts.
Among the tags that are scored without restriction in a context,

* if none is attested, the scores with restriction are the same;
* if some are, these have possible scores. With restriction the trigram model gives the same tags in
  the same order, of which the attested ones keep their scores and the others are impossible; the
  scorer of word frequencies gives just the attested ones, in the same order with the same scores;
* then the possible tags with restriction are the attested ones, of which there are some, and they
  are the same for the scorer of any other configuration with restriction.

**Proof sketch.** Both scorers list the tags that tell of the word, and look up the same trigrams.
An attested tag has a positive transition for any convex weights, as each of the three frequencies
is positive, and a positive emission, whether the word is known or not. -/
theorem restriction_keeps_attested {c : Config Exact} {free bound : Scorer Exact}
    (hfree : { c with restrict := false }.scorer = .ok free)
    (hbound : { c with restrict := true }.scorer = .ok bound)
    (trainings : List (List LabelledContext)) (context : Context) :
    let attested := IsAttested (trainings.getLast?.getD []) context
    let freeScores : Table Tag (WithBot ℝ) := (free.trainAll trainings).logScores context
    let boundScores : Table Tag (WithBot ℝ) := (bound.trainAll trainings).logScores context
    ((∀ tag ∈ freeScores.keys, ¬ attested tag) → boundScores = freeScores) ∧
      ((∃ tag ∈ freeScores.keys, attested tag) →
        (∀ tag ∈ freeScores.keys, attested tag → tag ∈ possibleTags freeScores) ∧
        (c.scorerName = "trigram_hmm" →
          boundScores = freeScores.mapValues fun tag w => if attested tag then w else impossible) ∧
        (c.scorerName = "most_frequent" →
          boundScores = freeScores.filter fun tag _ => attested tag) ∧
        possibleTags boundScores = {tag | tag ∈ freeScores.keys ∧ attested tag} ∧
        (possibleTags boundScores).Nonempty ∧
        ∀ (c' : Config Exact) (bound' : Scorer Exact),
          { c' with restrict := true }.scorer = .ok bound' →
            possibleTags ((bound'.trainAll trainings).logScores context : Table Tag (WithBot ℝ)) =
              possibleTags boundScores) := by
  intro attested freeScores boundScores
  have hmodel := isModelOf_trainAll_getD hfree trainings
  have hweights := hasConvexWeights_trainAll (hasConvexWeights_of_scorer hfree) trainings
  -- one trained scorer, with restriction and without
  have hfreeScores :
      freeScores = ((free.trainAll trainings).setRestrict false).logScores context := by
    rw [← trainAll_eq_setRestrict hfree hfree]
  have hboundScores :
      boundScores = ((free.trainAll trainings).setRestrict true).logScores context := by
    rw [← trainAll_eq_setRestrict hfree hbound]
  have hkeys : ∀ tag, tag ∈ freeScores.keys ↔
      tag ∈ evidence (trainings.getLast?.getD []) context.word := by
    intro tag
    rw [hfreeScores]
    exact mem_keys_logScores_unrestricted hmodel
  simp only [hkeys]
  refine ⟨fun hnone => ?_, fun hsome => ?_⟩
  · rw [hfreeScores, hboundScores]
    exact logScores_setRestrict_of_not_exists hmodel fun ⟨tag, hmem, htag⟩ => hnone tag hmem htag
  have hpossible := possibleTags_trainAll hbound trainings hsome
  refine ⟨fun tag hmem htag => mem_possibleTags_of_isAttested hmodel hweights hmem htag,
    fun hname => ?_, fun hname => ?_, hpossible, hpossible ▸ hsome,
    fun _ _ hbound' => (possibleTags_trainAll hbound' trainings hsome).trans hpossible.symm⟩
  · rcases trainAll_cases hfree trainings with ⟨hname', -⟩ | ⟨-, s, hs⟩
    · exact absurd (hname'.symm.trans hname) (by decide)
    · rw [hs] at hmodel hfreeScores hboundScores
      rw [hfreeScores, hboundScores]
      exact logScores_setRestrict_trigram hmodel hsome
  · rcases trainAll_cases hfree trainings with ⟨-, s, hs⟩ | ⟨hname', -⟩
    · rw [hs] at hmodel hfreeScores hboundScores
      rw [hfreeScores, hboundScores]
      exact logScores_setRestrict_lexical hmodel hsome
    · exact absurd (hname'.symm.trans hname) (by decide)

/-- A new word at the start of a sentence, after training on one sentence: it can only have the tag
of the first word, which is what both scorers find. -/
theorem restriction_keeps_attested_cats :
    let context : Context := ⟨["cats"], 0, Boundary.start, Boundary.start⟩
    let trigrams : Scorer Exact := untrained.trainAll [barkingDogs]
    let words : Scorer Exact := (Scorer.lexical ⟨true, .empty⟩).trainAll [barkingDogs]
    "NNS" ∈ possibleTags (trigrams.logScores context : Table Tag (WithBot ℝ)) ∧
      "VBP" ∉ possibleTags (trigrams.logScores context : Table Tag (WithBot ℝ)) ∧
      possibleTags (words.logScores context : Table Tag (WithBot ℝ)) =
        possibleTags (trigrams.logScores context : Table Tag (WithBot ℝ)) := by
  intro context trigrams words
  have hconvex : Interpolation.IsConvex ⟨⟨3 / 5⟩, ⟨3 / 10⟩⟩ :=
    ⟨by norm_num, by norm_num, by norm_num⟩
  have hscorer := fun restrict => scorer_eq_ok_trigram
    (c := ⟨"trigram_hmm", "viterbi", restrict, ⟨⟨3 / 5⟩, ⟨3 / 10⟩⟩, true⟩) rfl hconvex
  have hevidence : "NNS" ∈ evidence barkingDogs context.word := by decide
  have hkey :
      "NNS" ∈ ((trigrams.setRestrict false).logScores context : Table Tag (WithBot ℝ)).keys :=
    (mem_keys_logScores_unrestricted (isModelOf_train untrained barkingDogs)).2 hevidence
  have hattested : IsAttested barkingDogs context "NNS" := by decide
  obtain ⟨-, hsome⟩ := restriction_keeps_attested
    (c := ⟨"trigram_hmm", "viterbi", true, ⟨⟨3 / 5⟩, ⟨3 / 10⟩⟩, true⟩) (hscorer false)
    (hscorer true) [barkingDogs] context
  obtain ⟨-, -, -, hpossible, -, hsame⟩ := hsome ⟨"NNS", hkey, hattested⟩
  have hiff := Set.ext_iff.1 hpossible
  exact ⟨(hiff "NNS").2 ⟨hkey, hattested⟩, fun h => absurd ((hiff "VBP").1 h).2 (by decide),
    hsame ⟨"most_frequent", "greedy", true, ⟨0, 0⟩, false⟩ _ rfl⟩

end Possible

end Scorer

end TrellisTagger
