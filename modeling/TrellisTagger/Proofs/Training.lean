import TrellisTagger.Proofs.Lexicon
import TrellisTagger.Proofs.SentenceTrellis.Taggings
import TrellisTagger.Tagger

/-!
# Runs of training

A scorer is made from a configuration and trained any number of times, and a training on malformed
sentences fails and leaves it as it is. This file says what a scorer knows after such a run, and
which tags it then scores. Nothing here depends on how frequencies and weights are computed.

## Main definitions

* `TrellisTagger.Scorer.trainAll`, `TrellisTagger.Scorer.attemptAll` — several trainings, of which
  the latter may fail.
* `TrellisTagger.Scorer.IsModelOf` — the model of a scorer is that of some contexts.
* `TrellisTagger.Scorer.OmitsTags` — the scorer leaves out tags that are not attested.
* `TrellisTagger.Scorer.IsDefinedAt` — whatever is read to score a context is there.

## Main results

* `TrellisTagger.Config.scorer_cases` — the scorers of configurations.
* `TrellisTagger.Scorer.trainAll_preserves` — what every training preserves holds in the end.
* `TrellisTagger.Scorer.isModelOf_trainAll` — only the last training counts for the model.
* `TrellisTagger.Scorer.attemptAll_eq` — trainings that fail do not count.
* `TrellisTagger.Scorer.keys_logScores`, `TrellisTagger.Scorer.keys_logScores_ne_nil` — the tags
  that are scored.
* `TrellisTagger.Scorer.IsModelOf.isDefinedAt` — a trained scorer scores every context.
-/

namespace TrellisTagger

universe u v

/-! ### The words and tags of sentences -/

/-- The contexts of a sentence have its words with its tags, and twice the stop symbol. -/
theorem Sentence.wordTags_contexts (s : Sentence) :
    wordTags s.contexts =
      s.words.zip s.tags ++ [(Boundary.stop, Boundary.stop), (Boundary.stop, Boundary.stop)] := by
  have hwords := map_atPosition_range s.words
  have htags := map_atPosition_range s.tags
  rw [← s.length_eq] at htags
  calc wordTags s.contexts
      = (List.range (s.words.length + 2)).map
          fun i : Nat => (atPosition s.words i, atPosition s.tags i) := by
        rw [wordTags, contexts, List.map_map]
        rfl
    _ = (s.words ++ [Boundary.stop, Boundary.stop]).zip
      (s.tags ++ [Boundary.stop, Boundary.stop]) := by
        rw [← hwords, ← htags, List.zip_map']
    _ = _ := by
        rw [List.zip_append s.length_eq]
        rfl

/-- The words and tags that training on sentences sees. -/
theorem mem_wordTags_contextsOf {sentences : List Sentence} {x : Word × Tag} :
    x ∈ wordTags (Tagger.contextsOf sentences) ↔
      ∃ s ∈ sentences, x ∈ s.words.zip s.tags ∨ x = (Boundary.stop, Boundary.stop) := by
  have hflat : wordTags (Tagger.contextsOf sentences) =
      sentences.flatMap fun s => wordTags s.contexts := by
    simp only [wordTags, Tagger.contextsOf, List.map_flatMap]
  simp only [hflat, List.mem_flatMap, Sentence.wordTags_contexts, List.mem_append, List.mem_cons,
    List.not_mem_nil, or_false, or_self]

/-- There are contexts as soon as there is a sentence, even an empty one. -/
lemma contextsOf_ne_nil {sentences : List Sentence} (h : sentences ≠ []) :
    Tagger.contextsOf sentences ≠ [] := by
  obtain ⟨s, rest, rfl⟩ := List.exists_cons_of_ne_nil h
  simp [Tagger.contextsOf, Sentence.contexts]

/-! ### Configured scorers -/

section Configurations

variable {P : Type u} [Probability P] {c : Config P}

/-- The scorers that configurations give. -/
lemma Config.scorer_cases {s : Scorer P} (h : c.scorer = .ok s) :
    (c.scorerName = "most_frequent" ∧ s = .lexical ⟨c.restrict, .empty⟩) ∨
      (c.scorerName = "trigram_hmm" ∧ c.weights.isRefused = false ∧
        s = .trigram ⟨c.restrict, c.estimate, c.weights, .empty⟩) := by
  unfold Config.scorer at h
  split at h
  · rename_i hname
    exact .inl ⟨hname, (Except.ok.inj h).symm⟩
  split at h
  · rename_i hname
    split at h
    · cases h
    · rename_i haccepted
      exact .inr ⟨hname, Bool.eq_false_iff.2 haccepted, (Except.ok.inj h).symm⟩
  · cases h

omit [Probability P] in
/-- The decoder of a configuration that names Viterbi decoding is that one. -/
lemma Config.decoder_eq_viterbi {d : Decoder} (h : c.decoder = .ok d)
    (hname : c.decoderName = "viterbi") : d = .viterbi := by
  rw [Config.decoder, hname] at h
  exact (Except.ok.inj h).symm

/-- The scorer and the decoder of a tagger are those of its configuration. -/
lemma Tagger.ofConfig_eq_ok_iff {t : Tagger P} :
    ofConfig c = .ok t ↔ c.scorer = .ok t.scorer ∧ c.decoder = .ok t.decoder := by
  obtain ⟨s, d⟩ := t
  unfold ofConfig
  cases c.scorer <;> cases c.decoder <;> simp

end Configurations

namespace Scorer

section Runs

variable {P : Type u} [Probability P]

/-! ### Several trainings -/

/-- Learn from several lists of contexts, one after another. -/
def trainAll (s : Scorer P) (trainings : List (List LabelledContext)) : Scorer P :=
  trainings.foldl train s

/-- Learn from a corpus, or stay the same if a sentence of it is malformed. -/
def attempt (s : Scorer P) (corpus : List (List Word × List Tag)) : Scorer P :=
  match s.trainOn corpus with
  | .ok s' => s'
  | .error _ => s

/-- What every training preserves holds after any trainings. -/
lemma trainAll_preserves {I : Scorer P → Prop}
    (hstep : ∀ s contexts, I s → I (s.train contexts)) {s : Scorer P}
    (h : I s) (trainings : List (List LabelledContext)) : I (s.trainAll trainings) := by
  induction trainings generalizing s with
  | nil => exact h
  | cons contexts trainings ih => exact ih (hstep s contexts h)

/-- Try to learn from several corpora, one after another. -/
def attemptAll (s : Scorer P) (corpora : List (List (List Word × List Tag))) : Scorer P :=
  corpora.foldl attempt s

/-- The corpora that a scorer can learn from, as sentences. -/
def wellFormed (corpora : List (List (List Word × List Tag))) : List (List Sentence) :=
  corpora.filterMap fun corpus => (Sentence.ofAllLists corpus).toOption

/-- An attempt to train on a corpus trains on its sentences, or changes nothing if one of them is
ill-formed. -/
lemma attempt_eq (s : Scorer P) (corpus : List (List Word × List Tag)) :
    s.attempt corpus =
      match Sentence.ofAllLists corpus with
      | .ok sentences => s.train (Tagger.contextsOf sentences)
      | .error _ => s := by
  rw [attempt, trainOn]
  cases Sentence.ofAllLists corpus <;> rfl

/-- **Trainings that fail do not count.** -/
theorem attemptAll_eq (s : Scorer P) (corpora : List (List (List Word × List Tag))) :
    s.attemptAll corpora = s.trainAll ((wellFormed corpora).map Tagger.contextsOf) := by
  induction corpora generalizing s with
  | nil => rfl
  | cons corpus corpora ih =>
    rw [attemptAll, List.foldl_cons, ← attemptAll, ih, attempt_eq]
    cases h : Sentence.ofAllLists corpus with
    | ok sentences =>
      have hhead : wellFormed (corpus :: corpora) = sentences :: wellFormed corpora := by
        rw [wellFormed, List.filterMap_cons, h]
        rfl
      rw [hhead]
      rfl
    | error e =>
      have hhead : wellFormed (corpus :: corpora) = wellFormed corpora := by
        rw [wellFormed, List.filterMap_cons, h]
        rfl
      rw [hhead]

/-! ### What a run leaves behind -/

/-- The model of a scorer is that of some contexts. -/
def IsModelOf (s : Scorer P) (contexts : List LabelledContext) : Prop :=
  match s with
  | .lexical s => s.lexicon = .ofContexts contexts
  | .trigram s => s.model = .ofContexts contexts

/-- After training, the model is that of the contexts trained on. -/
lemma isModelOf_train (s : Scorer P) (contexts : List LabelledContext) :
    (s.train contexts).IsModelOf contexts := by
  cases s <;> rfl

/-- **Only the last training counts for the model.** -/
theorem isModelOf_trainAll {s : Scorer P} {trainings : List (List LabelledContext)}
    {contexts : List LabelledContext} (h : trainings.getLast? = some contexts) :
    (s.trainAll trainings).IsModelOf contexts := by
  obtain ⟨earlier, rfl⟩ := List.getLast?_eq_some_iff.1 h
  rw [trainAll, List.foldl_concat]
  exact isModelOf_train _ _

/-- A scorer of word frequencies learns the last contexts, and keeps its settings. -/
lemma trainAll_lexical (s : LexicalScorer P) (trainings : List (List LabelledContext)) :
    (Scorer.lexical s).trainAll trainings =
      .lexical { s with
        lexicon := (trainings.getLast?.map Lexicon.ofContexts).getD s.lexicon } := by
  induction trainings using List.reverseRecOn with
  | nil => rfl
  | append_singleton trainings contexts ih =>
    rw [trainAll, List.foldl_concat, ← trainAll, ih, List.getLast?_concat]
    rfl

/-- The lexicon of a model of contexts is that of the contexts. -/
lemma IsModelOf.lexicon_eq {s : Scorer P} {contexts : List LabelledContext}
    (h : s.IsModelOf contexts) : s.lexicon = .ofContexts contexts := by
  cases s with
  | lexical s => exact h
  | trigram s => exact congrArg TrigramModel.lexicon h

/-- The model before any training is that of no contexts. -/
lemma isModelOf_nil {c : Config P} {s : Scorer P} (h : c.scorer = .ok s) : s.IsModelOf [] := by
  rcases Config.scorer_cases h with ⟨-, rfl⟩ | ⟨-, -, rfl⟩ <;> rfl

/-- After any trainings the model is that of the last contexts, or of none if there was no
training. -/
lemma isModelOf_trainAll_getD {c : Config P} {s : Scorer P} (h : c.scorer = .ok s)
    (trainings : List (List LabelledContext)) :
    (s.trainAll trainings).IsModelOf (trainings.getLast?.getD []) := by
  rcases List.eq_nil_or_concat trainings with rfl | ⟨earlier, contexts, rfl⟩
  · exact isModelOf_nil h
  · rw [List.concat_eq_append, List.getLast?_concat]
    exact isModelOf_trainAll List.getLast?_concat

/-- After any trainings the model is that of some contexts. -/
lemma exists_isModelOf_trainAll {s : Scorer P} (h : ∃ contexts, s.IsModelOf contexts)
    (trainings : List (List LabelledContext)) :
    ∃ contexts, (s.trainAll trainings).IsModelOf contexts :=
  trainAll_preserves (I := fun s => ∃ contexts, s.IsModelOf contexts)
    (fun s contexts _ => ⟨contexts, isModelOf_train s contexts⟩) h trainings

/-- A scorer that leaves out tags that are not attested after the history. -/
def OmitsTags : Scorer P → Prop
  | .lexical s => s.restrict = true
  | .trigram _ => False

/-- Only the scorer of word frequencies leaves tags out, and only when told to. -/
lemma omitsTags_iff {c : Config P} {s : Scorer P} (h : c.scorer = .ok s) :
    s.OmitsTags ↔ c.scorerName = "most_frequent" ∧ c.restrict = true := by
  rcases Config.scorer_cases h with ⟨hname, rfl⟩ | ⟨hname, -, rfl⟩
  · exact ⟨fun hs => ⟨hname, hs⟩, fun hs => hs.2⟩
  · refine ⟨fun hs => hs.elim, fun hs => ?_⟩
    rw [hname] at hs
    exact absurd hs.1 (by decide)

/-- Training changes no settings. -/
lemma omitsTags_trainAll {s : Scorer P} {trainings : List (List LabelledContext)} :
    (s.trainAll trainings).OmitsTags ↔ s.OmitsTags := by
  refine trainAll_preserves (I := fun s' => s'.OmitsTags ↔ s.OmitsTags) ?_ Iff.rfl trainings
  intro s' contexts h
  cases s' <;> exact h

end Runs

/-! ### The tags that are scored -/

section Scores

variable {P : Type u} [Probability P] {W : Type v} [LogWeight W] [Logarithm P W]

/-- Only the tags of a word are scored. -/
lemma keys_logScores_subset (s : Scorer P) (c : Context) :
    (s.logScores c : Table Tag W).keys ⊆ (s.lexicon.row c.word).keys := by
  cases s with
  | lexical s =>
    rw [logScores, Lexicon.logScores, Table.keys_mapValues]
    exact s.lexicon.keys_candidates_subset s.restrict c
  | trigram s =>
    rw [logScores, TrigramScorer.logScores, TrigramModel.logScores, Table.keys_mapValues]
    exact List.Subset.refl _

/-- All the tags of a word are scored, except by a scorer that leaves some out. -/
theorem keys_logScores {s : Scorer P} (h : ¬ s.OmitsTags) (c : Context) :
    (s.logScores c : Table Tag W).keys = (s.lexicon.row c.word).keys := by
  cases s with
  | lexical s =>
    have hrestrict : s.restrict = false := Bool.eq_false_iff.2 h
    rw [logScores, Lexicon.logScores, Table.keys_mapValues, hrestrict, Lexicon.candidates_false]
    rfl
  | trigram s =>
    rw [logScores, TrigramScorer.logScores, TrigramModel.logScores, Table.keys_mapValues]
    rfl

/-- Some tag is scored, if the word has one at all. -/
lemma keys_logScores_ne_nil {s : Scorer P} {c : Context}
    (h : (s.lexicon.row c.word).keys ≠ []) : (s.logScores c : Table Tag W).keys ≠ [] := by
  cases s with
  | lexical s =>
    rw [logScores, Lexicon.logScores, Table.keys_mapValues]
    exact Lexicon.keys_candidates_ne_nil h
  | trigram s =>
    rw [keys_logScores (s := .trigram s) (fun h => h)]
    exact h

end Scores

/-! ### Nothing is missing -/

section Definedness

variable {P : Type u} [Probability P]

/-- Whatever is read to score the tags of a context is there: the numbers of which logarithms are
taken without a further look are quotients of positive numbers, and a tag that is scored by an
emission has one. -/
def IsDefinedAt (s : Scorer P) (c : Context) : Prop :=
  match s with
  | .lexical s => ∀ p ∈ (s.lexicon.candidates s.restrict c).values,
      ∃ n d : Nat, 0 < n ∧ n ≤ d ∧ p = ratio n d
  | .trigram s => ∀ tag ∈ (s.model.lexicon.row c.word).keys, (s.model.emission? c.word tag).isSome

variable {contexts : List LabelledContext} {c : Context}

omit [Probability P] in
/-- What is left of a row under restriction stands in the row. -/
lemma exists_get?_row_of_mem_candidates {m : Lexicon P} {restrict : Bool} {p : P}
    (h : p ∈ (m.candidates restrict c).values) : ∃ tag, (m.row c.word).get? tag = some p := by
  obtain ⟨⟨tag, p⟩, hmem, rfl⟩ := List.mem_map.1 h
  refine ⟨tag, Table.get?_eq_some_iff.2 ?_⟩
  unfold Lexicon.candidates at hmem
  split at hmem
  · exact (List.mem_filter.1 hmem).1
  · exact hmem

/-- The lexical scorer finds all it looks up, if its lexicon comes from contexts. -/
lemma isDefinedAt_lexical {s : LexicalScorer P} (h : s.lexicon = .ofContexts contexts) :
    IsDefinedAt (.lexical s) c := by
  intro p hp
  obtain ⟨tag, htag⟩ := exists_get?_row_of_mem_candidates hp
  rw [h, Lexicon.row_ofContexts, get?_relativeFrequencies] at htag
  split at htag
  · rename_i hmem
    exact ⟨_, _, List.count_pos_iff.2 hmem, List.count_le_length, (Option.some.inj htag).symm⟩
  · cases htag

/-- Under a tag that tells of a word there is an emission for the word. -/
lemma isSome_emission? {word : Word} {tag : Tag} (h : tag ∈ evidence contexts word) :
    ((TrigramModel.ofContexts contexts : TrigramModel P).emission? word tag).isSome := by
  unfold TrigramModel.emission?
  split
  · obtain ⟨word', hmem⟩ := exists_mem_wordTags_of_mem_evidence h
    obtain ⟨c, hc, heq⟩ := List.mem_map.1 hmem
    have htag : tag ∈ (contexts.map fun c => (c.tag, c.word)).map Prod.fst := by
      rw [List.map_map]
      exact List.mem_map.2 ⟨c, hc, (Prod.mk.inj heq).2⟩
    rw [Option.isSome_map]
    show (Table.get? (conditionalFrequencies _) tag).isSome
    rw [get?_conditionalFrequencies, if_pos htag]
    rfl
  · rename_i hknows
    unfold TrigramModel.unknownEmission?
    dsimp only
    split
    · rfl
    · have hfirst : tag ∈ firstTags contexts := by
        rw [evidence, if_neg fun hword => hknows (Lexicon.knows_ofContexts.2 hword)] at h
        exact h
      have hget : (TrigramModel.ofContexts contexts : TrigramModel P).lexicon.unknown.get? tag =
          some (ratio ((firstTags contexts).count tag) (firstTags contexts).length) :=
        (get?_relativeFrequencies _ _).trans (if_pos hfirst)
      rw [hget]
      rfl

/-- The trigram scorer finds all it looks up, if its model comes from contexts. -/
lemma isDefinedAt_trigram {s : TrigramScorer P} (h : s.model = .ofContexts contexts) :
    IsDefinedAt (.trigram s) c := by
  intro tag htag
  rw [h] at htag ⊢
  exact isSome_emission? (Lexicon.mem_keys_row.1 htag)

/-- **A trained scorer scores every context**: nothing that it looks up is missing. -/
theorem IsModelOf.isDefinedAt {s : Scorer P} (h : s.IsModelOf contexts) (c : Context) :
    s.IsDefinedAt c := by
  cases s with
  | lexical s => exact isDefinedAt_lexical h
  | trigram s => exact isDefinedAt_trigram h

end Definedness

end Scorer

end TrellisTagger
