import TrellisTagger.Proofs.Renaming.Table
import TrellisTagger.Proofs.Training

/-!
# Scores under renaming

Words and tags are compared and nothing else is done with them. So a scorer that has learned from
renamed sentences is the scorer that has learned from the sentences as they were, under the new
names, and it gives the same scores to the renamed tags of renamed contexts, in the same order.

## Main definitions

* `TrellisTagger.Renaming` — new names for tags and words, of which boundary symbols have none.
* `TrellisTagger.Renaming.AppliesTo` — the word of a context is renamed with those of the sentence.
* `TrellisTagger.Sentence.rename`, `TrellisTagger.Context.rename`, `TrellisTagger.Lexicon.rename`,
  `TrellisTagger.TrigramModel.rename`, `TrellisTagger.Scorer.rename` — what has words and tags,
  renamed.

## Main results

* `TrellisTagger.Lexicon.ofContexts_rename`, `TrellisTagger.TrigramModel.ofContexts_rename`,
  `TrellisTagger.TagCounts.deletedInterpolation_rename` — what is learned from renamed contexts.
* `TrellisTagger.Scorer.train_rename` — learning from renamed sentences.
* `TrellisTagger.Scorer.logScores_rename` — the scores of renamed contexts.

## Design

The start symbol may have a new name where it is a word, because no position of a sentence has it
for its word. Only a context before the sentence would tell, so the lemmas ask for contexts that a
renaming applies to.
-/

namespace TrellisTagger

universe u v

/-- New names for tags and words. Different ones stay different, and the boundary symbols keep their
names, except that the start symbol may have another as a word. -/
structure Renaming where
  /-- The new names of tags. -/
  tag : Tag ↪ Tag
  /-- The new names of words. -/
  word : Word ↪ Word
  /-- The tag before a sentence keeps its name. -/
  tag_start : tag Boundary.start = Boundary.start
  /-- The tag after a sentence keeps its name. -/
  tag_stop : tag Boundary.stop = Boundary.stop
  /-- The word after a sentence keeps its name. -/
  word_stop : word Boundary.stop = Boundary.stop

/-- A sentence under new names. -/
def Sentence.rename (r : Renaming) (s : Sentence) : Sentence :=
  ⟨s.words.map r.word, s.tags.map r.tag, by simp [s.length_eq]⟩

/-- A context under new names. -/
def Context.rename (r : Renaming) (c : Context) : Context :=
  ⟨c.words.map r.word, c.position, r.tag c.previous, r.tag c.beforePrevious⟩

/-- A labelled context under new names. -/
def LabelledContext.rename (r : Renaming) (c : LabelledContext) : LabelledContext :=
  ⟨c.toContext.rename r, r.tag c.tag⟩

namespace Renaming

/-- The word at the position of a context gets the new name that it has in the sentence: the
position is not before the sentence, or the start symbol keeps its name as a word, too. -/
def AppliesTo (r : Renaming) (c : Context) : Prop :=
  0 ≤ c.position ∨ r.word Boundary.start = Boundary.start

/-- The new names of histories. -/
def history (r : Renaming) : Tag × Tag ↪ Tag × Tag := r.tag.prodMap r.tag

/-- The new names of trigrams. -/
def trigram (r : Renaming) : Tag × Tag × Tag ↪ Tag × Tag × Tag := r.tag.prodMap r.history

end Renaming

variable {r : Renaming}

/-! ### Contexts -/

/-- Symbols around a sentence that keep their names may be put there before or after renaming. -/
lemma atPosition_map {f : String → String} (hstop : f Boundary.stop = Boundary.stop) {i : Int}
    (hstart : 0 ≤ i ∨ f Boundary.start = Boundary.start) (l : List String) :
    atPosition (l.map f) i = f (atPosition l i) := by
  simp only [atPosition, padded]
  split
  · rename_i hneg
    exact (hstart.resolve_left (by omega)).symm
  · rw [List.getD_eq_getElem?_getD, List.getD_eq_getElem?_getD, List.getElem?_map]
    cases l[i.toNat]? with
    | none => exact hstop.symm
    | some a => rfl

/-- The word of a renamed context is the renamed word, if the renaming applies. -/
lemma Context.word_rename {c : Context} (h : r.AppliesTo c) : (c.rename r).word = r.word c.word :=
  atPosition_map r.word_stop h c.words

/-- The word of a renamed labelled context is the renamed word, if the renaming applies. -/
lemma LabelledContext.word_rename {c : LabelledContext} (h : r.AppliesTo c.toContext) :
    (c.rename r).word = r.word c.word :=
  Context.word_rename h

/-- What is read off renamed contexts is renamed, if it is for each of them. -/
lemma map_map_rename {β γ : Type*} {contexts : List LabelledContext} {feature : LabelledContext → β}
    {feature' : LabelledContext → γ} {f : β → γ}
    (h : ∀ c ∈ contexts, feature' (c.rename r) = f (feature c)) :
    (contexts.map (LabelledContext.rename r)).map feature' = (contexts.map feature).map f := by
  rw [List.map_map, List.map_map]
  exact List.map_congr_left h

namespace Sentence

/-- The context at a position of a renamed sentence is the renamed context. -/
lemma contextAt_rename (r : Renaming) (s : Sentence) (i : Int) :
    (s.rename r).contextAt i = (s.contextAt i).rename r := by
  have htag : ∀ j, atPosition (s.tags.map r.tag) j = r.tag (atPosition s.tags j) :=
    fun j => atPosition_map r.tag_stop (.inr r.tag_start) s.tags
  simp only [contextAt, rename, LabelledContext.rename, Context.rename, htag]

/-- The contexts of a renamed sentence. -/
lemma contexts_rename (r : Renaming) (s : Sentence) :
    (s.rename r).contexts = s.contexts.map (LabelledContext.rename r) := by
  have hsize : (s.rename r).size = s.size := List.length_map _
  simp only [contexts, hsize, List.map_map, Function.comp_def, contextAt_rename]

/-- A renaming applies to all contexts of sentences. -/
lemma appliesTo_of_mem_contexts (r : Renaming) {s : Sentence} {c : LabelledContext}
    (h : c ∈ s.contexts) : r.AppliesTo c.toContext := by
  obtain ⟨i, -, rfl⟩ := List.mem_map.1 h
  exact .inl (Int.natCast_nonneg i)

end Sentence

namespace Tagger

/-- The contexts of renamed sentences are the renamed contexts. -/
lemma contextsOf_rename (r : Renaming) (sentences : List Sentence) :
    contextsOf (sentences.map (Sentence.rename r)) =
      (contextsOf sentences).map (LabelledContext.rename r) := by
  simp only [contextsOf, List.flatMap_map, List.map_flatMap, Sentence.contexts_rename]

/-- A renaming applies to all contexts that training takes from sentences. -/
lemma appliesTo_of_mem_contextsOf (r : Renaming) {sentences : List Sentence} {c : LabelledContext}
    (h : c ∈ contextsOf sentences) : r.AppliesTo c.toContext := by
  obtain ⟨s, -, hc⟩ := List.mem_flatMap.1 h
  exact Sentence.appliesTo_of_mem_contexts r hc

end Tagger

/-! ### Lexicons -/

namespace Lexicon

variable {P : Type u}

/-- A lexicon under new names. -/
def rename (r : Renaming) (m : Lexicon P) : Lexicon P where
  known := m.known.map r.word (Table.map r.tag id)
  unknown := m.unknown.map r.tag id
  trigrams := m.trigrams.map r.trigram

/-- **What is learned from renamed contexts** is what is learned from the contexts, renamed. -/
lemma ofContexts_rename [Probability P] {contexts : List LabelledContext}
    (h : ∀ c ∈ contexts, r.AppliesTo c.toContext) :
    (ofContexts (contexts.map (LabelledContext.rename r)) : Lexicon P) =
      (ofContexts contexts).rename r := by
  have hword : ∀ c ∈ contexts, (c.rename r).word = r.word c.word :=
    fun c hc => LabelledContext.word_rename (h c hc)
  have hknown : (contexts.map (LabelledContext.rename r)).map (fun c => (c.word, c.tag)) =
      (contexts.map fun c => (c.word, c.tag)).map (Prod.map r.word r.tag) :=
    map_map_rename fun c hc => Prod.ext (hword c hc) rfl
  have hfirst : (distinctBy (fun c => c.word) (contexts.map (LabelledContext.rename r))).map
        (fun c => c.tag) =
      ((distinctBy (fun c => c.word) contexts).map fun c => c.tag).map r.tag := by
    have hdistinct : distinctBy (fun c : LabelledContext => c.word)
          (contexts.map (LabelledContext.rename r)) =
        (distinctBy (fun c : LabelledContext => c.word) contexts).map (LabelledContext.rename r) :=
      distinctBy_map (f := r.word) hword
    rw [hdistinct]
    exact map_map_rename fun _ _ => rfl
  have htrigrams : (contexts.map (LabelledContext.rename r)).map LabelledContext.trigram =
      (contexts.map LabelledContext.trigram).map r.trigram :=
    map_map_rename fun _ _ => rfl
  unfold ofContexts rename
  rw [hknown, hfirst, htrigrams, crossTally_map, conditionalFrequencies_map, tally_map,
    relativeFrequencies_map, distinct_map]

variable (r) (m : Lexicon P)

/-- The tags of a renamed word are renamed and keep their scores. -/
lemma row_rename (word : Word) : (m.rename r).row (r.word word) = (m.row word).map r.tag id :=
  Table.getD_map rfl m.known word

/-- A word is known under its new name just if it is known. -/
lemma knows_rename (word : Word) : (m.rename r).knows (r.word word) = m.knows word :=
  Table.contains_map _ _ m.known word

/-- A trigram is attested under its new names just if it is attested. -/
lemma attests_rename (a b c : Tag) :
    (m.rename r).attests (r.tag a) (r.tag b) (r.tag c) = m.attests a b c := by
  have hmem : r.trigram (a, b, c) ∈ m.trigrams.map r.trigram ↔ (a, b, c) ∈ m.trigrams :=
    List.mem_map_of_injective r.trigram.injective
  exact decide_eq_decide.2 hmem

variable {r} {c : Context}

/-- A tag fits into a renamed context under its new name just if it fits. -/
lemma fits_rename (c : Context) (tag : Tag) :
    (m.rename r).fits (c.rename r) (r.tag tag) = m.fits c tag :=
  attests_rename r m _ _ _

/-- Some tag fits into a renamed context just if some tag fits. -/
lemma someFits_rename (h : r.AppliesTo c) : (m.rename r).someFits (c.rename r) = m.someFits c := by
  rw [someFits, Context.word_rename h, row_rename, Table.keys_map, List.any_map, someFits]
  exact congrArg (m.row c.word).keys.any (funext fun tag => fits_rename m c tag)

/-- The candidates of a renamed context are the renamed candidates, in the same order. -/
lemma candidates_rename (h : r.AppliesTo c) (restrict : Bool) :
    (m.rename r).candidates restrict (c.rename r) = (m.candidates restrict c).map r.tag id := by
  unfold candidates
  rw [someFits_rename m h, Context.word_rename h, row_rename]
  split
  · exact Table.filter_map (fun tag _ => fits_rename m c tag) _
  · rfl

/-- Renamed candidates have the weights that they had before. -/
lemma logScores_rename {W : Type v} [Logarithm P W] (h : r.AppliesTo c) (restrict : Bool) :
    (m.rename r).logScores restrict (c.rename r) = (m.logScores restrict c).map r.tag id := by
  rw [logScores, candidates_rename m h]
  exact Table.mapValues_map (fun _ _ => rfl) _

end Lexicon

/-! ### Interpolation weights -/

namespace TagCounts

variable {P : Type u} [Probability P]

/-- The counts of tags under new names. -/
def rename (r : Renaming) (counts : TagCounts) : TagCounts where
  unigrams := counts.unigrams.map r.tag id
  bigrams := counts.bigrams.map r.tag (Table.map r.tag id)
  trigrams := counts.trigrams.map r.history (Table.map r.tag id)

/-- The counts of renamed contexts are the renamed counts. -/
lemma ofContexts_rename (r : Renaming) (contexts : List LabelledContext) :
    ofContexts (contexts.map (LabelledContext.rename r)) = (ofContexts contexts).rename r := by
  have htags : (contexts.map (LabelledContext.rename r)).map (fun c => c.tag) =
      (contexts.map fun c => c.tag).map r.tag :=
    map_map_rename fun _ _ => rfl
  have hpairs : (contexts.map (LabelledContext.rename r)).map (fun c => (c.previous, c.tag)) =
      (contexts.map fun c => (c.previous, c.tag)).map (Prod.map r.tag r.tag) :=
    map_map_rename fun _ _ => rfl
  have htriples : (contexts.map (LabelledContext.rename r)).map
        (fun c => ((c.beforePrevious, c.previous), c.tag)) =
      (contexts.map fun c => ((c.beforePrevious, c.previous), c.tag)).map
        (Prod.map r.history r.tag) :=
    map_map_rename fun _ _ => rfl
  unfold ofContexts rename
  rw [htags, hpairs, htriples, tally_map, crossTally_map, crossTally_map]

variable (r) (counts : TagCounts)

/-- Renamed trigrams occur as often as before, in the same order. -/
lemma occurrences_rename :
    (counts.rename r).occurrences = counts.occurrences.map (Prod.map r.trigram id) := by
  simp only [occurrences, rename, Table.entries_map, List.flatMap_map, List.map_flatMap,
    List.map_map]
  refine List.flatMap_congr fun e _ => ?_
  simp only [Prod.map_snd, Table.entries_map, List.map_map]
  rfl

/-- The estimates of a renamed trigram are those of the trigram. -/
lemma estimates_rename (a b c : Tag) (n : Int) :
    ((counts.rename r).estimates (r.tag a) (r.tag b) (r.tag c) n : ByHistory P) =
      counts.estimates a b c n := by
  have htotal : (counts.rename r).total = counts.total := by
    simp [total, Table.total, rename]
  have hunigram : ∀ a, (counts.rename r).unigram (r.tag a) = counts.unigram a :=
    fun a => Table.getD_map_id r.tag counts.unigrams a 0
  have hbigram : ∀ a b, (counts.rename r).bigram (r.tag a) (r.tag b) = counts.bigram a b :=
    fun a b => Table.getD_getD_map r.tag r.tag counts.bigrams a b 0
  simp only [estimates, htotal, hunigram, hbigram]

/-- Renaming changes no vote. -/
lemma votes_rename : ((counts.rename r).votes : ByHistory P) = counts.votes := by
  rw [votes, occurrences_rename, List.foldl_map, votes]
  congr 1
  funext sum e
  obtain ⟨⟨a, b, c⟩, n⟩ := e
  exact congrArg (fun estimates : ByHistory P => sum.add estimates.favourite (ratio n 1))
    (estimates_rename r counts a b c n)

/-- **The trigrams vote for the same lengths of history under any names.** -/
lemma deletedInterpolation_rename :
    ((counts.rename r).deletedInterpolation : Option (ByHistory P)) =
      counts.deletedInterpolation := by
  rw [deletedInterpolation, votes_rename, deletedInterpolation]

end TagCounts

/-! ### The trigram model -/

namespace TrigramModel

variable {P : Type u} [Probability P]

/-- A trigram model under new names. -/
def rename (r : Renaming) (m : TrigramModel P) : TrigramModel P where
  lexicon := m.lexicon.rename r
  unigrams := m.unigrams.map r.tag id
  bigrams := m.bigrams.map r.tag (Table.map r.tag id)
  trigrams := m.trigrams.map r.history (Table.map r.tag id)
  emissions := m.emissions.map r.tag (Table.map r.word id)
  unknownRate := m.unknownRate

/-- **The model of renamed contexts** is the model of the contexts, renamed. -/
lemma ofContexts_rename {contexts : List LabelledContext}
    (h : ∀ c ∈ contexts, r.AppliesTo c.toContext) :
    (ofContexts (contexts.map (LabelledContext.rename r)) : TrigramModel P) =
      (ofContexts contexts).rename r := by
  have hemissions : (contexts.map (LabelledContext.rename r)).map (fun c => (c.tag, c.word)) =
      (contexts.map fun c => (c.tag, c.word)).map (Prod.map r.tag r.word) :=
    map_map_rename fun c hc => Prod.ext rfl (LabelledContext.word_rename (h c hc))
  have hrate : ((Lexicon.ofContexts contexts : Lexicon P).rename r).known.size =
      (Lexicon.ofContexts contexts : Lexicon P).known.size := Table.size_map _ _ _
  unfold ofContexts rename
  simp only [Lexicon.ofContexts_rename h, TagCounts.ofContexts_rename, hemissions, crossTally_map,
    conditionalFrequencies_map, hrate, List.isEmpty_map, List.length_map]
  simp only [TagCounts.rename, relativeFrequencies_map, conditionalFrequencies_map]

variable (r) (m : TrigramModel P)

/-- The transition to a renamed tag is as probable as before. -/
lemma transition_rename (w : Interpolation P) (a b c : Tag) :
    (m.rename r).transition w (r.tag a) (r.tag b) (r.tag c) = m.transition w a b c := by
  have hunigram : (m.rename r).unigrams.getD (r.tag c) 0 = m.unigrams.getD c 0 :=
    Table.getD_map_id r.tag m.unigrams c 0
  have hbigram : ((m.rename r).bigrams.getD (r.tag b) ∅).getD (r.tag c) 0 =
      (m.bigrams.getD b ∅).getD c 0 :=
    Table.getD_getD_map r.tag r.tag m.bigrams b c 0
  have htrigram : ((m.rename r).trigrams.getD (r.tag a, r.tag b) ∅).getD (r.tag c) 0 =
      (m.trigrams.getD (a, b) ∅).getD c 0 :=
    Table.getD_getD_map r.history r.tag m.trigrams (a, b) c 0
  rw [transition, hunigram, hbigram, htrigram, transition]

/-- The emission of a renamed word by a renamed tag is as probable as before. -/
lemma emission?_rename (word : Word) (tag : Tag) :
    (m.rename r).emission? (r.word word) (r.tag tag) = m.emission? word tag := by
  have hknows : (m.rename r).lexicon.knows (r.word word) = m.lexicon.knows word :=
    Lexicon.knows_rename r m.lexicon word
  have hrow : ((m.rename r).emissions.get? (r.tag tag)).map (·.getD (r.word word) 0) =
      (m.emissions.get? tag).map (·.getD word 0) := by
    have hget : (m.rename r).emissions.get? (r.tag tag) =
        (m.emissions.get? tag).map (Table.map r.word id) := Table.get?_map _ _ m.emissions tag
    rw [hget, Option.map_map]
    congr 1
    funext row
    exact Table.getD_map_id r.word row word 0
  have hshare : (m.rename r).unigrams.getD (r.tag tag) 0 = m.unigrams.getD tag 0 :=
    Table.getD_map_id r.tag m.unigrams tag 0
  have hunknown : (m.rename r).lexicon.unknown.get? (r.tag tag) = m.lexicon.unknown.get? tag :=
    (Table.get?_map _ _ m.lexicon.unknown tag).trans Option.map_id'
  have hrate : (m.rename r).unknownRate = m.unknownRate := rfl
  simp only [emission?, unknownEmission?, hknows, hrow, hshare, hunknown, hrate]

variable {r} {c : Context}

/-- The factors of a renamed tag in a renamed context are those of the tag. -/
lemma factors_rename (h : r.AppliesTo c) (w : Interpolation P) (tag : Tag) :
    (m.rename r).factors w (c.rename r) (r.tag tag) = m.factors w c tag := by
  have htransition : (m.rename r).transition w (c.rename r).beforePrevious (c.rename r).previous
      (r.tag tag) = m.transition w c.beforePrevious c.previous tag := transition_rename r m w _ _ _
  rw [factors, htransition, Context.word_rename h, emission?_rename, factors]

/-- The scores of a renamed context are the scores under the new names, in the same order. -/
lemma logScores_rename {W : Type v} [LogWeight W] [Logarithm P W] (h : r.AppliesTo c)
    (w : Interpolation P) (restrict : Bool) :
    (m.rename r).logScores w restrict (c.rename r) = (m.logScores w restrict c).map r.tag id := by
  have hlexicon : (m.rename r).lexicon = m.lexicon.rename r := rfl
  simp only [logScores, hlexicon, Lexicon.someFits_rename m.lexicon h, Context.word_rename h,
    Lexicon.row_rename]
  refine Table.mapValues_map (fun tag p => ?_) _
  rw [Lexicon.fits_rename, factors_rename m h]
  rfl

end TrigramModel

/-! ### Scorers -/

namespace Scorer

variable {P : Type u} [Probability P]

/-- A scorer under new names. -/
def rename (r : Renaming) : Scorer P → Scorer P
  | .lexical s => .lexical { s with lexicon := s.lexicon.rename r }
  | .trigram s => .trigram { s with model := s.model.rename r }

/-- A configured scorer has no names yet. -/
lemma rename_of_config {c : Config P} {s : Scorer P} (h : c.scorer = .ok s) : s.rename r = s := by
  rcases Config.scorer_cases h with ⟨-, rfl⟩ | ⟨-, -, rfl⟩ <;> rfl

/-- **Learning from renamed contexts** is learning from the contexts, under the new names. -/
theorem train_rename {contexts : List LabelledContext} (h : ∀ c ∈ contexts, r.AppliesTo c.toContext)
    (s : Scorer P) :
    (s.rename r).train (contexts.map (LabelledContext.rename r)) = (s.train contexts).rename r := by
  cases s with
  | lexical s => simp only [rename, train, Lexicon.ofContexts_rename h]
  | trigram s =>
    simp only [rename, train, TrigramScorer.train, TrigramScorer.weightsAfter,
      TrigramModel.ofContexts_rename h, TagCounts.ofContexts_rename,
      TagCounts.deletedInterpolation_rename]

/-- **The scores of a renamed context** are the scores of the context, under the new names and in
the same order. -/
theorem logScores_rename {W : Type v} [LogWeight W] [Logarithm P W] {c : Context}
    (h : r.AppliesTo c) (s : Scorer P) :
    (s.rename r).logScores (c.rename r) = (s.logScores c : Table Tag W).map r.tag id := by
  cases s with
  | lexical s => exact s.lexicon.logScores_rename h s.restrict
  | trigram s => exact s.model.logScores_rename h s.weights s.restrict

end Scorer

end TrellisTagger
