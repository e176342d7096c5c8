import TrellisTagger.Proofs.Greedy.Walk
import TrellisTagger.Proofs.Training
import TrellisTagger.Proofs.Viterbi.Lattice

/-!
# Trained taggers always tag

A tagger that has learned from a sentence finds tags for all words, known or not. What could go
wrong is that the stop state is out of reach, or that greedy decoding comes to a state that nothing
follows. Neither happens where every context has a tag and the stop symbol is among the tags of the
contexts after the last word; greedy decoding also needs that nothing else is among them.

## Main definitions

* `TrellisTagger.OffersTags` — every context has a tag, and those after the last word have the stop
  symbol.
* `TrellisTagger.OffersOnlyStop` — those after the last word have no other.
* `TrellisTagger.Tagger.attemptAll` — a tagger after several trainings, some of which may fail.

## Main results

* `TrellisTagger.tagWords_viterbi_ok`, `TrellisTagger.tagWords_ok` — decoding succeeds under such
  scores.
* `TrellisTagger.Scorer.IsModelOf.offersTags`, `TrellisTagger.Scorer.IsModelOf.offersOnlyStop` —
  trained scorers have such scores.
* `TrellisTagger.Tagger.tag_ok` — trained taggers always tag.

## Design

The scores enter through the keys of their tables only, so nothing depends on how probabilities and
weights are computed: they may round, overflow, or fail to compare.
-/

namespace TrellisTagger

universe u v

/-! ### Scores that lead to the stop state -/

/-- Every context has a tag, and those of the stop symbol have the stop symbol. -/
structure OffersTags {W : Type u} (scores : Scores W) : Prop where
  /-- There is always a tag to go on with. -/
  keys_ne_nil : ∀ c, (scores c).keys ≠ []
  /-- After the last word one can stop. -/
  stop_mem : ∀ c, c.word = Boundary.stop → Boundary.stop ∈ (scores c).keys

/-- Every context has a tag, and those of the stop symbol have no tag but the stop symbol. -/
structure OffersOnlyStop {W : Type u} (scores : Scores W) : Prop where
  /-- There is always a tag to go on with. -/
  keys_ne_nil : ∀ c, (scores c).keys ≠ []
  /-- After the last word one must stop. -/
  eq_stop : ∀ c, c.word = Boundary.stop → ∀ tag ∈ (scores c).keys, tag = Boundary.stop

/-- Where one must stop after the last word, one can. -/
lemma OffersOnlyStop.offersTags {W : Type u} {scores : Scores W} (h : OffersOnlyStop scores) :
    OffersTags scores where
  keys_ne_nil := h.keys_ne_nil
  stop_mem c hc := by
    obtain ⟨tag, htag⟩ := List.exists_mem_of_ne_nil _ (h.keys_ne_nil c)
    rwa [h.eq_stop c hc tag htag] at htag

namespace SentenceTrellis

section Layers

variable {W : Type u} {scores : Scores W} {words : List Word}

/-- The positions after the last word have the stop symbol for their word. -/
lemma word_context_eq_stop {k : Nat} {s : State} (hs : s ∈ frontier scores words k)
    (hk : words.length ≤ k) : (s.context words).word = Boundary.stop := by
  rw [State.context, Context.word, position_of_mem_frontier hs]
  exact atPosition_eq_stop hk

/-- No layer is empty. -/
lemma exists_mem_frontier (h : ∀ c, (scores c).keys ≠ []) (words : List Word) (k : Nat) :
    ∃ s, s ∈ frontier scores words k := by
  induction k with
  | zero => exact ⟨State.start, start_mem_frontier⟩
  | succ k ih =>
    obtain ⟨s, hs⟩ := ih
    obtain ⟨tag, htag⟩ := List.exists_mem_of_ne_nil _ (h (s.context words))
    exact ⟨s.next tag, next_mem_frontier hs htag⟩

/-- The stop state lies in the last layer. -/
lemma stop_mem_frontier (h : OffersTags scores) :
    State.stop words.length ∈ frontier scores words (words.length + 2) := by
  obtain ⟨s, hs⟩ := exists_mem_frontier h.keys_ne_nil words words.length
  have hone := next_mem_frontier hs (h.stop_mem _ (word_context_eq_stop hs (Nat.le_refl _)))
  have htwo := next_mem_frontier hone (h.stop_mem _ (word_context_eq_stop hone (by omega)))
  have hstop : (s.next Boundary.stop).next Boundary.stop = State.stop words.length := by
    simp only [State.next, State.stop, position_of_mem_frontier hs]
    congr 1
  rwa [hstop] at htwo

/-- Where nothing but the stop symbol can follow the last word, only the stop state lies in the last
layer. -/
lemma eq_stop_of_mem_frontier (h : OffersOnlyStop scores) {s : State}
    (hs : s ∈ frontier scores words (words.length + 2)) : s = State.stop words.length := by
  rw [frontier_succ] at hs
  obtain ⟨q, hq, b, w, hb, rfl⟩ := mem_nextFrontier.1 hs
  have hstop := h.eq_stop _ (word_context_eq_stop hq (by omega)) b (Table.mem_keys_of_get? hb)
  rw [frontier_succ] at hq
  obtain ⟨p, hp, a, w', ha, rfl⟩ := mem_nextFrontier.1 hq
  have hstop' := h.eq_stop _ (word_context_eq_stop hp (Nat.le_refl _)) a (Table.mem_keys_of_get? ha)
  simp only [State.next, State.stop, position_of_mem_frontier hp, hstop, hstop']
  congr 1

end Layers

end SentenceTrellis

section Decoding

variable {W : Type u} [LogWeight W] {scores : Scores W}

open SentenceTrellis

/-- Viterbi decoding reaches the stop state. -/
lemma exists_viterbi_decode_eq_ok (h : OffersTags scores) (words : List Word) :
    ∃ path, Viterbi.decode (sentenceTrellis scores words) = .ok path := by
  rcases Viterbi.decode_cases (reachable_sentenceTrellis scores words).mirrored
    (start_sentenceTrellis scores words) (goal_sentenceTrellis scores words) with
      ⟨_, path, hpath, -⟩ | ⟨-, hnone⟩
  · exact ⟨path, hpath⟩
  · obtain ⟨path, hpath⟩ := exists_walk_of_mem_frontier (Nat.le_refl _) (stop_mem_frontier h)
    exact absurd hpath (hnone path)

/-- Greedy steps lead to no dead end before the last layer. -/
lemma next?_ne_none (h : ∀ c, (scores c).keys ≠ []) {words : List Word} {s : State}
    (hs : Expanded scores words s) : Greedy.next? (sentenceTrellis scores words) s ≠ none := by
  rw [Ne, Greedy.next?_eq_none_iff, entries_successors hs, List.map_eq_nil_iff]
  intro hentries
  refine h (s.context words) ?_
  rw [Table.keys, hentries, List.map_nil]

/-- Greedy steps never lead back: each takes the walk one position on. -/
lemma next?_not_mem {words : List Word} {s s' : State} {path : List State}
    (h : (sentenceTrellis scores words).Walk State.start s path)
    (hnext : Greedy.next? (sentenceTrellis scores words) s = some s') : s' ∉ path := by
  intro hmem
  obtain ⟨w, hw⟩ := Greedy.exists_weight?_of_next? hnext
  have hposition := position_of_weight? hw
  obtain ⟨back, hback, -⟩ := h.exists_suffix hmem
  have hlength := length_of_walk hback
  have hpos := hback.length_pos
  omega

/-- **Greedy decoding reaches the stop state** where nothing else can follow the last word.

**Proof sketch.** The walk does not come back to a state, because positions increase. A dead end
would lie in the last layer, which holds the stop state only. -/
lemma exists_greedy_decode_eq_ok (h : OffersOnlyStop scores) (words : List Word) :
    ∃ path, Greedy.decode (sentenceTrellis scores words) = .ok path := by
  rcases Greedy.decode_cases (reachable_sentenceTrellis scores words).mirrored
    (start_sentenceTrellis scores words) (goal_sentenceTrellis scores words) with
      ⟨path, -, hpath⟩ | ⟨s, path, hfollows, hs, ⟨hnone, -⟩ | ⟨again, hagain, hnext, -⟩⟩
  · exact ⟨path, hpath⟩
  · -- a dead end: the only layer without successors is the last
    obtain ⟨k, hk, hmem⟩ :=
      exists_mem_frontier_of_walk hfollows.walk ⟨0, by omega, start_mem_frontier⟩
    rcases Nat.lt_or_eq_of_le hk with hlt | rfl
    · exact absurd hnone (next?_ne_none h.keys_ne_nil ⟨k, hlt, hmem⟩)
    · exact absurd (eq_stop_of_mem_frontier h hmem) hs
  · exact absurd hagain (next?_not_mem hfollows.walk hnext)

/-- **Viterbi decoding finds tags for all words** where one can always go on, and can stop after the
last word. -/
theorem tagWords_viterbi_ok (h : OffersTags scores) (words : List Word) :
    ∃ tags, tagWords scores .viterbi words = .ok tags := by
  obtain ⟨path, hpath⟩ := exists_viterbi_decode_eq_ok h words
  exact ⟨innerTags path, by rw [tagWords, Decoder.decode, hpath, Except.map]⟩

/-- **Either decoder finds tags for all words** where one can always go on, and must stop after the
last word. -/
theorem tagWords_ok (h : OffersOnlyStop scores) (d : Decoder) (words : List Word) :
    ∃ tags, tagWords scores d words = .ok tags := by
  cases d with
  | greedy =>
    obtain ⟨path, hpath⟩ := exists_greedy_decode_eq_ok h words
    exact ⟨innerTags path, by rw [tagWords, Decoder.decode, hpath, Except.map]⟩
  | viterbi => exact tagWords_viterbi_ok h.offersTags words

end Decoding

/-! ### Trained scorers -/

section Scorers

variable {P : Type u} [Probability P] {W : Type v} [LogWeight W] [Logarithm P W]
variable {s : Scorer P} {sentences : List Sentence}

/-- Training on a sentence sees the stop symbol with itself for its tag. -/
lemma mem_wordTags_stop (hne : sentences ≠ []) :
    (Boundary.stop, Boundary.stop) ∈ wordTags (Tagger.contextsOf sentences) := by
  obtain ⟨s, hs⟩ := List.exists_mem_of_ne_nil _ hne
  exact mem_wordTags_contextsOf.2 ⟨s, hs, .inr rfl⟩

/-- The stop symbol is a known word, so its own tags tell of it. -/
lemma evidence_stop (hne : sentences ≠ []) :
    evidence (Tagger.contextsOf sentences) Boundary.stop =
      tagsWith (Tagger.contextsOf sentences) Boundary.stop :=
  if_pos (List.mem_map_of_mem (mem_wordTags_stop hne))

namespace Scorer

/-- Every context has a tag after training. -/
lemma IsModelOf.keys_logScores_ne_nil (h : s.IsModelOf (Tagger.contextsOf sentences))
    (hne : sentences ≠ []) (c : Context) : (s.logScores c : Table Tag W).keys ≠ [] := by
  refine Scorer.keys_logScores_ne_nil ?_
  rw [h.lexicon_eq]
  exact Lexicon.keys_row_ne_nil (contextsOf_ne_nil hne) c.word

/-- **Scores that leave no tag out lead to the stop state.** -/
theorem IsModelOf.offersTags (h : s.IsModelOf (Tagger.contextsOf sentences)) (hne : sentences ≠ [])
    (hs : ¬ s.OmitsTags) : OffersTags (s.logScores : Scores W) where
  keys_ne_nil := h.keys_logScores_ne_nil hne
  stop_mem c hc := by
    rw [keys_logScores hs, h.lexicon_eq, Lexicon.mem_keys_row, hc, evidence_stop hne]
    exact mem_tagsWith.2 (mem_wordTags_stop hne)

/-- **All scores lead to the stop state only, where training saw no other tag of the stop
symbol.** -/
theorem IsModelOf.offersOnlyStop (h : s.IsModelOf (Tagger.contextsOf sentences))
    (hne : sentences ≠ [])
    (hstop : ∀ s ∈ sentences, ∀ x ∈ s.words.zip s.tags,
      x.1 = Boundary.stop → x.2 = Boundary.stop) :
    OffersOnlyStop (s.logScores : Scores W) where
  keys_ne_nil := h.keys_logScores_ne_nil hne
  eq_stop c hc tag htag := by
    have hrow := keys_logScores_subset s c htag
    rw [h.lexicon_eq, Lexicon.mem_keys_row, hc, evidence_stop hne, mem_tagsWith] at hrow
    obtain ⟨s', hs', hmem | heq⟩ := mem_wordTags_contextsOf.1 hrow
    · exact hstop s' hs' _ hmem rfl
    · exact (Prod.mk.inj heq).2

end Scorer

end Scorers

/-! ### Configured taggers -/

section Configurations

variable {P : Type u} [Probability P] {c : Config P}

namespace Tagger

/-- Try to learn from several corpora, one after another. -/
def attemptAll (t : Tagger P) (corpora : List (List (List Word × List Tag))) : Tagger P :=
  { t with scorer := t.scorer.attemptAll corpora }

/-- **A trained tagger always tags.** Take a tagger of any configuration, and let the last of the
trainings that did not fail be on at least one sentence. If there the stop symbol has no tag but
itself, or else if decoding is by Viterbi and no tags are left out, then tags are found for all
words; and whatever is looked up to score them is there.

**Proof sketch.** Only the last training counts for the model, and its scores offer a tag in every
context and the stop symbol after the last word, since every sentence ends with the stop symbol. -/
theorem tag_ok {W : Type v} [LogWeight W] [Logarithm P W] {t : Tagger P}
    (hconfig : ofConfig c = .ok t) {corpora : List (List (List Word × List Tag))}
    {sentences : List Sentence} (hlast : (Scorer.wellFormed corpora).getLast? = some sentences)
    (hne : sentences ≠ [])
    (hstop : (∀ s ∈ sentences, ∀ x ∈ s.words.zip s.tags,
        x.1 = Boundary.stop → x.2 = Boundary.stop) ∨
      (c.decoderName = "viterbi" ∧ (c.scorerName = "trigram_hmm" ∨ c.restrict = false)))
    (words : List Word) :
    (∃ tags, (t.attemptAll corpora).tag words = .ok tags) ∧
      ∀ s : State, (t.attemptAll corpora).scorer.IsDefinedAt (s.context words) := by
  obtain ⟨hscorer, hdecoder⟩ := ofConfig_eq_ok_iff.1 hconfig
  have hmodel : (t.attemptAll corpora).scorer.IsModelOf (contextsOf sentences) := by
    rw [attemptAll, Scorer.attemptAll_eq]
    exact Scorer.isModelOf_trainAll (by rw [List.getLast?_map, hlast, Option.map_some])
  refine ⟨?_, fun s => hmodel.isDefinedAt _⟩
  rcases hstop with hstop | ⟨hviterbi, hsettings⟩
  -- with the proviso even restriction and greedy decoding can only stop
  · exact tagWords_ok (hmodel.offersOnlyStop hne hstop) _ words
  · have homits : ¬ (t.attemptAll corpora).scorer.OmitsTags := by
      rw [attemptAll, Scorer.attemptAll_eq, Scorer.omitsTags_trainAll, Scorer.omitsTags_iff hscorer]
      rintro ⟨hname, hrestrict⟩
      rcases hsettings with h | h
      · rw [hname] at h
        exact absurd h (by decide)
      · rw [hrestrict] at h
        cases h
    have htag := tagWords_viterbi_ok (W := W) (hmodel.offersTags hne homits) words
    rwa [← Config.decoder_eq_viterbi hdecoder hviterbi] at htag

/-- Tags are found for a word that was not seen, by greedy decoding under restriction, although the
last training failed. -/
theorem tag_ok_unseen :
    ∃ tags, (Tagger.attemptAll (P := Float) ⟨.lexical ⟨true, .empty⟩, .greedy⟩
      [[(["dogs", "bark"], ["NNS", "VBP"])], [(["cats"], [])]]).tag ["cats", "bark"] =
        .ok tags := by
  have hconfig : ofConfig (P := Float) ⟨"most_frequent", "greedy", true, ⟨0, 0⟩, false⟩ =
      .ok ⟨.lexical ⟨true, .empty⟩, .greedy⟩ := rfl
  have hlast :
      (Scorer.wellFormed [[(["dogs", "bark"], ["NNS", "VBP"])], [(["cats"], [])]]).getLast? =
      some [⟨["dogs", "bark"], ["NNS", "VBP"], rfl⟩] := rfl
  exact (tag_ok hconfig hlast (List.cons_ne_nil _ _) (.inl (by decide)) ["cats", "bark"]).1

end Tagger

end Configurations

end TrellisTagger
