import TrellisTagger.Proofs.Consistency
import TrellisTagger.Proofs.SentenceTrellis.WordWise
import TrellisTagger.Proofs.Tagging.Shape
import TrellisTagger.Proofs.Tagging.Totality
import TrellisTagger.Proofs.Viterbi.Optimality

/-!
# The most frequent tag of each word

Without restriction the scorer of word frequencies looks at the word only. Then both decoders find
the same tags: for each word the most frequent one and, where several are most frequent, the first
of them in the row of the word. Greedy decoding settles a tie when it leaves a state, among the
successors. Viterbi decoding settles it among the predecessors of a state two positions later.

## Main definitions

* `TrellisTagger.Table.IsFavourite` — a key is the first of those with the greatest value.

## Main results

* `TrellisTagger.isFavourite_of_greedy` — greedy decoding gives each word the favourite of the
  scores.
* `TrellisTagger.isFavourite_of_viterbi` — so does Viterbi decoding, if they depend on the word
  only.
* `TrellisTagger.exists_tagWords_wordWise` — hence either decoder finds the favourites of the words.
* `TrellisTagger.Tagger.decoders_agree` — trained taggers find the first of the most frequent tags.

## Design

Successors and predecessors stand in the order of a row (`SentenceTrellis.entries_successors`,
`SentenceTrellis.entries_predecessors_wordWise`). What the decoders compare differs, but not how the
comparisons come out, and `IsFirstMax` depends on nothing else.
-/

namespace TrellisTagger

universe u

open SentenceTrellis

/-! ### Favourites -/

section Favourites

variable {K V V' : Type*} [LT V] [LT V'] {t : Table K V}

/-- A key is the favourite of a table if it is the first of those with the greatest value. -/
def Table.IsFavourite (t : Table K V) (k : K) : Prop := ∃ v, IsFirstMax Prod.snd t.entries (k, v)

/-- A table has at most one favourite. -/
lemma Table.IsFavourite.unique [DecidableLT V] {k k' : K} (h : t.IsFavourite k)
    (h' : t.IsFavourite k') : k = k' := by
  obtain ⟨v, hv⟩ := h
  obtain ⟨v', hv'⟩ := h'
  exact congrArg Prod.fst (hv.unique hv')

/-- Values that compare in the same way have the same favourite. -/
lemma Table.IsFavourite.of_mapValues {f : V → V'} {k : K}
    (h : (t.mapValues fun _ => f).IsFavourite k)
    (hf : ∀ v ∈ t.values, ∀ v' ∈ t.values, f v < f v' ↔ v < v') : t.IsFavourite k := by
  obtain ⟨w, hw⟩ := h
  obtain ⟨⟨k, v⟩, heq, hbest⟩ := hw.exists_of_map
  obtain ⟨rfl, rfl⟩ := Prod.mk.inj heq
  refine ⟨v, hbest.of_lt_iff fun e he e' he' => ?_⟩
  exact hf e.2 (List.mem_map_of_mem he) e'.2 (List.mem_map_of_mem he')

end Favourites

/-! ### Greedy decoding -/

section Greedy

variable {W : Type u} [LogWeight W] [OrderedWeight W] {scores : Scores W}

/-- A greedy step chooses the first of the greatest scores. -/
lemma isFirstMax_of_next? {words : List Word} {s s' : State}
    (h : Greedy.next? (sentenceTrellis scores words) s = some s') :
    ∃ e, s.next e.1 = s' ∧ IsFirstMax Prod.snd (scores (s.context words)).entries e := by
  obtain ⟨w, hw⟩ := Greedy.exists_weight?_of_next? h
  obtain ⟨best, hbest, rfl⟩ := Option.map_eq_some_iff.1 h
  rw [entries_successors (expanded_of_weight? hw)] at hbest
  obtain ⟨e, rfl, he⟩ := (isFirstMax_of_firstMax? hbest).exists_of_map
  exact ⟨e, rfl, he⟩

/-- **Greedy decoding gives each word the first of its best tags**, after the tags given before,
whatever the scores depend on. -/
lemma isFavourite_of_greedy {s : Sentence} {i : Nat} (hi : i < s.tags.length)
    (h : Greedy.decode (sentenceTrellis scores s.words) = .ok (taggingPath s.tags)) :
    (scores ((s.stateAt i).context s.words)).IsFavourite (atPosition s.tags i) := by
  have hfollows := Greedy.follows_of_decode (reachable_sentenceTrellis _ _).mirrored
    (start_sentenceTrellis _ _) (goal_sentenceTrellis _ _) h
  have hhere := s.getElem?_taggingPath (k := i) (by omega)
  have hthere := s.getElem?_taggingPath (k := i + 1) (by omega)
  obtain ⟨e, he, hbest⟩ := isFirstMax_of_next? (hfollows.next?_eq hhere hthere)
  rw [Nat.cast_succ, ← s.next_stateAt i] at he
  rw [← (s.stateAt i).next_injective he]
  exact ⟨e.2, hbest⟩

end Greedy

/-! ### Viterbi decoding -/

section Viterbi

variable {W : Type u} [LogWeight W] [CancellativeWeight W] {rows : Word → Table Tag W}

/-- The first best predecessor has the first of the best tags, two positions before the state that
is entered from it.

**Proof sketch.** The predecessors stand in the order of the tags of the older word. Which of two is
better is decided by the heaviest walks to them, and so by the scores of these tags. -/
lemma isFavourite_of_isFirstBest (hrows : ∀ word, (rows word).keys ≠ [])
    (hpossible : ∀ word, impossible ∉ (rows word).values) {words : List Word} {k : Nat}
    (hk : k < words.length) {a b c : Tag}
    (h : Viterbi.IsFirstBest (sentenceTrellis (wordWise rows) words) State.start (k + 2)
      ⟨a, b, (k + 2 : Nat)⟩ ⟨b, c, (k + 3 : Nat)⟩) :
    (rows (atPosition words k)).IsFavourite a := by
  obtain ⟨path, hpath, -⟩ := h.reaches
  obtain ⟨-, -, -, -, hb, -⟩ := (walk_wordWise_iff hk.le).1 hpath
  -- the transition scores the newest tag, whichever predecessor it comes from
  obtain ⟨w, hweight⟩ := h.exists_weight? (reachable_sentenceTrellis _ words).mirrored
  obtain ⟨-, tag, hw, hs⟩ := weight?_eq_some_iff.1 hweight
  obtain rfl : c = tag := congrArg State.previous hs
  have hne : w ≠ impossible := fun himpossible =>
    hpossible _ (Table.mem_values_iff.2 ⟨c, himpossible ▸ hw⟩)
  have hpredecessors := entries_predecessors_wordWise hrows hk hb hw
  obtain ⟨greatest, hgreatest, w', hfirst⟩ := h.isFirstMax <| by
    rw [hpredecessors]
    exact List.forall_mem_map.2 fun e he =>
      reaches_exchanged hpossible hk.le h.reaches (Table.mem_keys_of_mem he)
  rw [hpredecessors] at hgreatest hfirst
  obtain ⟨e, he, hbest⟩ := hfirst.exists_of_map
  obtain rfl : e.1 = a := congrArg (fun e => e.1.beforePrevious) he
  refine ⟨e.2, hbest.of_lt_iff fun d hd d' hd' => ?_⟩
  have hheaviest := List.forall_mem_map.1 hgreatest
  have hscore : ∀ e ∈ (rows (atPosition words k)).entries, scoreAt rows words k e.1 = e.2 :=
    fun e he => Table.getD_of_get? (Table.get?_eq_some_iff.2 he) _
  rw [← hscore d hd, ← hscore d' hd',
    ← heaviest_lt_iff hpossible hk.le (hheaviest d hd) (hheaviest d' hd')]
  exact CancellativeWeight.add_lt_add_iff_right hne

/-- **Viterbi decoding gives each word the first of its best tags**, under scores that look at the
word only. -/
lemma isFavourite_of_viterbi (hrows : ∀ word, (rows word).keys ≠ [])
    (hpossible : ∀ word, impossible ∉ (rows word).values) {s : Sentence} {i : Nat}
    (hi : i < s.tags.length)
    (h : Viterbi.decode (sentenceTrellis (wordWise rows) s.words) = .ok (taggingPath s.tags)) :
    (rows (atPosition s.words i)).IsFavourite (atPosition s.tags i) := by
  have hwords : i < s.words.length := by rwa [s.length_eq]
  have hhere := s.getElem?_taggingPath (k := i + 2) (by omega)
  have hthere := s.getElem?_taggingPath (k := i + 1 + 2) (by omega)
  rw [s.stateAt_add_two] at hhere hthere
  exact isFavourite_of_isFirstBest hrows hpossible hwords <|
    Viterbi.isFirstBest_of_decode (reachable_sentenceTrellis _ _).mirrored
      (start_sentenceTrellis _ _) (goal_sentenceTrellis _ _) h hhere hthere

end Viterbi

/-! ### Both decoders -/

section Both

variable {W : Type u} [LogWeight W] [CancellativeWeight W] {rows : Word → Table Tag W}

/-- **Either decoder finds the favourite tag of each word**, under scores that look at the word only
and lead to the stop state. -/
theorem exists_tagWords_wordWise (hstop : OffersOnlyStop (wordWise rows))
    (hpossible : ∀ word, impossible ∉ (rows word).values) (d : Decoder) (words : List Word) :
    ∃ tags, tagWords (wordWise rows) d words = .ok tags ∧
      List.Forall₂ (fun word tag => (rows word).IsFavourite tag) words tags := by
  obtain ⟨tags, htags⟩ := tagWords_ok hstop d words
  obtain ⟨hlen, -, hdecode⟩ := decode_of_tagWords htags
  refine ⟨tags, htags, List.forall₂_iff_get.2 ⟨hlen, fun i hi hi' => ?_⟩⟩
  let s : Sentence := ⟨words, tags, hlen⟩
  have hrows : ∀ word, (rows word).keys ≠ [] := fun word =>
    hstop.keys_ne_nil ⟨[word], 0, Boundary.start, Boundary.start⟩
  have hbest : (rows (atPosition s.words i)).IsFavourite (atPosition s.tags i) := by
    cases d with
    | greedy => exact isFavourite_of_greedy (s := s) hi' hdecode
    | viterbi => exact isFavourite_of_viterbi (s := s) hrows hpossible hi' hdecode
  rwa [atPosition_eq_getElem hi, atPosition_eq_getElem hi'] at hbest

end Both

/-! ### Trained taggers -/

section Trained

variable {W : Type u} [LogWeight W] [CancellativeWeight W]
variable [Logarithm Exact W] [IncreasingLogarithm W]

/-- The frequencies in a row are positive. -/
lemma Lexicon.row_pos {contexts : List LabelledContext} {word : Word} :
    ∀ p ∈ ((ofContexts contexts : Lexicon Exact).row word).values, 0 < p.value := by
  rw [row_ofContexts]
  exact (isDistribution_relativeFrequencies _).pos

/-- The logarithms of the frequencies in the rows of a lexicon. -/
def Lexicon.logRow (m : Lexicon Exact) (word : Word) : Table Tag W :=
  (m.row word).mapValues fun _ => Logarithm.log

/-- **Either decoder finds the favourite tag of each word** after training without restriction.

**Proof sketch.** The scores look at the word only, and are logarithms of positive numbers. So a
score is possible, and scores compare like the frequencies in the row. -/
lemma exists_tagWords_unrestricted {sentences : List Sentence} (hne : sentences ≠ [])
    (hstop : ∀ s ∈ sentences, ∀ x ∈ s.words.zip s.tags, x.1 = Boundary.stop → x.2 = Boundary.stop)
    (d : Decoder) (words : List Word) :
    let lexicon : Lexicon Exact := .ofContexts (Tagger.contextsOf sentences)
    ∃ tags, tagWords (W := W) (Scorer.lexical ⟨false, lexicon⟩).logScores d words = .ok tags ∧
      List.Forall₂ (fun word tag => (lexicon.row word).IsFavourite tag) words tags := by
  intro lexicon
  have hscores : (Scorer.lexical ⟨false, lexicon⟩).logScores =
      wordWise (W := W) lexicon.logRow := rfl
  have hmodel : (Scorer.lexical ⟨false, lexicon⟩).IsModelOf (Tagger.contextsOf sentences) := rfl
  have hoffers := hmodel.offersOnlyStop (W := W) hne hstop
  rw [hscores] at hoffers ⊢
  have hpossible : ∀ word, (impossible : W) ∉ (lexicon.logRow word).values := by
    intro word himpossible
    obtain ⟨tag, htag⟩ := Table.mem_values_iff.1 himpossible
    rw [Lexicon.logRow, Table.get?_mapValues, Option.map_eq_some_iff] at htag
    obtain ⟨p, hp, hlog⟩ := htag
    exact IncreasingLogarithm.log_ne_impossible
      (Lexicon.row_pos p (Table.mem_values_iff.2 ⟨tag, hp⟩)) hlog
  obtain ⟨tags, htags, hbest⟩ := exists_tagWords_wordWise hoffers hpossible d words
  refine ⟨tags, htags, hbest.imp fun word tag h => h.of_mapValues fun p hp q hq => ?_⟩
  exact log_lt_log_iff (Lexicon.row_pos p hp) (Lexicon.row_pos q hq)

namespace Tagger

/-- The scorer of word frequencies has the rows of the last training. -/
lemma scorer_attemptAll_lexical {c : Config Exact} {t : Tagger Exact} (h : ofConfig c = .ok t)
    (hname : c.scorerName = "most_frequent") {corpora : List (List (List Word × List Tag))}
    {sentences : List Sentence} (hlast : (Scorer.wellFormed corpora).getLast? = some sentences) :
    (t.attemptAll corpora).scorer = .lexical ⟨c.restrict, .ofContexts (contextsOf sentences)⟩ := by
  have hscorer := (ofConfig_eq_ok_iff.1 h).1
  rw [Config.scorer_eq_ok_lexical hname] at hscorer
  rw [attemptAll, ← Except.ok.inj hscorer, Scorer.attemptAll_eq, Scorer.trainAll_lexical,
    List.getLast?_map, hlast]
  rfl

/-- **The two decoders agree on the baseline.** In exact arithmetic, for any strictly increasing
logarithm, take the scorer of word frequencies without restriction, and let the last of its
trainings that did not fail be on at least one sentence. If there the stop symbol has no tag but
itself, then greedy decoding and Viterbi decoding find the same tags for all words. The tag of each
word is the first, in the order of its row, of those with the greatest frequency.

**Proof sketch.** Either decoder finds the favourite tag of each word
(`exists_tagWords_unrestricted`), and a row has only one favourite. -/
theorem decoders_agree {c : Config Exact} (hname : c.scorerName = "most_frequent")
    (hrestrict : c.restrict = false) {greedy viterbi : Tagger Exact}
    (hgreedy : ofConfig { c with decoderName := "greedy" } = .ok greedy)
    (hviterbi : ofConfig { c with decoderName := "viterbi" } = .ok viterbi)
    {corpora : List (List (List Word × List Tag))} {sentences : List Sentence}
    (hlast : (Scorer.wellFormed corpora).getLast? = some sentences) (hne : sentences ≠ [])
    (hstop : ∀ s ∈ sentences, ∀ x ∈ s.words.zip s.tags, x.1 = Boundary.stop → x.2 = Boundary.stop)
    (words : List Word) :
    ∃ tags, (greedy.attemptAll corpora).tag (W := W) words = .ok tags ∧
      (viterbi.attemptAll corpora).tag (W := W) words = .ok tags ∧
      List.Forall₂
        (fun word tag => ((viterbi.attemptAll corpora).scorer.lexicon.row word).IsFavourite tag)
        words tags := by
  have hsame := scorer_attemptAll_lexical hgreedy hname hlast
  have hsame' := scorer_attemptAll_lexical hviterbi hname hlast
  simp only [hrestrict] at hsame hsame'
  obtain ⟨tags, htags, hbest⟩ := exists_tagWords_unrestricted (W := W) hne hstop
    (greedy.attemptAll corpora).decoder words
  obtain ⟨tags', htags', hbest'⟩ := exists_tagWords_unrestricted (W := W) hne hstop
    (viterbi.attemptAll corpora).decoder words
  obtain rfl : tags = tags' :=
    List.right_unique_forall₂' (fun _ _ _ h h' => h.unique h') hbest hbest'
  refine ⟨tags, ?_, ?_, ?_⟩
  · rwa [tag, hsame]
  · rwa [tag, hsame']
  · rwa [hsame']

end Tagger

end Trained

/-- Two tags of a word tie, and three tags of an unseen word. Both decoders find the one that was
counted first. -/
theorem Tagger.decoders_agree_tied :
    (attemptAll (P := Exact) ⟨.lexical ⟨false, .empty⟩, .greedy⟩
        [[(["run", "run", "dogs"], ["VB", "NN", "NNS"])]]).tag (W := WithBot ℝ) ["run", "zebra"] =
      .ok ["VB", "VB"] ∧
    (attemptAll (P := Exact) ⟨.lexical ⟨false, .empty⟩, .viterbi⟩
        [[(["run", "run", "dogs"], ["VB", "NN", "NNS"])]]).tag (W := WithBot ℝ) ["run", "zebra"] =
      .ok ["VB", "VB"] := by
  let c : Config Exact := ⟨"most_frequent", "viterbi", false, ⟨0, 0⟩, true⟩
  have hgreedy : ofConfig { c with decoderName := "greedy" } =
      .ok ⟨.lexical ⟨false, .empty⟩, .greedy⟩ := rfl
  have hviterbi : ofConfig { c with decoderName := "viterbi" } =
      .ok ⟨.lexical ⟨false, .empty⟩, .viterbi⟩ := rfl
  have hlast : (Scorer.wellFormed [[(["run", "run", "dogs"], ["VB", "NN", "NNS"])]]).getLast? =
      some [⟨["run", "run", "dogs"], ["VB", "NN", "NNS"], rfl⟩] := rfl
  obtain ⟨tags, htags, htags', hbest⟩ :=
    decoders_agree (W := WithBot ℝ) rfl rfl hgreedy hviterbi hlast
    (List.cons_ne_nil _ _) (by decide) ["run", "zebra"]
  have hfirst : tags = ["VB", "VB"] := by
    refine List.right_unique_forall₂' (fun _ _ _ h h' => h.unique h') hbest
      (.cons ?_ (.cons ?_ .nil))
    · exact ⟨ratio 1 2, [], [("NN", ratio 1 2)], rfl, by decide, by decide +kernel⟩
    · exact ⟨ratio 1 3, [], [("NNS", ratio 1 3), (Boundary.stop, ratio 1 3)], rfl, by decide,
        by decide +kernel⟩
  rw [← hfirst]
  exact ⟨htags, htags'⟩

end TrellisTagger
