import Mathlib.Logic.Equiv.Basic
import TrellisTagger.Proofs.Renaming.Decoding
import TrellisTagger.Proofs.Renaming.Scorer

/-!
# Tagging under renaming

How tags and words are spelled makes no difference to a tagger. If the sentences that it learns from
and the words that it tags are given new names, the tags found are the old ones under their new
names, or no tags are found for the same reason. The scores of contexts are the same numbers in the
same order. The start symbol may get a new name as a word: only contexts before a sentence tell the
difference.

## Main definitions

* `TrellisTagger.State.rename`, `TrellisTagger.Renaming.state` — the new names of states.

## Main results

* `TrellisTagger.sentenceTrellis_rename` — the trellis of renamed words.
* `TrellisTagger.tagWords_rename` — the tags found for renamed words.
* `TrellisTagger.Tagger.tag_rename` — learning and tagging under new names.
* `TrellisTagger.Tagger.not_forall_logScores_rename` — a context before the sentence, where the
  start symbol has a new name.
-/

namespace TrellisTagger

universe u v

variable {r : Renaming}

/-! ### States and paths -/

namespace State

/-- A state under new names. -/
def rename (r : Renaming) (s : State) : State :=
  ⟨r.tag s.beforePrevious, r.tag s.previous, s.position⟩

/-- States with different histories or positions have different names. -/
lemma rename_injective (r : Renaming) : Function.Injective (rename r) := by
  rintro ⟨a, b, i⟩ ⟨a', b', i'⟩ h
  simp only [rename, State.mk.injEq, r.tag.injective.eq_iff] at h
  obtain ⟨rfl, rfl, rfl⟩ := h
  rfl

/-- The start state keeps its name. -/
lemma rename_start (r : Renaming) : start.rename r = start := by
  simp only [rename, start, r.tag_start]

/-- The stop state keeps its name. -/
lemma rename_stop (r : Renaming) (n : Int) : (stop n).rename r = stop n := by
  simp only [rename, stop, r.tag_stop]

end State

/-- The new names of states. -/
def Renaming.state (r : Renaming) : State ↪ State := ⟨State.rename r, State.rename_injective r⟩

/-- The tags along renamed states are the renamed tags. -/
lemma State.tags_rename (r : Renaming) (path : List State) :
    State.tags (path.map r.state) = (State.tags path).map r.tag := by
  cases path with
  | nil => rfl
  | cons s path =>
    simp only [List.map_cons, State.tags, List.map_map]
    rfl

/-- The tags of the words along renamed states are the renamed tags. -/
lemma innerTags_rename (r : Renaming) (path : List State) :
    innerTags (path.map r.state) = (innerTags path).map r.tag := by
  simp only [innerTags, State.tags_rename, ← List.map_drop, ← List.map_dropLast]

/-! ### The trellis of a sentence -/

section Trellises

variable {W : Type u} {scores scores' : Scores W}

namespace SentenceTrellis

/-- The transitions out of a renamed state are the renamed transitions, if the scores are
renamed. -/
lemma steps_rename (h : ∀ c, r.AppliesTo c → scores' (c.rename r) = (scores c).map r.tag id)
    {s : State} (hs : 0 ≤ s.position) (words : List Word) :
    steps scores' (words.map r.word) (r.state s) =
      (steps scores words s).map (Prod.map r.state (Prod.map r.state id)) := by
  have hscores : scores' ((r.state s).context (words.map r.word)) =
      (scores (s.context words)).map r.tag id := h (s.context words) (.inl hs)
  rw [steps, hscores, Table.entries_map, List.map_map, steps, List.map_map]
  rfl

/-- The transitions out of a renamed layer are the renamed transitions, if the scores are
renamed. -/
lemma layer_rename (h : ∀ c, r.AppliesTo c → scores' (c.rename r) = (scores c).map r.tag id)
    {frontier : List State} (hs : ∀ s ∈ frontier, 0 ≤ s.position) (words : List Word) :
    layer scores' (words.map r.word) (frontier.map r.state) =
      (layer scores words frontier).map (Prod.map r.state (Prod.map r.state id)) := by
  rw [layer, layer, List.flatMap_map, List.map_flatMap]
  exact List.flatMap_congr fun s hmem => steps_rename h (hs s hmem) words

/-- No transition leads before the sentence. -/
lemma position_nonneg_of_mem_layer {words : List Word} {frontier : List State}
    (hs : ∀ s ∈ frontier, 0 ≤ s.position) {e : State × State × W}
    (he : e ∈ layer scores words frontier) : 0 ≤ e.2.1.position := by
  obtain ⟨s, hmem, he⟩ := List.mem_flatMap.1 he
  obtain ⟨⟨tag, w⟩, -, rfl⟩ := List.mem_map.1 he
  have hposition := hs s hmem
  simp only [State.next]
  omega

/-- The transitions of the renamed words, layer by layer. -/
lemma edges_rename (h : ∀ c, r.AppliesTo c → scores' (c.rename r) = (scores c).map r.tag id)
    (words : List Word) (n : Nat) {frontier : List State} (hs : ∀ s ∈ frontier, 0 ≤ s.position) :
    edges scores' (words.map r.word) n (frontier.map r.state) =
      (edges scores words n frontier).map (Prod.map r.state (Prod.map r.state id)) := by
  induction n generalizing frontier with
  | zero => rfl
  | succ n ih =>
    have hnext :
        distinct ((layer scores' (words.map r.word) (frontier.map r.state)).map fun e => e.2.1) =
        (distinct ((layer scores words frontier).map fun e => e.2.1)).map r.state := by
      rw [layer_rename h hs, ← distinct_map, List.map_map, List.map_map]
      rfl
    have hposition : ∀ s ∈ distinct ((layer scores words frontier).map fun e => e.2.1),
        0 ≤ s.position := by
      intro s hmem
      obtain ⟨e, he, rfl⟩ := List.mem_map.1 (mem_distinct.1 hmem)
      exact position_nonneg_of_mem_layer hs he
    rw [edges, edges, hnext, ih hposition, layer_rename h hs, List.map_append]

end SentenceTrellis

/-- **The trellis of renamed words** is the trellis of the words under the new names, if scores are
renamed like contexts. -/
theorem sentenceTrellis_rename
    (h : ∀ c, r.AppliesTo c → scores' (c.rename r) = (scores c).map r.tag id) (words : List Word) :
    sentenceTrellis scores' (words.map r.word) = (sentenceTrellis scores words).map r.state := by
  have hedges : SentenceTrellis.edges scores' (words.map r.word) (words.length + 2) [State.start] =
      (SentenceTrellis.edges scores words (words.length + 2) [State.start]).map
        (Prod.map r.state (Prod.map r.state id)) := by
    rw [← SentenceTrellis.edges_rename h words _ (by simp [State.start])]
    exact congrArg (fun s => SentenceTrellis.edges _ _ _ [s]) (State.rename_start r).symm
  have hendpoints : (Trellis.ofEndpoints (some State.start) (some (State.stop words.length)) :
        Trellis State W) =
      (Trellis.ofEndpoints (some State.start) (some (State.stop words.length))).map r.state := by
    simp only [Trellis.ofEndpoints, Trellis.map, Option.map_some, Table.map_empty]
    exact congrArg₂ (fun a b => Trellis.mk (some a) (some b) ∅ ∅) (State.rename_start r).symm
      (State.rename_stop r _).symm
  rw [sentenceTrellis, List.length_map, hedges, hendpoints, Trellis.setAll_map, sentenceTrellis]

/-- **The tags found for renamed words** are the tags found for the words, under their new names, or
none are found for the same reason. -/
theorem tagWords_rename [LogWeight W]
    (h : ∀ c, r.AppliesTo c → scores' (c.rename r) = (scores c).map r.tag id) (d : Decoder)
    (words : List Word) :
    tagWords scores' d (words.map r.word) =
      ((tagWords scores d words).map (List.map r.tag)).mapError (DecodeFailure.map r.state) := by
  rw [tagWords, sentenceTrellis_rename h, Decoder.decode_map, tagWords]
  cases d.decode (sentenceTrellis scores words) with
  | error e => rfl
  | ok path => exact congrArg Except.ok (innerTags_rename r path)

end Trellises

/-! ### Taggers -/

namespace Tagger

/-- **How tags and words are spelled makes no difference.** Take a tagger of any configuration and
new names for tags and words. Then learning from the renamed sentences has the same results as
learning from the sentences, under the new names:

* the tags found for renamed words are those found for the words, renamed, or decoding fails in the
  same way, at the renamed states;
* the scores of a renamed context are those of the context, with renamed tags in the same order, if
  its position is not before the sentence or if the start symbol keeps its name as a word.

**Proof sketch.** Counting, choosing and looking up go by equality of names and by order of first
occurrence, and new names respect both. So the model, the trellis and each step of a decoder are
those of the old names, renamed. The positions of a trellis are never before the sentence. -/
theorem tag_rename {P : Type u} [Probability P] {W : Type v} [LogWeight W] [Logarithm P W]
    {c : Config P} {t : Tagger P} (hconfig : ofConfig c = .ok t) (r : Renaming)
    (sentences : List Sentence) :
    (∀ words, (t.train (sentences.map (Sentence.rename r))).tag (words.map r.word) =
        (((t.train sentences).tag words).map (List.map r.tag)).mapError
          (DecodeFailure.map r.state)) ∧
      ∀ context : Context, 0 ≤ context.position ∨ r.word Boundary.start = Boundary.start →
        (t.train (sentences.map (Sentence.rename r))).scorer.logScores (context.rename r) =
          ((t.train sentences).scorer.logScores context : Table Tag W).map r.tag id := by
  have htrained : (t.train (sentences.map (Sentence.rename r))).scorer =
      ((t.train sentences).scorer).rename r := by
    have hscorer : t.scorer.rename r = t.scorer :=
      Scorer.rename_of_config (ofConfig_eq_ok_iff.1 hconfig).1
    rw [train, contextsOf_rename, train, ← Scorer.train_rename
      (fun _ hc => appliesTo_of_mem_contextsOf r hc), hscorer]
  have hscores : ∀ context, r.AppliesTo context →
      (t.train (sentences.map (Sentence.rename r))).scorer.logScores (context.rename r) =
        ((t.train sentences).scorer.logScores context : Table Tag W).map r.tag id := by
    intro context hcontext
    rw [htrained]
    exact Scorer.logScores_rename hcontext _
  exact ⟨fun words => tagWords_rename hscores t.decoder words, hscores⟩

/-- Tags and words that change their names with each other. The start symbol is one of the words. -/
def exchange : Renaming where
  tag := (Equiv.swap "NNS" "VBP").toEmbedding
  word := (Equiv.swap Boundary.start "dogs").toEmbedding
  tag_start := by decide
  tag_stop := by decide
  word_stop := by decide

/-- From "dogs" as a plural noun learned and found comes "<S>" as a verb learned and found. -/
theorem tag_rename_exchange :
    ofConfig (P := Float) ⟨"most_frequent", "viterbi", true, ⟨0, 0⟩, false⟩ =
        .ok ⟨.lexical ⟨true, .empty⟩, .viterbi⟩ ∧
      (train ⟨.lexical ⟨true, .empty⟩, .viterbi⟩ [⟨["<S>"], ["VBP"], rfl⟩] : Tagger Float).tag
        ["<S>", "bark"] = .ok ["VBP", Boundary.stop] ∧
      (0 : Int) ≤ 0 ∧
      ((train ⟨.lexical ⟨true, .empty⟩, .viterbi⟩
        [⟨["<S>"], ["VBP"], rfl⟩] : Tagger Float).scorer.logScores
        ⟨["<S>"], 0, Boundary.start, Boundary.start⟩).keys = ["VBP"] := by
  have hconfig : ofConfig (P := Float) ⟨"most_frequent", "viterbi", true, ⟨0, 0⟩, false⟩ =
      .ok ⟨.lexical ⟨true, .empty⟩, .viterbi⟩ := rfl
  obtain ⟨htags, hscores⟩ := tag_rename hconfig exchange [⟨["dogs"], ["NNS"], rfl⟩]
  refine ⟨hconfig, htags ["dogs", "bark"], Int.le_refl 0, ?_⟩
  exact congrArg Table.keys (hscores ⟨["dogs"], 0, Boundary.start, Boundary.start⟩
    (.inl (by decide)))

/-- **Before a sentence the scores depend on the name of the start symbol as a word.** The word
there is the start symbol under any names, and training knows it or does not. -/
theorem not_forall_logScores_rename :
    ¬ ∀ (c : Config Float) (t : Tagger Float), ofConfig c = .ok t →
        ∀ (r : Renaming) (sentences : List Sentence),
          (∀ words, (t.train (sentences.map (Sentence.rename r))).tag (words.map r.word) =
              (((t.train sentences).tag words).map (List.map r.tag)).mapError
                (DecodeFailure.map r.state)) ∧
            ∀ context : Context,
              (t.train (sentences.map (Sentence.rename r))).scorer.logScores (context.rename r) =
                ((t.train sentences).scorer.logScores context).map r.tag id := by
  intro h
  have hconfig : ofConfig (P := Float) ⟨"most_frequent", "viterbi", false, ⟨0, 0⟩, false⟩ =
      .ok ⟨.lexical ⟨false, .empty⟩, .viterbi⟩ := rfl
  have hscores := (h _ _ hconfig exchange [⟨["<S>"], ["X"], rfl⟩]).2
    ⟨["<S>"], -1, Boundary.start, Boundary.start⟩
  -- the start symbol is known from training, and after renaming it is not
  have hkeys : [("X" : Tag), Boundary.stop] = ["X"] := congrArg Table.keys hscores
  exact absurd hkeys (by decide)

end Tagger

end TrellisTagger
