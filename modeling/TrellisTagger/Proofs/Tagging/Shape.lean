import TrellisTagger.Evaluation
import TrellisTagger.Proofs.Greedy.Walk
import TrellisTagger.Proofs.SentenceTrellis.Taggings
import TrellisTagger.Proofs.Viterbi.Lattice

/-!
# The shape of a tagging

Whatever the scores are and whichever decoder is used, the tags found for a sequence of words are as
many as the words, and each of them is scored in the context that the tags before it make up.

## Main results

* `TrellisTagger.Decoder.walk_of_decode` — what a decoder returns is a walk from start to goal.
* `TrellisTagger.isSupported_of_tagWords` — the tags found are a supported tagging of the words.
* `TrellisTagger.tagWords_shape` — their number, the contexts in which they are scored, and what
  evaluations make of them.

## Design

Both decoders are sound, so everything about the tags follows from the walks of the trellis being
the supported taggings. Only the last theorem counts positions.
-/

namespace TrellisTagger

universe u v

variable {W : Type u} [LogWeight W]

/-! ### Sound decoders -/

/-- **What a decoder returns is a walk from the start to the goal**, whatever the weights are. -/
theorem Decoder.walk_of_decode {S : Type v} [DecidableEq S] {t : Trellis S W} (ht : t.Mirrored)
    {start goal : S} (hstart : t.start = some start) (hgoal : t.goal = some goal) (d : Decoder)
    {path : List S} (h : d.decode t = .ok path) : t.Walk start goal path := by
  cases d with
  | greedy =>
    rw [Decoder.decode] at h
    exact (Greedy.follows_of_decode ht hstart hgoal h).walk
  | viterbi =>
    rw [Decoder.decode] at h
    rcases Viterbi.decode_cases ht hstart hgoal with ⟨n, found, hfound, htraced, -⟩ | ⟨herr, -⟩
    · obtain rfl := Except.ok.inj (h.symm.trans hfound)
      exact htraced.walk ht
    · rw [herr] at h
      cases h

/-- The tags found are a supported tagging of the words, whose path is what the decoder returns. -/
lemma decode_of_tagWords {scores : Scores W} {d : Decoder} {words : List Word} {tags : List Tag}
    (h : tagWords scores d words = .ok tags) :
    ∃ hlen : words.length = tags.length, IsSupported scores ⟨words, tags, hlen⟩ ∧
      d.decode (sentenceTrellis scores words) = .ok (taggingPath tags) := by
  rw [tagWords] at h
  cases hdecode : d.decode (sentenceTrellis scores words) with
  | error e =>
    rw [hdecode] at h
    cases h
  | ok path =>
    have hwalk := d.walk_of_decode (reachable_sentenceTrellis scores words).mirrored
      (start_sentenceTrellis scores words) (goal_sentenceTrellis scores words) hdecode
    obtain ⟨s, rfl, hs, rfl⟩ := SentenceTrellis.walk_iff.1 hwalk
    rw [hdecode, Except.map, innerTags_taggingPath] at h
    obtain rfl := Except.ok.inj h
    exact ⟨s.length_eq, hs, rfl⟩

/-- **The tags found are a supported tagging of the words.** -/
theorem isSupported_of_tagWords {scores : Scores W} {d : Decoder} {words : List Word}
    {tags : List Tag} (h : tagWords scores d words = .ok tags) :
    ∃ hlen : words.length = tags.length, IsSupported scores ⟨words, tags, hlen⟩ := by
  obtain ⟨hlen, hs, -⟩ := decode_of_tagWords h
  exact ⟨hlen, hs⟩

/-! ### Positions -/

omit [LogWeight W] in
/-- At each position of a supported tagging the symbol there is scored, given the two before it. -/
lemma IsSupported.atPosition_mem_keys {scores : Scores W} {s : Sentence}
    (h : IsSupported scores s) {i : Nat} (hi : i < s.words.length + 2) :
    atPosition s.tags i ∈
      (scores ⟨s.words, i, atPosition s.tags (i - 1), atPosition s.tags (i - 2)⟩).keys :=
  h (s.contextAt i) (List.mem_map.2 ⟨i, List.mem_range.2 hi, rfl⟩)

/-! ### Evaluations -/

/-- The sentences that an evaluation judges are those that were tagged, with the tags found. -/
lemma tagWords_of_mem_judged {scores : Scores W} {d : Decoder} {sentences : List Sentence}
    {j : Sentence × List Tag} (h : j ∈ (evaluate scores d sentences).judged) :
    tagWords scores d j.1.words = .ok j.2 := by
  obtain ⟨⟨s, o⟩, hmem, hj⟩ := List.mem_filterMap.1 h
  obtain ⟨s', -, heq⟩ := List.mem_map.1 hmem
  obtain ⟨rfl, rfl⟩ := Prod.mk.inj heq
  cases htags : tagWords scores d s'.words with
  | error e => simp [outcome, htags] at hj
  | ok found =>
    simp only [outcome, htags, Option.some.injEq] at hj
    rw [← hj]
    exact htags

/-- A feature of the tokens of an evaluation, sentence by sentence. -/
lemma map_tokens {β : Type v} (f : Token → β) (e : Evaluation) :
    e.tokens.map f = e.judged.flatMap fun j =>
      (j.1.words.zip (j.1.tags.zip j.2)).map fun x => f ⟨x.1, x.2.1, x.2.2⟩ := by
  simp only [Evaluation.tokens, List.map_flatMap, List.map_map, Function.comp_def]

/-- Zipping three lists of one length loses nothing. -/
private lemma map_zip_zip {α β γ : Type*} {a : List α} {b : List β} {c : List γ}
    (hb : a.length = b.length) (hc : a.length = c.length) :
    (a.zip (b.zip c)).map (fun x => x.1) = a ∧ (a.zip (b.zip c)).map (fun x => x.2.1) = b ∧
      (a.zip (b.zip c)).map (fun x => x.2.2) = c := by
  have hlen : a.length = (b.zip c).length := by rw [List.length_zip]; omega
  have hsnd : (a.zip (b.zip c)).map Prod.snd = b.zip c := List.map_snd_zip (Nat.le_of_eq hlen.symm)
  refine ⟨List.map_fst_zip (Nat.le_of_eq hlen), ?_, ?_⟩
  · calc (a.zip (b.zip c)).map (fun x => x.2.1)
        = ((a.zip (b.zip c)).map Prod.snd).map Prod.fst := by rw [List.map_map]; rfl
      _ = b := by rw [hsnd, List.map_fst_zip (by omega)]
  · calc (a.zip (b.zip c)).map (fun x => x.2.2)
        = ((a.zip (b.zip c)).map Prod.snd).map Prod.snd := by rw [List.map_map]; rfl
      _ = c := by rw [hsnd, List.map_snd_zip (by omega)]

/-- Where as many tags as words were found, no word and no tag is lost among the tokens. -/
lemma map_tokens_of_length_eq {e : Evaluation}
    (h : ∀ j ∈ e.judged, j.1.words.length = j.2.length) :
    e.tokens.map Token.word = e.judged.flatMap (fun j => j.1.words) ∧
      e.tokens.map Token.correct = e.truth.flatten ∧
      e.tokens.map Token.found = e.predicted.flatten := by
  have hzip := fun j hj => map_zip_zip (Sentence.length_eq j.1) (h j hj)
  rw [Evaluation.truth, Evaluation.predicted, ← List.flatMap_def, ← List.flatMap_def, map_tokens,
    map_tokens, map_tokens]
  exact ⟨List.flatMap_congr fun j hj => (hzip j hj).1,
    List.flatMap_congr fun j hj => (hzip j hj).2.1, List.flatMap_congr fun j hj => (hzip j hj).2.2⟩

/-- **The shape of a tagging.** Whatever the scores are, even where they cannot be compared, and
whichever decoder is used:

* if tags are found for some words, there is one for each word; each is scored at its position after
  the tags found before it, with the start symbol before the first; and the stop symbol is scored
  at both positions after the last;
* so an evaluation never meets a word without a tag or a tag without a word: the words of each
  sentence that it judges make up a sentence with the tags found for them, and every word, correct
  tag and found tag is one of its tokens, in order.

**Proof sketch.** The tags found are a supported tagging, which has as many tags as words, and
being supported is said position by position. Lists of one length lose nothing when zipped. -/
theorem tagWords_shape (scores : Scores W) (d : Decoder) :
    (∀ words tags, tagWords scores d words = .ok tags →
        tags.length = words.length ∧
        (∀ i (hi : i < tags.length), tags[i] ∈
          (scores ⟨words, i, atPosition tags (i - 1), atPosition tags (i - 2)⟩).keys) ∧
        ∀ i : Nat, i = words.length ∨ i = words.length + 1 → Boundary.stop ∈
          (scores ⟨words, i, atPosition tags (i - 1), atPosition tags (i - 2)⟩).keys) ∧
      ∀ sentences,
        (∀ j ∈ (evaluate scores d sentences).judged,
          Sentence.ofLists j.1.words j.2 = .ok (Sentence.ofPairs (j.1.words.zip j.2))) ∧
        (evaluate scores d sentences).tokens.map Token.word =
          (evaluate scores d sentences).judged.flatMap (fun j => j.1.words) ∧
        (evaluate scores d sentences).tokens.map Token.correct =
          (evaluate scores d sentences).truth.flatten ∧
        (evaluate scores d sentences).tokens.map Token.found =
          (evaluate scores d sentences).predicted.flatten := by
  constructor
  · intro words tags h
    obtain ⟨hlen, hs⟩ := isSupported_of_tagWords h
    refine ⟨hlen.symm, ?_, ?_⟩
    · intro i hi
      have hkey := hs.atPosition_mem_keys (i := i) (by simp only; omega)
      rwa [atPosition_eq_getElem hi] at hkey
    · intro i hi
      have hkey := hs.atPosition_mem_keys (i := i) (by simp only; omega)
      rwa [atPosition_eq_stop (by simp only; omega)] at hkey
  · intro sentences
    have hjudged : ∀ j ∈ (evaluate scores d sentences).judged, j.1.words.length = j.2.length :=
      fun j hj => (isSupported_of_tagWords (tagWords_of_mem_judged hj)).1
    refine ⟨fun j hj => ?_, map_tokens_of_length_eq hjudged⟩
    rw [Sentence.ofPairs_zip (hjudged j hj), Sentence.ofLists, dif_pos (hjudged j hj)]

/-- Scores that compare with nothing: two tags for each word, and the stop symbol after the last. -/
def incomparable : Scores Float := fun c =>
  Table.ofList <|
    if c.position < c.words.length then [("X", Binary64.nan), ("Y", Binary64.nan)]
    else [(Boundary.stop, Binary64.nan)]

/-- Under `incomparable` scores the first tag is found for both words. It is scored after itself,
the stop symbol is scored at the last position, and the words make up a sentence with the tags
found. -/
theorem tagWords_incomparable :
    tagWords incomparable .greedy ["a", "b"] = .ok ["X", "X"] ∧
      "X" ∈ (incomparable ⟨["a", "b"], 1, "X", Boundary.start⟩).keys ∧
      Boundary.stop ∈ (incomparable ⟨["a", "b"], 3, Boundary.stop, "X"⟩).keys ∧
      Sentence.ofLists ["a", "b"] ["X", "X"] = .ok (Sentence.ofPairs [("a", "X"), ("b", "X")]) := by
  have hfound : tagWords incomparable .greedy ["a", "b"] = .ok ["X", "X"] := rfl
  obtain ⟨hshape, hevaluate⟩ := tagWords_shape incomparable .greedy
  obtain ⟨-, hkeys, hstop⟩ := hshape _ _ hfound
  have hjudged := (hevaluate [⟨["a", "b"], ["X", "Y"], rfl⟩]).1
  exact ⟨hfound, hkeys 1 (by decide), hstop 3 (.inr rfl),
    hjudged (⟨["a", "b"], ["X", "Y"], rfl⟩, ["X", "X"]) (List.mem_singleton.2 rfl)⟩

end TrellisTagger
