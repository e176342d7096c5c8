import Mathlib.Algebra.Order.Ring.Int
import TrellisTagger.Evaluation
import TrellisTagger.Proofs.SentenceTrellis.Taggings
import TrellisTagger.Proofs.Viterbi.Optimality

/-!
# Optimal taggings

A tagger that uses the Viterbi decoder finds a tagging of greatest weight among all taggings of the
words, or all of them are impossible. So no evaluation of it meets correct tags that weigh more than
those found.

## Main results

* `TrellisTagger.tagWords_viterbi_cases` — the tags found are a supported tagging of greatest
  weight, or no tagging is supported.
* `TrellisTagger.tagWords_viterbi_maximal` — no tagging weighs more than the one that is found,
  every tagging is impossible where none is found, and no evaluation counts a suboptimality.

## Design

The decoder knows walks and the weight of a tagging knows contexts. Both sides meet in
`SentenceTrellis.walk_iff` and `SentenceTrellis.pathWeight_taggingPath`, so nothing here depends on
how either is computed.
-/

namespace TrellisTagger

universe u v

section

variable {W : Type u} [LogWeight W] [LawfulWeight W]

/-- The tags that are found are a supported tagging, and no tagging of the words weighs more; or
nothing is found, and no tagging is supported.

**Proof sketch.** The decoder returns a walk from start to stop, which is the path of a supported
tagging, and no walk weighs more, because all of them have the same length. A tagging that is not
supported is impossible, and nothing is below that. -/
theorem tagWords_viterbi_cases (scores : Scores W) (words : List Word) :
    (∃ s : Sentence, s.words = words ∧ tagWords scores .viterbi words = .ok s.tags ∧
        IsSupported scores s ∧
        ∀ other : Sentence, other.words = words →
          ¬ taggingWeight scores s < taggingWeight scores other) ∨
      (tagWords scores .viterbi words =
          .error (.unreachable State.start (State.stop words.length)) ∧
        ∀ s : Sentence, s.words = words → ¬ IsSupported scores s) := by
  have hm := (reachable_sentenceTrellis scores words).mirrored
  rcases Viterbi.decode_cases hm (start_sentenceTrellis scores words)
    (goal_sentenceTrellis scores words) with ⟨n, path, hdecode, htraced, hfirst⟩ | ⟨hdecode, hnone⟩
  · left
    have hwalk := htraced.walk hm
    obtain ⟨s, rfl, hs, rfl⟩ := SentenceTrellis.walk_iff.1 hwalk
    refine ⟨s, rfl, ?_, hs, fun other hother => ?_⟩
    · rw [tagWords, Decoder.decode, hdecode, Except.map, innerTags_taggingPath]
    · by_cases hsupported : IsSupported scores other
      · have hotherWalk := SentenceTrellis.walk_iff.2 ⟨other, hother, hsupported, rfl⟩
        have hsame := SentenceTrellis.length_of_walk hotherWalk
        have hlen := SentenceTrellis.length_of_walk hwalk
        have hn := htraced.length_eq
        rw [← SentenceTrellis.pathWeight_taggingPath scores s,
          ← SentenceTrellis.pathWeight_taggingPath scores other, hother]
        exact (htraced.isHeaviest hm hfirst).not_exceeded _ hotherWalk (by omega)
      · rw [SentenceTrellis.taggingWeight_eq_impossible hsupported]
        exact not_lt_impossible _
  · right
    refine ⟨by rw [tagWords, Decoder.decode, hdecode, Except.map], fun s hwords hs => ?_⟩
    exact hnone _ (SentenceTrellis.walk_iff.2 ⟨s, hwords, hs, rfl⟩)

/-- The correct tags of a sentence never weigh more than those found for it. -/
lemma outcome_viterbi_ne_suboptimal (scores : Scores W) (s : Sentence) (found : List Tag) :
    outcome scores .viterbi s ≠ .tagged found true := by
  rcases tagWords_viterbi_cases scores s.words with ⟨best, hwords, htags, -, hbest⟩ | ⟨herr, -⟩
  · have hpairs : Sentence.ofPairs (s.words.zip best.tags) = best := by
      rw [← hwords]
      exact Sentence.ofPairs_zip best.length_eq
    simp [outcome, htags, hpairs, hbest s rfl]
  · simp [outcome, herr]

/-- **No tagging weighs more than the one that Viterbi decoding finds.** Whatever the scores and the
words are:

* if tags are found, there is one for each word, and no tagging of the words, of any tags at all,
  weighs more;
* if none are found, the stop state is unreachable, and every tagging of the words is impossible;
* so an evaluation never meets correct tags that weigh more than those found.

**Proof sketch.** The two outcomes are those of `tagWords_viterbi_cases`, and
`outcome_viterbi_ne_suboptimal` applies to each sentence of the evaluation. -/
theorem tagWords_viterbi_maximal {P : Type v} [Probability P] (scores : Scores W)
    (words : List Word) :
    (∀ found, tagWords scores .viterbi words = .ok found →
        ∃ h : words.length = found.length, ∀ tags (htags : words.length = tags.length),
          ¬ taggingWeight scores ⟨words, found, h⟩ < taggingWeight scores ⟨words, tags, htags⟩) ∧
      (∀ e, tagWords scores .viterbi words = .error e →
        e = .unreachable State.start (State.stop words.length) ∧
          ∀ tags (htags : words.length = tags.length),
            taggingWeight scores ⟨words, tags, htags⟩ = impossible) ∧
      ∀ (sentences : List Sentence) (vocabulary : List Word) (seed : Option Int),
        ((evaluate scores .viterbi sentences).stats (P := P) vocabulary seed).suboptimalities =
          0 := by
  refine ⟨?_, ?_, ?_⟩
  · intro found hfound
    rcases tagWords_viterbi_cases scores words with ⟨s, rfl, htags, -, hbest⟩ | ⟨herr, -⟩
    · obtain rfl := Except.ok.inj (hfound.symm.trans htags)
      exact ⟨s.length_eq, fun tags htags => hbest ⟨_, tags, htags⟩ rfl⟩
    · rw [herr] at hfound
      cases hfound
  · intro e he
    rcases tagWords_viterbi_cases scores words with ⟨s, rfl, htags, -, -⟩ | ⟨herr, hnone⟩
    · rw [htags] at he
      cases he
    · refine ⟨Except.error.inj (he.symm.trans herr), fun tags htags => ?_⟩
      exact SentenceTrellis.taggingWeight_eq_impossible (hnone ⟨words, tags, htags⟩ rfl)
  · intro sentences vocabulary seed
    simp only [Evaluation.stats, Evaluation.suboptimalities, List.countP_eq_zero, evaluate,
      List.mem_map, forall_exists_index, and_imp, forall_apply_eq_imp_iff₂]
    intro s _ hsuboptimal
    split at hsuboptimal
    · rename_i found suboptimal heq
      rw [hsuboptimal] at heq
      exact outcome_viterbi_ne_suboptimal scores s found (Prod.mk.inj heq).2
    · cases hsuboptimal

end

/-- Scores under which the better first tag leaves only a bad second one. -/
def misleading : Scores (WithBot ℤ) := fun c =>
  Table.ofList <|
    if c.position = 0 then [("X", ((-1 : ℤ) : WithBot ℤ)), ("Y", ((-2 : ℤ) : WithBot ℤ))]
    else if c.position = 1 then
      if c.previous = "X" then [("X", ((-5 : ℤ) : WithBot ℤ))]
      else [("Y", ((-1 : ℤ) : WithBot ℤ)), ("X", ⊥)]
    else [(Boundary.stop, 0)]

/-- Under `misleading` scores the tags found begin with the worse tag, and the tags that begin with
the better one do not weigh more. -/
theorem tagWords_misleading :
    tagWords misleading .viterbi ["a", "b"] = .ok ["Y", "Y"] ∧
      ¬ taggingWeight misleading ⟨["a", "b"], ["Y", "Y"], rfl⟩ <
        taggingWeight misleading ⟨["a", "b"], ["X", "X"], rfl⟩ := by
  have hfound : tagWords misleading .viterbi ["a", "b"] = .ok ["Y", "Y"] := rfl
  obtain ⟨_, hbest⟩ := (tagWords_viterbi_maximal (P := Float) misleading _).1 _ hfound
  exact ⟨hfound, hbest ["X", "X"] rfl⟩

end TrellisTagger
