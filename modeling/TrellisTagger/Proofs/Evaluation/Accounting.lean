import TrellisTagger.Proofs.Evaluation.Average
import TrellisTagger.Proofs.Tagging.Shape
import TrellisTagger.Tagger

/-!
# What an evaluation accounts for

An evaluation tags every sentence or skips it, and what it says about tokens it says about the
tokens of the sentences that were tagged. Its figures are counted in two ways: accuracies are
counted token by token and sentence by sentence, averages are taken over the tags of two long lists.
This file shows that both ways count the same.

## Main definitions

* `TrellisTagger.Stats.ratios` — the figures that are shares.

## Main results

* `TrellisTagger.tagWords_ne_openEndpoint` — there are only three reasons to skip a sentence.
* `TrellisTagger.Evaluation.skipped_add_length_judged` — a sentence is either tagged or skipped.
* `TrellisTagger.Evaluation.value_accuracy`, `TrellisTagger.Evaluation.value_sentenceAccuracy` —
  both accuracies are agreements of the correct tags with the tags found.
* `TrellisTagger.Evaluation.recallScore_eq_accuracy_iff` — when the recall score is accuracy.
* `TrellisTagger.Evaluation.value_accuracy_eq_one_iff` — all tokens are correct just if all
  sentences are.
* `TrellisTagger.Evaluation.isProportion_of_mem_ratios` — every share is between zero and one.
* `TrellisTagger.Evaluation.stats_perm` — the figures do not depend on the order of the sentences.
* `TrellisTagger.Tagger.evaluate_accounts` — all of this for the evaluation of a tagger.

## Design

That as many tags as words are found for each judged sentence is a hypothesis of the lemmas about
evaluations. It comes from the shape of a tagging (`isSupported_of_tagWords`), and only the lemmas
about `evaluate` know that the outcomes come from a decoder.
-/

namespace TrellisTagger

universe u v

/-! ### What becomes of a sentence -/

section Outcomes

variable {W : Type u} [LogWeight W] (scores : Scores W) (d : Decoder)

/-- **A sentence is never skipped for want of a start or a goal.** It has a dead end, a state that
comes again, or no path at all. -/
theorem tagWords_ne_openEndpoint (words : List Word) :
    tagWords scores d words ≠ .error .openEndpoint := by
  have hm := (reachable_sentenceTrellis scores words).mirrored
  have hstart := start_sentenceTrellis scores words
  have hgoal := goal_sentenceTrellis scores words
  intro h
  rw [tagWords] at h
  cases d with
  | greedy =>
    rcases Greedy.decode_cases hm hstart hgoal with
      ⟨path, -, hpath⟩ | ⟨s, path, -, -, ⟨-, herr⟩ | ⟨again, -, -, herr⟩⟩
    · rw [Decoder.decode, hpath] at h
      cases h
    · rw [Decoder.decode, herr] at h
      cases h
    · rw [Decoder.decode, herr] at h
      cases h
  | viterbi =>
    rcases Viterbi.decode_cases hm hstart hgoal with ⟨n, path, hpath, -⟩ | ⟨herr, -⟩
    · rw [Decoder.decode, hpath] at h
      cases h
    · rw [Decoder.decode, herr] at h
      cases h

/-- The sentences that are judged are those for whose words tags are found, in order. -/
lemma map_fst_judged (sentences : List Sentence) :
    (evaluate scores d sentences).judged.map Prod.fst =
      sentences.filter fun s => (tagWords scores d s.words).isOk := by
  induction sentences with
  | nil => rfl
  | cons s sentences ih =>
    rw [evaluate, List.map_cons, ← evaluate, List.filter_cons, ← ih, outcome]
    cases tagWords scores d s.words with
    | error e => rfl
    | ok found => rfl

/-- The correct tags are those of the sentences that are judged. -/
lemma truth_evaluate (sentences : List Sentence) :
    (evaluate scores d sentences).truth =
      (sentences.filter fun s => (tagWords scores d s.words).isOk).map fun s => s.tags := by
  rw [← map_fst_judged, Evaluation.truth, List.map_map]
  rfl

/-- The tags found are those of the sentences that are judged. -/
lemma map_ok_predicted (sentences : List Sentence) :
    (evaluate scores d sentences).predicted.map Except.ok =
      (sentences.filter fun s => (tagWords scores d s.words).isOk).map fun s =>
        tagWords scores d s.words := by
  rw [← map_fst_judged, Evaluation.predicted, List.map_map, List.map_map]
  exact List.map_congr_left fun j hj => (tagWords_of_mem_judged hj).symm

variable {scores d} in
/-- There are as many tags found as words. -/
lemma length_eq_of_mem_judged {sentences : List Sentence} {j : Sentence × List Tag}
    (h : j ∈ (evaluate scores d sentences).judged) : j.1.words.length = j.2.length := by
  obtain ⟨hlength, -⟩ := isSupported_of_tagWords (tagWords_of_mem_judged h)
  exact hlength

end Outcomes

/-! ### Figures that are shares -/

/-- The figures that are shares. -/
def Stats.ratios {P : Type u} (s : Stats P) : List P :=
  [s.accuracy, s.unknownAccuracy, s.precisionScore, s.recallScore, s.f1Score, s.sentenceAccuracy]

namespace Evaluation

variable {e e' : Evaluation} {vocabulary : List Word} {seed : Option Int}

/-! ### Tagged and skipped -/

/-- A sentence that is skipped is not judged. -/
@[simp] lemma judged_cons_skipped (s : Sentence) (reason : DecodeFailure State) (e : Evaluation) :
    judged ((s, .skipped reason) :: e) = e.judged := rfl

/-- A sentence that is tagged is judged with the tags found. -/
@[simp] lemma judged_cons_tagged (s : Sentence) (found : List Tag) (suboptimal : Bool)
    (e : Evaluation) :
    judged ((s, .tagged found suboptimal) :: e) = (s, found) :: e.judged := rfl

/-- A sentence that is skipped counts as one more. -/
@[simp] lemma skipped_cons_skipped (s : Sentence) (reason : DecodeFailure State) (e : Evaluation) :
    skipped ((s, .skipped reason) :: e) = e.skipped + 1 := List.countP_cons_of_pos rfl

/-- A sentence that is tagged does not count as skipped. -/
@[simp] lemma skipped_cons_tagged (s : Sentence) (found : List Tag) (suboptimal : Bool)
    (e : Evaluation) :
    skipped ((s, .tagged found suboptimal) :: e) = e.skipped := List.countP_cons_of_neg (by simp)

/-- **A sentence is either tagged or skipped.** -/
lemma skipped_add_length_judged (e : Evaluation) : e.skipped + e.judged.length = e.length := by
  induction e with
  | nil => rfl
  | cons x e ih =>
    obtain ⟨s, o⟩ := x
    cases o with
    | skipped reason =>
      rw [skipped_cons_skipped, judged_cons_skipped, List.length_cons]
      omega
    | tagged found suboptimal =>
      rw [skipped_cons_tagged, judged_cons_tagged, List.length_cons, List.length_cons]
      omega

/-! ### What the figures measure -/

/-- **Sentence accuracy is the agreement of correct taggings with those found.** -/
theorem value_sentenceAccuracy (e : Evaluation) :
    (e.stats vocabulary seed : Stats Exact).sentenceAccuracy.value =
      agreement e.truth e.predicted := by
  have hcount :
      e.judged.countP (fun j => j.1.tags == j.2) = e.judged.countP fun j => j.1.tags = j.2 :=
    List.countP_congr fun j _ => by rw [beq_iff_eq, decide_eq_true_eq]
  rw [truth, predicted, agreement_map, ← hcount, stats, value_share]

section Lengths

variable (h : ∀ j ∈ e.judged, j.1.words.length = j.2.length)
include h

/-- Sentence by sentence there are as many correct tags as tags found. -/
lemma map_length_truth : e.truth.map List.length = e.predicted.map List.length := by
  rw [truth, predicted, List.map_map, List.map_map]
  exact List.map_congr_left fun j hj => (Sentence.length_eq j.1).symm.trans (h j hj)

/-- There are as many correct tags as tags found. -/
lemma length_flatten_truth : e.truth.flatten.length = e.predicted.flatten.length := by
  rw [List.length_flatten, List.length_flatten, map_length_truth h]

/-- The tokens have the correct tags and the tags found, side by side. -/
lemma map_tags_tokens :
    e.tokens.map (fun t => (t.correct, t.found)) = e.truth.flatten.zip e.predicted.flatten := by
  obtain ⟨-, hcorrect, hfound⟩ := map_tokens_of_length_eq h
  rw [← hcorrect, ← hfound, List.zip_map']

/-- **Accuracy is the agreement of the correct tags with the tags found.** -/
theorem value_accuracy :
    (e.stats vocabulary seed : Stats Exact).accuracy.value =
      agreement e.truth.flatten e.predicted.flatten := by
  obtain ⟨-, hcorrect, hfound⟩ := map_tokens_of_length_eq h
  rw [← hcorrect, ← hfound, agreement_map, stats, accuracy, value_share]
  rfl

/-- Accuracy is also the average of recall over the tags. -/
lemma value_accuracy_eq_weightedRecall :
    (e.stats vocabulary seed : Stats Exact).accuracy.value =
      weightedRecall e.truth.flatten e.predicted.flatten := by
  rw [value_accuracy h, weightedRecall_eq_agreement (length_flatten_truth h)]

/-- The recall score is the average of recall over the tags without the NUL characters at their
ends. -/
lemma value_recallScore :
    (e.stats vocabulary seed : Stats Exact).recallScore.value =
      weightedRecall (e.truth.flatten.map withoutFinalNuls)
        (e.predicted.flatten.map withoutFinalNuls) :=
  value_weightedAverage_recallScore (length_flatten_truth h)

/-- **The recall score is accuracy**, just if no two different tags that only NUL characters at the
end tell apart share a position. -/
theorem recallScore_eq_accuracy_iff :
    (e.stats vocabulary seed : Stats Exact).recallScore = (e.stats vocabulary seed).accuracy ↔
      ∀ p ∈ e.truth.flatten.zip e.predicted.flatten,
        withoutFinalNuls p.1 = withoutFinalNuls p.2 → p.1 = p.2 := by
  have hlength := length_flatten_truth h
  have hlength' := length_map_eq_length_map withoutFinalNuls hlength
  rw [Exact.ext_iff, value_recallScore h, value_accuracy h, weightedRecall_eq_agreement hlength',
    agreement_map_eq_iff _ hlength]

/-- **All tokens are correct just if all sentences are**, if there is a token. -/
theorem value_accuracy_eq_one_iff (hne : e.truth.flatten ≠ []) :
    (e.stats vocabulary seed : Stats Exact).accuracy.value = 1 ↔
      (e.stats vocabulary seed : Stats Exact).sentenceAccuracy.value = 1 := by
  have hlengths := map_length_truth h
  have hcount : e.truth.length = e.predicted.length := by
    simpa only [List.length_map] using congrArg List.length hlengths
  have hsentence : e.truth ≠ [] := by
    intro hnil
    rw [hnil, List.flatten_nil] at hne
    exact hne rfl
  rw [value_accuracy h, value_sentenceAccuracy, agreement_eq_one_iff (length_flatten_truth h) hne,
    agreement_eq_one_iff hcount hsentence, List.eq_iff_flatten_eq]
  exact ⟨fun hflatten => ⟨hflatten, hlengths⟩, fun hboth => hboth.1⟩

/-- **No share is below zero or above one.** -/
theorem isProportion_of_mem_ratios {r : Exact} (hr : r ∈ (e.stats vocabulary seed).ratios) :
    r.IsProportion := by
  have hlength := length_flatten_truth h
  simp only [Stats.ratios, List.mem_cons, List.not_mem_nil, or_false] at hr
  rcases hr with rfl | rfl | rfl | rfl | rfl | rfl
  · exact isProportion_share List.countP_le_length
  · exact isProportion_share List.countP_le_length
  · exact isProportion_weightedAverage hlength fun r _ => r.isProportion_precisionScore
  · exact isProportion_weightedAverage hlength fun r hcorrect _ =>
      r.isProportion_recallScore hcorrect
  · exact isProportion_weightedAverage hlength fun r => r.isProportion_f1Score
  · exact isProportion_share List.countP_le_length

end Lengths

/-! ### The order of the sentences -/

/-- **The figures do not depend on the order of the sentences**, whatever the arithmetic.

**Proof sketch.** All that is counted is counted over outcomes, judged sentences or tokens, which
are reordered with the sentences. The averages are taken over the tags of the tokens. -/
theorem stats_perm {P : Type v} [Probability P] (hperm : e.Perm e')
    (h : ∀ j ∈ e.judged, j.1.words.length = j.2.length) :
    (e.stats vocabulary seed : Stats P) = e'.stats vocabulary seed := by
  have hjudged : e.judged.Perm e'.judged := hperm.filterMap _
  have htokens : e.tokens.Perm e'.tokens := hjudged.flatMap_right _
  have hpairs : (e.truth.flatten.zip e.predicted.flatten).Perm
      (e'.truth.flatten.zip e'.predicted.flatten) := by
    rw [← map_tags_tokens h, ← map_tags_tokens fun j hj => h j (hjudged.mem_iff.2 hj)]
    exact htokens.map _
  have hunknown := htokens.filter fun t => !vocabulary.contains t.word
  have haverage := fun figure : TagResult → P => weightedAverage_perm figure hpairs
  simp only [stats, accuracy, suboptimalities, skipped, htokens.countP_eq, htokens.length_eq,
    hunknown.countP_eq, hunknown.length_eq, haverage, hjudged.countP_eq, hjudged.length_eq,
    hperm.countP_eq]

end Evaluation

/-! ### The evaluation of a tagger -/

namespace Tagger

variable {P : Type u} [Probability P] {W : Type v} [LogWeight W] [Logarithm P W]

/-- **An evaluation accounts for every sentence and every token.** Let any tagger be evaluated on
any sentences, with any vocabulary and any seed to record, and let the figures be computed in exact
arithmetic. Then:

* the correct tags and the tags found are, in order, those of the sentences for which the tagger
  finds tags, and as many of both for each; all other sentences are skipped, and none of them
  because its trellis has no start or no goal;
* accuracy is the share of the positions at which both agree, and so is the average of recall over
  tags, with the occurrences as weights; sentence accuracy is the share of the sentences at which
  both agree;
* the recall score is this average for the tags without the NUL characters at their ends, so it is
  equal to accuracy just if no two different tags that differ in nothing else share a position;
* if there is a token, accuracy is one just if sentence accuracy is one;
* every share is between zero and one;
* no figure depends on the order of the sentences.

**Proof sketch.** The tags found are as many as the words, so no token is lost when the correct tags
and the tags found are put into two long lists, and accuracy is counted over pairs of these. In the
average of recall the weights cancel the denominators. Two lists of lists with equal lengths are
equal just if they are equal when flattened. -/
theorem evaluate_accounts (t : Tagger P) (sentences : List Sentence) (vocabulary : List Word)
    (seed : Option Int) :
    let e := evaluate t.scorer.logScores t.decoder sentences
    let stats : Stats Exact := e.stats vocabulary seed
    let tagged := sentences.filter fun s => (t.tag s.words).isOk
    let truth := e.truth.flatten
    let predicted := e.predicted.flatten
    (e.truth = tagged.map (fun s => s.tags) ∧
        e.predicted.map Except.ok = tagged.map (fun s => t.tag s.words) ∧
        e.truth.map List.length = e.predicted.map List.length ∧
        stats.skipped + e.truth.length = sentences.length ∧
        ∀ s ∈ sentences, t.tag s.words ≠ .error .openEndpoint) ∧
      (stats.accuracy.value = agreement truth predicted ∧
        stats.accuracy.value = weightedRecall truth predicted ∧
        stats.sentenceAccuracy.value = agreement e.truth e.predicted) ∧
      (stats.recallScore.value =
          weightedRecall (truth.map withoutFinalNuls) (predicted.map withoutFinalNuls) ∧
        (stats.recallScore = stats.accuracy ↔
          ∀ p ∈ truth.zip predicted, withoutFinalNuls p.1 = withoutFinalNuls p.2 → p.1 = p.2)) ∧
      (truth ≠ [] → (stats.accuracy.value = 1 ↔ stats.sentenceAccuracy.value = 1)) ∧
      (∀ r ∈ stats.ratios, 0 ≤ r.value ∧ r.value ≤ 1) ∧
      ∀ sentences', sentences.Perm sentences' →
        (evaluate t.scorer.logScores t.decoder sentences').stats vocabulary seed = stats := by
  intro e stats tagged truth predicted
  have hjudged : ∀ j ∈ e.judged, j.1.words.length = j.2.length := fun j => length_eq_of_mem_judged
  refine ⟨⟨truth_evaluate _ _ sentences, map_ok_predicted _ _ sentences,
      Evaluation.map_length_truth hjudged, ?_, fun s _ => tagWords_ne_openEndpoint _ _ s.words⟩,
    ⟨Evaluation.value_accuracy hjudged, Evaluation.value_accuracy_eq_weightedRecall hjudged,
      Evaluation.value_sentenceAccuracy e⟩,
    ⟨Evaluation.value_recallScore hjudged, Evaluation.recallScore_eq_accuracy_iff hjudged⟩,
    Evaluation.value_accuracy_eq_one_iff hjudged,
    fun r => Evaluation.isProportion_of_mem_ratios hjudged,
    fun sentences' hperm => ?_⟩
  · rw [Evaluation.truth, List.length_map]
    exact (Evaluation.skipped_add_length_judged e).trans (List.length_map _)
  · have hevaluated : e.Perm (evaluate t.scorer.logScores t.decoder sentences') := hperm.map _
    exact (Evaluation.stats_perm hevaluated hjudged).symm

/-- Two sentences with the same first word, which a stop symbol follows in one of them. -/
def dogsTwice : List Sentence :=
  [.ofPairs [("dogs", "NNS"), (Boundary.stop, "NN")], .ofPairs [("dogs", "NNS")]]

/-- A tagger that has seen the stop symbol as a word finds no tags where no stop symbol comes. So of
two sentences it skips one, and of the tags of the other it finds one of two. -/
theorem evaluate_accounts_dogs :
    let t : Tagger Float :=
      train ⟨.lexical ⟨true, .empty⟩, .viterbi⟩ [.ofPairs [("dogs", "NNS"), (Boundary.stop, "SYM")]]
    let e := evaluate t.scorer.logScores t.decoder dogsTwice
    let stats : Stats Exact := e.stats [] (some 7)
    e.truth = [["NNS", "NN"]] ∧ e.predicted = [["NNS", "SYM"]] ∧ stats.skipped = 1 ∧
      stats.accuracy.value = 1 / 2 ∧ weightedRecall ["NNS", "NN"] ["NNS", "SYM"] = 1 / 2 ∧
      stats.sentenceAccuracy.value ≠ 1 := by
  have hfound : (train ⟨.lexical ⟨true, .empty⟩, .viterbi⟩
      [.ofPairs [("dogs", "NNS"), (Boundary.stop, "SYM")]] : Tagger Float).tag
        ["dogs", Boundary.stop] = .ok ["NNS", "SYM"] := rfl
  have hfailed : (train ⟨.lexical ⟨true, .empty⟩, .viterbi⟩
      [.ofPairs [("dogs", "NNS"), (Boundary.stop, "SYM")]] : Tagger Float).tag
        ["dogs"] = .error (.unreachable State.start (State.stop 1)) := rfl
  -- nothing else is needed of the tagger
  generalize (train ⟨.lexical ⟨true, .empty⟩, .viterbi⟩
      [.ofPairs [("dogs", "NNS"), (Boundary.stop, "SYM")]] : Tagger Float) = t at hfound hfailed ⊢
  intro t e stats
  obtain ⟨⟨htruth, hpredicted, -, hskipped, -⟩, ⟨haccuracy, hrecall, -⟩, -, hone, -⟩ :=
    evaluate_accounts t dogsTwice [] (some 7)
  have htagged : dogsTwice.filter (fun s => (t.tag s.words).isOk) =
      [.ofPairs [("dogs", "NNS"), (Boundary.stop, "NN")]] := by
    simp [dogsTwice, Sentence.ofPairs, t, hfound, hfailed, Except.isOk, Except.toBool]
  rw [htagged] at htruth hpredicted
  have hpredicted : e.predicted = [["NNS", "SYM"]] :=
    List.map_injective_iff.2 (fun _ _ => Except.ok.inj) (hpredicted.trans (congrArg ([·]) hfound))
  have hhalf : stats.accuracy.value = 1 / 2 := by
    rw [haccuracy, htruth, hpredicted]
    decide +kernel
  rw [htruth, hpredicted] at hrecall
  rw [htruth] at hskipped hone
  refine ⟨htruth, hpredicted, Nat.add_right_cancel hskipped, hhalf, hrecall.symm.trans hhalf, ?_⟩
  rw [Ne, ← hone (by decide), hhalf]
  decide +kernel

end Tagger

end TrellisTagger
