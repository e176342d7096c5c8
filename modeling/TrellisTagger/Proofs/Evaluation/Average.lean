import Mathlib.Algebra.Order.BigOperators.Ring.Finset
import TrellisTagger.Evaluation.Average
import TrellisTagger.Proofs.Frequency
import TrellisTagger.Proofs.Number.PairwiseSum

/-!
# What weighted averages measure

Precision, recall and the F1 score of a tag are shares, so they lie between zero and one, and so do
their averages with the occurrences of the tags as weights. The average of recall is more: a tag
that occurs `n` times among the correct ones adds `n` times the share of these that were found,
which is the number that were found. So the average is the share of all positions at which the tag
found is the correct one.

## Main definitions

* `TrellisTagger.agreement` — the share of the positions at which two lists agree.
* `TrellisTagger.recallOf`, `TrellisTagger.weightedRecall` — the recall of one tag, and the average
  over all.
* `TrellisTagger.Exact.IsProportion` — a number between zero and one.

## Main results

* `TrellisTagger.agreement_eq_one_iff` — lists that agree throughout are equal.
* `TrellisTagger.weightedRecall_eq_agreement` — the average of recall is the agreement.
* `TrellisTagger.value_weightedAverage` — in exact arithmetic a weighted average is a quotient of
  two sums.
* `TrellisTagger.value_weightedAverage_recallScore` — what the average of recall is computed to be.
* `TrellisTagger.weightedAverage_perm` — an average does not depend on the order of the tokens.

## Design

The average of recall is defined twice. `weightedRecall` takes rational numbers and sums over a
finite set of tags; the average that is computed adds by halves, over tags in order, and first drops
the NUL characters at the end of each tag. `TagResult` is where both meet: `tagResult_zip` says what
is counted.
-/

namespace TrellisTagger

open Finset

universe u

/-! ### Agreement -/

section Agreement

variable {α β : Type*} [DecidableEq α] [DecidableEq β] {l l' : List α}

/-- The share of the positions at which two lists agree, zero where there are none. -/
def agreement (l l' : List α) : ℚ := (l.zip l').countP (fun p => p.1 = p.2) / l.length

/-- The agreement of two features of some things is the share of the things at which they are
equal. -/
lemma agreement_map {ι : Type*} (f g : ι → α) (things : List ι) :
    agreement (things.map f) (things.map g) =
      things.countP (fun i => f i = g i) / things.length := by
  rw [agreement, List.zip_map', List.countP_map, List.length_map]
  rfl

/-- Lists that agree at all positions are equal. -/
lemma agreement_eq_one_iff (h : l.length = l'.length) (hne : l ≠ []) :
    agreement l l' = 1 ↔ l = l' := by
  have hpos : (l.length : ℚ) ≠ 0 := Nat.cast_ne_zero.2 (List.length_pos_of_ne_nil hne).ne'
  have hlength : (l.zip l').length = l.length := by rw [List.length_zip, ← h, Nat.min_self]
  calc agreement l l' = 1
      ↔ (l.zip l').countP (fun p => p.1 = p.2) = (l.zip l').length := by
        rw [agreement, div_eq_one_iff_eq hpos, Nat.cast_inj, hlength]
    _ ↔ ∀ p ∈ l.zip l', p.1 = p.2 := by
        simp only [List.countP_eq_length, decide_eq_true_eq]
    _ ↔ List.Forall₂ (· = ·) l l' := by
        rw [List.forall₂_iff_zip]
        exact ⟨fun hall => ⟨h, fun hp => hall _ hp⟩, fun hall p hp => hall.2 hp⟩
    _ ↔ l = l' := by rw [List.forall₂_eq_eq_eq]

/-- The images of two lists agree just as often as the lists, if and only if no two different
elements that share a position have the same image. -/
lemma agreement_map_eq_iff (f : α → β) (h : l.length = l'.length) :
    agreement (l.map f) (l'.map f) = agreement l l' ↔
      ∀ p ∈ l.zip l', f p.1 = f p.2 → p.1 = p.2 := by
  rcases eq_or_ne l [] with rfl | hne
  · simp [agreement]
  have hpos : (l.length : ℚ) ≠ 0 := Nat.cast_ne_zero.2 (List.length_pos_of_ne_nil hne).ne'
  have himages : ((l.map f).zip (l'.map f)).countP (fun p => p.1 = p.2) =
      ((l.zip l').filter fun p => f p.1 = f p.2).length := by
    rw [List.zip_map, List.countP_map, ← List.countP_eq_length_filter]
    rfl
  -- positions at which the elements agree are among those at which the images do
  have hequal : (l.zip l').countP (fun p => p.1 = p.2) =
      ((l.zip l').filter fun p => f p.1 = f p.2).countP fun p => p.1 = p.2 := by
    rw [List.countP_filter]
    refine List.countP_congr fun p _ => ?_
    simp only [decide_eq_true_eq, Bool.and_eq_true]
    exact ⟨fun hp => ⟨hp, congrArg f hp⟩, fun hp => hp.1⟩
  rw [agreement, agreement, List.length_map, div_left_inj' hpos, Nat.cast_inj, himages, hequal,
    eq_comm, List.countP_eq_length]
  simp only [List.mem_filter, decide_eq_true_eq, and_imp]

end Agreement

/-! ### Recall -/

/-- The share of the occurrences of a tag that were found, zero where there are none. -/
def recallOf (truth predicted : List Tag) (tag : Tag) : ℚ :=
  (truth.zip predicted).count (tag, tag) / truth.count tag

/-- The recall of all tags that occur, averaged with the occurrences among the correct tags as
weights. -/
def weightedRecall (truth predicted : List Tag) : ℚ :=
  (∑ tag ∈ (truth ++ predicted).toFinset, truth.count tag * recallOf truth predicted tag) /
    ∑ tag ∈ (truth ++ predicted).toFinset, (truth.count tag : ℚ)

variable {truth predicted : List Tag}

/-- The occurrences of different elements add up to the length of a list. -/
lemma sum_count_eq_length {α : Type u} [DecidableEq α] {s : Finset α} {l : List α}
    (h : ∀ a ∈ l, a ∈ s) : ∑ a ∈ s, l.count a = l.length := by
  have hcard := Multiset.sum_count_eq_card (m := (l : Multiset α)) h
  simpa only [Multiset.coe_count, Multiset.coe_card] using hcard

/-- The occurrences of all tags as correct ones are as many as there are correct tags. -/
lemma sum_count_truth (truth predicted : List Tag) :
    ∑ tag ∈ (truth ++ predicted).toFinset, (truth.count tag : ℚ) = truth.length := by
  rw [← Nat.cast_sum, sum_count_eq_length]
  intro tag htag
  exact List.mem_toFinset.2 (List.mem_append_left _ htag)

/-- The positions at which the lists agree are counted tag by tag. -/
lemma sum_count_zip (truth predicted : List Tag) :
    ∑ tag ∈ (truth ++ predicted).toFinset, (truth.zip predicted).count (tag, tag) =
      (truth.zip predicted).countP fun p => p.1 = p.2 := by
  have hcount : ∀ tag, (truth.zip predicted).count (tag, tag) =
      (((truth.zip predicted).filter fun p => p.1 = p.2).map Prod.fst).count tag := by
    intro tag
    rw [List.count, List.count, List.countP_map, List.countP_filter]
    refine List.countP_congr fun p _ => ?_
    simp only [Function.comp_apply, beq_iff_eq, Prod.ext_iff, Bool.and_eq_true, decide_eq_true_eq]
    constructor
    · rintro ⟨hfst, hsnd⟩
      exact ⟨hfst, hfst.trans hsnd.symm⟩
    · rintro ⟨hfst, hagree⟩
      exact ⟨hfst, hagree ▸ hfst⟩
  simp only [hcount]
  rw [sum_count_eq_length, List.length_map, List.countP_eq_length_filter]
  intro tag htag
  obtain ⟨p, hp, rfl⟩ := List.mem_map.1 htag
  have hmem : p.1 ∈ truth := (List.of_mem_zip (List.mem_filter.1 hp).1).1
  exact List.mem_toFinset.2 (List.mem_append_left _ hmem)

/-- A tag is not found more often in its place than it occurs. -/
lemma count_zip_le_left (h : truth.length = predicted.length) (tag : Tag) :
    (truth.zip predicted).count (tag, tag) ≤ truth.count tag := by
  have hmap := List.count_le_count_map (f := Prod.fst) (x := (tag, tag)) (l := truth.zip predicted)
  rwa [List.map_fst_zip h.le] at hmap

/-- A tag is not found more often in its place than it is found. -/
lemma count_zip_le_right (h : truth.length = predicted.length) (tag : Tag) :
    (truth.zip predicted).count (tag, tag) ≤ predicted.count tag := by
  have hmap := List.count_le_count_map (f := Prod.snd) (x := (tag, tag)) (l := truth.zip predicted)
  rwa [List.map_snd_zip h.ge] at hmap

/-- The recall of a tag, times its occurrences, is the number of those that were found. -/
lemma count_mul_recallOf (h : truth.length = predicted.length) (tag : Tag) :
    truth.count tag * recallOf truth predicted tag = (truth.zip predicted).count (tag, tag) := by
  refine mul_div_cancel_of_imp' fun hzero => ?_
  have hle := count_zip_le_left h tag
  rw [Nat.cast_eq_zero] at hzero ⊢
  omega

/-- **The average of recall is the agreement.**

**Proof sketch.** The weights cancel the denominators, so that for each tag the number of positions
remains at which both lists have it. Every position at which they agree is counted under one tag. -/
theorem weightedRecall_eq_agreement (h : truth.length = predicted.length) :
    weightedRecall truth predicted = agreement truth predicted := by
  simp only [weightedRecall, count_mul_recallOf h]
  rw [← Nat.cast_sum, sum_count_zip, sum_count_truth, agreement]

/-! ### Shares -/

/-- A share of counts has their quotient for its value. -/
@[simp] lemma value_share (n total : Nat) : (share n total : Exact).value = n / total := by
  rw [share]
  split
  · rename_i h
    rw [h, Nat.cast_zero, div_zero, Exact.value_zero]
  · rw [Exact.value_ratio, Int.cast_natCast, Int.cast_natCast]

/-- A number between zero and one. -/
def Exact.IsProportion (x : Exact) : Prop := 0 ≤ x.value ∧ x.value ≤ 1

/-- The share of some things among all of them is a proportion. -/
lemma isProportion_share {n total : Nat} (h : n ≤ total) :
    (share n total : Exact).IsProportion := by
  rw [Exact.IsProportion, value_share]
  constructor
  · exact div_nonneg (Nat.cast_nonneg n) (Nat.cast_nonneg total)
  · exact div_le_one_of_le₀ (Nat.cast_le.2 h) (Nat.cast_nonneg total)

/-! ### What is counted -/

/-- Two lists of tags that are equally long remain so when tags are changed. -/
lemma length_map_eq_length_map (f : Tag → Tag) (h : truth.length = predicted.length) :
    (truth.map f).length = (predicted.map f).length := by
  rw [List.length_map, List.length_map, h]

/-- The counts of a tag in two lists of tags. -/
lemma tagResult_zip (h : truth.length = predicted.length) (tag : Tag) :
    tagResult (truth.zip predicted) tag =
      ⟨truth.count tag, predicted.count tag, (truth.zip predicted).count (tag, tag)⟩ := by
  have hcorrect : (truth.zip predicted).countP (fun p => p.1 == tag) = truth.count tag := by
    conv_rhs => rw [← List.map_fst_zip h.le, List.count, List.countP_map]
    rfl
  have hfound : (truth.zip predicted).countP (fun p => p.2 == tag) = predicted.count tag := by
    conv_rhs => rw [← List.map_snd_zip h.ge, List.count, List.countP_map]
    rfl
  rw [tagResult, hcorrect, hfound]
  rfl

/-- The tags that occur are those of either list. -/
lemma toFinset_occurringTags_zip (h : truth.length = predicted.length) :
    (occurringTags (truth.zip predicted)).toFinset = (truth ++ predicted).toFinset := by
  rw [occurringTags, List.map_fst_zip h.le, List.map_snd_zip h.ge]
  ext tag
  rw [List.mem_toFinset, List.mem_toFinset, List.mem_mergeSort, mem_distinct]

/-- No tag is listed twice among those that occur. -/
lemma nodup_occurringTags (pairs : List (Tag × Tag)) : (occurringTags pairs).Nodup :=
  (List.mergeSort_perm _ _).nodup_iff.2 (nodup_distinct _)

/-- **A weighted average is a quotient of two sums**, taken over the tags without the NUL characters
at their ends. -/
theorem value_weightedAverage (figure : TagResult → Exact) (h : truth.length = predicted.length) :
    let truth' := truth.map withoutFinalNuls
    let predicted' := predicted.map withoutFinalNuls
    (weightedAverage figure (truth.zip predicted)).value =
      (∑ tag ∈ (truth' ++ predicted').toFinset,
        (figure (tagResult (truth'.zip predicted') tag)).value *
        truth'.count tag) / truth'.length := by
  intro truth' predicted'
  have h' : truth'.length = predicted'.length := length_map_eq_length_map _ h
  have hzip : (truth.zip predicted).map (fun p => (withoutFinalNuls p.1, withoutFinalNuls p.2)) =
      truth'.zip predicted' := List.zip_map.symm
  have hlength : (truth'.zip predicted').length = truth'.length := by
    rw [List.length_zip, ← h', Nat.min_self]
  rw [weightedAverage]
  split
  · -- without positions there is nothing to add
    rename_i hempty
    have hnil : truth'.length = 0 := by
      rw [← hlength, ← hzip, List.isEmpty_iff.1 hempty, List.map_nil, List.length_nil]
    rw [hnil, Nat.cast_zero, div_zero, Exact.value_zero]
  · simp only [hzip, Exact.value_div, Exact.value_ratio, hlength, Int.cast_one, div_one,
      Int.cast_natCast]
    rw [map_pairwiseSum Exact.value_add Exact.value_zero, List.map_map, List.map_map,
      ← List.sum_toFinset _ (nodup_occurringTags _), toFinset_occurringTags_zip h']
    congr 1
    refine sum_congr rfl fun tag _ => ?_
    simp [tagResult_zip h' tag]

/-- **The average of recall is computed as it is defined**, up to the NUL characters at the ends of
tags. -/
theorem value_weightedAverage_recallScore (h : truth.length = predicted.length) :
    (weightedAverage TagResult.recallScore (truth.zip predicted) : Exact).value =
      weightedRecall (truth.map withoutFinalNuls) (predicted.map withoutFinalNuls) := by
  have h' := length_map_eq_length_map withoutFinalNuls h
  rw [value_weightedAverage _ h, weightedRecall, sum_count_truth]
  congr 1
  refine sum_congr rfl fun tag _ => ?_
  rw [tagResult_zip h' tag, TagResult.recallScore, value_share, mul_comm, recallOf]

/-! ### Averages of proportions -/

/-- The average of a figure that is a proportion for every tag is a proportion. -/
lemma isProportion_weightedAverage {figure : TagResult → Exact}
    (h : truth.length = predicted.length)
    (hfigure : ∀ r : TagResult, r.both ≤ r.correct → r.both ≤ r.found → (figure r).IsProportion) :
    (weightedAverage figure (truth.zip predicted)).IsProportion := by
  have h' := length_map_eq_length_map withoutFinalNuls h
  have hresult : ∀ tag, (figure (tagResult
      ((truth.map withoutFinalNuls).zip (predicted.map withoutFinalNuls)) tag)).IsProportion := by
    intro tag
    rw [tagResult_zip h' tag]
    exact hfigure _ (count_zip_le_left h' tag) (count_zip_le_right h' tag)
  rw [Exact.IsProportion, value_weightedAverage figure h]
  constructor
  · refine div_nonneg (sum_nonneg fun tag _ => ?_) (Nat.cast_nonneg _)
    exact mul_nonneg (hresult tag).1 (Nat.cast_nonneg _)
  · refine div_le_one_of_le₀ ?_ (Nat.cast_nonneg _)
    rw [← sum_count_truth _ (predicted.map withoutFinalNuls)]
    refine sum_le_sum fun tag _ => ?_
    exact mul_le_of_le_one_left (Nat.cast_nonneg _) (hresult tag).2

namespace TagResult

variable {r : TagResult}

/-- Precision lies between zero and one. -/
lemma isProportion_precisionScore (h : r.both ≤ r.found) :
    (r.precisionScore : Exact).IsProportion :=
  isProportion_share h

/-- Recall lies between zero and one. -/
lemma isProportion_recallScore (h : r.both ≤ r.correct) : (r.recallScore : Exact).IsProportion :=
  isProportion_share h

/-- The F1 score lies between zero and one. -/
lemma isProportion_f1Score (hcorrect : r.both ≤ r.correct) (hfound : r.both ≤ r.found) :
    (r.f1Score : Exact).IsProportion :=
  isProportion_share (by omega)

end TagResult

/-! ### The order of the tokens -/

section Order

variable {P : Type u} [Probability P] {pairs pairs' : List (Tag × Tag)}

/-- What is counted for a tag does not depend on the order of the pairs. -/
lemma tagResult_perm (h : pairs.Perm pairs') (tag : Tag) :
    tagResult pairs tag = tagResult pairs' tag := by
  simp only [tagResult, h.countP_eq]

/-- The same tags in any order are sorted in the same way. -/
lemma occurringTags_perm (h : pairs.Perm pairs') : occurringTags pairs = occurringTags pairs' := by
  have hdistinct : (distinct (pairs.map Prod.fst ++ pairs.map Prod.snd)).Perm
      (distinct (pairs'.map Prod.fst ++ pairs'.map Prod.snd)) := by
    refine (List.perm_ext_iff_of_nodup (nodup_distinct _) (nodup_distinct _)).2 fun tag => ?_
    rw [mem_distinct, mem_distinct, ((h.map Prod.fst).append (h.map Prod.snd)).mem_iff]
  have hsorted : ∀ l : List Tag, (l.mergeSort fun a b => decide (a ≤ b)).Pairwise (· ≤ ·) := by
    intro l
    have hpairwise : (l.mergeSort fun a b => decide (a ≤ b)).Pairwise fun a b => decide (a ≤ b) :=
      List.pairwise_mergeSort (fun _ _ _ => by simpa using String.le_trans)
        (fun _ _ => by simpa using String.le_total _ _) l
    simpa using hpairwise
  refine List.Perm.eq_of_pairwise (fun _ _ _ _ => String.le_antisymm) (hsorted _) (hsorted _) ?_
  exact ((List.mergeSort_perm _ _).trans hdistinct).trans (List.mergeSort_perm _ _).symm

/-- **An average does not depend on the order of the tokens**, whatever the arithmetic: the tags are
sorted before their figures are added. -/
theorem weightedAverage_perm (figure : TagResult → P) (h : pairs.Perm pairs') :
    weightedAverage figure pairs = weightedAverage figure pairs' := by
  have hmap := h.map fun p : Tag × Tag => (withoutFinalNuls p.1, withoutFinalNuls p.2)
  have hresult := funext (tagResult_perm hmap)
  simp only [weightedAverage, h.isEmpty_eq, occurringTags_perm hmap, hresult, hmap.length_eq]

end Order

end TrellisTagger
