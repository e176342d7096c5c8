import Mathlib.Tactic.Linarith
import TrellisTagger.Proofs.Frequency
import TrellisTagger.Proofs.Votes
import TrellisTagger.Scorer

/-!
# Convex weights

The interpolation weights that a scorer is made with, and those that training estimates, are
nonnegative and together with what they leave for unigrams add up to one, in exact arithmetic. So
mixtures of distributions add up to at most one.

## Main definitions

* `TrellisTagger.Interpolation.IsConvex` — nonnegative weights that add up to at most one.

## Main results

* `TrellisTagger.Interpolation.isRefused_eq_false_iff` — the weights that are accepted.
* `TrellisTagger.TagCounts.sum_shares`, `TrellisTagger.TagCounts.isConvex_of_deletedInterpolation` —
  the weights that are estimated.
* `TrellisTagger.TrigramScorer.isConvex_weightsAfter` — training keeps weights convex.
* `TrellisTagger.Interpolation.IsConvex.isSubdistribution_mix`,
  `TrellisTagger.Interpolation.IsConvex.mix_pos` — what the weights are for.
-/

namespace TrellisTagger

namespace Interpolation

/-- The weights are nonnegative and leave something, perhaps nothing, for unigrams. -/
structure IsConvex (w : Interpolation Exact) : Prop where
  /-- The weight of trigrams is not negative. -/
  trigram_nonneg : 0 ≤ w.trigram.value
  /-- The weight of bigrams is not negative. -/
  bigram_nonneg : 0 ≤ w.bigram.value
  /-- Together they do not exceed one. -/
  add_le_one : w.trigram.value + w.bigram.value ≤ 1

variable {w : Interpolation Exact}

/-- **Weights are accepted just if they are convex.** -/
lemma isRefused_eq_false_iff : w.isRefused = false ↔ w.IsConvex := by
  simp only [isRefused, Bool.or_eq_false_iff, decide_eq_false_iff_not, Exact.lt_iff, not_lt,
    Exact.value_zero, Exact.value_one, Exact.value_add]
  exact ⟨fun h => ⟨h.1.1, h.1.2, h.2⟩, fun h => ⟨⟨h.trigram_nonneg, h.bigram_nonneg⟩, h.add_le_one⟩⟩

/-- What is left for unigrams is what is missing from one. -/
lemma IsConvex.value_unigram (h : w.IsConvex) :
    w.unigram.value = 1 - w.trigram.value - w.bigram.value := by
  have hle := h.add_le_one
  unfold unigram positivePart
  split
  · rfl
  · rename_i hpos
    rw [Exact.lt_iff, not_lt] at hpos
    simp only [Exact.value_zero, Exact.value_sub, Exact.value_one] at hpos ⊢
    linarith

/-- A mixture of distributions adds up to at most one. -/
lemma IsConvex.isSubdistribution_mix {α : Type*} (hw : w.IsConvex) {f g h : α → ℚ}
    (hf : IsSubdistribution f) (hg : IsSubdistribution g) (hh : IsSubdistribution h) :
    IsSubdistribution fun a =>
      w.trigram.value * f a + w.bigram.value * g a + w.unigram.value * h a := by
  have hunigram := hw.value_unigram
  have hle := hw.add_le_one
  exact hf.mix hg hh hw.trigram_nonneg hw.bigram_nonneg (by linarith) (by linarith)

/-- A mixture of positive numbers is positive: the weights are not all zero, as they add up to
one. -/
lemma IsConvex.mix_pos (hw : w.IsConvex) {x y z : ℚ} (hx : 0 < x) (hy : 0 < y) (hz : 0 < z) :
    0 < w.trigram.value * x + w.bigram.value * y + w.unigram.value * z := by
  have hunigram := hw.value_unigram
  have hle := hw.add_le_one
  have htri := mul_nonneg hw.trigram_nonneg hx.le
  have hbi := mul_nonneg hw.bigram_nonneg hy.le
  have huni : 0 ≤ w.unigram.value * z := mul_nonneg (by linarith) hz.le
  rcases hw.trigram_nonneg.eq_or_lt with htrigram | htrigram
  · rcases hw.bigram_nonneg.eq_or_lt with hbigram | hbigram
    · -- nothing but the unigram counts, with weight one
      have hone : w.unigram.value = 1 := by linarith
      rw [hone] at huni ⊢
      linarith
    · have := mul_pos hbigram hy
      linarith
  · have := mul_pos htrigram hx
    linarith

end Interpolation

namespace TagCounts

section Shares

variable {counts : TagCounts} {shares : ByHistory Exact}

/-- There are no weights just if the votes add up to zero. -/
lemma deletedInterpolation_eq_none_iff_total :
    (counts.deletedInterpolation : Option (ByHistory Exact)) = none ↔
      (counts.votes : ByHistory Exact).total.value = 0 := by
  rw [deletedInterpolation, ite_eq_left_iff, Exact.beq_iff]
  simp

/-- Weights that are estimated are the quotients of the votes and their sum. -/
lemma eq_of_deletedInterpolation_eq_some (h : counts.deletedInterpolation = some shares) :
    (counts.votes : ByHistory Exact).total.value ≠ 0 ∧
      shares = ⟨counts.votes.trigram / counts.votes.total, counts.votes.bigram / counts.votes.total,
        counts.votes.unigram / counts.votes.total⟩ := by
  have hne : (counts.deletedInterpolation : Option (ByHistory Exact)) ≠ none := by simp [h]
  refine ⟨mt deletedInterpolation_eq_none_iff_total.2 hne, ?_⟩
  rw [deletedInterpolation] at h
  split_ifs at h
  exact (Option.some.inj h).symm

/-- **The shares of a whole add up to one.** -/
lemma sum_shares (hshares : counts.deletedInterpolation = some shares) :
    shares.trigram.value + shares.bigram.value + shares.unigram.value = 1 := by
  obtain ⟨hne, rfl⟩ := eq_of_deletedInterpolation_eq_some hshares
  have htotal : ∀ votes : ByHistory Exact,
      votes.total.value = votes.trigram.value + votes.bigram.value + votes.unigram.value :=
        fun _ => rfl
  simp only [Exact.value_div]
  rw [← add_div, ← add_div, ← htotal, div_self hne]

/-- **Estimated weights are convex**: the shares of the votes are nonnegative, and all three of them
add up to one. -/
theorem isConvex_of_deletedInterpolation (h : ∀ e ∈ counts.occurrences, 0 < e.2)
    (hshares : counts.deletedInterpolation = some shares) :
    Interpolation.IsConvex ⟨shares.trigram, shares.bigram⟩ := by
  have hsum := sum_shares hshares
  obtain ⟨htri, hbi, huni⟩ := isNonneg_votes (P := Exact) h
  rw [Exact.le_iff, Exact.value_zero] at htri hbi huni
  have htotal : (0 : ℚ) ≤ (counts.votes : ByHistory Exact).total.value :=
    add_nonneg (add_nonneg htri hbi) huni
  obtain ⟨-, rfl⟩ := eq_of_deletedInterpolation_eq_some hshares
  have hunigram := div_nonneg huni htotal
  simp only [Exact.value_div] at hsum
  exact ⟨div_nonneg htri htotal, div_nonneg hbi htotal, by simp only [Exact.value_div]; linarith⟩

end Shares

end TagCounts

/-- **Training keeps the weights convex.** -/
lemma TrigramScorer.isConvex_weightsAfter {s : TrigramScorer Exact} (h : s.weights.IsConvex)
    (contexts : List LabelledContext) : (s.weightsAfter contexts).IsConvex := by
  unfold weightsAfter
  split
  · split
    · rename_i shares hshares
      exact TagCounts.isConvex_of_deletedInterpolation TagCounts.pos_of_mem_occurrences hshares
    · exact h
  · exact h

end TrellisTagger
