import TrellisTagger.Interpolation
import TrellisTagger.Proofs.Counting
import TrellisTagger.Proofs.Exact
import TrellisTagger.Proofs.Number.Positive

/-!
# Votes on interpolation weights

Every trigram that occurs votes with its count for one of the three lengths of history. The votes
are added up as probabilities, so on floats they are rounded; still they add up to zero only if
there are no trigrams at all. This is what decides whether training estimates the weights or leaves
them as they are.

## Main definitions

* `TrellisTagger.PositiveCounts` — the laws of sums of counts that floats and exact numbers share.
* `TrellisTagger.ByHistory.IsNonneg` — three numbers that are not negative.

## Main results

* `TrellisTagger.TagCounts.mem_occurrences` — the trigrams that vote, and their counts.
* `TrellisTagger.TagCounts.isNonneg_votes`, `TrellisTagger.TagCounts.total_votes_pos` — votes are
  not negative, and their sum is positive if there is one.
* `TrellisTagger.TagCounts.deletedInterpolation_eq_none_iff` — the weights can be estimated from any
  contexts but none.
-/

namespace TrellisTagger

universe u

/-! ### Sums of counts -/

/-- The laws of sums of counts. They hold of floats, where sums are rounded, as well as of exact
numbers. -/
class PositiveCounts (P : Type u) [Probability P] : Prop where
  /-- Zero is not negative. -/
  zero_le_zero : (0 : P) ≤ 0
  /-- What is positive is not negative. -/
  zero_le_of_zero_lt {x : P} : 0 < x → 0 ≤ x
  /-- A sum without negative parts is not negative. -/
  add_nonneg {x y : P} : 0 ≤ x → 0 ≤ y → 0 ≤ x + y
  /-- A sum is positive if its first part is and its second part is not negative. -/
  add_pos_of_pos_of_nonneg {x y : P} : 0 < x → 0 ≤ y → 0 < x + y
  /-- A sum is positive if its second part is and its first part is not negative. -/
  add_pos_of_nonneg_of_pos {x y : P} : 0 ≤ x → 0 < y → 0 < x + y
  /-- The number for a positive integer is positive. -/
  ratio_pos {n : Int} : 0 < n → (0 : P) < ratio n 1
  /-- What is positive does not pass for zero. -/
  beq_zero_of_pos {x : P} : 0 < x → (x == 0) = false
  /-- Nothing but zeros add up to zero. -/
  total_zero : ((0 + 0 + 0 : P) == 0) = true

export PositiveCounts (zero_le_of_zero_lt)

/-- Exact numbers obey the laws of positive counts. -/
instance : PositiveCounts Exact where
  zero_le_zero := le_refl (0 : ℚ)
  zero_le_of_zero_lt h := le_of_lt (α := ℚ) h
  add_nonneg hx hy := add_nonneg (α := ℚ) hx hy
  add_pos_of_pos_of_nonneg hx hy := add_pos_of_pos_of_nonneg (α := ℚ) hx hy
  add_pos_of_nonneg_of_pos hx hy := add_pos_of_nonneg_of_pos (α := ℚ) hx hy
  ratio_pos h := by
    rw [Exact.lt_iff, Exact.value_ratio, Int.cast_one, div_one]
    exact Int.cast_pos.2 h
  beq_zero_of_pos h := decide_eq_false (ne_of_gt (α := ℚ) h)
  total_zero := (Exact.beq_iff _ _).2 (by simp)

/-- Floats obey the laws of positive counts, although sums are rounded. -/
instance : PositiveCounts Float where
  zero_le_zero := by decide
  zero_le_of_zero_lt := Binary64.zero_le_of_zero_lt
  add_nonneg := Binary64.add_nonneg
  add_pos_of_pos_of_nonneg hx hy := (Binary64.add_pos_of_pos_of_nonneg hx hy).1
  add_pos_of_nonneg_of_pos hx hy := (Binary64.add_pos_of_pos_of_nonneg hy hx).2
  ratio_pos := Binary64.ratio_pos
  beq_zero_of_pos := Binary64.beq_zero_of_pos
  total_zero := by decide

namespace ByHistory

variable {P : Type u} [Probability P]

/-- None of the three numbers is negative. -/
structure IsNonneg (e : ByHistory P) : Prop where
  /-- The number for two tags of history is not negative. -/
  trigram : 0 ≤ e.trigram
  /-- The number for one tag of history is not negative. -/
  bigram : 0 ≤ e.bigram
  /-- The number for no history is not negative. -/
  unigram : 0 ≤ e.unigram

variable [PositiveCounts P] {e : ByHistory P} {x : P}

open PositiveCounts

/-- Votes that are not negative remain so when a number that is not negative is added. -/
lemma IsNonneg.add (he : e.IsNonneg) (h : History) (hx : 0 ≤ x) : (e.add h x).IsNonneg := by
  obtain ⟨htri, hbi, huni⟩ := he
  cases h with
  | trigram => exact ⟨add_nonneg htri hx, hbi, huni⟩
  | bigram => exact ⟨htri, add_nonneg hbi hx, huni⟩
  | unigram => exact ⟨htri, hbi, add_nonneg huni hx⟩

/-- One positive vote makes the sum positive, whatever it is for. -/
lemma IsNonneg.total_add_pos (he : e.IsNonneg) (h : History) (hx : 0 < x) :
    0 < (e.add h x).total := by
  obtain ⟨htri, hbi, huni⟩ := he
  cases h with
  | trigram =>
    exact add_pos_of_pos_of_nonneg
      (add_pos_of_pos_of_nonneg (add_pos_of_nonneg_of_pos htri hx) hbi) huni
  | bigram =>
    exact add_pos_of_pos_of_nonneg
      (add_pos_of_nonneg_of_pos htri (add_pos_of_nonneg_of_pos hbi hx)) huni
  | unigram =>
    exact add_pos_of_nonneg_of_pos (add_nonneg htri hbi) (add_pos_of_nonneg_of_pos huni hx)

end ByHistory

namespace TagCounts

/-! ### The trigrams that vote -/

/-- **The trigrams that vote are those that occur**, each with the number of its occurrences. -/
theorem mem_occurrences {contexts : List LabelledContext} {a b c : Tag} {n : Int} :
    ((a, b, c), n) ∈ (ofContexts contexts).occurrences ↔
      (a, b, c) ∈ contexts.map LabelledContext.trigram ∧
        n = (contexts.map LabelledContext.trigram).count (a, b, c) := by
  -- the table has the tags under each history
  have hmem : (a, b, c) ∈ contexts.map LabelledContext.trigram ↔
      ((a, b), c) ∈ contexts.map fun c => ((c.beforePrevious, c.previous), c.tag) := by
    simp [LabelledContext.trigram, and_assoc]
  have hcount : (contexts.map LabelledContext.trigram).count (a, b, c) =
      (under (a, b) (contexts.map fun c => ((c.beforePrevious, c.previous), c.tag))).count c := by
    rw [count_under, List.count, List.count, List.countP_map, List.countP_map]
    refine List.countP_congr fun e _ => ?_
    simp [LabelledContext.trigram, and_assoc]
  rw [hmem, hcount, ← mem_entries_crossTally]
  constructor
  · intro h
    obtain ⟨⟨history, row⟩, hrow, h⟩ := List.mem_flatMap.1 h
    obtain ⟨⟨tag, m⟩, hm, heq⟩ := List.mem_map.1 h
    cases heq
    exact ⟨row, hrow, hm⟩
  · rintro ⟨row, hrow, hn⟩
    exact List.mem_flatMap.2 ⟨((a, b), row), hrow, List.mem_map.2 ⟨(c, n), hn, rfl⟩⟩

/-- Every trigram that is counted has a positive count. -/
lemma pos_of_mem_occurrences {contexts : List LabelledContext} :
    ∀ e ∈ (ofContexts contexts).occurrences, 0 < e.2 := by
  rintro ⟨⟨a, b, c⟩, n⟩ h
  obtain ⟨hmem, rfl⟩ := mem_occurrences.1 h
  exact Int.natCast_pos.2 (List.count_pos_iff.2 hmem)

/-- There are trigrams as soon as there is a context. -/
lemma occurrences_ne_nil {contexts : List LabelledContext} (h : contexts ≠ []) :
    (ofContexts contexts).occurrences ≠ [] := by
  obtain ⟨c, rest, rfl⟩ := List.exists_cons_of_ne_nil h
  exact List.ne_nil_of_mem (mem_occurrences.2 ⟨List.mem_map_of_mem List.mem_cons_self, rfl⟩)

/-! ### Sums of votes -/

section Sums

variable {P : Type u} [Probability P] [PositiveCounts P]

open PositiveCounts

/-- Votes that are counted one after another never make a number negative. -/
lemma isNonneg_foldl_add {l : List ((Tag × Tag × Tag) × Int)} (hl : ∀ e ∈ l, 0 < e.2)
    (favourite : (Tag × Tag × Tag) × Int → History) {sum : ByHistory P} (hsum : sum.IsNonneg) :
    (l.foldl (fun sum e => sum.add (favourite e) (ratio e.2 1)) sum).IsNonneg := by
  induction l generalizing sum with
  | nil => exact hsum
  | cons e l ih =>
    rw [List.forall_mem_cons] at hl
    exact ih hl.2 (hsum.add _ (zero_le_of_zero_lt (ratio_pos hl.1)))

/-- No number of votes is negative if all trigrams have positive counts. -/
lemma isNonneg_votes {counts : TagCounts} (h : ∀ e ∈ counts.occurrences, 0 < e.2) :
    (counts.votes : ByHistory P).IsNonneg :=
  isNonneg_foldl_add h _ ⟨zero_le_zero, zero_le_zero, zero_le_zero⟩

/-- **The sum of the votes is positive**, if there is one: the last one makes it so. -/
theorem total_votes_pos {counts : TagCounts} (h : ∀ e ∈ counts.occurrences, 0 < e.2)
    (hne : counts.occurrences ≠ []) : 0 < (counts.votes : ByHistory P).total := by
  obtain ⟨earlier, last, hlast⟩ := (List.eq_nil_or_concat counts.occurrences).resolve_left hne
  rw [List.concat_eq_append] at hlast
  rw [hlast, List.forall_mem_append] at h
  rw [votes, hlast, List.foldl_concat]
  refine ByHistory.IsNonneg.total_add_pos (isNonneg_foldl_add h.1 _ ?_) _ (ratio_pos ?_)
  · exact ⟨zero_le_zero, zero_le_zero, zero_le_zero⟩
  · exact h.2 last (List.mem_singleton_self last)

/-- **The weights can be estimated from any contexts but none.** -/
theorem deletedInterpolation_eq_none_iff {contexts : List LabelledContext} :
    ((ofContexts contexts).deletedInterpolation : Option (ByHistory P)) = none ↔ contexts = [] := by
  constructor
  · intro h
    by_contra hne
    have hpos : 0 < ((ofContexts contexts).votes : ByHistory P).total :=
      total_votes_pos pos_of_mem_occurrences (occurrences_ne_nil hne)
    unfold deletedInterpolation at h
    dsimp only at h
    rw [beq_zero_of_pos hpos] at h
    cases h
  · rintro rfl
    exact if_pos total_zero

end Sums

end TagCounts

end TrellisTagger
