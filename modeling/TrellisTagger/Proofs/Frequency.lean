import Mathlib.Algebra.BigOperators.Field
import Mathlib.Algebra.Order.BigOperators.Group.Finset
import Mathlib.Algebra.Order.Field.Rat
import TrellisTagger.Proofs.Counting
import TrellisTagger.Proofs.Exact

/-!
# Frequencies as distributions

In exact arithmetic the frequencies of the events of a list are nonnegative and add up to one, or to
zero where there are no events. What is made of them by mixing, and by making single numbers
smaller, adds up to no more than one.

## Main definitions

* `TrellisTagger.frequency` — the share of an event among the events of a list.
* `TrellisTagger.IsSubdistribution` — nonnegative numbers that add up to at most one.
* `TrellisTagger.Table.mass` — the sum of the numbers of a table.

## Main results

* `TrellisTagger.value_relativeFrequencies` — a table of relative frequencies holds the shares.
* `TrellisTagger.isSubdistribution_frequency`, `TrellisTagger.IsSubdistribution.mix`,
  `TrellisTagger.IsSubdistribution.of_le` — what adds up to at most one.
* `TrellisTagger.mass_relativeFrequencies` — the shares of the events of a list add up to one.
-/

namespace TrellisTagger

open Finset

universe u

variable {α : Type u}

/-! ### Numbers that add up to at most one -/

/-- Nonnegative numbers of which no finitely many add up to more than one. -/
structure IsSubdistribution (f : α → ℚ) : Prop where
  /-- There are no negative numbers. -/
  nonneg : ∀ a, 0 ≤ f a
  /-- No sum exceeds one. -/
  sum_le_one : ∀ s : Finset α, ∑ a ∈ s, f a ≤ 1

namespace IsSubdistribution

variable {f g h : α → ℚ}

/-- No share of a subdistribution exceeds one. -/
lemma le_one (hf : IsSubdistribution f) (a : α) : f a ≤ 1 := by
  simpa using hf.sum_le_one {a}

/-- Making numbers smaller does no harm. -/
lemma of_le (hf : IsSubdistribution f) (hg : ∀ a, 0 ≤ g a) (hle : ∀ a, g a ≤ f a) :
    IsSubdistribution g :=
  ⟨hg, fun s => (sum_le_sum fun a _ => hle a).trans (hf.sum_le_one s)⟩

/-- A mixture adds up to at most one, if its weights do. -/
lemma mix (hf : IsSubdistribution f) (hg : IsSubdistribution g) (hh : IsSubdistribution h)
    {x y z : ℚ} (hx : 0 ≤ x) (hy : 0 ≤ y) (hz : 0 ≤ z) (hxyz : x + y + z ≤ 1) :
    IsSubdistribution fun a => x * f a + y * g a + z * h a where
  nonneg a := by
    have := mul_nonneg hx (hf.nonneg a)
    have := mul_nonneg hy (hg.nonneg a)
    have := mul_nonneg hz (hh.nonneg a)
    linarith
  sum_le_one s := by
    calc ∑ a ∈ s, (x * f a + y * g a + z * h a)
        = x * ∑ a ∈ s, f a + y * ∑ a ∈ s, g a + z * ∑ a ∈ s, h a := by
          rw [sum_add_distrib, sum_add_distrib, mul_sum, mul_sum, mul_sum]
      _ ≤ x * 1 + y * 1 + z * 1 := by
          have := mul_le_mul_of_nonneg_left (hf.sum_le_one s) hx
          have := mul_le_mul_of_nonneg_left (hg.sum_le_one s) hy
          have := mul_le_mul_of_nonneg_left (hh.sum_le_one s) hz
          linarith
      _ ≤ 1 := by linarith

end IsSubdistribution

/-! ### Shares of events -/

section Shares

variable [DecidableEq α]

/-- The share of an event among the events of a list. -/
def frequency (l : List α) (a : α) : ℚ := l.count a / l.length

/-- No frequency is negative. -/
lemma frequency_nonneg (l : List α) (a : α) : 0 ≤ frequency l a :=
  div_nonneg (Nat.cast_nonneg _) (Nat.cast_nonneg _)

/-- What occurs has a positive frequency. -/
lemma frequency_pos {l : List α} {a : α} (h : a ∈ l) : 0 < frequency l a :=
  div_pos (Nat.cast_pos.2 (List.count_pos_iff.2 h)) (Nat.cast_pos.2 (List.length_pos_of_mem h))

/-- What does not occur has the frequency zero. -/
lemma frequency_of_not_mem {l : List α} {a : α} (h : a ∉ l) : frequency l a = 0 := by
  rw [frequency, List.count_eq_zero_of_not_mem h, Nat.cast_zero, zero_div]

/-- **The shares of all events add up to one.** -/
lemma sum_frequency {l : List α} (h : l ≠ []) : ∑ a ∈ l.toFinset, frequency l a = 1 := by
  have hlength : (l.length : ℚ) ≠ 0 := Nat.cast_ne_zero.2 (List.length_pos_of_ne_nil h).ne'
  simp only [frequency]
  rw [← sum_div, ← Nat.cast_sum, List.sum_toFinset_count_eq_length, div_self hlength]

/-- The frequencies of the elements of a list add up to at most one. -/
theorem isSubdistribution_frequency (l : List α) : IsSubdistribution (frequency l) where
  nonneg := frequency_nonneg l
  sum_le_one s := by
    rcases eq_or_ne l [] with rfl | hl
    · simp [frequency]
    calc ∑ a ∈ s, frequency l a
        = ∑ a ∈ s with a ∈ l.toFinset, frequency l a := by
          refine (sum_filter_of_ne fun a _ hne => ?_).symm
          by_contra hmem
          exact hne (frequency_of_not_mem fun h => hmem (List.mem_toFinset.2 h))
      _ ≤ ∑ a ∈ l.toFinset, frequency l a :=
          sum_le_sum_of_subset_of_nonneg (fun a ha => (mem_filter.1 ha).2)
            fun a _ _ => frequency_nonneg l a
      _ = 1 := sum_frequency hl

/-- What a reader of a table of relative frequencies sees. -/
theorem value_relativeFrequencies (l : List α) (a : α) :
    ((relativeFrequencies (tally l) : Table α Exact).getD a 0).value = frequency l a := by
  rw [Table.getD, get?_relativeFrequencies]
  split
  · simp [frequency]
  · rename_i h
    rw [frequency_of_not_mem h]
    rfl

end Shares

/-! ### Tables -/

/-- The sum of the numbers of a table. -/
def Table.mass (t : Table α Exact) : ℚ := (t.values.map Exact.value).sum

variable [DecidableEq α]

/-- The sum of the numbers is that of what readers see under the keys. -/
lemma Table.mass_eq_sum (t : Table α Exact) :
    t.mass = ∑ k ∈ t.keys.toFinset, (t.getD k 0).value := by
  have hnodup : t.keys.Nodup := t.keys_nodup
  rw [List.sum_toFinset _ hnodup, mass, t.values_eq_map_keys 0, List.map_map]
  rfl

/-- The mass of a table that is a subdistribution is at most one. -/
lemma mass_le_one {t : Table α Exact} (h : IsSubdistribution fun k => (t.getD k 0).value) :
    t.mass ≤ 1 := by
  rw [t.mass_eq_sum]
  exact h.sum_le_one _

/-- **The relative frequencies of the events of a list add up to one.** -/
theorem mass_relativeFrequencies {l : List α} (h : l ≠ []) :
    (relativeFrequencies (tally l) : Table α Exact).mass = 1 := by
  have hkeys : (relativeFrequencies (tally l) : Table α Exact).keys.toFinset = l.toFinset := by
    ext a
    rw [List.mem_toFinset, List.mem_toFinset, keys_relativeFrequencies, mem_distinct]
  rw [Table.mass_eq_sum, hkeys, ← sum_frequency h]
  exact sum_congr rfl fun a _ => value_relativeFrequencies l a

end TrellisTagger
