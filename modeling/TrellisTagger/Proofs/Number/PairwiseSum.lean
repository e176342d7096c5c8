import Mathlib.Algebra.BigOperators.Group.List.Basic
import Mathlib.Tactic.Lemma
import TrellisTagger.Number.PairwiseSum

/-!
# What adding by halves adds up to

Where addition does not round, the order in which numbers are added does not matter. So lanes, pairs
and halves give the plain sum. This is said of any measure of the numbers that addition preserves,
so that it applies to numbers that are not yet known to form a monoid.

## Main results

* `TrellisTagger.PairwiseSum.sum_lanes` — the lanes add up to the rounds that have been read.
* `TrellisTagger.map_pairwiseSum` — a measure of the sum is the sum of the measures.
-/

namespace TrellisTagger

universe u v

variable {P : Type u} {M : Type v} [Add P] [AddCommMonoid M] {f : P → M}

namespace PairwiseSum

section

variable (hadd : ∀ a b, f (a + b) = f a + f b)
include hadd

/-- Adding adjacent numbers does not change the sum. -/
lemma sum_pairUp (l : List P) : ((pairUp l).map f).sum = (l.map f).sum := by
  fun_induction pairUp l with
  | case1 a b l ih => simp only [List.map_cons, List.sum_cons, ih, hadd, add_assoc]
  | case2 l => rfl

/-- Numbers that are added one after another. -/
lemma map_foldl_add (l : List P) (a : P) : f (l.foldl (· + ·) a) = f a + (l.map f).sum := by
  induction l generalizing a with
  | nil => simp
  | cons b l ih =>
    rw [List.foldl_cons, ih, hadd, List.map_cons, List.sum_cons, add_assoc]

/-- **The lanes add up to the rounds that have been read.**

**Proof sketch.** By induction on the rounds: each adds the next eight numbers, one to each lane. -/
theorem sum_lanes {l : List P} {rounds : Nat} (h : laneCount * (rounds + 1) ≤ l.length) :
    (lanes l rounds).length = laneCount ∧
      ((lanes l rounds).map f).sum = ((l.take (laneCount * (rounds + 1))).map f).sum := by
  induction rounds with
  | zero =>
    rw [Nat.zero_add, Nat.mul_one] at h ⊢
    exact ⟨List.length_take_of_le h, rfl⟩
  | succ rounds ih =>
    have hsplit : laneCount * (rounds + 1 + 1) = laneCount * (rounds + 1) + laneCount :=
      Nat.mul_succ _ _
    obtain ⟨hlength, hsum⟩ := ih (by omega)
    have hnext : ((l.drop (laneCount * (rounds + 1))).take laneCount).length = laneCount := by
      rw [List.length_take, List.length_drop]
      omega
    have hstep : lanes l (rounds + 1) =
        List.zipWith (· + ·) (lanes l rounds)
          ((l.drop (laneCount * (rounds + 1))).take laneCount) := by
      rw [lanes, List.range_succ, List.foldl_concat, ← lanes]
    rw [hstep]
    constructor
    · rw [List.length_zipWith, hlength, hnext, Nat.min_self]
    · have hlanes : ((lanes l rounds).map f).length =
          (((l.drop (laneCount * (rounds + 1))).take laneCount).map f).length := by
        rw [List.length_map, List.length_map, hlength, hnext]
      rw [List.map_zipWith]
      simp only [hadd]
      rw [← List.zipWith_map, ← List.sum_add_sum_eq_sum_zipWith_of_length_eq _ _ hlanes, hsum,
        hsplit, List.take_add, List.map_append, List.sum_append]

end

/-- Adding neighbours leaves half as many numbers, rounded up. -/
lemma length_pairUp (l : List P) : (pairUp l).length = (l.length + 1) / 2 := by
  fun_induction pairUp l with
  | case1 a b l ih =>
    simp only [List.length_cons, ih]
    omega
  | case2 l h =>
    match l, h with
    | [], _ => simp
    | [_], _ => simp
    | a :: b :: l, h => exact absurd rfl (h a b l)

variable [Zero P] (hadd : ∀ a b, f (a + b) = f a + f b) (hzero : f 0 = 0)
include hadd hzero

/-- Numbers that are not cut into halves. -/
lemma map_whole (l : List P) : f (whole l) = (l.map f).sum := by
  rw [whole, map_foldl_add hadd]
  split
  · rename_i hnone
    rw [hnone, Nat.mul_zero, List.drop_zero, hzero, zero_add]
  · rename_i hrounds
    obtain ⟨n, hn⟩ := Nat.exists_eq_succ_of_ne_zero hrounds
    have hread : laneCount * (n + 1) ≤ l.length := by
      rw [← Nat.succ_eq_add_one, ← hn]
      exact Nat.mul_div_le _ _
    obtain ⟨hlength, hsum⟩ := sum_lanes hadd hread
    rw [hn, Nat.succ_eq_add_one, Nat.add_sub_cancel]
    -- eight lanes make four pairs, two, and then one
    have hsingle : (pairUp (pairUp (pairUp (lanes l n)))).length = 1 := by
      rw [length_pairUp, length_pairUp, length_pairUp, hlength]
      rfl
    obtain ⟨x, hx⟩ := List.length_eq_one_iff.1 hsingle
    have hpairs := sum_pairUp hadd (pairUp (pairUp (lanes l n)))
    rw [hx, sum_pairUp hadd, sum_pairUp hadd, hsum, List.map_singleton,
      List.sum_singleton] at hpairs
    rw [hx, List.headD_cons, hpairs, ← List.sum_append, ← List.map_append, List.take_append_drop]

end PairwiseSum

open PairwiseSum in
/-- **A measure of the sum is the sum of the measures**, if addition preserves the measure. -/
theorem map_pairwiseSum [Zero P] (hadd : ∀ a b, f (a + b) = f a + f b) (hzero : f 0 = 0)
    (l : List P) :
    f (pairwiseSum l) = (l.map f).sum := by
  fun_induction pairwiseSum l with
  | case1 l h => exact map_whole hadd hzero l
  | case2 l h ihfirst ihsecond =>
    rw [hadd, ihfirst, ihsecond, ← List.sum_append, ← List.map_append, List.take_append_drop]

end TrellisTagger
