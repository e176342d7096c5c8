import Mathlib.Data.Prod.Lex
import Mathlib.Order.Compare
import Mathlib.Tactic.Lemma
import TrellisTagger.Choice
import TrellisTagger.Number.Binary64

/-!
# The order of floats

Floats that are numbers, infinities among them, are compared like the elements of a linear order, so
of several weights without one that is not a number the one that is kept is exceeded by none.

## Main definitions

* `TrellisTagger.Binary64.rank` — where an unpacked number stands among the others.

## Main results

* `TrellisTagger.Binary64.lt_iff_rank_lt` — floats that are numbers compare like their ranks.
* `TrellisTagger.le_of_firstMax?_eq_some` — what is kept is not exceeded, if weights compare like
  the elements of a linear order.

## Design

The two zeros share a rank. What is not a number has one too, which means nothing: comparison with
it always fails.
-/

namespace TrellisTagger

/-! ### Choosing by rank -/

section Choice

variable {α W R : Type*} [LT W] [DecidableLT W] [LinearOrder R] {weight : α → W} {rank : α → R}

/-- The candidate kept at the end of a list has the greatest rank, among the candidates of the list
and the one kept before it. -/
lemma le_foldl_keepGreater {l : List α} {kept : α}
    (hrank : ∀ b ∈ kept :: l, ∀ c ∈ kept :: l, weight b < weight c ↔ rank b < rank c) :
    ∀ b ∈ kept :: l, rank b ≤ rank (l.foldl (keepGreater weight) kept) := by
  induction l generalizing kept with
  | nil => simp
  | cons c l ih =>
    have hkept : kept ∈ kept :: c :: l := List.mem_cons_self
    have hc : c ∈ kept :: c :: l := List.mem_cons_of_mem kept List.mem_cons_self
    have hsub : ∀ b ∈ keepGreater weight kept c :: l, b ∈ kept :: c :: l := by
      intro b hb
      unfold keepGreater at hb
      split at hb
      · exact List.mem_cons_of_mem kept hb
      · rcases List.mem_cons.1 hb with rfl | hb
        · exact hkept
        · exact List.mem_cons_of_mem kept (List.mem_cons_of_mem c hb)
    have hrest := ih fun b hb d hd => hrank b (hsub b hb) d (hsub d hd)
    -- the step keeps the one of greater rank
    have hstep : rank kept ≤ rank (keepGreater weight kept c) ∧
        rank c ≤ rank (keepGreater weight kept c) := by
      unfold keepGreater
      split
      · rename_i hlt
        exact ⟨((hrank kept hkept c hc).1 hlt).le, le_rfl⟩
      · rename_i hlt
        exact ⟨le_rfl, not_lt.1 fun h => hlt ((hrank kept hkept c hc).2 h)⟩
    intro b hb
    rw [List.foldl_cons]
    have hfirst := hrest _ List.mem_cons_self
    rcases List.mem_cons.1 hb with rfl | hb
    · exact hstep.1.trans hfirst
    rcases List.mem_cons.1 hb with rfl | hb
    · exact hstep.2.trans hfirst
    · exact hrest b (List.mem_cons_of_mem _ hb)

/-- **What is kept is not exceeded**, if weights compare like the elements of a linear order. -/
theorem le_of_firstMax?_eq_some {l : List α} {a : α} (h : firstMax? weight l = some a)
    (hrank : ∀ b ∈ l, ∀ c ∈ l, weight b < weight c ↔ rank b < rank c) :
    ∀ b ∈ l, rank b ≤ rank a := by
  cases l with
  | nil => cases h
  | cons c l =>
    obtain rfl := Option.some.inj h
    exact le_foldl_keepGreater hrank

end Choice

namespace Binary64

open Float.Model Float.Model.UnpackedFloat

/-- Where a number stands among the others: sign and range come first, then exponent and
mantissa. -/
def rank : UnpackedFloat → ℤ ×ₗ (ℤ ×ₗ ℤ)
  | .infinity .negative => toLex (-2, toLex (0, 0))
  | .finite .negative m e _ => toLex (-1, toLex (-e, -m))
  | .notANumber | .zero _ => toLex (0, toLex (0, 0))
  | .finite .positive m e _ => toLex (1, toLex (e, m))
  | .infinity .positive => toLex (2, toLex (0, 0))

/-- Unpacked numbers compare like their ranks. -/
lemma compare_eq_lt_iff {x y : UnpackedFloat} (hx : x ≠ .notANumber) (hy : y ≠ .notANumber) :
    x.compare y = some .lt ↔ rank x < rank y := by
  have hsign : compare Sign.negative Sign.positive = .lt := by decide
  -- numbers of two kinds are told apart by the first component; finite ones of one sign by the
  -- others
  rcases x with (_ | _) | _ | _ | ⟨_ | _, m, e, hm⟩ <;>
    rcases y with (_ | _) | _ | _ | ⟨_ | _, n, f, hn⟩ <;>
    first
    | contradiction
    | clear hx hy
      dsimp only [UnpackedFloat.compare, rank]
      simp [hsign, Prod.Lex.lt_iff, Ordering.then_eq_gt, Ordering.then_eq_lt, compare_gt_iff_gt,
        compare_lt_iff_lt]

/-- **Floats that are numbers compare like their ranks.** -/
theorem lt_iff_rank_lt {x y : Float} (hx : x.isNaN = false) (hy : y.isNaN = false) :
    x < y ↔ rank x.toModel.unpack < rank y.toModel.unpack := by
  have hne : ∀ {z : Float}, z.isNaN = false → z.toModel.unpack ≠ .notANumber := by
    intro z hz hnan
    have : z.toModel.unpack.isNaN = false := hz
    rw [hnan] at this
    cases this
  rw [← compare_eq_lt_iff (hne hx) (hne hy)]
  show decide (UnpackedFloat.lt x.toModel.unpack y.toModel.unpack = true) = true ↔ _
  rw [decide_eq_true_iff, UnpackedFloat.lt, beq_iff_eq]

end Binary64

end TrellisTagger
