import Mathlib.Analysis.SpecialFunctions.Log.Basic
import TrellisTagger.Proofs.Weight

/-!
# Exact arithmetic

Rational numbers in place of floats, and real logarithms with a least element for what is
impossible. What holds of probabilities only up to rounding can be stated about these.

## Main definitions

* `TrellisTagger.Exact` — rational numbers as probabilities.
* `TrellisTagger.IncreasingLogarithm` — logarithms of positive numbers compare like the numbers.
* `TrellisTagger.antilog` — the number of which a weight is the logarithm.

## Main results

* `TrellisTagger.antilog_logWeight` — the weight of a probability is its logarithm.
* `TrellisTagger.antilog_add`, `TrellisTagger.logWeight_mul` — sums of weights are weights of
  products.

## Design

The rational numbers are wrapped, so that the operations of the models do not meet those of the
field on one type. `Exact.value` takes every operation to the one of the field.
-/

namespace TrellisTagger

/-- A rational number as a probability. -/
@[ext] structure Exact where
  /-- The number. -/
  value : ℚ
  deriving DecidableEq

namespace Exact

/-- Exact numbers compute with probabilities as rational numbers do. -/
instance : Probability Exact where
  zero := ⟨0⟩
  one := ⟨1⟩
  add a b := ⟨a.value + b.value⟩
  sub a b := ⟨a.value - b.value⟩
  mul a b := ⟨a.value * b.value⟩
  div a b := ⟨a.value / b.value⟩
  beq a b := decide (a.value = b.value)
  lt a b := a.value < b.value
  le a b := a.value ≤ b.value
  decidableLT a b := inferInstanceAs (Decidable (a.value < b.value))
  decidableLE a b := inferInstanceAs (Decidable (a.value ≤ b.value))
  ratio n d := ⟨n / d⟩

variable (a b : Exact)

/-- Zero has the value zero. -/
@[simp] lemma value_zero : (0 : Exact).value = 0 := rfl

/-- One has the value one. -/
@[simp] lemma value_one : (1 : Exact).value = 1 := rfl

/-- Values of sums are sums. -/
@[simp] lemma value_add : (a + b).value = a.value + b.value := rfl

/-- Values of differences are differences. -/
@[simp] lemma value_sub : (a - b).value = a.value - b.value := rfl

/-- Values of products are products. -/
@[simp] lemma value_mul : (a * b).value = a.value * b.value := rfl

/-- Values of quotients are quotients. -/
@[simp] lemma value_div : (a / b).value = a.value / b.value := rfl

/-- A ratio of counts has their quotient for its value. -/
@[simp] lemma value_ratio (n d : ℤ) : (ratio n d : Exact).value = n / d := rfl

/-- Exact numbers are compared by their values. -/
lemma lt_iff : a < b ↔ a.value < b.value := Iff.rfl

/-- Exact numbers are compared by their values, also where they may be equal. -/
lemma le_iff : a ≤ b ↔ a.value ≤ b.value := Iff.rfl

/-- Exact numbers count as equal just if their values are. -/
lemma beq_iff : (a == b) = true ↔ a.value = b.value := decide_eq_true_iff

end Exact

/-! ### Logarithms -/

/-- The logarithm of positive numbers is some strictly increasing function. -/
class IncreasingLogarithm (W : Type*) [LogWeight W] [Logarithm Exact W] : Prop where
  /-- Positive numbers are possible. -/
  log_ne_impossible {p : Exact} (h : 0 < p.value) : (Logarithm.log p : W) ≠ impossible
  /-- Greater numbers have greater logarithms. -/
  log_lt_log {p q : Exact} (hp : 0 < p.value) (h : p < q) : (Logarithm.log p : W) < Logarithm.log q

/-- Logarithms of positive numbers compare like the numbers. -/
lemma log_lt_log_iff {W : Type*} [LogWeight W] [OrderedWeight W] [Logarithm Exact W]
    [IncreasingLogarithm W] {p q : Exact} (hp : 0 < p.value) (hq : 0 < q.value) :
    (Logarithm.log p : W) < Logarithm.log q ↔ p < q := by
  refine ⟨fun h => ?_, IncreasingLogarithm.log_lt_log hp⟩
  by_contra hle
  rcases (not_lt.1 hle : q.value ≤ p.value).eq_or_lt with heq | hlt
  · rw [Exact.ext heq] at h
    exact OrderedWeight.lt_asymm h h
  · exact OrderedWeight.lt_asymm h (IncreasingLogarithm.log_lt_log hq hlt)

/-- Exact numbers are weighed by the natural logarithms of their values. -/
noncomputable instance : Logarithm Exact (WithBot ℝ) :=
  ⟨fun p => ((Real.log p.value : ℝ) : WithBot ℝ)⟩

/-- The natural logarithm of a greater positive number is greater. -/
instance : IncreasingLogarithm (WithBot ℝ) where
  log_ne_impossible _ := WithBot.coe_ne_bot
  log_lt_log hp h := WithBot.coe_lt_coe.2 (Real.log_lt_log (Rat.cast_pos.2 hp) (Rat.cast_lt.2 h))

/-- The number of which a weight is the logarithm. -/
noncomputable def antilog : WithBot ℝ → ℝ := WithBot.recBotCoe 0 Real.exp

/-- What is impossible has probability zero. -/
@[simp] lemma antilog_impossible : antilog impossible = 0 := rfl

/-- A weight that is a real number has its exponential for a probability. -/
lemma antilog_coe (x : ℝ) : antilog x = Real.exp x := rfl

/-- The weight zero has probability one. -/
@[simp] lemma antilog_zero : antilog 0 = 1 := Real.exp_zero

/-- No weight has a negative probability. -/
lemma antilog_nonneg (w : WithBot ℝ) : 0 ≤ antilog w := by
  induction w with
  | bot => exact le_refl 0
  | coe x => exact (Real.exp_pos x).le

/-- Just the impossible weight is the logarithm of zero. -/
lemma impossible_lt_iff {w : WithBot ℝ} : impossible < w ↔ 0 < antilog w := by
  induction w with
  | bot => exact iff_of_false (lt_irrefl _) (lt_irrefl (0 : ℝ))
  | coe x => exact iff_of_true (WithBot.bot_lt_coe x) (Real.exp_pos x)

/-- **Weights are added where numbers are multiplied.** -/
lemma antilog_add (v w : WithBot ℝ) : antilog (v + w) = antilog v * antilog w := by
  induction v with
  | bot => rw [WithBot.bot_add]; exact (zero_mul _).symm
  | coe x =>
    induction w with
    | bot => rw [WithBot.add_bot]; exact (mul_zero _).symm
    | coe y => rw [← WithBot.coe_add, antilog_coe, antilog_coe, antilog_coe, Real.exp_add]

/-- A positive number is weighed by its logarithm. -/
lemma logWeight_of_pos {p : Exact} (h : 0 < p.value) :
    (logWeight p : WithBot ℝ) = Logarithm.log p :=
  if_neg fun hle => absurd ((Exact.le_iff p 0).1 hle) (not_le.2 h)

/-- The weight of zero is that of the impossible. -/
lemma logWeight_of_eq_zero {p : Exact} (h : p.value = 0) : (logWeight p : WithBot ℝ) = impossible :=
  if_pos ((Exact.le_iff p 0).2 h.le)

/-- **The weight of a probability is its logarithm.** -/
theorem antilog_logWeight {p : Exact} (h : 0 ≤ p.value) : antilog (logWeight p) = p.value := by
  rcases h.eq_or_lt with hzero | hpos
  · rw [logWeight_of_eq_zero hzero.symm, antilog_impossible, ← hzero, Rat.cast_zero]
  · rw [logWeight_of_pos hpos]
    exact Real.exp_log (Rat.cast_pos.2 hpos)

/-- The weight of a product is the sum of the weights. -/
lemma logWeight_mul {p q : Exact} (hp : 0 ≤ p.value) (hq : 0 ≤ q.value) :
    (logWeight (p * q) : WithBot ℝ) = logWeight p + logWeight q := by
  rcases hp.eq_or_lt with hp | hp
  · rw [logWeight_of_eq_zero hp.symm, impossible_add, logWeight_of_eq_zero]
    rw [Exact.value_mul, ← hp, zero_mul]
  rcases hq.eq_or_lt with hq | hq
  · rw [logWeight_of_eq_zero hq.symm, add_impossible, logWeight_of_eq_zero]
    rw [Exact.value_mul, ← hq, mul_zero]
  · have hpq : 0 < (p * q).value := mul_pos hp hq
    rw [logWeight_of_pos hp, logWeight_of_pos hq, logWeight_of_pos hpq]
    show ((Real.log ((p.value * q.value : ℚ) : ℝ) : ℝ) : WithBot ℝ) =
      Real.log p.value + Real.log q.value
    rw [Rat.cast_mul, Real.log_mul (Rat.cast_ne_zero.2 hp.ne') (Rat.cast_ne_zero.2 hq.ne'),
      WithBot.coe_add]

end TrellisTagger
