import Mathlib
import TrellisTagger.Proofs.Number.Positive

/-!
# Counts as floats

Two things that rounding leaves alone. The quotient of a natural number by one that is at least as
great lies between zero and one, as the nearest float to it does; and whole numbers below `2 ^ 53`
are floats themselves, so that sums of counts are not rounded at all until they reach this bound.

## Main definitions

* `TrellisTagger.Binary64.whole` — a whole number with a mantissa of 53 bits.

## Main results

* `TrellisTagger.Binary64.unpack_pack_ofParts` — finite numbers are read as they were written.
* `TrellisTagger.Binary64.ratio_mem_unitInterval` — shares lie between zero and one.
* `TrellisTagger.Binary64.ratio_add_ratio` — sums of counts are exact.
-/

namespace TrellisTagger

/-- A quotient below a natural number is not rounded above it. -/
lemma roundHalfEven_le {n d q : Nat} (h : n ≤ q * d) (hd : 0 < d) : roundHalfEven n d ≤ q := by
  have hq : n / d ≤ q := Nat.div_le_of_le_mul (by rwa [Nat.mul_comm])
  unfold roundHalfEven
  dsimp only
  rcases hq.eq_or_lt with heq | hlt
  · -- the quotient is `q` already, so nothing is left over
    have hrest : n % d = 0 := by
      have hdiv := Nat.div_add_mod n d
      rw [heq, Nat.mul_comm] at hdiv
      omega
    rw [hrest, if_pos (by omega)]
    exact hq
  · split
    · exact hq
    split
    · exact hlt
    split
    · exact hq
    · exact hlt

namespace Binary64

open Float.Model Float.Model.UnpackedFloat

/-! ### Numbers are read as they were written -/

/-- The implicit bit adds `2 ^ 52` to a mantissa. -/
lemma toNat_implicit (mantissa : BitVec 52) :
    (1#1 ++ mantissa).toNat = 2 ^ 52 + mantissa.toNat := by
  have hlt : mantissa.toNat < 2 ^ 52 := mantissa.isLt
  show 2 ^ 52 ||| mantissa.toNat = _
  rw [Nat.or_comm, Nat.or_two_pow_eq_add_of_lt hlt, Nat.add_comm]

/-- **The parts of a finite number are written as they are.** -/
lemma pack_ofParts (s : Sign) {exponent : BitVec 11} (mantissa : BitVec 52) (h : exponent ≠ -1#_) :
    UnpackedFloat.pack Format.binary64 (ofParts s exponent mantissa) =
      packComponents Format.binary64 s exponent mantissa := by
  have hlt : mantissa.toNat < 2 ^ 52 := mantissa.isLt
  have hexponent : exponent.toNat < 2 ^ 11 := exponent.isLt
  unfold ofParts
  dsimp only
  rw [if_neg h]
  split
  · rename_i hzero
    subst hzero
    split
    · rename_i hm
      rw [hm]
      rfl
    · rename_i hm
      have hpos : mantissa.toNat ≠ 0 := fun h0 => hm (BitVec.eq_of_toNat_eq h0)
      have hlog : mantissa.toNat.log2 < 52 := (Nat.log2_lt hpos).2 hlt
      rw [UnpackedFloat.pack]
      dsimp only
      rw [exponentBias_eq, mantissaBits_eq, if_neg (by decide), if_neg (by omega),
        BitVec.ofNat_toNat]
      rfl
  · have hall : exponent.toNat ≠ 2047 := fun h0 => h (BitVec.eq_of_toNat_eq h0)
    have himplicit := toNat_implicit mantissa
    have hlog : (1#1 ++ mantissa).toNat.log2 = 52 := by
      rw [Nat.log2_eq_iff (by omega)]
      omega
    have hbiased : (((exponent.toNat : Int) - (1023 + (52 : Nat))) + 1023 + (52 : Nat)).toNat =
        exponent.toNat := by omega
    rw [UnpackedFloat.pack]
    dsimp only
    rw [exponentBias_eq, mantissaBits_eq, hbiased, hlog, if_neg (by omega), if_pos rfl,
      BitVec.ofNat_toNat, himplicit]
    congr 1
    apply BitVec.eq_of_toNat_eq
    rw [BitVec.toNat_ofNat]
    omega

/-- Parts of a number that is neither infinite nor undefined are read as they were written. -/
lemma unpack_pack_ofParts (s : Sign) {exponent : BitVec 11} (mantissa : BitVec 52)
    (h : exponent ≠ -1#_) :
    (Float.Model.pack (ofParts s exponent mantissa)).unpack = ofParts s exponent mantissa := by
  show UnpackedFloat.unpack Format.binary64 (UnpackedFloat.pack Format.binary64 _) = _
  rw [pack_ofParts s mantissa h, unpack_packComponents]

/-- A magnitude below infinity is read as its parts, the exponent and the mantissa. -/
lemma exists_unpack_ofMagnitude {b : Nat} (h : b < infinityBits) :
    ∃ (exponent : BitVec 11) (mantissa : BitVec 52),
      exponent.toNat = b / 2 ^ 52 ∧ mantissa.toNat = b % 2 ^ 52 ∧
        ofMagnitude false b = .ofModel (.pack (ofParts .positive exponent mantissa)) ∧
        (ofMagnitude false b).toModel.unpack = ofParts .positive exponent mantissa := by
  have hinf : infinityBits = 2047 * 2 ^ 52 := rfl
  obtain ⟨exponent, mantissa, hunpack, hexponent, hmantissa⟩ := unpack_ofNat h.le
  have hne : exponent ≠ -1#_ := by
    intro he
    have hall : (-1#11).toNat = 2047 := by decide
    rw [he, hall] at hexponent
    omega
  have hwritten : ofMagnitude false b = .ofModel (.pack (ofParts .positive exponent mantissa)) := by
    have hbits : 0 + min b infinityBits = b := by omega
    show Float.ofModel (.pack (UnpackedFloat.unpack Format.binary64
      (BitVec.ofNat 64 (0 + min b infinityBits)))) = _
    rw [hbits, hunpack]
  refine ⟨exponent, mantissa, hexponent, hmantissa, hwritten, ?_⟩
  rw [hwritten]
  exact unpack_pack_ofParts .positive mantissa hne

/-! ### Shares -/

/-- The bits of one. -/
def oneBits : Nat := 1023 * 2 ^ 52

/-- No magnitude is below zero. -/
lemma zero_le_ofMagnitude (b : Nat) : 0 ≤ ofMagnitude false b := by
  rcases Nat.eq_zero_or_pos b with rfl | hb
  · exact zero_le_iff.2 (.zero .positive)
  · exact zero_le_of_zero_lt (ofMagnitude_pos hb)

/-- Numbers are compared by their exponents first. -/
lemma le_finite {m n : Nat} {d e : Int} {hm : 0 < m} {hn : 0 < n} (h : d < e ∨ d = e ∧ m ≤ n) :
    UnpackedFloat.le (.finite .positive m d hm) (.finite .positive n e hn) = true := by
  rw [UnpackedFloat.le, UnpackedFloat.compare]
  rcases h with hlt | ⟨rfl, hle⟩
  · rw [Int.compare_eq_lt.2 hlt]
    rfl
  · rw [Int.compare_eq_eq.2 rfl]
    simpa [Nat.isLE_compare] using hle

/-- A magnitude up to that of one does not exceed one. -/
lemma ofMagnitude_le_one {b : Nat} (h : b ≤ oneBits) : ofMagnitude false b ≤ 1 := by
  have hone : oneBits = 1023 * 2 ^ 52 := rfl
  have hinf : infinityBits = 2047 * 2 ^ 52 := rfl
  obtain ⟨exponent, mantissa, hexponent, hmantissa, -, hunpack⟩ :=
    exists_unpack_ofMagnitude (b := b) (by omega)
  show decide (UnpackedFloat.le (ofMagnitude false b).toModel.unpack
    (.finite .positive (2 ^ 52) (-52) (by decide)) = true) = true
  rw [decide_eq_true_iff, hunpack]
  unfold ofParts
  dsimp only
  rw [exponentBias_eq]
  split
  · rename_i hall
    have htoNat : (-1#11).toNat = 2047 := by decide
    rw [hall, htoNat] at hexponent
    omega
  split
  · split
    · rfl
    · -- the exponents of subnormal numbers are far below that of one
      rename_i hzero _
      refine le_finite (.inl ?_)
      rw [hzero]
      decide
  · have himplicit := toNat_implicit mantissa
    refine le_finite ?_
    omega

/-- The quotient of natural numbers has the positive sign. -/
lemma ratio_natCast (n : Nat) {d : Nat} (hd : 0 < d) : ratio n d = nearest false ⟨n, d⟩ := by
  have hsign : (decide ((n : Int) < 0) != decide ((d : Int) < 0)) = false := by
    rw [decide_eq_false (by omega), decide_eq_false (by omega)]
    rfl
  unfold ratio
  dsimp only
  rw [if_neg (by omega), hsign, Int.natAbs_natCast, Int.natAbs_natCast]

/-- A quotient is shifted by as many places as its exponent is below zero. -/
lemma scale_neg (n d j : Nat) : Fraction.scale 2 ⟨n, d⟩ (-(-(j : Int))) = ⟨n * 2 ^ j, d⟩ := by
  rw [Int.neg_neg]
  rfl

/-- **A share has no more than the bits of one.**

**Proof sketch.** The mantissa is the quotient shifted by `j` places, rounded. As the quotient is at
most one, `j` is at least `52`, and `j` is chosen such that the shifted quotient does not exceed
`2 ^ 53`. At `j = 52` it does not exceed `2 ^ 52`, and each further place takes `2 ^ 52` off the
bits. -/
lemma exists_nearest_eq {n d : Nat} (hn : 0 < n) (h : n ≤ d) :
    ∃ b ≤ oneBits, nearest false ⟨n, d⟩ = ofMagnitude false b := by
  have hone : oneBits = 1023 * 2 ^ 52 := rfl
  have hd : 0 < d := hn.trans_le h
  have hlog : n.log2 ≤ d.log2 := (Nat.le_log2 hd.ne').2 ((Nat.log2_self_le hn.ne').trans h)
  obtain ⟨k, hk⟩ : ∃ k : Nat, k = 52 + d.log2 - n.log2 := ⟨_, rfl⟩
  -- shifted by `k` places the quotient is below `2 ^ 53`
  have hbelow : n * 2 ^ k ≤ 2 ^ 53 * d := by
    calc n * 2 ^ k ≤ 2 ^ (n.log2 + 1) * 2 ^ k := Nat.mul_le_mul_right _ Nat.lt_log2_self.le
      _ = 2 ^ 53 * 2 ^ d.log2 := by rw [← Nat.pow_add, ← Nat.pow_add]; congr 1; omega
      _ ≤ 2 ^ 53 * d := Nat.mul_le_mul_left _ (Nat.log2_self_le hd.ne')
  have hguess : (n.log2 : Int) - (d.log2 : Int) - 52 = -(k : Int) := by omega
  have hpow : Nat.pow 2 52 = 2 ^ 52 := rfl
  rw [nearest, if_neg hn.ne']
  dsimp only
  rw [hguess, scale_neg, hpow]
  dsimp only
  -- the number of places that are kept in the end
  obtain ⟨j, hj, hj', hfits⟩ : ∃ j : Nat,
      max (-1074) (if n * 2 ^ k < d * 2 ^ 52 then -(k : Int) - 1 else -(k : Int)) = -(j : Int) ∧
        (52 ≤ j ∧ j ≤ 1074) ∧ n * 2 ^ j ≤ 2 ^ 53 * d := by
    split
    · rename_i hshort
      refine ⟨min 1074 (k + 1), by omega, by omega, ?_⟩
      calc n * 2 ^ min 1074 (k + 1) ≤ n * 2 ^ (k + 1) :=
            Nat.mul_le_mul_left _ (Nat.pow_le_pow_right (by decide) (Nat.min_le_right _ _))
        _ = 2 * (n * 2 ^ k) := by rw [Nat.pow_succ]; ring
        _ ≤ 2 ^ 53 * d := by omega
    · refine ⟨min 1074 k, by omega, by omega, ?_⟩
      exact (Nat.mul_le_mul_left _ (Nat.pow_le_pow_right (by decide)
        (Nat.min_le_right _ _))).trans hbelow
  rw [hj, scale_neg, Fraction.round]
  refine ⟨_, ?_, rfl⟩
  dsimp only
  rcases hj'.1.eq_or_lt with rfl | hlt
  · have hround : roundHalfEven (n * 2 ^ 52) d ≤ 2 ^ 52 :=
      roundHalfEven_le (by rw [Nat.mul_comm]; exact Nat.mul_le_mul_left _ h) hd
    have hexp : (-((52 : Nat) : Int) + 1074).toNat = 1022 := rfl
    rw [hexp]
    exact Nat.add_le_add_left hround (1022 * 2 ^ 52)
  · have hround : roundHalfEven (n * 2 ^ j) d ≤ 2 ^ 53 := roundHalfEven_le hfits hd
    have hexp : (-(j : Int) + 1074).toNat ≤ 1021 := by omega
    omega

/-- **A share of a whole lies between zero and one.** -/
theorem ratio_mem_unitInterval {n d : Nat} (hd : 0 < d) (h : n ≤ d) :
    (0 : Float) ≤ ratio n d ∧ ratio n d ≤ 1 := by
  obtain ⟨b, hb, heq⟩ : ∃ b ≤ oneBits, ratio n d = ofMagnitude false b := by
    rw [ratio_natCast n hd]
    rcases Nat.eq_zero_or_pos n with rfl | hn
    · exact ⟨0, Nat.zero_le _, if_pos rfl⟩
    · exact exists_nearest_eq hn h
  rw [heq]
  exact ⟨zero_le_ofMagnitude b, ofMagnitude_le_one hb⟩

/-! ### Sums of counts -/

/-- A whole number that takes up 53 bits once it is shifted. -/
lemma shifted_whole {n : Nat} (hn : 0 < n) (h : n < 2 ^ 53) :
    n.log2 ≤ 52 ∧ 2 ^ 52 ≤ n * 2 ^ (52 - n.log2) ∧ n * 2 ^ (52 - n.log2) < 2 ^ 53 := by
  have hlog : n.log2 < 53 := (Nat.log2_lt hn.ne').2 h
  have hlow : 2 ^ n.log2 * 2 ^ (52 - n.log2) = 2 ^ 52 := by
    rw [← Nat.pow_add]
    congr 1
    omega
  have hhigh : 2 ^ (n.log2 + 1) * 2 ^ (52 - n.log2) = 2 ^ 53 := by
    rw [← Nat.pow_add]
    congr 1
    omega
  refine ⟨by omega, ?_, ?_⟩
  · rw [← hlow]
    exact Nat.mul_le_mul_right _ (Nat.log2_self_le hn.ne')
  · rw [← hhigh]
    exact Nat.mul_lt_mul_of_pos_right Nat.lt_log2_self (Nat.two_pow_pos _)

/-- A positive whole number with a mantissa of 53 bits, if it has no more itself. -/
def whole (n : Nat) (h : 0 < n) : UnpackedFloat :=
  .finite .positive (n * 2 ^ (52 - n.log2)) (-((52 - n.log2 : Nat) : Int))
    (Nat.mul_pos h (Nat.two_pow_pos _))

/-- **Whole numbers below `2 ^ 53` are floats.** -/
lemma ratio_one_eq {n : Nat} (hn : 0 < n) (h : n < 2 ^ 53) :
    ratio n 1 = .ofModel (.pack (whole n hn)) ∧ (ratio n 1).toModel.unpack = whole n hn := by
  have hinf : infinityBits = 2047 * 2 ^ 52 := rfl
  have hpow : Nat.pow 2 52 = 2 ^ 52 := rfl
  obtain ⟨hlog, hlow, hhigh⟩ := shifted_whole hn h
  have hguess : (n.log2 : Int) - (Nat.log2 1 : Int) - 52 = -((52 - n.log2 : Nat) : Int) := by
    have hone : Nat.log2 1 = 0 := by decide
    omega
  have hround : roundHalfEven (n * 2 ^ (52 - n.log2)) 1 = n * 2 ^ (52 - n.log2) := by
    have := roundHalfEven_mul_right (n * 2 ^ (52 - n.log2)) Nat.one_pos
    rwa [Nat.mul_one] at this
  have hratio : ratio n 1 =
      ofMagnitude false ((n.log2 + 1022) * 2 ^ 52 + n * 2 ^ (52 - n.log2)) := by
    rw [← Nat.cast_one, ratio_natCast n Nat.one_pos, nearest, if_neg hn.ne']
    dsimp only
    rw [hguess, scale_neg, hpow]
    dsimp only
    rw [if_neg (by omega), max_eq_right (by omega), scale_neg, Fraction.round]
    dsimp only
    rw [hround]
    congr 3
    omega
  obtain ⟨exponent, mantissa, hexponent, hmantissa, hwritten, hunpack⟩ :=
    exists_unpack_ofMagnitude
      (b := (n.log2 + 1022) * 2 ^ 52 + n * 2 ^ (52 - n.log2)) (by omega)
  have hparts : ofParts .positive exponent mantissa = whole n hn := by
    have himplicit := toNat_implicit mantissa
    unfold ofParts
    dsimp only
    rw [exponentBias_eq, if_neg, if_neg]
    · rw [whole, UnpackedFloat.finite.injEq]
      exact ⟨rfl, by omega, by omega⟩
    · intro hzero
      have htoNat : (0#11).toNat = 0 := rfl
      rw [hzero, htoNat] at hexponent
      omega
    · intro hall
      have htoNat : (-1#11).toNat = 2047 := by decide
      rw [hall, htoNat] at hexponent
      omega
  rw [hratio, ← hparts]
  exact ⟨hwritten, hunpack⟩

/-- Shifting takes off the zeros that a mantissa ends with, and nothing is lost. -/
lemma shiftRight_mul_two_pow (m k : Nat) :
    (⟨m * 2 ^ k, false, false⟩ : ExtendedMantissa) >>> k = ⟨m, false, false⟩ := by
  induction k generalizing m with
  | zero => simp [HShiftRight.hShiftRight, Nat.repeat]
  | succ k ih =>
    have hdouble : m * 2 ^ (k + 1) = m * 2 * 2 ^ k := by
      rw [Nat.pow_succ]
      ring
    show ((⟨m * 2 ^ (k + 1), false, false⟩ : ExtendedMantissa) >>> k).shiftRightOne = _
    rw [hdouble, ih (m * 2), ExtendedMantissa.shiftRightOne]
    simp

/-- Zeros at the end of a binary number make it longer by their number. -/
lemma log2_mul_two_pow {n : Nat} (hn : 0 < n) (k : Nat) : (n * 2 ^ k).log2 = n.log2 + k := by
  have hpos : n * 2 ^ k ≠ 0 := (Nat.mul_pos hn (Nat.two_pow_pos k)).ne'
  rw [Nat.log2_eq_iff hpos, Nat.pow_add, Nat.add_right_comm, Nat.pow_add]
  exact ⟨Nat.mul_le_mul_right _ (Nat.log2_self_le hn.ne'),
    Nat.mul_lt_mul_of_pos_right Nat.lt_log2_self (Nat.two_pow_pos k)⟩

/-- A whole number below `2 ^ 53`, with enough zeros at its end, loses zeros until it has 53
bits. -/
lemma shiftToTargetExponent_whole {n j : Nat} (hn : 0 < n) (h : n < 2 ^ 53) (hj : 52 - n.log2 ≤ j) :
    Format.binary64.targetExponent (totalExponent (n * 2 ^ j) (-(j : Int))) =
        -((52 - n.log2 : Nat) : Int) ∧
      shiftToTargetExponent Format.binary64 (n * 2 ^ j) (-(j : Int)) .exact =
        (⟨n * 2 ^ (52 - n.log2), false, false⟩, -((52 - n.log2 : Nat) : Int)) := by
  obtain ⟨hlog, -, -⟩ := shifted_whole hn h
  have htarget : Format.binary64.targetExponent (totalExponent (n * 2 ^ j) (-(j : Int))) =
      -((52 - n.log2 : Nat) : Int) := by
    rw [Format.targetExponent, totalExponent, minExponent_eq, mantissaBits_eq, log2_mul_two_pow hn]
    omega
  refine ⟨htarget, ?_⟩
  obtain ⟨i, hi⟩ : ∃ i : Nat, j = 52 - n.log2 + i := ⟨j - (52 - n.log2), by omega⟩
  have hmantissa : n * 2 ^ j = n * 2 ^ (52 - n.log2) * 2 ^ i := by
    rw [hi, Nat.pow_add, Nat.mul_assoc]
  have hplaces : (-((52 - n.log2 : Nat) : Int) - -(j : Int)).toNat = i := by omega
  have hexponent : -(j : Int) + i = -((52 - n.log2 : Nat) : Int) := by omega
  rw [shiftToTargetExponent, htarget, shiftToExponent, hplaces, hmantissa,
    ExtendedMantissa.ofMantissaAndAccuracy, shiftRight_mul_two_pow, hexponent]

/-- **A whole number below `2 ^ 53` is not rounded**, however many zeros its mantissa ends with. -/
lemma round_whole {n j : Nat} (hn : 0 < n) (h : n < 2 ^ 53) (hj : 52 - n.log2 ≤ j) :
    UnpackedFloat.round Format.binary64 .positive (n * 2 ^ j) (-(j : Int)) = whole n hn := by
  obtain ⟨htarget, hfirst⟩ := shiftToTargetExponent_whole hn h hj
  obtain ⟨-, hsecond⟩ := shiftToTargetExponent_whole hn h (Nat.le_refl _)
  have hpos : n * 2 ^ (52 - n.log2) ≠ 0 := (Nat.mul_pos hn (Nat.two_pow_pos _)).ne'
  have hshort : (-(j : Int) - -((52 - n.log2 : Nat) : Int)).toNat = 0 := by omega
  have hrounded : (⟨n * 2 ^ (52 - n.log2), false, false⟩ : ExtendedMantissa).roundedMantissa =
      n * 2 ^ (52 - n.log2) := rfl
  rw [UnpackedFloat.round, htarget, decreaseExponent]
  dsimp only
  rw [hshort, Nat.shiftLeft_zero, Int.natCast_zero, Int.sub_zero, roundWithAccuracy, hfirst]
  dsimp only
  rw [hrounded, hsecond]
  exact dif_neg hpos

/-- The sum of whole numbers whose sum is below `2 ^ 53` is not rounded. -/
lemma add_whole {m n : Nat} (hm : 0 < m) (hn : 0 < n) (h : m + n < 2 ^ 53) :
    UnpackedFloat.add Format.binary64 (whole m hm) (whole n hn) = whole (m + n) (by omega) := by
  obtain ⟨j, hj⟩ : ∃ j : Nat, j = max (52 - m.log2) (52 - n.log2) := ⟨_, rfl⟩
  have hsmaller : min (-((52 - m.log2 : Nat) : Int)) (-((52 - n.log2 : Nat) : Int)) =
      -(j : Int) := by
    omega
  have hshift : ∀ k : Nat, 52 - k.log2 ≤ j →
      (k * 2 ^ (52 - k.log2)) <<< (-((52 - k.log2 : Nat) : Int) - -(j : Int)).toNat =
        k * 2 ^ j := by
    intro k hle
    rw [Nat.shiftLeft_eq, Nat.mul_assoc, ← Nat.pow_add]
    congr 2
    omega
  have hlog : 52 - (m + n).log2 ≤ j := by
    have hle : m.log2 ≤ (m + n).log2 :=
      (Nat.le_log2 (by omega)).2 ((Nat.log2_self_le hm.ne').trans (by omega))
    omega
  have hsum : ((m * 2 ^ j : Nat) : Int) + (n * 2 ^ j : Nat) = ((m + n) * 2 ^ j : Nat) := by
    rw [Nat.add_mul, Nat.cast_add]
  have hcompare : compare (((m + n) * 2 ^ j : Nat) : Int) 0 = .gt := by
    rw [Int.compare_eq_gt]
    exact Int.natCast_pos.2 (Nat.mul_pos (by omega) (Nat.two_pow_pos j))
  rw [whole, whole, UnpackedFloat.add]
  simp only [decreaseExponent, Sign.apply, hsmaller, hshift m (by omega), hshift n (by omega)]
  rw [hsum, UnpackedFloat.normalize, hcompare, Int.toNat_natCast]
  exact round_whole (by omega) h hlog

/-- The number for no occurrence is a positive zero. -/
lemma unpack_ratio_zero : (ratio 0 1).toModel.unpack = .zero .positive := rfl

/-- **Sums of counts below `2 ^ 53` are exact.** -/
theorem ratio_add_ratio {m n : Nat} (h : m + n < 2 ^ 53) :
    ratio m 1 + ratio n 1 = ratio (m + n : Nat) 1 := by
  show Float.ofModel (.pack (UnpackedFloat.add Format.binary64 (ratio m 1).toModel.unpack
    (ratio n 1).toModel.unpack)) = _
  rcases Nat.eq_zero_or_pos m with rfl | hm
  · rcases Nat.eq_zero_or_pos n with rfl | hn
    · rfl
    · obtain ⟨hwritten, hunpack⟩ := ratio_one_eq hn (by omega)
      rw [Int.natCast_zero, unpack_ratio_zero, hunpack, Nat.zero_add, hwritten]
      rfl
  · obtain ⟨hwritten, hunpack⟩ := ratio_one_eq hm (by omega)
    rcases Nat.eq_zero_or_pos n with rfl | hn
    · rw [Int.natCast_zero, unpack_ratio_zero, hunpack, Nat.add_zero, hwritten]
      rfl
    · obtain ⟨-, hunpack'⟩ := ratio_one_eq hn (by omega)
      obtain ⟨hwritten, -⟩ := ratio_one_eq (n := m + n) (by omega) h
      rw [hunpack, hunpack', add_whole hm hn h, hwritten]

end Binary64

end TrellisTagger
