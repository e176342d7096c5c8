import Mathlib
import TrellisTagger.Number.Binary64

/-!
# Positive floats

Rounding never turns a positive number into zero: the sum of a positive float and one that is not
negative is positive, and so is the float nearest to a positive integer. Sums of counts that are
kept as floats are zero only if nothing has been counted.

## Main definitions

* `TrellisTagger.Binary64.IsPositive`, `TrellisTagger.Binary64.IsNonneg` — the unpacked numbers
  above zero, and those not below it.
* `TrellisTagger.Binary64.Fits` — a number whose mantissa and exponent are those of the format.
* `TrellisTagger.Binary64.ofParts` — the number that a sign, an exponent and a mantissa stand for.

## Main results

* `TrellisTagger.Binary64.isPositive_unpack_pack` — packing keeps positive numbers positive.
* `TrellisTagger.Binary64.isPositive_round` — so does rounding.
* `TrellisTagger.Binary64.add_pos_of_pos_of_nonneg`, `TrellisTagger.Binary64.add_nonneg` — sums.
* `TrellisTagger.Binary64.ratio_pos` — integers.

## Design

A float is read as an unpacked number and written by packing one. Every number that is read, and
every result of rounding, has a mantissa of at most 53 bits over an exponent of at least `-1074`; of
such numbers only zero has the bits of zero. Infinity is a positive number, so nothing is said about
range.
-/

namespace TrellisTagger.Binary64

open Float.Model Float.Model.UnpackedFloat

/-- The numbers above zero, infinity among them. -/
inductive IsPositive : UnpackedFloat → Prop
  /-- Infinity is above zero. -/
  | infinity : IsPositive (.infinity .positive)
  /-- A finite number with the positive sign is above zero. -/
  | finite (m : Nat) (e : Int) (h : 0 < m) : IsPositive (.finite .positive m e h)

/-- The numbers that are not below zero. -/
inductive IsNonneg : UnpackedFloat → Prop
  /-- Zero of either sign is not below zero. -/
  | zero (s : Sign) : IsNonneg (.zero s)
  /-- A number above zero is not below it. -/
  | positive {x : UnpackedFloat} (h : IsPositive x) : IsNonneg x

/-- A finite number has a mantissa of at most 53 bits over an exponent of at least `-1074`. -/
def Fits : UnpackedFloat → Prop
  | .finite _ m e _ => m < 2 ^ 53 ∧ -1074 ≤ e
  | _ => True

/-- Exponents are stored with 1023 added. -/
lemma exponentBias_eq : (Format.binary64.exponentBias : Int) = 1023 := rfl

/-- Mantissas have 53 bits. -/
lemma mantissaBits_eq : Format.binary64.mantissaBits = 53 := rfl

/-- No exponent is less than -1074. -/
lemma minExponent_eq : Format.binary64.minExponent = -1074 := rfl

/-! ### Comparison with zero -/

/-- A float is above zero just if its unpacked form is positive. -/
lemma zero_lt_iff {x : Float} : 0 < x ↔ IsPositive x.toModel.unpack := by
  show decide (UnpackedFloat.lt (.zero .positive) x.toModel.unpack = true) = true ↔ _
  rw [decide_eq_true_iff]
  generalize x.toModel.unpack = u
  constructor
  · intro h
    match u with
    | .infinity .positive => exact .infinity
    | .finite .positive m e hm => exact .finite m e hm
    | .infinity .negative | .notANumber | .zero _ | .finite .negative _ _ _ => cases h
  · rintro (_ | _) <;> rfl

/-- A float is not below zero just if its unpacked form is not negative. -/
lemma zero_le_iff {x : Float} : 0 ≤ x ↔ IsNonneg x.toModel.unpack := by
  show decide (UnpackedFloat.le (.zero .positive) x.toModel.unpack = true) = true ↔ _
  rw [decide_eq_true_iff]
  generalize x.toModel.unpack = u
  constructor
  · intro h
    match u with
    | .infinity .positive => exact .positive .infinity
    | .finite .positive m e hm => exact .positive (.finite m e hm)
    | .zero s => exact .zero s
    | .infinity .negative | .notANumber | .finite .negative _ _ _ => cases h
  · rintro (_ | _ | _) <;> rfl

/-- A float above zero is not below zero. -/
lemma zero_le_of_zero_lt {x : Float} (h : 0 < x) : 0 ≤ x :=
  zero_le_iff.2 (.positive (zero_lt_iff.1 h))

/-- A float above zero is not equal to zero. -/
lemma beq_zero_of_pos {x : Float} (h : 0 < x) : (x == 0) = false := by
  rw [zero_lt_iff] at h
  show UnpackedFloat.beq x.toModel.unpack (.zero .positive) = false
  generalize x.toModel.unpack = u at h
  cases h <;> rfl

/-! ### Packing -/

/-- The implicit bit makes a mantissa positive. -/
lemma implicit_pos {n : Nat} (mantissa : BitVec n) : 0 < (1#1 ++ mantissa).toNat := by simp

/-- The number that a sign, an exponent and a mantissa of the binary format stand for. -/
def ofParts (s : Sign) (exponent : BitVec 11) (mantissa : BitVec 52) : UnpackedFloat :=
  let e : Int := exponent.toNat - (Format.binary64.exponentBias + (52 : Nat))
  if exponent = -1#_ then if mantissa = 0#_ then .infinity s else .notANumber
  else if exponent = 0#_ then
    if h : mantissa = 0#_ then .zero s
    else .finite s mantissa.toNat (e + 1) (by simpa [BitVec.toNat_pos, BitVec.pos_iff_ne_zero])
  else .finite s (1#1 ++ mantissa).toNat e (implicit_pos mantissa)

/-- A float is unpacked into its sign, its exponent and its mantissa. -/
lemma unpack_eq_ofParts (b : BitVec 64) :
    UnpackedFloat.unpack Format.binary64 b =
      ofParts (Sign.ofBitVec (@unpackSign Format.binary64 b)) (@unpackExponent Format.binary64 b)
        (@unpackMantissa Format.binary64 b) := rfl

/-- **Every number that is read has a mantissa and an exponent of the format.** -/
lemma fits_ofParts (s : Sign) (exponent : BitVec 11) (mantissa : BitVec 52) :
    Fits (ofParts s exponent mantissa) := by
  unfold ofParts
  dsimp only
  rw [exponentBias_eq]
  split
  · split <;> trivial
  split
  · split
    · trivial
    · have hm : mantissa.toNat < 2 ^ 52 := mantissa.isLt
      exact ⟨by omega, by omega⟩
  · rename_i hne
    have he : exponent.toNat ≠ 0 := fun h0 => hne (BitVec.eq_of_toNat_eq h0)
    exact ⟨(1#1 ++ mantissa).isLt, by omega⟩

/-- What a float is unpacked into fits into the format. -/
lemma fits_unpack (x : Float) : Fits x.toModel.unpack := fits_ofParts _ _ _

/-- Parts stand for a positive number, unless they are those of zero or of no number. -/
lemma isPositive_ofParts {exponent : BitVec 11} {mantissa : BitVec 52}
    (hnan : exponent = -1#_ → mantissa = 0#_) (hzero : exponent = 0#_ → mantissa ≠ 0#_) :
    IsPositive (ofParts .positive exponent mantissa) := by
  unfold ofParts
  dsimp only
  split
  · rename_i h
    rw [if_pos (hnan h)]
    exact .infinity
  split
  · rename_i h
    rw [dif_neg (hzero h)]
    exact .finite _ _ _
  · exact .finite _ _ _

/-- The parts that are written are read. -/
lemma unpack_packComponents (s : Sign) (exponent : BitVec 11) (mantissa : BitVec 52) :
    UnpackedFloat.unpack Format.binary64 (packComponents Format.binary64 s exponent mantissa) =
      ofParts s exponent mantissa := by
  rw [unpack_eq_ofParts, unpackSign_packComponents, unpackMantissa_packComponents,
    unpackExponent_packComponents, Sign.ofBitVec_toBitVec]

/-- **Packing keeps a positive number positive**, if it is one of the format.

**Proof sketch.** A number that is too great becomes infinity. The exponent of a normal number is
neither the least nor the greatest, and a number below the normal ones is written with its mantissa,
which has a bit that is not zero. -/
lemma isPositive_unpack_pack {u : UnpackedFloat} (h : IsPositive u) (hf : Fits u) :
    IsPositive (Float.Model.pack u).unpack := by
  cases h with
  | infinity => exact .infinity
  | finite m e hm =>
    obtain ⟨hlt, he⟩ := hf
    show IsPositive (UnpackedFloat.unpack Format.binary64 (UnpackedFloat.pack Format.binary64 _))
    rw [UnpackedFloat.pack]
    dsimp only
    rw [exponentBias_eq, mantissaBits_eq]
    generalize hbiased : (e + 1023 + (52 : Nat)).toNat = biased
    have hbiased' : 1 ≤ biased := by omega
    split
    · rw [packedInfinity, unpack_packComponents]
      exact isPositive_ofParts (fun _ => rfl) (fun h => absurd h (by decide))
    rename_i hfinite
    split
    · -- the biased exponent is its own remainder, and neither zero nor all ones
      rw [unpack_packComponents]
      refine isPositive_ofParts (fun h => ?_) (fun h => ?_)
      · have htoNat := congrArg BitVec.toNat h
        rw [BitVec.toNat_ofNat, Nat.mod_eq_of_lt (by omega)] at htoNat
        have hall : (-1#11).toNat = 2047 := by decide
        omega
      · have htoNat := congrArg BitVec.toNat h
        rw [BitVec.toNat_ofNat, Nat.mod_eq_of_lt (by omega), BitVec.toNat_ofNat,
          Nat.zero_mod] at htoNat
        omega
    · rename_i hsmall
      rw [unpack_packComponents]
      refine isPositive_ofParts (fun h => absurd h (by decide)) fun _ h => ?_
      have hlog : m.log2 < 53 := (Nat.log2_lt hm.ne').2 hlt
      have hlt' : m < 2 ^ 52 := (Nat.log2_lt hm.ne').1 (by omega)
      have htoNat := congrArg BitVec.toNat h
      rw [BitVec.toNat_ofNat, Nat.mod_eq_of_lt (by omega), BitVec.toNat_ofNat,
        Nat.zero_mod] at htoNat
      omega

/-! ### Rounding -/

/-- Shifting divides the mantissa. -/
lemma mantissa_shiftRight (em : ExtendedMantissa) (k : Nat) :
    (em >>> k).mantissa = em.mantissa / 2 ^ k := by
  induction k with
  | zero => simp [HShiftRight.hShiftRight, Nat.repeat]
  | succ k ih =>
    show (em >>> k).mantissa / 2 = _
    rw [ih, Nat.div_div_eq_div_mul, pow_succ]

/-- Rounding never makes a mantissa smaller. -/
lemma le_roundedMantissa (em : ExtendedMantissa) : em.mantissa ≤ em.roundedMantissa := by
  obtain ⟨m, _ | _, _ | _⟩ := em
  · exact Nat.le_refl m
  · exact Nat.le_refl m
  · exact Nat.le_add_right m (m % 2)
  · exact Nat.le_succ m

/-- A mantissa over an exponent that is not too small is shifted until it has at most 53 bits. -/
lemma shiftToTargetExponent_eq (m : Nat) {e : Int} (he : -1074 ≤ e) :
    (shiftToTargetExponent Format.binary64 m e .exact).1.mantissa = m / 2 ^ (m.log2 - 52) ∧
      (shiftToTargetExponent Format.binary64 m e .exact).2 = e + (m.log2 - 52 : Nat) := by
  have hplaces : (Format.binary64.targetExponent (totalExponent m e) - e).toNat = m.log2 - 52 := by
    rw [Format.targetExponent, totalExponent, minExponent_eq, mantissaBits_eq]
    omega
  rw [shiftToTargetExponent, shiftToExponent]
  dsimp only
  rw [hplaces, mantissa_shiftRight]
  exact ⟨rfl, rfl⟩

/-- What is left of a positive mantissa is positive and has at most 53 bits. -/
lemma shifted_bounds {m : Nat} (hm : 0 < m) :
    0 < m / 2 ^ (m.log2 - 52) ∧ m / 2 ^ (m.log2 - 52) < 2 ^ 53 := by
  have hpow : 0 < 2 ^ (m.log2 - 52) := Nat.two_pow_pos _
  constructor
  · refine Nat.div_pos ?_ hpow
    exact (Nat.pow_le_pow_right (by decide) (Nat.sub_le _ _)).trans (Nat.log2_self_le hm.ne')
  · rw [Nat.div_lt_iff_lt_mul hpow, ← Nat.pow_add]
    exact (Nat.lt_log2_self (n := m)).trans_le (Nat.pow_le_pow_right (by decide) (by omega))

/-- The mantissa is shifted, rounded and, as rounding may carry, shifted again. -/
lemma isPositive_roundWithAccuracy {m : Nat} {e : Int} (hm : 0 < m) (he : -1074 ≤ e) :
    IsPositive (roundWithAccuracy Format.binary64 .positive m e .exact) ∧
      Fits (roundWithAccuracy Format.binary64 .positive m e .exact) := by
  obtain ⟨hmantissa, hexponent⟩ := shiftToTargetExponent_eq m he
  obtain ⟨hpos, -⟩ := shifted_bounds hm
  rw [roundWithAccuracy]
  dsimp only
  generalize shiftToTargetExponent Format.binary64 m e .exact = shifted at *
  obtain ⟨em, e'⟩ := shifted
  dsimp only at *
  have hle := le_roundedMantissa em
  have hrounded : 0 < em.roundedMantissa := by omega
  obtain ⟨hmantissa', hexponent'⟩ :=
    shiftToTargetExponent_eq em.roundedMantissa (e := e') (by omega)
  obtain ⟨hpos', hlt'⟩ := shifted_bounds hrounded
  rw [dif_neg (by omega)]
  exact ⟨.finite _ _ _, by omega, by omega⟩

/-- **Rounding keeps a positive number positive.** -/
lemma isPositive_round {m : Nat} {e : Int} (hm : 0 < m) (he : -1074 ≤ e) :
    IsPositive (UnpackedFloat.round Format.binary64 .positive m e) ∧
      Fits (UnpackedFloat.round Format.binary64 .positive m e) := by
  rw [UnpackedFloat.round, decreaseExponent]
  dsimp only
  refine isPositive_roundWithAccuracy ?_ ?_
  · rw [Nat.shiftLeft_eq]
    positivity
  · rw [Format.targetExponent, minExponent_eq]
    omega

/-! ### Sums -/

/-- The mantissas of two positive numbers are brought to one exponent, added and rounded. -/
lemma isPositive_add_finite {m n : Nat} {d e : Int} (hm : 0 < m) (hn : 0 < n) (hd : -1074 ≤ d)
    (he : -1074 ≤ e) :
    IsPositive (UnpackedFloat.add Format.binary64 (.finite .positive m d hm)
        (.finite .positive n e hn)) ∧
      Fits (UnpackedFloat.add Format.binary64 (.finite .positive m d hm)
        (.finite .positive n e hn)) := by
  rw [UnpackedFloat.add]
  simp only [decreaseExponent, Sign.apply, Nat.shiftLeft_eq]
  have hpos : 0 < m * 2 ^ (d - min d e).toNat := by positivity
  have hcompare : compare ((m * 2 ^ (d - min d e).toNat : Nat) +
      (n * 2 ^ (e - min d e).toNat : Nat) : Int) 0 = .gt := by
    rw [Int.compare_eq_gt]
    omega
  rw [UnpackedFloat.normalize, hcompare]
  exact isPositive_round (by omega) (by omega)

/-- Adding a number that is not negative to a positive one, in either order, gives a positive number
of the format. -/
lemma isPositive_add {x y : UnpackedFloat} (hx : IsPositive x) (hy : IsNonneg y) (hxf : Fits x)
    (hyf : Fits y) :
    (IsPositive (UnpackedFloat.add Format.binary64 x y) ∧
        Fits (UnpackedFloat.add Format.binary64 x y)) ∧
      IsPositive (UnpackedFloat.add Format.binary64 y x) ∧
        Fits (UnpackedFloat.add Format.binary64 y x) := by
  rcases hx with _ | ⟨m, d, hm⟩ <;> rcases hy with s | _ | ⟨n, e, hn⟩
  · exact ⟨⟨.infinity, trivial⟩, .infinity, trivial⟩
  · exact ⟨⟨.infinity, trivial⟩, .infinity, trivial⟩
  · exact ⟨⟨.infinity, trivial⟩, .infinity, trivial⟩
  · exact ⟨⟨.finite m d hm, hxf⟩, .finite m d hm, hxf⟩
  · exact ⟨⟨.infinity, trivial⟩, .infinity, trivial⟩
  · exact ⟨isPositive_add_finite hm hn hxf.2 hyf.2, isPositive_add_finite hn hm hyf.2 hxf.2⟩

/-- **The sum of a positive float and one that is not negative is positive**, in either order. -/
theorem add_pos_of_pos_of_nonneg {x y : Float} (hx : 0 < x) (hy : 0 ≤ y) :
    0 < x + y ∧ 0 < y + x := by
  obtain ⟨h, h'⟩ :=
    isPositive_add (zero_lt_iff.1 hx) (zero_le_iff.1 hy) (fits_unpack x) (fits_unpack y)
  exact ⟨zero_lt_iff.2 (isPositive_unpack_pack h.1 h.2),
    zero_lt_iff.2 (isPositive_unpack_pack h'.1 h'.2)⟩

/-- Zero of either sign is not negative after it has been packed. -/
lemma isNonneg_unpack_pack_zero (s : Sign) : IsNonneg (Float.Model.pack (.zero s)).unpack := by
  cases s
  · exact .zero .negative
  · exact .zero .positive

/-- The sum of floats that are not negative is not negative. -/
theorem add_nonneg {x y : Float} (hx : 0 ≤ x) (hy : 0 ≤ y) : 0 ≤ x + y := by
  have hxf := fits_unpack x
  have hyf := fits_unpack y
  rw [zero_le_iff] at *
  show IsNonneg (Float.Model.pack
    (UnpackedFloat.add Format.binary64 x.toModel.unpack y.toModel.unpack)).unpack
  generalize x.toModel.unpack = u at *
  generalize y.toModel.unpack = v at *
  rcases hx with s | hx
  · rcases hy with s' | hy
    · rw [UnpackedFloat.add]
      split <;> exact isNonneg_unpack_pack_zero _
    · obtain ⟨-, h, h'⟩ := isPositive_add hy (.zero s) hyf trivial
      exact .positive (isPositive_unpack_pack h h')
  · obtain ⟨⟨h, h'⟩, -⟩ := isPositive_add hx hy hxf hyf
    exact .positive (isPositive_unpack_pack h h')

/-! ### Integers -/

/-- The bits of a magnitude up to infinity are the exponent and the mantissa of a number. -/
lemma unpack_ofNat {b : Nat} (h : b ≤ infinityBits) :
    ∃ (exponent : BitVec 11) (mantissa : BitVec 52),
      UnpackedFloat.unpack Format.binary64 (BitVec.ofNat 64 b) =
        ofParts .positive exponent mantissa ∧
        exponent.toNat = b / 2 ^ 52 ∧ mantissa.toNat = b % 2 ^ 52 := by
  have hinf : infinityBits = 2047 * 2 ^ 52 := rfl
  have hb : (BitVec.ofNat 64 b).toNat = b := by
    rw [BitVec.toNat_ofNat]
    exact Nat.mod_eq_of_lt (by omega)
  have hsign : @unpackSign Format.binary64 (BitVec.ofNat 64 b) = 0#1 := by
    apply BitVec.eq_of_toNat_eq
    show ((BitVec.ofNat 64 b).toNat >>> 63) % 2 ^ 1 = 0
    rw [hb, Nat.shiftRight_eq_div_pow]
    omega
  refine ⟨@unpackExponent Format.binary64 (BitVec.ofNat 64 b),
    @unpackMantissa Format.binary64 (BitVec.ofNat 64 b), ?_, ?_, ?_⟩
  · rw [unpack_eq_ofParts, hsign]
    rfl
  · show ((BitVec.ofNat 64 b).toNat >>> 52) % 2 ^ 11 = b / 2 ^ 52
    rw [hb, Nat.shiftRight_eq_div_pow]
    omega
  · show ((BitVec.ofNat 64 b).toNat >>> 0) % 2 ^ 52 = b % 2 ^ 52
    rw [hb, Nat.shiftRight_zero]

/-- A magnitude above zero is that of a positive float. -/
lemma ofMagnitude_pos {bits : Nat} (h : 0 < bits) : 0 < ofMagnitude false bits := by
  have hinf : infinityBits = 2047 * 2 ^ 52 := rfl
  obtain ⟨exponent, mantissa, hunpack, hexponent, hmantissa⟩ :=
    unpack_ofNat (b := 0 + min bits infinityBits) (by omega)
  rw [zero_lt_iff]
  show IsPositive (Float.Model.pack (UnpackedFloat.unpack Format.binary64
    (BitVec.ofNat 64 (0 + min bits infinityBits)))).unpack
  rw [hunpack]
  refine isPositive_unpack_pack (isPositive_ofParts (fun he => ?_) (fun he hm => ?_))
    (fits_ofParts _ _ _)
  · -- the greatest exponent is reached by infinity alone
    have hall : (-1#11).toNat = 2047 := by decide
    rw [he, hall] at hexponent
    exact BitVec.eq_of_toNat_eq (by rw [hmantissa, BitVec.toNat_ofNat]; omega)
  · rw [he, BitVec.toNat_ofNat] at hexponent
    rw [hm, BitVec.toNat_ofNat] at hmantissa
    omega

/-- **A positive integer is a positive float**, infinity if it exceeds all others. -/
theorem ratio_pos {n : Int} (h : 0 < n) : (0 : Float) < ratio n 1 := by
  have hsign : (decide (n < 0) != decide ((1 : Int) < 0)) = false := by
    rw [decide_eq_false (by omega), decide_eq_false (by omega)]
    rfl
  have hlog : Nat.log2 (Int.natAbs 1) = 0 := by decide
  unfold ratio
  dsimp only
  rw [if_neg (by decide), hsign, nearest, if_neg (by simp; omega)]
  apply ofMagnitude_pos
  dsimp only
  rw [hlog]
  -- no integer is so small that it has the least exponent
  refine Nat.add_pos_left (Nat.mul_pos ?_ (Nat.pow_pos (by decide))) _
  split <;> omega

end TrellisTagger.Binary64
