import Concordance.Yaml.Schema
import Mathlib

/-!
# Whole numbers above zero stay above zero

A whole number is made a number with a point by shifting and rounding its binary digits. That could
leave nothing of it, as it does for numbers that are very small. It does not here: the digits are
shifted until there are 53 of them, and of a whole number there is a digit in front of the point, so
that what is cut off or rounded is far behind the first digit that is not zero.

## Main definitions

* `Decimal.IsFull`: positive, with 53 binary digits from a given place on

## Main results

* `Decimal.isFull_roundWithAccuracy`: rounding leaves 53 digits
* `Decimal.isFull_unpack_pack`: so does storing
* `Yaml.floatOfInt_pos`: whole numbers above zero stay above zero
-/

namespace Concordance

namespace Decimal

open Float.Model Float.Model.UnpackedFloat

/-- Positive, and unless it is infinite with 53 binary digits, the last of which does not stand
behind a given place. -/
def IsFull (place : Int) (u : UnpackedFloat) : Prop :=
  u = .infinity .positive ∨
    ∃ m e h, u = .finite .positive m e h ∧ 2 ^ 52 ≤ m ∧ m < 2 ^ 53 ∧ place ≤ e

/-! ### Rounding -/

theorem mantissa_repeat_shiftRightOne (em : ExtendedMantissa) (n : Nat) :
    (n.repeat ExtendedMantissa.shiftRightOne em).mantissa = em.mantissa / 2 ^ n := by
  induction n with
  | zero => simp [Nat.repeat]
  | succ n ih =>
    rw [Nat.repeat, ExtendedMantissa.shiftRightOne, ih, Nat.div_div_eq_div_mul, Nat.pow_succ]

/-- Rounding does not make a number smaller than what it is cut off to. -/
theorem le_roundedMantissa (em : ExtendedMantissa) : em.mantissa ≤ em.roundedMantissa := by
  unfold ExtendedMantissa.roundedMantissa Accuracy.roundToNearestEven
  split <;> omega

/-- A number that is cut off to 53 digits has 53 digits. -/
theorem cut_bounds {m : Nat} (h : 2 ^ 52 ≤ m) :
    2 ^ 52 ≤ m / 2 ^ (m.log2 - 52) ∧ m / 2 ^ (m.log2 - 52) < 2 ^ 53 := by
  have hne : m ≠ 0 := by omega
  have hlog : 52 ≤ m.log2 := (Nat.le_log2 hne).mpr h
  have hlow : 2 ^ m.log2 ≤ m := Nat.log2_self_le hne
  have hhigh : m < 2 ^ (m.log2 + 1) := Nat.lt_log2_self
  constructor
  · rw [Nat.le_div_iff_mul_le (Nat.two_pow_pos _), ← Nat.pow_add, Nat.add_sub_cancel' hlog]
    exact hlow
  · rw [Nat.div_lt_iff_lt_mul (Nat.two_pow_pos _), ← Nat.pow_add]
    convert hhigh using 2
    omega

/-- Digits from a place on that is not too far behind the point are cut off to 53 digits. -/
theorem shiftToTargetExponent_eq {m : Nat} {e : Int} (accuracy : Accuracy) (hm : 2 ^ 52 ≤ m)
    (he : -1074 ≤ e) :
    (shiftToTargetExponent Format.binary64 m e accuracy).1.mantissa = m / 2 ^ (m.log2 - 52) ∧
      e ≤ (shiftToTargetExponent Format.binary64 m e accuracy).2 := by
  have hlog : 52 ≤ m.log2 := (Nat.le_log2 (by omega)).mpr hm
  have htarget : Format.binary64.targetExponent (totalExponent m e) - e = m.log2 - 52 := by
    simp [Format.targetExponent, Format.minExponent, Format.mantissaBits, totalExponent]
    omega
  have hamount : (Format.binary64.targetExponent (totalExponent m e) - e).toNat = m.log2 - 52 := by
    omega
  rw [shiftToTargetExponent, shiftToExponent, hamount]
  refine ⟨?_, by dsimp only; omega⟩
  have hstart : (ExtendedMantissa.ofMantissaAndAccuracy m accuracy).mantissa = m := by
    unfold ExtendedMantissa.ofMantissaAndAccuracy
    split <;> rfl
  exact (mantissa_repeat_shiftRightOne _ _).trans (by rw [hstart])

/-- **Rounding leaves 53 digits** of a number that has as many. -/
theorem isFull_roundWithAccuracy {m : Nat} {e place : Int} (accuracy : Accuracy)
    (hm : 2 ^ 52 ≤ m) (he : place ≤ e) (hplace : -1074 ≤ place) :
    IsFull place (roundWithAccuracy Format.binary64 .positive m e accuracy) := by
  obtain ⟨hcut, hplace₁⟩ := shiftToTargetExponent_eq accuracy hm (hplace.trans he)
  generalize hshift : shiftToTargetExponent Format.binary64 m e accuracy = shifted at hcut hplace₁
  obtain ⟨em, e₁⟩ := shifted
  have hrounded : 2 ^ 52 ≤ em.roundedMantissa :=
    ((cut_bounds hm).1.trans_eq hcut.symm).trans (le_roundedMantissa em)
  have he₁ : place ≤ e₁ := he.trans hplace₁
  obtain ⟨hcut₂, hplace₂⟩ :=
    shiftToTargetExponent_eq .exact hrounded (hplace.trans he₁)
  generalize hshift₂ : shiftToTargetExponent Format.binary64 em.roundedMantissa e₁ .exact =
    shifted₂ at hcut₂ hplace₂
  obtain ⟨em₂, e₂⟩ := shifted₂
  obtain ⟨hlow, hhigh⟩ := cut_bounds hrounded
  rw [← hcut₂] at hlow hhigh
  have hne : em₂.mantissa ≠ 0 := by
    dsimp only at hlow
    omega
  refine .inr ⟨em₂.mantissa, e₂, Nat.pos_of_ne_zero hne, ?_, hlow, hhigh, he₁.trans hplace₂⟩
  rw [roundWithAccuracy, hshift]
  simp only [hshift₂, dif_neg hne]

/-! ### Storing -/

/-- What is stored is positive if it is stored as such. -/
theorem sign_packComponents (exponent : BitVec 11) (mantissa : BitVec 52) :
    Sign.ofBitVec (unpackSign (packComponents Format.binary64 .positive exponent mantissa)) =
      .positive := by
  have hsign (sign : Sign) : unpackSign (packComponents Format.binary64 sign exponent mantissa) =
      sign.toBitVec := by
    show (sign.toBitVec ++ exponent ++ mantissa).extractLsb' 63 1 = sign.toBitVec
    rw [BitVec.extractLsb'_append_eq_of_le (by decide),
      BitVec.extractLsb'_append_eq_of_le (by decide)]
    cases sign <;> rfl
  rw [hsign]
  rfl

/-- An exponent that is neither the least nor the largest is stored as it is. -/
theorem stored_exponent {n : Nat} (hpos : 0 < n) (hlt : n < 2047) :
    (BitVec.ofNat 11 n).toNat = n ∧ BitVec.ofNat 11 n ≠ -1#11 ∧ BitVec.ofNat 11 n ≠ 0#11 := by
  have hstored : (BitVec.ofNat 11 n).toNat = n := by
    rw [BitVec.toNat_ofNat, Nat.mod_eq_of_lt (by omega)]
  have hones : (-1#11).toNat = 2047 := rfl
  have hzero : (0#11).toNat = 0 := rfl
  refine ⟨hstored, fun heq => ?_, fun heq => ?_⟩
  · have hnat := congrArg BitVec.toNat heq
    omega
  · have hnat := congrArg BitVec.toNat heq
    omega

/-- The first of 53 digits is not stored, and is put in front again. -/
theorem stored_digits {m : Nat} (hlow : 2 ^ 52 ≤ m) (hhigh : m < 2 ^ 53) :
    (1#1 ++ BitVec.ofNat 52 m).toNat = m := by
  rw [BitVec.toNat_append, BitVec.toNat_ofNat, BitVec.toNat_ofNat, Nat.shiftLeft_eq]
  show 2 ^ 52 ||| m % 2 ^ 52 = m
  rw [Nat.or_comm, Nat.or_two_pow_eq_add_of_lt (Nat.mod_lt m (Nat.two_pow_pos 52))]
  omega

/-- **Storing leaves 53 digits**: what is stored is the number, unless it is too large. -/
theorem isFull_unpack_pack {u : UnpackedFloat} {place : Int} (h : IsFull place u)
    (hplace : -1074 ≤ place) :
    IsFull place (UnpackedFloat.unpack Format.binary64 (UnpackedFloat.pack Format.binary64 u)) := by
  have hinfinity : UnpackedFloat.unpack Format.binary64 (packedInfinity Format.binary64 .positive) =
      .infinity .positive := by
    simp only [packedInfinity, UnpackedFloat.unpack, unpackExponent_packComponents,
      unpackMantissa_packComponents, sign_packComponents]
    rfl
  obtain rfl | ⟨m, e, hpos, rfl, hlow, hhigh, he⟩ := h
  · exact .inl hinfinity
  · have hlog : m.log2 = 52 := (Nat.log2_eq_iff hpos.ne').mpr ⟨hlow, hhigh⟩
    have hbias : (e + Format.binary64.exponentBias + Format.binary64.mantissaBitsWithoutImplicit) =
        e + 1075 := by
      show e + 1023 + 52 = e + 1075
      omega
    rw [UnpackedFloat.pack, hlog, hbias]
    dsimp only
    split
    · exact .inl hinfinity
    · rename_i hsmall
      have hbits : 2 ^ Format.binary64.exponentBits = 2048 := rfl
      obtain ⟨hstored, hmost, hleast⟩ :=
        stored_exponent (show 0 < (e + 1075).toNat by omega) (by omega)
      have hfull : 52 + 1 = Format.binary64.mantissaBits := rfl
      rw [if_pos hfull]
      simp only [UnpackedFloat.unpack, unpackExponent_packComponents, unpackMantissa_packComponents,
        sign_packComponents]
      rw [if_neg hmost, if_neg hleast]
      refine .inr ⟨_, _, _, rfl, ?_, ?_, ?_⟩
      · rw [stored_digits hlow hhigh]
        exact hlow
      · rw [stored_digits hlow hhigh]
        exact hhigh
      · show place ≤ ((BitVec.ofNat 11 (e + 1075).toNat).toNat : Int) - (1023 + 52)
        omega

/-! ### Whole numbers -/

/-- A whole number above zero is shifted until it has 53 digits. -/
theorem isFull_round {n : Nat} (hn : 0 < n) :
    IsFull (-52) (UnpackedFloat.round Format.binary64 .positive n 0) := by
  have hlow : 2 ^ n.log2 ≤ n := Nat.log2_self_le hn.ne'
  have htarget : Format.binary64.targetExponent (totalExponent n 0) = n.log2 - 52 := by
    simp [Format.targetExponent, Format.minExponent, Format.mantissaBits, totalExponent]
    omega
  have hamount : (0 - ((n.log2 : Int) - 52)).toNat = 52 - n.log2 := by omega
  rw [UnpackedFloat.round, htarget, decreaseExponent, hamount]
  refine isFull_roundWithAccuracy .exact ?_ (by omega) (by decide)
  rw [Nat.shiftLeft_eq]
  calc 2 ^ 52 ≤ 2 ^ (n.log2 + (52 - n.log2)) := Nat.pow_le_pow_right (by decide) (by omega)
    _ = 2 ^ n.log2 * 2 ^ (52 - n.log2) := Nat.pow_add ..
    _ ≤ n * 2 ^ (52 - n.log2) := Nat.mul_le_mul_right _ hlow

/-- Multiplying by a number that is one leaves 53 digits. -/
theorem isFull_mul_one {u : UnpackedFloat} {place : Int} (h : IsFull place u)
    (hplace : -1022 ≤ place) :
    IsFull (place - 52) (UnpackedFloat.mul Format.binary64 u
      (.finite .positive (2 ^ 52) (-52) (Nat.two_pow_pos 52))) := by
  obtain rfl | ⟨m, e, hpos, rfl, hlow, -, he⟩ := h
  · exact .inl rfl
  · refine isFull_roundWithAccuracy .exact ?_ (by omega) (by omega)
    exact hlow.trans (Nat.le_mul_of_pos_right m (Nat.two_pow_pos 52))

theorem isFull_unpack {u : UnpackedFloat} {place : Int} (h : IsFull place u)
    (hplace : -1074 ≤ place) : IsFull place (Float.Model.pack u).unpack :=
  isFull_unpack_pack h hplace

/-- The slow way to read a whole number: its digits are put far in front of the point first. -/
theorem ofScientific_eq {n : Nat} (hn : 0 < n) :
    UnpackedFloat.ofScientific Format.binary64 n 0 =
      roundWithAccuracy Format.binary64 .positive (n <<< 53 * 1) (-53 + 0) .exact := by
  have hlog : ¬ ((0 : Int) < -((2 : Int) ^ Format.binary64.exponentBits + n.log2)) := by
    have hbits : (2 : Int) ^ Format.binary64.exponentBits = 2048 := rfl
    omega
  rw [UnpackedFloat.ofScientific, dif_neg hn.ne', if_neg (by decide), if_neg hlog,
    if_pos (by decide), UnpackedFloat.mul]
  congr 1

/-- A whole number above zero has 53 digits when it has been read, some of them behind the point if
it is small. -/
theorem isFull_ofScientific {n : Nat} (hn : 0 < n) :
    IsFull (-104) (Float.ofScientific n false 0).toModel.unpack := by
  rw [Float.ofScientific]
  split
  · rename_i hsmall
    have hwide : n.toUInt64.toNat = n := by
      rw [Nat.toUInt64_eq, UInt64.toNat_ofNat', Nat.mod_eq_of_lt (by omega)]
    have hone : (Float.exactlyRepresentablePowersOfTen[0]).toModel.unpack =
        .finite .positive (2 ^ 52) (-52) (Nat.two_pow_pos 52) := rfl
    have hcompare : compare (n : Int) 0 = .gt := Int.compare_eq_gt.mpr (by omega)
    have hread : IsFull (-52) (Float.Model.ofUInt64 n.toUInt64).unpack := by
      refine isFull_unpack ?_ (by decide)
      rw [UnpackedFloat.ofUInt64, hwide, UnpackedFloat.ofNat, UnpackedFloat.ofInt,
        UnpackedFloat.normalize, hcompare]
      exact isFull_round hn
    show IsFull (-104) (Float.Model.pack (UnpackedFloat.mul Format.binary64
      (Float.Model.ofUInt64 n.toUInt64).unpack
      (Float.exactlyRepresentablePowersOfTen[0]).toModel.unpack)).unpack
    rw [hone]
    exact isFull_unpack (isFull_mul_one hread (by decide)) (by decide)
  · refine isFull_unpack ?_ (by decide)
    have hwide : 2 ^ 52 ≤ n <<< 53 * 1 := by
      rw [Nat.shiftLeft_eq]
      omega
    have hplace : (-104 : Int) ≤ -53 + 0 := by decide
    have hfull := isFull_roundWithAccuracy .exact hwide hplace (by decide)
    rw [← ofScientific_eq hn] at hfull
    exact hfull

/-- A number with 53 digits is above zero. -/
theorem pos_of_isFull {x : Float} {place : Int} (h : IsFull place x.toModel.unpack) : 0.0 < x := by
  have hzero : (0.0 : Float).toModel.unpack = .zero .positive := rfl
  show (0.0 : Float).lt x = true
  rw [Float.lt, decide_eq_true_eq]
  show ((0.0 : Float).toModel.unpack).lt x.toModel.unpack = true
  rw [hzero]
  obtain hx | ⟨m, e, hpos, hx, -⟩ := h
  · rw [hx]
    rfl
  · rw [hx]
    rfl

end Decimal

/-- **Whole numbers above zero stay above zero** as numbers with a point. -/
theorem Yaml.floatOfInt_pos {n : Int} (hn : 0 < n) {x : Float} (hx : floatOfInt n = .ok x) :
    0.0 < x := by
  rw [floatOfInt] at hx
  split at hx
  · cases hx
  · cases hx
    have habs : ¬ (n.natAbs = 0 ∨ ((toString n.natAbs).length : Int) + 0 < -400) := by omega
    rw [Json.floatOf, if_neg (by simpa using hn.le), if_neg habs]
    split
    · decide
    · rw [if_neg (by decide)]
      exact Decimal.pos_of_isFull (Decimal.isFull_ofScientific (by omega))

end Concordance
