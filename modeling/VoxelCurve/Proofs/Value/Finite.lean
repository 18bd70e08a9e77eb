import Mathlib
import VoxelCurve.Render.Settings

/-!
Which integers stand for finite floats.

An integer is made a float by keeping its first 53 bits and rounding by the ones that are
cut off.  The largest finite float has 53 ones followed by 971 zeros, so an integer is
rounded beyond it from half of a last place on, which is 54 ones followed by 970 zeros.

Rounding is followed on mantissas of 53 bits, which are the ones that survive being packed
into a float and read again.
-/

namespace VoxelCurve
namespace Rounding

open Float.Model Float.Model.UnpackedFloat

/-- The least integer that is rounded beyond all floats. -/
def overflow : Nat :=
  (2 ^ 54 - 1) * 2 ^ 970

/-- A mantissa and an exponent as a float holds them, unless the exponent is too large. -/
structure IsNormal (m : Nat) (e : Int) : Prop where
  low : 2 ^ 52 ≤ m
  high : m < 2 ^ 53
  above : -1074 ≤ e

/-! ### Packing -/

theorem toNat_implicit {m : Nat} (hlow : 2 ^ 52 ≤ m) (hhigh : m < 2 ^ 53) :
    (1#1 ++ BitVec.ofNat 52 m).toNat = m := by
  have hlt : m % 2 ^ 52 < 2 ^ 52 := Nat.mod_lt _ (by decide)
  rw [BitVec.toNat_append, BitVec.toNat_ofNat, BitVec.toNat_ofNat,
    ← Nat.shiftLeft_add_eq_or_of_lt hlt, Nat.shiftLeft_eq]
  omega

/-- Packing a normal number gives it back, or an infinite one if the exponent is too large. -/
theorem unpack_pack {s : Sign} {m : Nat} {e : Int} {hm : 0 < m} (h : IsNormal m e) :
    (Float.Model.pack (.finite s m e hm)).unpack =
      if 972 ≤ e then .infinity s else .finite s m e hm := by
  show UnpackedFloat.unpack Format.binary64
    (UnpackedFloat.pack Format.binary64 (.finite s m e hm)) = _
  have habove := h.above
  have hbias :
      (e + Format.binary64.exponentBias + Format.binary64.mantissaBitsWithoutImplicit).toNat =
        (e + 1075).toNat := by
    congr 1
    show e + 1023 + 52 = _
    omega
  have hlog : m.log2 + 1 = Format.binary64.mantissaBits := by
    rw [(Nat.log2_eq_iff hm.ne').mpr ⟨h.low, h.high⟩]
    rfl
  have hbits : 2 ^ Format.binary64.exponentBits = 2048 := rfl
  rw [UnpackedFloat.pack]
  dsimp only
  rw [hbias, hbits]
  by_cases hlarge : 972 ≤ e
  · rw [if_pos (by omega), if_pos hlarge, packedInfinity, UnpackedFloat.unpack]
    simp only [unpackExponent_packComponents, unpackMantissa_packComponents,
      unpackSign_packComponents, Sign.ofBitVec_toBitVec, BitVec.ofNat_eq_ofNat, if_true]
  · have htoNat :
        (BitVec.ofNat Format.binary64.exponentBits (e + 1075).toNat).toNat = (e + 1075).toNat := by
      show (e + 1075).toNat % 2048 = _
      omega
    have hmax : BitVec.ofNat Format.binary64.exponentBits (e + 1075).toNat ≠ -1#_ := by
      intro h
      have hnat := congrArg BitVec.toNat h
      rw [htoNat] at hnat
      change (e + 1075).toNat = 2047 at hnat
      omega
    have hmin : BitVec.ofNat Format.binary64.exponentBits (e + 1075).toNat ≠ 0#_ := by
      intro h
      have hnat := congrArg BitVec.toNat h
      rw [htoNat] at hnat
      change (e + 1075).toNat = 0 at hnat
      omega
    have hmantissa :
        (1#1 ++ BitVec.ofNat Format.binary64.mantissaBitsWithoutImplicit m).toNat = m :=
      toNat_implicit h.low h.high
    have hexponent : (((e + 1075).toNat : Nat) : Int) -
        (Format.binary64.exponentBias + Format.binary64.mantissaBitsWithoutImplicit) = e := by
      show _ - ((1023 : Int) + 52) = e
      omega
    rw [if_neg (by omega), if_neg hlarge, if_pos hlog, UnpackedFloat.unpack]
    simp only [unpackExponent_packComponents, unpackMantissa_packComponents,
      unpackSign_packComponents, Sign.ofBitVec_toBitVec, hmax, hmin, if_false, htoNat, hmantissa,
      hexponent]

/-! ### Rounding -/

theorem shiftRight_succ (em : ExtendedMantissa) (k : Nat) :
    em >>> (k + 1) = (em >>> k).shiftRightOne :=
  rfl

theorem mantissa_shiftRight (em : ExtendedMantissa) (k : Nat) :
    (em >>> k).mantissa = em.mantissa / 2 ^ k := by
  induction k with
  | zero => rw [Nat.pow_zero, Nat.div_one]; rfl
  | succ k ih =>
    rw [shiftRight_succ, ExtendedMantissa.shiftRightOne, ih, Nat.div_div_eq_div_mul, Nat.pow_succ]

theorem roundBit_shiftRight_succ (em : ExtendedMantissa) (k : Nat) :
    (em >>> (k + 1)).roundBit = (em.mantissa / 2 ^ k % 2 != 0) := by
  rw [shiftRight_succ, ExtendedMantissa.shiftRightOne, mantissa_shiftRight]

theorem roundedMantissa_cases (em : ExtendedMantissa) :
    em.roundedMantissa = em.mantissa ∨ em.roundedMantissa = em.mantissa + 1 := by
  obtain ⟨m, round, sticky⟩ := em
  cases round <;> cases sticky <;>
    simp only [ExtendedMantissa.roundedMantissa, ExtendedMantissa.accuracy,
      Accuracy.roundToNearestEven, true_or, or_true]
  omega

/-- An odd mantissa is rounded up when the next bit is set, whatever is behind it. -/
theorem roundedMantissa_of_odd {em : ExtendedMantissa} (h : em.mantissa % 2 = 1) :
    em.roundedMantissa = if em.roundBit then em.mantissa + 1 else em.mantissa := by
  obtain ⟨m, round, sticky⟩ := em
  change m % 2 = 1 at h
  cases round <;> cases sticky <;>
    simp [ExtendedMantissa.roundedMantissa, ExtendedMantissa.accuracy,
      Accuracy.roundToNearestEven, h]

theorem targetExponent_eq (m : Nat) (e : Int) :
    Format.binary64.targetExponent (totalExponent m e) = max (m.log2 + e - 52) (-1074) := by
  show max ((m.log2 : Int) + 1 + e - 53) (3 - 2 ^ 10 - 53) = _
  omega

/-- A mantissa without its last `k` bits, which only decide how it is rounded. -/
def cut (m k : Nat) : ExtendedMantissa :=
  ExtendedMantissa.ofMantissaAndAccuracy m .exact >>> k

theorem mantissa_cut (m k : Nat) : (cut m k).mantissa = m / 2 ^ k :=
  mantissa_shiftRight _ k

theorem shiftToTargetExponent_exact {m : Nat} {e : Int} {k : Nat}
    (hk : max (m.log2 + e - 52) (-1074) = e + k) :
    shiftToTargetExponent Format.binary64 m e .exact = (cut m k, e + k) := by
  have hshift : (e + (k : Int) - e).toNat = k := by omega
  rw [shiftToTargetExponent, targetExponent_eq, hk, shiftToExponent]
  simp only [hshift, cut]

section Exact

variable {m k : Nat}

/-- All bits that are kept are ones and the first that is cut off is one as well, so rounding
gives one bit more. -/
theorem roundedMantissa_eq_carry_iff (hlow : 2 ^ 52 ≤ m / 2 ^ k) (hhigh : m / 2 ^ k < 2 ^ 53) :
    (cut m k).roundedMantissa = 2 ^ 53 ↔ (2 ^ 54 - 1) * 2 ^ k ≤ 2 * m := by
  have hlast : (cut m k).roundedMantissa = 2 ^ 53 ↔
      m / 2 ^ k = 2 ^ 53 - 1 ∧ (cut m k).roundBit = true := by
    by_cases hq : m / 2 ^ k = 2 ^ 53 - 1
    · have hodd : (cut m k).mantissa % 2 = 1 := by
        rw [mantissa_cut]
        omega
      rw [roundedMantissa_of_odd hodd, mantissa_cut, hq]
      cases (cut m k).roundBit <;> simp
    · have hcases := roundedMantissa_cases (cut m k)
      rw [mantissa_cut] at hcases
      simp only [hq, false_and, iff_false]
      omega
  rw [hlast]
  cases k with
  | zero =>
    have hbit : (cut m 0).roundBit = false := rfl
    simp only [hbit, Bool.false_eq_true, and_false, false_iff]
    omega
  | succ j =>
    rw [cut, roundBit_shiftRight_succ]
    change m / 2 ^ (j + 1) = 2 ^ 53 - 1 ∧ (m / 2 ^ j % 2 != 0) = true ↔ _
    have hhalf : m / 2 ^ (j + 1) = m / 2 ^ j / 2 := by
      rw [Nat.pow_succ, Nat.div_div_eq_div_mul]
    have hdouble : (2 ^ 54 - 1) * 2 ^ (j + 1) ≤ 2 * m ↔ 2 ^ 54 - 1 ≤ m / 2 ^ j := by
      rw [Nat.le_div_iff_mul_le (Nat.two_pow_pos j), Nat.pow_succ]
      omega
    rw [hdouble, bne_iff_ne]
    omega

/-- The exponent after rounding, which takes up the carry. -/
def roundedExponent (m k : Nat) (e : Int) : Int :=
  if (2 ^ 54 - 1) * 2 ^ k ≤ 2 * m then e + k + 1 else e + k

theorem roundWithAccuracy_exact {s : Sign} {e : Int} (hlow : 2 ^ 52 ≤ m / 2 ^ k)
    (hhigh : m / 2 ^ k < 2 ^ 53) (hk : max (m.log2 + e - 52) (-1074) = e + k) :
    ∃ r hr, roundWithAccuracy Format.binary64 s m e .exact =
      .finite s r (roundedExponent m k e) hr ∧ IsNormal r (roundedExponent m k e) := by
  have hcases := roundedMantissa_cases (cut m k)
  have hcarry := roundedMantissa_eq_carry_iff hlow hhigh
  rw [mantissa_cut] at hcases
  rw [roundWithAccuracy, shiftToTargetExponent_exact hk, roundedExponent]
  dsimp only
  generalize (cut m k).roundedMantissa = r at *
  by_cases hr : r = 2 ^ 53
  · have hsecond : shiftToTargetExponent Format.binary64 r (e + k) .exact =
        (cut r 1, e + k + (1 : Nat)) := by
      refine shiftToTargetExponent_exact ?_
      rw [hr, Nat.log2_two_pow]
      omega
    have hmantissa : (cut r 1).mantissa = 2 ^ 52 := by
      rw [mantissa_cut]
      omega
    have hne : ¬(cut r 1).mantissa = 0 := by omega
    rw [hsecond, if_pos (hcarry.mp hr)]
    exact ⟨(cut r 1).mantissa, by omega, dif_neg hne, by omega, by omega, by omega⟩
  · have hsecond : shiftToTargetExponent Format.binary64 r (e + k) .exact = (cut r 0, e + k) := by
      have hlog : r.log2 = 52 := (Nat.log2_eq_iff (by omega)).mpr ⟨by omega, by omega⟩
      have hzero : max (r.log2 + (e + k) - 52) (-1074) = e + k + (0 : Nat) := by omega
      have hexact := shiftToTargetExponent_exact hzero
      rwa [Int.natCast_zero, Int.add_zero] at hexact
    have hmantissa : (cut r 0).mantissa = r := by
      rw [mantissa_cut, Nat.pow_zero, Nat.div_one]
    have hne : ¬(cut r 0).mantissa = 0 := by omega
    rw [hsecond, if_neg (mt hcarry.mpr hr)]
    exact ⟨(cut r 0).mantissa, by omega, dif_neg hne, by omega, by omega, by omega⟩

end Exact

/-- Rounding an exact number ends in a normal one or, where the exponent is too large, in an
infinite one. -/
theorem unpack_rounded {s : Sign} {m k : Nat} {e : Int} (hlow : 2 ^ 52 ≤ m / 2 ^ k)
    (hhigh : m / 2 ^ k < 2 ^ 53) (hk : max (m.log2 + e - 52) (-1074) = e + k) :
    ∃ r hr, IsNormal r (roundedExponent m k e) ∧
      (Float.Model.pack (roundWithAccuracy Format.binary64 s m e .exact)).unpack =
        if 972 ≤ roundedExponent m k e then .infinity s
        else .finite s r (roundedExponent m k e) hr := by
  obtain ⟨r, hr, hround, hnormal⟩ := roundWithAccuracy_exact (s := s) hlow hhigh hk
  rw [hround]
  exact ⟨r, hr, hnormal, unpack_pack hnormal⟩

theorem log2_mul_two_pow {n : Nat} (hn : 0 < n) (j : Nat) : (n * 2 ^ j).log2 = n.log2 + j := by
  induction j with
  | zero => rw [Nat.pow_zero, Nat.mul_one, Nat.add_zero]
  | succ j ih =>
    rw [Nat.pow_succ', Nat.mul_left_comm,
      Nat.log2_two_mul (Nat.mul_pos hn (Nat.two_pow_pos j)).ne', ih, Nat.add_assoc]

/-- A normal number stays where it is, however many zeros are written behind it. -/
theorem unpack_rounded_normal {s : Sign} {m : Nat} {e : Int} (h : IsNormal m e) (he : e < 972)
    (j : Nat) :
    ∃ r hr, IsNormal r e ∧
      (Float.Model.pack (roundWithAccuracy Format.binary64 s (m * 2 ^ j) (e - j) .exact)).unpack =
        .finite s r e hr := by
  have hlow := h.low
  have hhigh := h.high
  have habove := h.above
  have hcut : m * 2 ^ j / 2 ^ j = m := Nat.mul_div_cancel m (Nat.two_pow_pos j)
  have hlog : m.log2 = 52 := (Nat.log2_eq_iff (by omega)).mpr ⟨hlow, hhigh⟩
  have hcarry : ¬(2 ^ 54 - 1) * 2 ^ j ≤ 2 * (m * 2 ^ j) := by
    rw [← Nat.mul_assoc, Nat.mul_le_mul_right_iff (Nat.two_pow_pos j)]
    omega
  have hexponent : roundedExponent (m * 2 ^ j) j (e - j) = e := by
    rw [roundedExponent, if_neg hcarry]
    omega
  obtain ⟨r, hr, hnormal, hunpack⟩ := unpack_rounded (s := s) (e := e - j)
    (by rw [hcut]; exact hlow) (by rw [hcut]; exact hhigh)
    (by rw [log2_mul_two_pow (by omega), hlog]; omega)
  rw [if_neg (by omega)] at hunpack
  simp only [hexponent] at hnormal hunpack
  exact ⟨r, hr, hnormal, hunpack⟩

/-! ### Integers as floats -/

theorem toModel_ofNat_of_le {n : Nat} (hn : 2 ^ 53 ≤ n) :
    (Float.ofNat n).toModel =
      Float.Model.pack (roundWithAccuracy Format.binary64 .positive (n * 2 ^ 53) (-53) .exact) := by
  have hne : ¬n = 0 := by omega
  have hsmall : ¬(0 : Int) < -((2 ^ Format.binary64.exponentBits : Int) + n.log2) := by
    show ¬(0 : Int) < -((2048 : Int) + n.log2)
    omega
  have hpow : 10 ^ Int.toNat 0 = 1 := rfl
  show (Float.ofScientific n false 0).toModel = _
  rw [Float.ofScientific, dif_neg (by omega)]
  show Float.Model.pack (UnpackedFloat.ofScientific Format.binary64 n 0) = _
  rw [UnpackedFloat.ofScientific, dif_neg hne, if_neg (by decide), if_neg hsmall,
    if_pos (by decide), UnpackedFloat.mul, Nat.shiftLeft_eq, hpow, Nat.mul_one]
  rfl

theorem toModel_ofNat_of_lt {n : Nat} (hpos : 0 < n) (hn : n < 2 ^ 53) :
    (Float.ofNat n).toModel =
      Float.Model.mul (Float.Model.pack (roundWithAccuracy Format.binary64 .positive
        (n * 2 ^ (52 - n.log2)) (n.log2 - 52) .exact))
        (Float.ofBits 0x3FF0000000000000).toModel := by
  have hlog : n.log2 < 53 := (Nat.log2_lt hpos.ne').mpr hn
  have hnat : n.toUInt64.toNat = n := by
    rw [Nat.toUInt64_eq, UInt64.toNat_ofNat']
    omega
  have htarget : max (n.log2 + (0 : Int) - 52) (-1074) = n.log2 - 52 := by omega
  have hshift : (0 - ((n.log2 : Int) - 52)).toNat = 52 - n.log2 := by omega
  have hexponent : (0 : Int) - (52 - n.log2 : Nat) = n.log2 - 52 := by omega
  have hgt : compare (n : Int) 0 = .gt := Int.compare_eq_gt.mpr (by omega)
  show (Float.ofScientific n false 0).toModel = _
  rw [Float.ofScientific, dif_pos ⟨hn, by decide⟩]
  show Float.Model.mul (Float.Model.pack
    (UnpackedFloat.ofNat Format.binary64 n.toUInt64.toNat)) _ = _
  rw [hnat, UnpackedFloat.ofNat, UnpackedFloat.ofInt, UnpackedFloat.normalize, hgt]
  dsimp only
  rw [UnpackedFloat.round, targetExponent_eq, decreaseExponent, Int.toNat_natCast]
  dsimp only
  rw [htarget, hshift, hexponent, Nat.shiftLeft_eq]
  rfl

theorem unpack_one :
    (Float.ofBits 0x3FF0000000000000).toModel.unpack =
      .finite .positive (2 ^ 52) (-52) (by decide) :=
  rfl

/-- A small integer is there exactly. -/
theorem unpack_ofNat_of_small {n : Nat} (hpos : 0 < n) (hn : n < 2 ^ 53) :
    ∃ m e hm, IsNormal m e ∧ e < 972 ∧
      (Float.ofNat n).toModel.unpack = .finite .positive m e hm := by
  have hlog : n.log2 < 53 := (Nat.log2_lt hpos.ne').mpr hn
  obtain ⟨hlow, hhigh⟩ := (Nat.log2_eq_iff hpos.ne').mp rfl
  have hnormal : IsNormal (n * 2 ^ (52 - n.log2)) (n.log2 - 52) := by
    have hwidth : n.log2 + (52 - n.log2) = 52 := by omega
    refine ⟨?_, ?_, by omega⟩
    · calc
        2 ^ 52 = 2 ^ n.log2 * 2 ^ (52 - n.log2) := by rw [← Nat.pow_add, hwidth]
        _ ≤ n * 2 ^ (52 - n.log2) := Nat.mul_le_mul_right _ hlow
    · calc
        n * 2 ^ (52 - n.log2) < 2 ^ (n.log2 + 1) * 2 ^ (52 - n.log2) :=
          Nat.mul_lt_mul_of_pos_right hhigh (Nat.two_pow_pos _)
        _ = 2 ^ 53 := by rw [← Nat.pow_add, Nat.add_right_comm, hwidth]
  obtain ⟨r, hr, hr', hunpack⟩ := unpack_rounded_normal (s := .positive) hnormal (by omega) 0
  obtain ⟨q, hq, hq', hproduct⟩ := unpack_rounded_normal (s := .positive) hr' (by omega) 52
  rw [Nat.pow_zero, Nat.mul_one, Int.natCast_zero, Int.sub_zero] at hunpack
  refine ⟨q, n.log2 - 52, hq, hq', by omega, ?_⟩
  rw [toModel_ofNat_of_lt hpos hn, Float.Model.mul, hunpack, unpack_one, UnpackedFloat.mul]
  exact hproduct

theorem two_pow_lt_overflow : 2 ^ 53 < overflow := by
  have hpos : 0 < 2 ^ 970 := pow_pos Nat.two_pos 970
  rw [overflow]
  generalize 2 ^ 970 = p at *
  omega

theorem lt_two_pow_mul_of_log2 {n a b : Nat} (h : n.log2 + 1 ≤ a + b) : n < 2 ^ a * 2 ^ b := by
  rw [← Nat.pow_add]
  exact Nat.lt_of_lt_of_le Nat.lt_log2_self (Nat.pow_le_pow_right (by decide) h)

theorem two_pow_mul_le_of_log2 {n a b : Nat} (hn : 0 < n) (h : a + b ≤ n.log2) :
    2 ^ a * 2 ^ b ≤ n := by
  rw [← Nat.pow_add]
  exact (Nat.le_log2 hn.ne').mp h

/-- The exponent of a rounded integer is too large for a float from the bound on. -/
theorem le_roundedExponent_iff {n : Nat} (hn : 0 < n) :
    972 ≤ roundedExponent (n * 2 ^ 53) (n.log2 + 1) (-53) ↔ overflow ≤ n := by
  rw [roundedExponent, overflow]
  obtain hlog | hlog | hlog :
      n.log2 + 1 ≤ 53 + 970 ∨ n.log2 + 1 = 54 + 970 ∨ 54 + 970 ≤ n.log2 := by omega
  · have hbelow := lt_two_pow_mul_of_log2 hlog
    generalize 2 ^ 970 = p at *
    constructor
    · intro h
      split at h <;> omega
    · intro h
      omega
  · rw [hlog, pow_add]
    generalize 2 ^ 970 = p at *
    split <;> omega
  · have habove := two_pow_mul_le_of_log2 hn hlog
    generalize 2 ^ 970 = p at *
    constructor
    · intro h
      omega
    · intro h
      split <;> omega

/-- A positive integer is made a normal number, whose exponent is too large from the bound on. -/
theorem unpack_ofNat {n : Nat} (hpos : 0 < n) :
    ∃ m e hm, IsNormal m e ∧ (972 ≤ e ↔ overflow ≤ n) ∧ (Float.ofNat n).toModel.unpack =
      if 972 ≤ e then .infinity .positive else .finite .positive m e hm := by
  obtain hn | hn := Nat.lt_or_ge n (2 ^ 53)
  · obtain ⟨m, e, hm, hnormal, he, hunpack⟩ := unpack_ofNat_of_small hpos hn
    have hover : n < overflow := Nat.lt_trans hn two_pow_lt_overflow
    refine ⟨m, e, hm, hnormal, by omega, ?_⟩
    rw [hunpack, if_neg (by omega)]
  · obtain ⟨hlow, hhigh⟩ := (Nat.log2_eq_iff hpos.ne').mp rfl
    have hcutlow : 2 ^ 52 ≤ n * 2 ^ 53 / 2 ^ (n.log2 + 1) := by
      rw [Nat.le_div_iff_mul_le (Nat.two_pow_pos _), Nat.pow_succ]
      omega
    have hcuthigh : n * 2 ^ 53 / 2 ^ (n.log2 + 1) < 2 ^ 53 := by
      rw [Nat.div_lt_iff_lt_mul (Nat.two_pow_pos _)]
      omega
    obtain ⟨r, hr, hnormal, hunpack⟩ := unpack_rounded (s := .positive) (e := -53) hcutlow
      hcuthigh (by rw [log2_mul_two_pow hpos]; omega)
    rw [← toModel_ofNat_of_le hn] at hunpack
    exact ⟨r, _, hr, hnormal, le_roundedExponent_iff hpos, hunpack⟩

end Rounding

open Rounding

theorem isInf_ofNat_iff {n : Nat} : (Float.ofNat n).isInf = true ↔ overflow ≤ n := by
  obtain rfl | hpos := Nat.eq_zero_or_pos n
  · decide +kernel
  · obtain ⟨m, e, hm, -, hover, hunpack⟩ := unpack_ofNat hpos
    show (Float.ofNat n).toModel.unpack.isInf = true ↔ _
    rw [hunpack, ← hover]
    split
    · next h => simp only [Float.Model.UnpackedFloat.isInf, h]
    · next h => simp only [Float.Model.UnpackedFloat.isInf, h, Bool.false_eq_true]

theorem isFinite_ofNat {n : Nat} (hn : n < overflow) : (Float.ofNat n).isFinite = true := by
  obtain rfl | hpos := Nat.eq_zero_or_pos n
  · decide +kernel
  · obtain ⟨m, e, hm, -, hover, hunpack⟩ := unpack_ofNat hpos
    show (Float.ofNat n).toModel.unpack.isFinite = true
    rw [hunpack, if_neg (by omega)]
    rfl

theorem isFinite_neg_ofNat {n : Nat} (hpos : 0 < n) (hn : n < overflow) :
    (-Float.ofNat n).isFinite = true := by
  obtain ⟨m, e, hm, hnormal, hover, hunpack⟩ := unpack_ofNat hpos
  show (Float.Model.pack
    (Float.Model.UnpackedFloat.neg (Float.ofNat n).toModel.unpack)).unpack.isFinite = true
  rw [hunpack, if_neg (by omega), Float.Model.UnpackedFloat.neg, unpack_pack hnormal,
    if_neg (by omega)]
  rfl

namespace Number

theorem toFloat_int (n : Int) :
    (int n).toFloat =
      if overflow ≤ n.natAbs then .error .tooLarge
      else .ok (if n < 0 then -Float.ofNat n.natAbs else Float.ofNat n.natAbs) :=
  if_congr isInf_ofNat_iff rfl rfl

/-- An integer is finite exactly if there is a float near it. -/
theorem isFinite_int_iff {n : Int} : (int n).isFinite = true ↔ n.natAbs < overflow := by
  rw [isFinite, toFloat_int]
  by_cases hover : overflow ≤ n.natAbs
  · rw [if_pos hover]
    simp only [Bool.false_eq_true, false_iff]
    omega
  · have hn : n.natAbs < overflow := by omega
    rw [if_neg hover]
    by_cases hneg : n < 0
    · simp only [hneg, if_true, isFinite_neg_ofNat (Int.natAbs_pos.mpr hneg.ne) hn, hn]
    · simp only [hneg, if_false, isFinite_ofNat hn, hn]

theorem isFinite_bool (b : Bool) : (bool b).isFinite = true := by
  cases b <;> decide +kernel

end Number
end VoxelCurve
