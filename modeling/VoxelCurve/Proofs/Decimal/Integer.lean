import Mathlib.Algebra.Ring.Nat
import VoxelCurve.Decimal.Reading
import VoxelCurve.Value.Shown

/-!
Integers and their digits.

A text of plain digits, with or without a minus, is read as the integer it shows, unless it has more
digits than may be read.  So an integer is read back from its own text just when it is below the
power of ten that has one digit too many.
-/

namespace VoxelCurve
namespace Decimal

open Text (digitValue? strip isBlank)

/-- Digits with a minus before them, or without. -/
def signedDigits (negative : Bool) (digits : List Char) : List Char :=
  (if negative then ['-'] else []) ++ digits

theorem toList_toString (n : Int) :
    (toString n).toList = signedDigits (decide (n < 0)) (Nat.toDigits 10 n.natAbs) := by
  cases n with
  | ofNat n =>
    have hsign : ¬ Int.ofNat n < 0 := by simp
    rw [decide_eq_false hsign]
    exact Nat.toList_repr
  | negSucc n =>
    have hsign : Int.negSucc n < 0 := Int.negSucc_lt_zero n
    rw [decide_eq_true hsign]
    show ("-" ++ Nat.repr (n + 1)).toList = _
    rw [String.toList_append, Nat.toList_repr]
    rfl

/-! ## Digits -/

theorem isDigit_bounds {c : Char} (h : c.isDigit = true) : 0x30 ≤ c.toNat ∧ c.toNat < 0x3A := by
  simp only [Char.isDigit, Bool.and_eq_true, decide_eq_true_eq] at h
  have hlow : 48 ≤ c.toNat := h.1
  have hhigh : c.toNat ≤ 57 := h.2
  omega

theorem ne_of_isDigit {c d : Char} (hc : c.isDigit = true) (hd : d.isDigit = false) : c ≠ d := by
  rintro rfl
  exact Bool.noConfusion (hc.symm.trans hd)

theorem digitValue?_of_isDigit {c : Char} (h : c.isDigit = true) :
    digitValue? c = some (c.toNat - '0'.toNat) := by
  obtain ⟨hlow, hhigh⟩ := isDigit_bounds h
  have hfirst : (decide (0x30 ≤ c.toNat) && decide (c.toNat < 0x30 + 10)) = true := by
    simp only [Bool.and_eq_true, decide_eq_true_eq]
    omega
  simp only [digitValue?, Text.zeros, List.find?_cons, hfirst, Option.map_some]
  rfl

theorem isBlank_of_isDigit {c : Char} (h : c.isDigit = true) : isBlank c = false := by
  obtain ⟨hlow, hhigh⟩ := isDigit_bounds h
  simp only [isBlank, Text.blankRanges, List.any_cons, List.any_nil, Bool.or_eq_false_iff,
    Bool.and_eq_false_iff, decide_eq_false_iff_not, and_true]
  omega

theorem strip_of_forall {s : List Char} (h : ∀ c ∈ s, isBlank c = false) : strip s = s := by
  have hfront : ∀ t : List Char, (∀ c ∈ t, isBlank c = false) → t.dropWhile isBlank = t := by
    intro t ht
    cases t with
    | nil => rfl
    | cons c t => exact List.dropWhile_cons_of_neg (by simp [ht c List.mem_cons_self])
  have hback : ∀ c ∈ s.reverse, isBlank c = false := fun c hc => h c (List.mem_reverse.mp hc)
  rw [strip, hfront s h, hfront s.reverse hback, List.reverse_reverse]

/-- The values of plain digits. -/
def values (digits : List Char) : List Nat :=
  digits.map fun c => c.toNat - '0'.toNat

theorem digitRun?_cons {c d : Char} (hc : c.isDigit = true) (hd : d.isDigit = true)
    (digits : List Char) :
    digitRun? (c :: d :: digits) = (digitRun? (d :: digits)).map ((c.toNat - '0'.toNat) :: ·) := by
  have hmark : d ≠ '_' := ne_of_isDigit hd rfl
  rw [digitRun?.eq_def]
  simp [digitValue?_of_isDigit hc, hmark]

theorem digitRun?_of_forall {digits : List Char} (hne : digits ≠ [])
    (h : ∀ c ∈ digits, c.isDigit = true) : digitRun? digits = some (values digits) := by
  induction digits with
  | nil => exact absurd rfl hne
  | cons c digits ih =>
    obtain ⟨hc, hdigits⟩ := List.forall_mem_cons.mp h
    cases digits with
    | nil => simp [digitRun?, digitValue?_of_isDigit hc, values]
    | cons d digits =>
      rw [digitRun?_cons hc (hdigits d List.mem_cons_self), ih (List.cons_ne_nil d digits) hdigits]
      rfl

theorem ofDigits_values (digits : List Char) :
    ofDigits (values digits) = Nat.ofDigitChars 10 digits 0 := by
  rw [ofDigits, values, List.foldl_map]
  rfl

/-! ## Reading -/

theorem readInteger?_signedDigits (negative : Bool) {digits : List Char} (hne : digits ≠ [])
    (h : ∀ c ∈ digits, c.isDigit = true) :
    readInteger? (String.ofList (signedDigits negative digits)) =
      if digits.length ≤ maxIntegerDigits then
        some (if negative then -(Nat.ofDigitChars 10 digits 0 : Int)
          else Nat.ofDigitChars 10 digits 0)
      else none := by
  have hstrip : strip (signedDigits negative digits) = signedDigits negative digits := by
    refine strip_of_forall ?_
    have hdigits : ∀ c ∈ digits, isBlank c = false := fun c hc => isBlank_of_isDigit (h c hc)
    cases negative with
    | true => exact List.forall_mem_cons.mpr ⟨by decide, hdigits⟩
    | false => exact hdigits
  have hsign : takeSign (signedDigits negative digits) = (negative, digits) := by
    cases negative with
    | true => rfl
    | false =>
      cases digits with
      | nil => rfl
      | cons c digits =>
        have hc := h c List.mem_cons_self
        show takeSign (c :: digits) = _
        unfold takeSign
        split
        · next heq => exact absurd (List.cons.inj heq).1 (ne_of_isDigit hc rfl)
        · next heq => exact absurd (List.cons.inj heq).1 (ne_of_isDigit hc rfl)
        · rfl
  have hlength : (values digits).length = digits.length := List.length_map _
  rw [readInteger?, String.toList_ofList, hstrip, hsign]
  simp only [Option.bind_eq_bind, digitRun?_of_forall hne h, Option.bind_some, hlength,
    ofDigits_values]

theorem toDigits_isDigit (n : Nat) : ∀ c ∈ Nat.toDigits 10 n, c.isDigit = true :=
  fun _ => Nat.isDigit_of_mem_toDigits (by decide) (by decide)

theorem isWritable_iff {n : Int} :
    Value.isWritable n = true ↔ n.natAbs < 10 ^ maxIntegerDigits := by
  simp only [Value.isWritable, decide_eq_true_eq, Nat.pow_eq]

theorem length_toDigits_le_iff (n : Int) :
    (Nat.toDigits 10 n.natAbs).length ≤ maxIntegerDigits ↔ Value.isWritable n = true := by
  rw [isWritable_iff]
  exact Nat.length_toDigits_le_iff (by decide) (by decide)

theorem readInteger?_toString (n : Int) :
    readInteger? (toString n) = if Value.isWritable n then some n else none := by
  have hvalue : (if decide (n < 0) = true then -(n.natAbs : Int) else n.natAbs) = n := by
    simp only [decide_eq_true_eq]
    omega
  rw [← String.ofList_toList (s := toString n), toList_toString,
    readInteger?_signedDigits _ Nat.toDigits_ne_nil (toDigits_isDigit _)]
  simp only [length_toDigits_le_iff, Nat.ofDigitChars_ten_toDigits, hvalue]

theorem ofDigitChars_lt (digits : List Char) (h : ∀ c ∈ digits, c.isDigit = true) :
    Nat.ofDigitChars 10 digits 0 < 10 ^ digits.length := by
  induction digits with
  | nil => decide
  | cons c digits ih =>
    obtain ⟨hc, hdigits⟩ := List.forall_mem_cons.mp h
    have hlt := ih hdigits
    have hhead : c.toNat - '0'.toNat ≤ 9 := by
      have hbounds := isDigit_bounds hc
      show c.toNat - 48 ≤ 9
      omega
    have hmul := Nat.mul_le_mul_left (10 ^ digits.length) hhead
    rw [Nat.ofDigitChars_cons, Nat.ofDigitChars_eq_ofDigitChars_zero, List.length_cons,
      Nat.pow_succ, Nat.mul_zero, Nat.zero_add]
    omega

/-- What is read of plain digits is short enough to be written. -/
theorem isWritable_of_readInteger? {negative : Bool} {digits : List Char} {n : Int}
    (hne : digits ≠ []) (h : ∀ c ∈ digits, c.isDigit = true)
    (hread : readInteger? (String.ofList (signedDigits negative digits)) = some n) :
    Value.isWritable n = true := by
  rw [readInteger?_signedDigits negative hne h] at hread
  split at hread
  · next hlength =>
    have hlt := ofDigitChars_lt digits h
    have hpow : 10 ^ digits.length ≤ 10 ^ maxIntegerDigits :=
      Nat.pow_le_pow_right (by decide) hlength
    have habs : n.natAbs = Nat.ofDigitChars 10 digits 0 := by
      rw [← Option.some.inj hread]
      cases negative <;> simp
    rw [isWritable_iff, habs]
    exact Nat.lt_of_lt_of_le hlt hpow
  · cases hread

end Decimal
end VoxelCurve
