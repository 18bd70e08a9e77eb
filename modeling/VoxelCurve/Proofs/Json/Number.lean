import VoxelCurve.Proofs.Decimal.Integer
import VoxelCurve.Proofs.Json.RoundTrip

/-!
Numbers in documents.

The digits of an integer start with a zero only where there is no other, so all of them belong to
the number that is read, and only their count can keep an integer from being read back.
-/

namespace VoxelCurve
namespace Json

open Decimal (maxIntegerDigits signedDigits ne_of_isDigit)

/-- The digits of a number are as many as can be had, or one zero. -/
theorem takeWhole?_eq_some {s whole rest : List Char} (h : takeWhole? s = some (whole, rest)) :
    s = whole ++ rest ∧ whole ≠ [] ∧ ∀ c ∈ whole, isDigit c = true := by
  cases s with
  | nil => cases h
  | cons c s =>
    by_cases hc : c = '0'
    · subst hc
      cases h
      exact ⟨rfl, List.cons_ne_nil _ _, List.forall_mem_singleton.mpr rfl⟩
    · rw [takeWhole?_cons hc] at h
      split at h
      · next hdigit =>
        cases h
        refine ⟨List.takeWhile_append_dropWhile.symm, ?_, fun d => List.mem_takeWhile_imp⟩
        rw [List.takeWhile_cons_of_pos hdigit]
        exact List.cons_ne_nil _ _
      · cases h

theorem head?_toDigits {n : Nat} (hn : n ≠ 0) : (Nat.toDigits 10 n).head? ≠ some '0' := by
  intro h
  obtain ⟨digits, hdigits⟩ := List.head?_eq_some_iff.mp h
  have hvalue : Nat.ofDigitChars 10 digits 0 = n := by
    rw [← Nat.ofDigitChars_ten_toDigits (n := n), hdigits]
    rfl
  have hplain : ∀ c ∈ digits, c.isDigit = true := by
    intro c hc
    refine Decimal.toDigits_isDigit n c ?_
    rw [hdigits]
    exact List.mem_cons_of_mem _ hc
  have hlt := Decimal.ofDigitChars_lt digits hplain
  have hpos : 0 < digits.length := by
    refine Nat.pos_of_ne_zero fun hzero => ?_
    rw [List.length_eq_zero_iff.mp hzero] at hvalue
    exact hn hvalue.symm
  -- one digit fewer would do
  have hlength := (Nat.length_toDigits_le_iff (b := 10) (by decide) hpos).mpr (hvalue ▸ hlt)
  rw [hdigits, List.length_cons] at hlength
  omega

theorem takeWhole?_of_forall {digits : List Char} (hne : digits ≠ [])
    (hhead : digits.head? ≠ some '0') (h : ∀ c ∈ digits, isDigit c = true) :
    takeWhole? digits = some (digits, []) := by
  cases digits with
  | nil => exact absurd rfl hne
  | cons c digits =>
    have hc : c ≠ '0' := fun e => hhead (congrArg some e)
    rw [takeWhole?_cons hc, if_pos (h c List.mem_cons_self), List.takeWhile_eq_self_iff.mpr h,
      List.dropWhile_eq_nil_iff.mpr h]

theorem takeWhole?_toDigits (n : Nat) :
    takeWhole? (Nat.toDigits 10 n) = some (Nat.toDigits 10 n, []) := by
  by_cases hn : n = 0
  · rw [hn]
    rfl
  · exact takeWhole?_of_forall Nat.toDigits_ne_nil (head?_toDigits hn) (Decimal.toDigits_isDigit n)

/-- A number without a fraction and an exponent. -/
theorem readNumber_of_takeWhole? {s whole : List Char} (h : takeWhole? s = some (whole, []))
    (negative : Bool) :
    readNumber negative s =
      match Decimal.readInteger? (String.ofList (signedDigits negative whole)) with
      | some n => .ok (.int n, [])
      | none => .error .integerTooLong := by
  rw [readNumber, h]
  simp only [takeFraction, takeExponent, List.append_nil]
  rfl

/-- No word has a digit first, and none has one behind its minus. -/
theorem readWord?_signedDigits (negative : Bool) {c : Char} (hc : c.isDigit = true)
    (digits : List Char) : readWord? (signedDigits negative (c :: digits)) = none := by
  have hne : ∀ {d : Char}, d.isDigit = false → d ≠ c := fun hd => (ne_of_isDigit hc hd).symm
  have hnull : 'n' ≠ c := hne rfl
  have htrue : 't' ≠ c := hne rfl
  have hfalse : 'f' ≠ c := hne rfl
  have hnan : 'N' ≠ c := hne rfl
  have hinfinity : 'I' ≠ c := hne rfl
  have hminus : '-' ≠ c := hne rfl
  cases negative <;>
    simp [signedDigits, readWord?, words, dropWord?, hnull, htrue, hfalse, hnan, hinfinity, hminus]

theorem readScalar_signedDigits (negative : Bool) {digits : List Char} (hne : digits ≠ [])
    (hplain : ∀ c ∈ digits, c.isDigit = true) :
    readScalar (signedDigits negative digits) = readNumber negative digits := by
  cases digits with
  | nil => exact absurd rfl hne
  | cons c digits =>
    have hc := hplain c List.mem_cons_self
    rw [readScalar_eq, readWord?_signedDigits negative hc]
    cases negative with
    | true => rfl
    | false => exact readSigned_of_ne (ne_of_isDigit hc rfl) digits

/-- An integer is read back just when it is not too long. -/
theorem readsBack_int_iff {n : Int} : ReadsBack (.int n) ↔ Value.isWritable n = true := by
  have hchars : chars 0 (.int n) = signedDigits (decide (n < 0)) (Nat.toDigits 10 n.natAbs) := by
    rw [← Decimal.toList_toString]
    exact List.append_nil _
  rw [ReadsBack, hchars, readScalar_signedDigits _ Nat.toDigits_ne_nil (Decimal.toDigits_isDigit _),
    readNumber_of_takeWhole? (takeWhole?_toDigits _), ← Decimal.toList_toString,
    String.ofList_toList, Decimal.readInteger?_toString]
  cases Value.isWritable n <;> simp

/-- A document of digits alone is refused if there are too many of them. -/
theorem read_of_digits (depth : Nat) {digits : List Char} (hne : digits ≠ [])
    (hhead : digits.head? ≠ some '0') (h : ∀ c ∈ digits, c.isDigit = true)
    (hlength : maxIntegerDigits < digits.length) :
    read depth (String.ofList digits) = .error .integerTooLong := by
  have hnumber : readScalar digits = .error .integerTooLong := by
    have hsigned := readScalar_signedDigits false hne h
    rw [readNumber_of_takeWhole? (takeWhole?_of_forall hne hhead h),
      Decimal.readInteger?_signedDigits false hne h, if_neg (Nat.not_le_of_lt hlength)] at hsigned
    exact hsigned
  cases digits with
  | nil => exact absurd rfl hne
  | cons c digits =>
    have hc := h c List.mem_cons_self
    have hspace : isSpace c = false := by
      rw [isSpace]
      simp only [Bool.or_eq_false_iff, beq_eq_false_iff_ne]
      exact ⟨⟨⟨ne_of_isDigit hc rfl, ne_of_isDigit hc rfl⟩, ne_of_isDigit hc rfl⟩,
        ne_of_isDigit hc rfl⟩
    rw [read, String.toList_ofList, skipSpace_cons hspace]
    have hvalue : readValue depth (2 * (c :: digits).length + 1) (c :: digits) =
        readScalar (c :: digits) := by
      rw [readValue]
      all_goals
        intro rest heq
        exact ne_of_isDigit hc rfl (List.cons.inj heq).1
    rw [hvalue, hnumber]
    rfl

end Json
end VoxelCurve
