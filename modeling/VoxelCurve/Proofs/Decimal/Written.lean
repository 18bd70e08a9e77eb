import VoxelCurve.Decimal.Written
import VoxelCurve.Proofs.Decimal.Integer

/-!
The characters of written numbers.

An integer is written with digits and a minus, a float also with a point and the mark of an
exponent, or as a word.  All of these are ASCII.
-/

namespace VoxelCurve
namespace Decimal

/-- Whether every character of a text is ASCII. -/
def IsAscii (s : List Char) : Prop :=
  ∀ c ∈ s, c.toNat < 0x80

theorem IsAscii.append {s t : List Char} (hs : IsAscii s) (ht : IsAscii t) : IsAscii (s ++ t) :=
  List.forall_mem_append.mpr ⟨hs, ht⟩

theorem IsAscii.cons {c : Char} {s : List Char} (hc : c.toNat < 0x80) (hs : IsAscii s) :
    IsAscii (c :: s) :=
  List.forall_mem_cons.mpr ⟨hc, hs⟩

theorem IsAscii.take {s : List Char} (hs : IsAscii s) (n : Nat) : IsAscii (s.take n) :=
  fun c hc => hs c (List.mem_of_mem_take hc)

theorem IsAscii.drop {s : List Char} (hs : IsAscii s) (n : Nat) : IsAscii (s.drop n) :=
  fun c hc => hs c (List.mem_of_mem_drop hc)

theorem isAscii_nil : IsAscii [] :=
  List.forall_mem_nil _

theorem isAscii_of_all {s : List Char} (h : (s.all fun c => c.toNat < 0x80) = true) : IsAscii s :=
  fun c hc => of_decide_eq_true (List.all_eq_true.mp h c hc)

theorem isAscii_zeros (n : Nat) : IsAscii (List.replicate n '0') := by
  intro c hc
  rw [List.eq_of_mem_replicate hc]
  decide

theorem isAscii_of_isDigit {s : List Char} (h : ∀ c ∈ s, c.isDigit = true) : IsAscii s := by
  intro c hc
  have hbounds := isDigit_bounds (h c hc)
  omega

theorem isAscii_digitsOf (n : Nat) : IsAscii (digitsOf n) :=
  isAscii_of_isDigit (toDigits_isDigit n)

theorem isAscii_toString (n : Int) : IsAscii (toString n).toList := by
  have hdigits : IsAscii (Nat.toDigits 10 n.natAbs) := isAscii_digitsOf _
  rw [toList_toString]
  cases decide (n < 0) with
  | true => exact .cons (by decide) hdigits
  | false => exact hdigits

/-! ## Floats -/

theorem isAscii_positional {digits : List Char} (h : IsAscii digits) (point : Int) :
    IsAscii (positional digits point) := by
  unfold positional
  split
  · exact .append (.cons (by decide) (.cons (by decide) (isAscii_zeros _))) h
  · split
    · exact (h.take _).append (.cons (by decide) (h.drop _))
    · exact (h.append (isAscii_zeros _)).append (.cons (by decide) (.cons (by decide) isAscii_nil))

theorem isAscii_scientific {digits : List Char} (h : IsAscii digits) (power : Int) :
    IsAscii (scientific digits power) := by
  have htail : IsAscii (if (digits.drop 1).isEmpty then [] else '.' :: digits.drop 1) := by
    split
    · exact isAscii_nil
    · exact .cons (by decide) (h.drop 1)
  have hsign : (if power < 0 then '-' else '+').toNat < 0x80 := by
    split <;> decide
  have hmark : 'e'.toNat < 0x80 := by decide
  exact (((h.take 1).append htail).append (.cons hmark (.cons hsign (isAscii_zeros _)))).append
    (isAscii_digitsOf _)

theorem isAscii_written {words : Words} (hnan : IsAscii words.nan.toList)
    (hinfinity : IsAscii words.infinity.toList) (x : Float) :
    IsAscii (written words x).toList := by
  have hmagnitude : IsAscii (if x.isInf then words.infinity.toList
      else (Binary.ofFloat x).shortest.written) := by
    split
    · exact hinfinity
    · rw [Scientific.written]
      split
      · exact isAscii_positional (isAscii_digitsOf _) _
      · exact isAscii_scientific (isAscii_digitsOf _) _
  unfold written
  split
  · exact hnan
  · rw [String.toList_ofList]
    split
    · exact .cons (by decide) hmagnitude
    · exact hmagnitude

end Decimal
end VoxelCurve
