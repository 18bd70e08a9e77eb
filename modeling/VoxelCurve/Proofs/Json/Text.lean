import VoxelCurve.Json.Printer
import VoxelCurve.Json.Reader
import VoxelCurve.Proofs.Text.Surrogate

/-!
Texts between quotes.

Every character is written so that the reader takes it back in one step: as a letter behind a
backslash, as four digits behind the letter `u`, or as it is.  So a text is read back as it was,
and as many steps are enough as it has characters.
-/

namespace VoxelCurve
namespace Json

theorem hexValue?_hexDigit {d : Nat} (h : d < 16) : hexValue? (Text.hexDigit d) = some d := by
  have hall : ∀ d < 16, hexValue? (Text.hexDigit d) = some d := by decide
  exact hall d h

theorem hexDigits_four (n : Nat) :
    Text.hexDigits 4 n =
      [Text.hexDigit (n / 16 / 16 / 16 % 16), Text.hexDigit (n / 16 / 16 % 16),
        Text.hexDigit (n / 16 % 16), Text.hexDigit (n % 16)] :=
  rfl

theorem readUnit?_hexDigits {n : Nat} (h : n < 0x10000) (rest : List Char) :
    readUnit? (Text.hexDigits 4 n ++ rest) = some (n, rest) := by
  have hdigit : ∀ k, hexValue? (Text.hexDigit (k % 16)) = some (k % 16) :=
    fun k => hexValue?_hexDigit (Nat.mod_lt k (by decide))
  have hnumber : ((n / 16 / 16 / 16 % 16 * 16 + n / 16 / 16 % 16) * 16 + n / 16 % 16) * 16 +
      n % 16 = n := by omega
  rw [hexDigits_four]
  show (do
    let a ← hexValue? (Text.hexDigit (n / 16 / 16 / 16 % 16))
    let b ← hexValue? (Text.hexDigit (n / 16 / 16 % 16))
    let c ← hexValue? (Text.hexDigit (n / 16 % 16))
    let d ← hexValue? (Text.hexDigit (n % 16))
    some (((a * 16 + b) * 16 + c) * 16 + d, rest)) = some (n, rest)
  simp only [hdigit, Option.bind_eq_bind, Option.bind_some, hnumber]

theorem readCodePoint?_hexDigits {n : Nat} (h : n < 0xD800) (rest : List Char) :
    readCodePoint? (Text.hexDigits 4 n ++ rest) = some (n, rest) := by
  have hhigh : Text.isHighSurrogate n = false := by
    rw [← Bool.not_eq_true, Text.isHighSurrogate_iff]
    omega
  rw [readCodePoint?, readUnit?_hexDigits (by omega)]
  simp only [Option.bind_eq_bind, Option.bind_some, hhigh, Bool.false_eq_true, if_false]

theorem charsOf_of_lt {n : Nat} (h : n < 0xD800) : Text.charsOf n = [Char.ofNat n] := by
  rw [Text.charsOf, if_neg (by rw [Text.isSurrogate_iff]; omega),
    if_neg (by rw [Text.isTaken_iff]; omega)]

/-- A character is read back in one step. -/
theorem readText?_escapedChar (c : Char) (fuel : Nat) (rest acc : List Char) :
    readText? (fuel + 1) (escapedChar c ++ rest) acc = readText? fuel rest (c :: acc) := by
  cases hletter : escapeLetter? c with
  | some letter =>
    rw [escapedChar, hletter]
    unfold escapeLetter? at hletter
    split at hletter <;> cases hletter <;> rfl
  | none =>
    by_cases hcontrol : c.toNat < 0x20
    · have hescaped : escapedChar c = '\\' :: 'u' :: Text.hexDigits 4 c.toNat := by
        rw [escapedChar, hletter]
        exact if_pos hcontrol
      have hread := readCodePoint?_hexDigits (n := c.toNat) (by omega) rest
      have hback : Text.charsOf c.toNat = [c] := by
        rw [charsOf_of_lt (by omega), Char.ofNat_toNat]
      rw [hescaped]
      show (readCodePoint? (Text.hexDigits 4 c.toNat ++ rest) >>= fun p =>
        readText? fuel p.2 ((Text.charsOf p.1).reverse ++ acc)) = _
      rw [hread]
      show readText? fuel rest ((Text.charsOf c.toNat).reverse ++ acc) = _
      rw [hback]
      rfl
    · have hescaped : escapedChar c = [c] := by
        rw [escapedChar, hletter]
        exact if_neg hcontrol
      have hquote : c ≠ '"' := by
        rintro rfl
        cases hletter
      have hslash : c ≠ '\\' := by
        rintro rfl
        cases hletter
      rw [hescaped, List.singleton_append]
      show (if c = '"' then _ else if c = '\\' then _ else if c.toNat < 0x20 then none else _) = _
      rw [if_neg hquote, if_neg hslash, if_neg hcontrol]

theorem readText?_flatMap_escapedChar (s : List Char) {fuel : Nat} (h : s.length < fuel)
    (rest acc : List Char) :
    readText? fuel (s.flatMap escapedChar ++ '"' :: rest) acc = some (acc.reverse ++ s, rest) := by
  induction s generalizing fuel acc with
  | nil =>
    obtain ⟨fuel, rfl⟩ := Nat.exists_eq_succ_of_ne_zero (Nat.ne_of_gt h)
    rw [List.append_nil]
    rfl
  | cons c s ih =>
    obtain ⟨fuel, rfl⟩ := Nat.exists_eq_succ_of_ne_zero (Nat.ne_of_gt (Nat.zero_lt_of_lt h))
    rw [List.flatMap_cons, List.append_assoc, readText?_escapedChar,
      ih (Nat.lt_of_succ_lt_succ h), List.reverse_cons, List.append_assoc]
    rfl

theorem length_le_flatMap_escapedChar (s : List Char) :
    s.length ≤ (s.flatMap escapedChar).length := by
  have hchar : ∀ c, 1 ≤ (escapedChar c).length := by
    intro c
    unfold escapedChar
    split
    · exact Nat.succ_pos _
    · split <;> exact Nat.succ_pos _
  induction s with
  | nil => exact Nat.le_refl 0
  | cons c s ih =>
    have hc := hchar c
    rw [List.flatMap_cons, List.length_append, List.length_cons]
    omega

/-- What follows the opening quote of a text is read as the text. -/
theorem readText?_textChars (s : String) {fuel : Nat} (h : (textChars s).length ≤ fuel)
    (rest : List Char) :
    ∃ chars, textChars s ++ rest = '"' :: chars ∧
      readText? fuel chars [] = some (s.toList, rest) := by
  have hle := length_le_flatMap_escapedChar s.toList
  have hlength : (textChars s).length = (s.toList.flatMap escapedChar).length + 2 := by
    rw [textChars, List.length_append, List.length_cons]
    rfl
  refine ⟨s.toList.flatMap escapedChar ++ '"' :: rest, ?_, ?_⟩
  · rw [textChars, List.append_assoc]
    rfl
  · rw [readText?_flatMap_escapedChar s.toList (by omega)]
    rfl

end Json
end VoxelCurve
