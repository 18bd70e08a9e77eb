import Mathlib.Data.List.TakeWhile
import VoxelCurve.Proofs.Text.Surrogate

/-!
Texts as bytes.

A text is kept with the halves of pairs in a place of their own, and it is released from there
before it is made bytes.  What is released is kept as before: that is where `ofNumbers` and
`numbers` undo each other, this time whatever the text is.  Since keeping goes character by
character, the bytes of several pieces one after the other stand for the pieces joined.
-/

namespace VoxelCurve
namespace Text

/-! ## The numbers of a text -/

theorem charOfHalf_of_half? {c : Char} {n : Nat} (h : half? c = some n) :
    isSurrogate n = true ∧ charOfHalf n = c := by
  unfold half? at h
  split at h
  · next htaken =>
    obtain rfl := Option.some.inj h
    rw [isTaken_iff] at htaken
    have hsum : lastPlane + (c.toNat - lastPlane) = c.toNat := by
      unfold lastPlane
      omega
    refine ⟨isSurrogate_iff.mpr ?_, ?_⟩
    · unfold lastPlane
      omega
    · rw [charOfHalf, hsum, Char.ofNat_toNat]
  · cases h

theorem charsOf_half {c : Char} {n : Nat} (h : half? c = some n) : charsOf n = [c] := by
  obtain ⟨hsurrogate, hchar⟩ := charOfHalf_of_half? h
  rw [charsOf, if_pos hsurrogate, hchar]

theorem charsOf_toNat {c : Char} (h : isTaken c.toNat = false) : charsOf c.toNat = [c] := by
  rw [charsOf, if_neg (by rw [isSurrogate_toNat]; exact Bool.false_ne_true),
    if_neg (by rw [h]; exact Bool.false_ne_true), Char.ofNat_toNat]

theorem charsOf_single (c : Char) : charsOf ((half? c).getD c.toNat) = [c] := by
  cases h : half? c with
  | some n => exact charsOf_half h
  | none =>
    refine charsOf_toNat ?_
    unfold half? at h
    split at h
    · cases h
    · next htaken => exact Bool.eq_false_iff.mpr htaken

-- As in the reading from the front, a match on `half?` must not count the bounds down.
seal isTaken

theorem of_takenPair? {c d : Char} {n : Nat} (h : takenPair? c d = some n) :
    isTaken n = true ∧ charsOf n = [c, d] := by
  unfold takenPair? at h
  split at h
  · next high low hhigh hlow =>
    simp only at h
    split at h
    · next hpasses =>
      obtain rfl := Option.some.inj h
      rw [Bool.and_eq_true, Bool.and_eq_true] at hpasses
      obtain ⟨⟨hh, hl⟩, htaken⟩ := hpasses
      have hh := isHighSurrogate_iff.mp hh
      have hl := isLowSurrogate_iff.mp hl
      have hnot : ¬isSurrogate (numberOfPair high low) = true := by
        intro hsurrogate
        have hrange := isSurrogate_iff.mp hsurrogate
        unfold numberOfPair at hrange
        omega
      have hfirst : (pairOf (numberOfPair high low)).1 = high := by
        show 0xD800 + (numberOfPair high low - 0x10000) / 0x400 = high
        unfold numberOfPair
        omega
      have hsecond : (pairOf (numberOfPair high low)).2 = low := by
        show 0xDC00 + (numberOfPair high low - 0x10000) % 0x400 = low
        unfold numberOfPair
        omega
      refine ⟨htaken, ?_⟩
      rw [charsOf, if_neg hnot, if_pos htaken, hfirst, hsecond, (charOfHalf_of_half? hhigh).2,
        (charOfHalf_of_half? hlow).2]
    · cases h
  · cases h

/-- Whatever a text is kept for, it is what is kept for its numbers. -/
theorem flatMap_charsOf_numbersOf (s : List Char) : (numbersOf s).flatMap charsOf = s := by
  induction s using numbersOf.induct with
  | case1 => rfl
  | case2 c =>
    show charsOf ((half? c).getD c.toNat) ++ [] = [c]
    rw [charsOf_single, List.append_nil]
  | case3 c d rest n hpair ih =>
    rw [numbersOf_pair hpair, List.flatMap_cons, (of_takenPair? hpair).2, ih]
    rfl
  | case4 c d rest hpair ih =>
    have hhead : ∀ e ∈ (d :: rest).head?, takenPair? c e = none := by
      intro e he
      obtain rfl := Option.mem_some.mp he
      exact hpair
    rw [numbersOf_cons hhead, List.flatMap_cons, charsOf_single, ih]
    rfl

theorem ofNumbers_numbers (s : String) : ofNumbers (numbers s) = s := by
  rw [ofNumbers, numbers, flatMap_charsOf_numbersOf, String.ofList_toList]

theorem numbersOf_lt (s : List Char) : ∀ n ∈ numbersOf s, n < 0x110000 := by
  have hsingle : ∀ c : Char, (half? c).getD c.toNat < 0x110000 := by
    intro c
    cases h : half? c with
    | none =>
      have hvalid : c.toNat < 0xD800 ∨ 0xDFFF < c.toNat ∧ c.toNat < 0x110000 := c.valid
      show c.toNat < 0x110000
      omega
    | some n =>
      have hn := isSurrogate_iff.mp (charOfHalf_of_half? h).1
      show n < 0x110000
      omega
  induction s using numbersOf.induct with
  | case1 => exact fun n hn => absurd hn List.not_mem_nil
  | case2 c => exact List.forall_mem_singleton.mpr (hsingle c)
  | case3 c d rest n hpair ih =>
    have hn := isTaken_iff.mp (of_takenPair? hpair).1
    rw [numbersOf_pair hpair]
    exact List.forall_mem_cons.mpr ⟨by omega, ih⟩
  | case4 c d rest hpair ih =>
    rw [numbersOf_cons_cons, hpair]
    exact List.forall_mem_cons.mpr ⟨hsingle c, ih⟩

/-! ## Keeping what was released -/

/-- A text of nothing but characters is kept character by character. -/
theorem kept_eq (s : String) : kept s = ofNumbers (s.toList.map Char.toNat) := by
  unfold kept
  split
  · next hplain =>
    have hchars : ∀ c ∈ s.toList, charsOf c.toNat = [c] := by
      intro c hc
      have hc' := List.all_eq_true.mp hplain c hc
      rw [Bool.not_eq_true'] at hc'
      exact charsOf_toNat hc'
    have hall : (s.toList.map Char.toNat).flatMap charsOf = s.toList := by
      rw [List.flatMap_map, List.flatMap_def, List.map_congr_left hchars, ← List.flatMap_def]
      exact List.flatMap_singleton' _
    rw [ofNumbers, hall, String.ofList_toList]
  · rfl

theorem kept_append (s t : String) : kept (s ++ t) = kept s ++ kept t := by
  simp only [kept_eq, ofNumbers, String.toList_append, List.map_append, List.flatMap_append,
    String.ofList_append]

theorem kept_released {s : String} (h : isEncodable s = true) : kept (released s) = s := by
  rw [isEncodable, Bool.or_eq_true] at h
  by_cases hplain : isPlain s = true
  · rw [released, if_pos hplain, kept, if_pos hplain]
  · have hnumbers := List.all_eq_true.mp (h.resolve_left hplain)
    have hback : ((numbers s).map fun n =>
        if isSurrogate n then charOfHalf n else Char.ofNat n).map Char.toNat = numbers s := by
      rw [List.map_map]
      refine (List.map_congr_left fun n hn => ?_).trans (List.map_id _)
      have hnot : isSurrogate n = false := by simpa using hnumbers n hn
      have hlt := numbersOf_lt s.toList n hn
      have hvalid : n.isValidChar := by
        rw [← Bool.not_eq_true, isSurrogate_iff] at hnot
        unfold Nat.isValidChar
        omega
      show (if isSurrogate n then charOfHalf n else Char.ofNat n).toNat = n
      rw [if_neg (by rw [hnot]; exact Bool.false_ne_true), toNat_ofNat hvalid]
    rw [kept_eq, released, if_neg hplain, String.toList_ofList, hback, ofNumbers_numbers]

/-! ## Bytes -/

theorem fromUTF8?_toUTF8 (s : String) : String.fromUTF8? s.toUTF8 = some s := by
  unfold String.fromUTF8?
  rw [String.toUTF8_eq_toByteArray, dif_pos s.isValidUTF8]
  rfl

/-- The bytes of pieces that all have bytes are those of one text, which is kept as the pieces
joined. -/
theorem exists_flatMap_utf8 {pieces : List String} (h : pieces.all isEncodable = true) :
    ∃ s : String, pieces.flatMap utf8 = s.toUTF8.data.toList ∧ kept s = String.join pieces := by
  induction pieces with
  | nil => exact ⟨"", rfl, by decide⟩
  | cons p pieces ih =>
    rw [List.all_cons, Bool.and_eq_true] at h
    obtain ⟨hp, hpieces⟩ := h
    obtain ⟨s, hbytes, hkept⟩ := ih hpieces
    refine ⟨released p ++ s, ?_, ?_⟩
    · rw [List.flatMap_cons, hbytes, utf8, String.toUTF8_eq_toByteArray,
        String.toUTF8_eq_toByteArray, String.toUTF8_eq_toByteArray, String.toByteArray_append,
        ByteArray.data_append, Array.toList_append]
    · rw [kept_append, kept_released hp, hkept, String.join_cons]

theorem ofUtf8?_flatMap_utf8 {pieces : List String} (h : pieces.all isEncodable = true) :
    ofUtf8? (pieces.flatMap utf8) = some (String.join pieces) := by
  obtain ⟨s, hbytes, hkept⟩ := exists_flatMap_utf8 h
  rw [ofUtf8?, hbytes, Array.toArray_toList]
  show (String.fromUTF8? s.toUTF8).map kept = _
  rw [fromUTF8?_toUTF8, ← hkept]
  rfl

end Text
end VoxelCurve
