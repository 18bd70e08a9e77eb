import VoxelCurve.Text.Surrogate

/-!
Texts as the numbers they are kept for.

A text is read from its front, and only two characters that are kept for the halves of one pair
are read together.  So the numbers of a text can be taken apart before any character that is
kept for nothing else, and what is kept for some numbers is read as these numbers again, as long
as no upper half stands alone among them.
-/

namespace VoxelCurve
namespace Text

theorem isHighSurrogate_iff {n : Nat} : isHighSurrogate n = true ↔ 0xD800 ≤ n ∧ n < 0xDC00 := by
  simp only [isHighSurrogate, Bool.and_eq_true, decide_eq_true_eq]

theorem isLowSurrogate_iff {n : Nat} : isLowSurrogate n = true ↔ 0xDC00 ≤ n ∧ n < 0xE000 := by
  simp only [isLowSurrogate, Bool.and_eq_true, decide_eq_true_eq]

theorem isSurrogate_iff {n : Nat} : isSurrogate n = true ↔ 0xD800 ≤ n ∧ n < 0xE000 := by
  rw [isSurrogate, Bool.or_eq_true, isHighSurrogate_iff, isLowSurrogate_iff]
  omega

theorem isTaken_iff {n : Nat} : isTaken n = true ↔ 0x10D800 ≤ n ∧ n < 0x10E000 := by
  simp only [isTaken, Bool.and_eq_true, decide_eq_true_eq]

theorem toNat_ofNat {n : Nat} (h : n.isValidChar) : (Char.ofNat n).toNat = n := by
  rw [Char.ofNat, dif_pos h]
  rfl

theorem isSurrogate_toNat (c : Char) : isSurrogate c.toNat = false := by
  have hvalid : c.toNat < 0xD800 ∨ 0xDFFF < c.toNat ∧ c.toNat < 0x110000 := c.valid
  rw [← Bool.not_eq_true, isSurrogate_iff]
  omega

theorem half?_eq_none {c : Char} (h : isTaken c.toNat = false) : half? c = none := by
  rw [half?, h]
  rfl

theorem half?_charOfHalf {n : Nat} (h : isSurrogate n = true) : half? (charOfHalf n) = some n := by
  have hrange := isSurrogate_iff.mp h
  have hchar : (charOfHalf n).toNat = lastPlane + n := by
    refine toNat_ofNat (Or.inr ?_)
    rw [lastPlane]
    omega
  have hsub : lastPlane + n - lastPlane = n := by
    unfold lastPlane
    omega
  have htaken : isTaken (lastPlane + n) = true := by
    rw [isTaken_iff, lastPlane]
    omega
  rw [half?, hchar, if_pos htaken, hsub]

/-! ## Reading from the front -/

-- Otherwise its bounds are counted down one by one whenever a match on `half?` is looked at.
seal isTaken

theorem numbersOf_cons_cons (c d : Char) (rest : List Char) :
    numbersOf (c :: d :: rest) =
      match takenPair? c d with
      | some n => n :: numbersOf rest
      | none => (half? c).getD c.toNat :: numbersOf (d :: rest) :=
  rfl

theorem numbersOf_pair {c d : Char} {n : Nat} (h : takenPair? c d = some n) (rest : List Char) :
    numbersOf (c :: d :: rest) = n :: numbersOf rest := by
  rw [numbersOf_cons_cons, h]

/-- A character that starts no pair is read alone. -/
theorem numbersOf_cons {c : Char} {rest : List Char}
    (h : ∀ d ∈ rest.head?, takenPair? c d = none) :
    numbersOf (c :: rest) = (half? c).getD c.toNat :: numbersOf rest := by
  cases rest with
  | nil => rfl
  | cons d rest => rw [numbersOf_cons_cons, h d rfl]

theorem takenPair?_eq_none_of_left {c : Char} (h : ∀ n ∈ half? c, isHighSurrogate n = false)
    (d : Char) : takenPair? c d = none := by
  unfold takenPair?
  split
  · next high low hhigh _ =>
    simp only [h high hhigh, Bool.false_and, Bool.false_eq_true, if_false]
  · rfl

theorem takenPair?_eq_none_of_right {d : Char} (h : half? d = none) (c : Char) :
    takenPair? c d = none := by
  unfold takenPair?
  rw [h]
  cases half? c <;> rfl

theorem takenPair?_pairOf {n : Nat} (h : isTaken n = true) :
    takenPair? (charOfHalf (pairOf n).1) (charOfHalf (pairOf n).2) = some n := by
  rcases hpair : pairOf n with ⟨high, low⟩
  have hrange := isTaken_iff.mp h
  have hhigh : high = 0xD800 + (n - 0x10000) / 0x400 := (congrArg Prod.fst hpair).symm
  have hlow : low = 0xDC00 + (n - 0x10000) % 0x400 := (congrArg Prod.snd hpair).symm
  have h₁ : half? (charOfHalf high) = some high :=
    half?_charOfHalf (isSurrogate_iff.mpr (by omega))
  have h₂ : half? (charOfHalf low) = some low :=
    half?_charOfHalf (isSurrogate_iff.mpr (by omega))
  have hnumber : numberOfPair high low = n := by
    unfold numberOfPair
    omega
  have hpasses : (isHighSurrogate high && isLowSurrogate low && isTaken n) = true := by
    rw [Bool.and_eq_true, Bool.and_eq_true, isHighSurrogate_iff, isLowSurrogate_iff]
    exact ⟨⟨by omega, by omega⟩, h⟩
  simp only [takenPair?, h₁, h₂, hnumber, hpasses, if_true]

/-- What is kept for a number is read as this number, whatever follows. -/
theorem numbersOf_charsOf_append {n : Nat} (hlt : n < 0x110000) (h : isHighSurrogate n = false)
    (rest : List Char) : numbersOf (charsOf n ++ rest) = n :: numbersOf rest := by
  unfold charsOf
  split
  · next hsurrogate =>
    have hhalf := half?_charOfHalf hsurrogate
    have halone : ∀ k ∈ half? (charOfHalf n), isHighSurrogate k = false := by
      intro k hk
      rw [hhalf] at hk
      obtain rfl := Option.mem_some.mp hk
      exact h
    rw [List.singleton_append, numbersOf_cons fun d _ => takenPair?_eq_none_of_left halone d, hhalf]
    rfl
  · next hsurrogate =>
    split
    · next htaken => exact numbersOf_pair (takenPair?_pairOf htaken) rest
    · next htaken =>
      have hvalid : n.isValidChar := by
        rw [isSurrogate_iff] at hsurrogate
        unfold Nat.isValidChar
        omega
      have hchar : (Char.ofNat n).toNat = n := toNat_ofNat hvalid
      have hhalf : half? (Char.ofNat n) = none :=
        half?_eq_none (by rw [hchar]; exact Bool.eq_false_iff.mpr htaken)
      have halone : ∀ k ∈ half? (Char.ofNat n), isHighSurrogate k = false := by
        rw [hhalf]
        intro k hk
        cases hk
      rw [List.singleton_append, numbersOf_cons fun d _ => takenPair?_eq_none_of_left halone d,
        hhalf, hchar]
      rfl

theorem numbers_ofNumbers {ns : List Nat}
    (h : ∀ n ∈ ns, n < 0x110000 ∧ isHighSurrogate n = false) : numbers (ofNumbers ns) = ns := by
  rw [numbers, ofNumbers, String.toList_ofList]
  induction ns with
  | nil => rfl
  | cons n ns ih =>
    obtain ⟨⟨hlt, hhigh⟩, hrest⟩ := List.forall_mem_cons.mp h
    rw [List.flatMap_cons, numbersOf_charsOf_append hlt hhigh, ih hrest]

/-- A text may be taken apart before a character that is kept for nothing else. -/
theorem numbersOf_append {s t : List Char} (h : ∀ d ∈ t.head?, half? d = none) :
    numbersOf (s ++ t) = numbersOf s ++ numbersOf t := by
  induction s using numbersOf.induct with
  | case1 => rfl
  | case2 c =>
    have halone : ∀ d ∈ t.head?, takenPair? c d = none :=
      fun d hd => takenPair?_eq_none_of_right (h d hd) c
    rw [List.singleton_append, numbersOf_cons halone]
    rfl
  | case3 c d rest n hpair ih =>
    rw [List.cons_append, List.cons_append, numbersOf_pair hpair, numbersOf_pair hpair, ih]
    rfl
  | case4 c d rest hpair ih =>
    have hhead : ∀ e ∈ ((d :: rest) ++ t).head?, takenPair? c e = none := by
      intro e he
      obtain rfl := Option.mem_some.mp he
      exact hpair
    have hhead' : ∀ e ∈ (d :: rest).head?, takenPair? c e = none := by
      intro e he
      obtain rfl := Option.mem_some.mp he
      exact hpair
    rw [List.cons_append, numbersOf_cons hhead, numbersOf_cons hhead', ih, List.cons_append]

theorem numbersOf_of_plain {s : List Char} (h : ∀ c ∈ s, isTaken c.toNat = false) :
    numbersOf s = s.map Char.toNat := by
  induction s with
  | nil => rfl
  | cons c s ih =>
    obtain ⟨hc, hrest⟩ := List.forall_mem_cons.mp h
    have hhead : ∀ d ∈ s.head?, takenPair? c d = none := fun d hd =>
      takenPair?_eq_none_of_right (half?_eq_none (hrest d (List.mem_of_mem_head? hd))) c
    rw [numbersOf_cons hhead, half?_eq_none hc, ih hrest]
    rfl

end Text
end VoxelCurve
