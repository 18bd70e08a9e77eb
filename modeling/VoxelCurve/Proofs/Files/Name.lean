import Mathlib.Data.List.Basic
import VoxelCurve.Files.Name
import VoxelCurve.Proofs.Text.Surrogate

/-!
Names and their bytes.

Bytes are read as characters where they are some, and as halves where they are not, and both
stand for the same bytes again.  So a name that is read back has the bytes that the name had
(`bytes?_readBack`): two names with different bytes stay apart.  Names that start alike and go on
in different ways are such names, if one of them goes on in plain letters.
-/

namespace VoxelCurve
namespace FileName

open Text

/-! ## Bytes of numbers -/

/-- The bytes of numbers, one after the other. -/
def bytesOfAll? (ns : List Nat) : Option (List UInt8) :=
  (ns.mapM bytesOf?).map List.flatten

theorem bytesOfAll?_cons (n : Nat) (ns : List Nat) :
    bytesOfAll? (n :: ns) = (bytesOf? n).bind fun b => (bytesOfAll? ns).map (b ++ ·) := by
  rw [bytesOfAll?, bytesOfAll?, List.mapM_cons]
  cases bytesOf? n with
  | none => rfl
  | some b => cases ns.mapM bytesOf? <;> rfl

theorem bytesOfAll?_append (ms ns : List Nat) :
    bytesOfAll? (ms ++ ns) =
      (bytesOfAll? ms).bind fun a => (bytesOfAll? ns).map (a ++ ·) := by
  induction ms with
  | nil =>
    have hnil : bytesOfAll? [] = some [] := rfl
    rw [hnil, List.nil_append, Option.bind_some]
    cases bytesOfAll? ns <;> rfl
  | cons m ms ih =>
    rw [List.cons_append, bytesOfAll?_cons, bytesOfAll?_cons, ih]
    cases bytesOf? m with
    | none => rfl
    | some b =>
      cases bytesOfAll? ms with
      | none => rfl
      | some a =>
        cases bytesOfAll? ns with
        | none => rfl
        | some c => simp only [Option.bind_some, Option.map_some, List.append_assoc]

theorem bytesOf?_toNat (c : Char) : bytesOf? c.toNat = some (String.utf8EncodeChar c) := by
  rw [bytesOf?, isSurrogate_toNat, Char.ofNat_toNat]
  rfl

theorem bytesOfAll?_map_toNat (cs : List Char) :
    bytesOfAll? (cs.map Char.toNat) = some (cs.flatMap String.utf8EncodeChar) := by
  induction cs with
  | nil => rfl
  | cons c cs ih =>
    rw [List.map_cons, bytesOfAll?_cons, bytesOf?_toNat, ih]
    rfl

theorem bytesOf?_strayHalf {b : UInt8} (h : 0x80 ≤ b.toNat) :
    bytesOf? (strayHalf b) = some [b] := by
  have hlt := b.toNat_lt
  have hsurrogate : isSurrogate (0xDC00 + b.toNat) = true := isSurrogate_iff.mpr (by omega)
  have hrange : 0xDC80 ≤ 0xDC00 + b.toNat ∧ 0xDC00 + b.toNat ≤ 0xDCFF := by omega
  have hbyte : UInt8.ofNat (0xDC00 + b.toNat - 0xDC00) = b := by
    rw [Nat.add_sub_cancel_left, UInt8.ofNat_toNat]
  rw [bytesOf?, strayHalf, hsurrogate, if_neg (by decide), if_pos hrange, hbyte]

/-! ## Reading bytes -/

theorem utf8EncodeChar_of_lt {c : Char} (h : c.toNat < 0x80) :
    String.utf8EncodeChar c = [UInt8.ofNat c.toNat] :=
  if_pos (Nat.le_of_lt_succ h)

theorem toByteArray_of_fromUTF8? {bytes : ByteArray} {s : String}
    (h : String.fromUTF8? bytes = some s) : s.toByteArray = bytes := by
  unfold String.fromUTF8? at h
  split at h
  · cases h
    rfl
  · cases h

/-- The bytes start with those of the character that is read. -/
theorem exists_append_of_firstChar? {bytes : List UInt8} {c : Char}
    (h : firstChar? bytes = some c) : ∃ rest, bytes = String.utf8EncodeChar c ++ rest := by
  obtain ⟨n, -, hn⟩ := List.exists_of_findSome?_eq_some h
  cases hread : String.fromUTF8? ⟨(bytes.take n).toArray⟩ with
  | none =>
    rw [hread] at hn
    cases hn
  | some s =>
    rw [hread, Option.map_some] at hn
    have hchars : s.toList = [c] := by
      split at hn
      · next d hd =>
        cases hn
        exact Option.some.inj hd
      · cases hn
    have htake : (String.utf8EncodeChar c).toByteArray = ⟨(bytes.take n).toArray⟩ := by
      rw [← toByteArray_of_fromUTF8? hread, ← List.utf8Encode_singleton, ← hchars,
        ← String.toByteArray_ofList, String.ofList_toList]
    have hbytes : String.utf8EncodeChar c = bytes.take n := by
      have hlists := congrArg (fun b => b.data.toList) htake
      rwa [List.toList_data_toByteArray] at hlists
    exact ⟨bytes.drop n, by rw [hbytes, List.take_append_drop]⟩

/-- A byte of a plain letter is never left out. -/
theorem firstChar?_of_lt {b : UInt8} (h : b.toNat < 0x80) (rest : List UInt8) :
    firstChar? (b :: rest) ≠ none := by
  have hchar : (Char.ofNat b.toNat).toNat = b.toNat :=
    toNat_ofNat (Or.inl (Nat.lt_trans h (by decide)))
  have hbytes : String.utf8EncodeChar (Char.ofNat b.toNat) = [b] := by
    rw [utf8EncodeChar_of_lt (by rwa [hchar]), hchar, UInt8.ofNat_toNat]
  have hread : String.fromUTF8? ⟨((b :: rest).take 1).toArray⟩ =
      some (String.ofList [Char.ofNat b.toNat]) := by
    have hencode : [Char.ofNat b.toNat].utf8Encode = ⟨((b :: rest).take 1).toArray⟩ := by
      rw [List.utf8Encode_singleton, hbytes]
      exact ByteArray.ext List.data_toByteArray
    rw [← hencode]
    exact dif_pos ⟨_, rfl⟩
  intro hnone
  have hfirst := List.findSome?_eq_none_iff.mp hnone 1 List.mem_cons_self
  rw [hread, Option.map_some, String.toList_ofList] at hfirst
  cases hfirst

theorem bytesOfAll?_ofBytes (bytes : List UInt8) : bytesOfAll? (ofBytes bytes) = some bytes := by
  induction bytes using ofBytes.induct with
  | case1 =>
    rw [ofBytes]
    rfl
  | case2 b rest c hc ih =>
    obtain ⟨after, hafter⟩ := exists_append_of_firstChar? hc
    have hsize : c.utf8Size - 1 + 1 = c.utf8Size := Nat.sub_add_cancel c.utf8Size_pos
    have hdrop : rest.drop (c.utf8Size - 1) = after := by
      rw [← List.drop_succ_cons (a := b), hsize, hafter, ← String.length_utf8EncodeChar,
        List.drop_left]
    rw [ofBytes, hc, bytesOfAll?_cons, bytesOf?_toNat, ih, hdrop, hafter]
    rfl
  | case3 b rest hnone ih =>
    have hb : 0x80 ≤ b.toNat := Nat.le_of_not_lt fun h => firstChar?_of_lt h rest hnone
    rw [ofBytes, hnone, bytesOfAll?_cons, bytesOf?_strayHalf hb, ih]
    rfl

/-- No upper half is read. -/
theorem of_mem_ofBytes (bytes : List UInt8) :
    ∀ n ∈ ofBytes bytes, n < 0x110000 ∧ isHighSurrogate n = false := by
  induction bytes using ofBytes.induct with
  | case1 =>
    rw [ofBytes]
    exact List.forall_mem_nil _
  | case2 b rest c hc ih =>
    have hvalid : c.toNat < 0xD800 ∨ 0xDFFF < c.toNat ∧ c.toNat < 0x110000 := c.valid
    have hhigh : isHighSurrogate c.toNat = false := by
      rw [← Bool.not_eq_true, isHighSurrogate_iff]
      omega
    rw [ofBytes, hc]
    exact List.forall_mem_cons.mpr ⟨⟨by omega, hhigh⟩, ih⟩
  | case3 b rest hnone ih =>
    have hlt := b.toNat_lt
    have hhigh : isHighSurrogate (strayHalf b) = false := by
      rw [← Bool.not_eq_true, isHighSurrogate_iff, strayHalf]
      omega
    have hle : strayHalf b < 0x110000 := by
      unfold strayHalf
      omega
    rw [ofBytes, hnone]
    exact List.forall_mem_cons.mpr ⟨⟨hle, hhigh⟩, ih⟩

/-- What the files tell of a name has the bytes of the name. -/
theorem bytes?_readBack (s : String) : bytes? (readBack s) = bytes? s := by
  unfold readBack
  split
  · rfl
  · cases hbytes : bytes? s with
    | none => exact hbytes
    | some bytes =>
      rw [Option.map_some, Option.getD_some, bytes?, numbers_ofNumbers (of_mem_ofBytes bytes)]
      exact bytesOfAll?_ofBytes bytes

theorem exists_bytes?_of_isUsable {s : String} (h : isUsable s = true) :
    ∃ bytes, bytes? s = some bytes := by
  rw [isUsable, Bool.or_eq_true] at h
  rcases h with hplain | hsome
  · have hnumbers : numbers s = s.toList.map Char.toNat := by
      refine numbersOf_of_plain ?_
      intro c hc
      exact Bool.not_eq_true' _ ▸ List.all_eq_true.mp hplain c hc
    have hbytes := bytesOfAll?_map_toNat s.toList
    rw [← hnumbers] at hbytes
    exact ⟨_, hbytes⟩
  · exact Option.isSome_iff_exists.mp hsome

/-! ## Plain letters -/

section Plain

variable {c d : Char} {n : Nat} {bytes : List UInt8}

/-- Only plain letters have bytes below 128. -/
theorem toNat_lt_of_utf8EncodeChar (h : ∀ b ∈ String.utf8EncodeChar c, b.toNat < 0x80) :
    c.toNat < 0x80 := by
  apply Decidable.byContradiction
  intro hge
  have hlarge : ¬c.val.toNat ≤ 127 := fun hle => hge (Nat.lt_succ_of_le hle)
  have hfirst : ∃ n, 0x80 ≤ n ∧ n < UInt8.size ∧ UInt8.ofNat n ∈ String.utf8EncodeChar c := by
    simp only [String.utf8EncodeChar, if_neg hlarge]
    split
    · exact ⟨_, by omega, by show _ < 256; omega, List.mem_cons_self⟩
    · split
      · exact ⟨_, by omega, by show _ < 256; omega, List.mem_cons_self⟩
      · exact ⟨_, by omega, by show _ < 256; omega, List.mem_cons_self⟩
  obtain ⟨n, hn, hsize, hmem⟩ := hfirst
  have hbyte := h _ hmem
  rw [UInt8.toNat_ofNat_of_lt' hsize] at hbyte
  omega

/-- Neither half of a pair has a byte of a plain letter. -/
theorem not_plain_of_isSurrogate (hn : isSurrogate n = true) (h : bytesOf? n = some bytes) :
    ∃ b ∈ bytes, 0x80 ≤ b.toNat := by
  rw [bytesOf?, hn, if_neg (by decide)] at h
  split at h
  · next hrange =>
    obtain rfl := Option.some.inj h
    refine ⟨_, List.mem_cons_self, ?_⟩
    rw [UInt8.toNat_ofNat_of_lt' (show _ < 256 by omega)]
    omega
  · cases h

theorem isTaken_of_takenPair? (h : takenPair? c d = some n) : isTaken n = true := by
  unfold takenPair? at h
  split at h
  · next high low _ _ =>
    obtain ⟨hpasses, hn⟩ := Option.ite_none_right_eq_some.mp h
    obtain rfl := Option.some.inj hn
    exact (Bool.and_eq_true _ _ ▸ hpasses).2
  · cases h

/-- Nor has a character that is kept by two halves. -/
theorem not_plain_of_takenPair? (hpair : takenPair? c d = some n) (h : bytesOf? n = some bytes) :
    ∃ b ∈ bytes, 0x80 ≤ b.toNat := by
  have hrange := isTaken_iff.mp (isTaken_of_takenPair? hpair)
  have hchar : (Char.ofNat n).toNat = n := toNat_ofNat (Or.inr (by omega))
  have hbytes := bytesOf?_toNat (Char.ofNat n)
  rw [hchar, h] at hbytes
  obtain rfl := Option.some.inj hbytes
  apply Decidable.byContradiction
  intro hnone
  have hlt : (Char.ofNat n).toNat < 0x80 := by
    refine toNat_lt_of_utf8EncodeChar ?_
    intro b hb
    exact Nat.lt_of_not_le fun hge => hnone ⟨b, hb, hge⟩
  rw [hchar] at hlt
  omega

/-- A character with bytes of plain letters is the letter that its one byte is. -/
theorem bytes_eq_of_plain (h : bytesOf? ((half? c).getD c.toNat) = some bytes)
    (hplain : ∀ b ∈ bytes, b.toNat < 0x80) : bytes.map UInt8.toNat = [c.toNat] := by
  cases hhalf : half? c with
  | some n =>
    rw [hhalf] at h
    have hsurrogate : isSurrogate n = true := by
      unfold half? at hhalf
      split at hhalf
      · next htaken =>
        have hrange := isTaken_iff.mp htaken
        obtain rfl := Option.some.inj hhalf
        rw [isSurrogate_iff, lastPlane]
        omega
      · cases hhalf
    obtain ⟨b, hb, hge⟩ := not_plain_of_isSurrogate hsurrogate h
    exact absurd (hplain b hb) (Nat.not_lt.mpr hge)
  | none =>
    rw [hhalf, Option.getD_none, bytesOf?_toNat] at h
    obtain rfl := Option.some.inj h
    have hlt := toNat_lt_of_utf8EncodeChar hplain
    rw [utf8EncodeChar_of_lt hlt, List.map_singleton,
      UInt8.toNat_ofNat_of_lt' (show _ < 256 by omega)]

theorem bytesOfAll?_cons_eq_some {ns : List Nat} (h : bytesOfAll? (n :: ns) = some bytes) :
    ∃ a b, bytesOf? n = some a ∧ bytesOfAll? ns = some b ∧ bytes = a ++ b := by
  rw [bytesOfAll?_cons] at h
  obtain ⟨a, ha, h⟩ := Option.bind_eq_some_iff.mp h
  obtain ⟨b, hb, h⟩ := Option.map_eq_some_iff.mp h
  exact ⟨a, b, ha, hb, h.symm⟩

/-- A text whose bytes are those of plain letters consists of these letters. -/
theorem map_toNat_of_plain {cs : List Char} (hplain : ∀ b ∈ bytes, b.toNat < 0x80)
    (h : bytesOfAll? (numbersOf cs) = some bytes) :
    bytes.map UInt8.toNat = cs.map Char.toNat := by
  induction cs using numbersOf.induct generalizing bytes with
  | case1 =>
    obtain rfl := Option.some.inj h
    rfl
  | case2 c =>
    obtain ⟨a, b, ha, hb, rfl⟩ := bytesOfAll?_cons_eq_some h
    obtain rfl : [] = b := Option.some.inj hb
    rw [List.append_nil] at hplain ⊢
    exact bytes_eq_of_plain ha hplain
  | case3 c d rest n hpair ih =>
    rw [numbersOf_pair hpair] at h
    obtain ⟨a, b, ha, hb, rfl⟩ := bytesOfAll?_cons_eq_some h
    obtain ⟨e, he, hge⟩ := not_plain_of_takenPair? hpair ha
    exact absurd (hplain e (List.mem_append_left b he)) (Nat.not_lt.mpr hge)
  | case4 c d rest hpair ih =>
    have hhead : ∀ e ∈ (d :: rest).head?, takenPair? c e = none := by
      intro e he
      obtain rfl := Option.mem_some.mp he
      exact hpair
    rw [numbersOf_cons hhead] at h
    obtain ⟨a, b, ha, hb, rfl⟩ := bytesOfAll?_cons_eq_some h
    obtain ⟨hplaina, hplainb⟩ := List.forall_mem_append.mp hplain
    rw [List.map_append, bytes_eq_of_plain ha hplaina, ih hplainb hb]
    rfl

end Plain

/-! ## Names that start alike -/

section Append

variable {stem after letters : List Char}

theorem bytes?_append (h : ∀ d ∈ after.head?, half? d = none) :
    bytes? (String.ofList (stem ++ after)) =
      (bytesOfAll? (numbersOf stem)).bind fun a =>
        (bytesOfAll? (numbersOf after)).map (a ++ ·) := by
  rw [← bytesOfAll?_append, ← numbersOf_append h, bytes?, numbers, String.toList_ofList]
  rfl

theorem half?_of_letter {c : Char} (h : c.toNat < 0x80) : half? c = none := by
  refine half?_eq_none ?_
  rw [← Bool.not_eq_true, isTaken_iff]
  omega

variable (hletters : ∀ c ∈ letters, c.toNat < 0x80)

include hletters

theorem bytesOfAll?_letters :
    bytesOfAll? (numbersOf letters) = some (letters.flatMap String.utf8EncodeChar) := by
  have hnumbers : numbersOf letters = letters.map Char.toNat := by
    refine numbersOf_of_plain ?_
    intro c hc
    have hlt := hletters c hc
    rw [← Bool.not_eq_true, isTaken_iff]
    omega
  rw [hnumbers, bytesOfAll?_map_toNat]

theorem bytes_letters_lt : ∀ b ∈ letters.flatMap String.utf8EncodeChar, b.toNat < 0x80 := by
  intro b hb
  obtain ⟨c, hc, hb⟩ := List.mem_flatMap.mp hb
  have hlt := hletters c hc
  rw [utf8EncodeChar_of_lt hlt] at hb
  rw [List.mem_singleton.mp hb, UInt8.toNat_ofNat_of_lt' (show _ < 256 by omega)]
  exact hlt

/-- Two names with the same start are told apart by the files, if there are bytes for the first
and the second goes on with other letters, which are plain.  The characters after the start are
not to complete one that is kept by two halves. -/
theorem eq_of_readBack_append (hafter : ∀ d ∈ after.head?, half? d = none)
    (husable : isUsable (String.ofList (stem ++ after)) = true)
    (h : readBack (String.ofList (stem ++ after)) = readBack (String.ofList (stem ++ letters))) :
    after = letters := by
  have hhead : ∀ d ∈ letters.head?, half? d = none :=
    fun d hd => half?_of_letter (hletters d (List.mem_of_mem_head? hd))
  obtain ⟨bytes, hbytes⟩ := exists_bytes?_of_isUsable husable
  have hsame : bytes? (String.ofList (stem ++ letters)) = some bytes := by
    rw [← bytes?_readBack, ← h, bytes?_readBack, hbytes]
  rw [bytes?_append hafter] at hbytes
  rw [bytes?_append hhead, bytesOfAll?_letters hletters] at hsame
  obtain ⟨a, ha, hbytes⟩ := Option.bind_eq_some_iff.mp hbytes
  obtain ⟨b, hb, rfl⟩ := Option.map_eq_some_iff.mp hbytes
  rw [ha, Option.bind_some, Option.map_some, Option.some.injEq, List.append_cancel_left_eq] at hsame
  have hplain := bytes_letters_lt hletters
  have hchars : after.map Char.toNat = letters.map Char.toNat := by
    rw [← map_toNat_of_plain hplain (bytesOfAll?_letters hletters)]
    rw [hsame] at hplain ⊢
    exact (map_toNat_of_plain hplain hb).symm
  exact List.map_injective_iff.mpr (Function.LeftInverse.injective Char.ofNat_toNat) hchars

/-- A name that ends in three plain letters or more is not read back as two dots. -/
theorem readBack_append_ne (hlong : 2 < letters.length) :
    readBack (String.ofList (stem ++ letters)) ≠ ".." := by
  intro h
  have hhead : ∀ d ∈ letters.head?, half? d = none :=
    fun d hd => half?_of_letter (hletters d (List.mem_of_mem_head? hd))
  have hdots : bytes? ".." = some [46, 46] := by decide
  have hbytes := bytes?_readBack (String.ofList (stem ++ letters))
  rw [h, hdots, bytes?_append hhead, bytesOfAll?_letters hletters] at hbytes
  obtain ⟨a, -, hbytes⟩ := Option.bind_eq_some_iff.mp hbytes.symm
  have htotal := congrArg List.length (Option.some.inj hbytes)
  have hsize := congrArg List.length
    (map_toNat_of_plain (bytes_letters_lt hletters) (bytesOfAll?_letters hletters))
  rw [List.length_map, List.length_map] at hsize
  rw [List.length_append, hsize, List.length_cons, List.length_singleton] at htotal
  omega

end Append
end FileName
end VoxelCurve
