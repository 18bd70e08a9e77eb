import Mathlib.Data.List.Basic
import VoxelCurve.Grammar.LSystem
import VoxelCurve.Proofs.Text.Utf8

/-!
The texts that are sentences.

A sentence is read one character at a time, so a text is a sentence exactly when each of its
characters is a command, and it is then the written form of what was read.  Otherwise the
leftmost character that is no command is reported with its place.  Characters are counted as a
reader counts them: one that is kept by two halves is still one.
-/

namespace VoxelCurve

/-! ## Characters -/

namespace Text

theorem charsOf_ne_nil (n : Nat) : charsOf n ≠ [] := by
  unfold charsOf
  split
  · exact List.cons_ne_nil _ _
  · split <;> exact List.cons_ne_nil _ _

theorem characters_cons {c : Char} (h : half? c = none) (rest : List Char) :
    characters (String.ofList (c :: rest)) =
      String.ofList [c] :: characters (String.ofList rest) := by
  have halone : ∀ n ∈ half? c, isHighSurrogate n = false := by
    rw [h]
    nofun
  have hnumbers : numbersOf (c :: rest) = (half? c).getD c.toNat :: numbersOf rest :=
    numbersOf_cons fun d _ => takenPair?_eq_none_of_left halone d
  rw [characters, characters, numbers, numbers, String.toList_ofList, String.toList_ofList,
    hnumbers, List.map_cons, ofNumbers, List.flatMap_singleton, charsOf_single]

/-- The first character of a text is the one that is reported, and starts like the text. -/
theorem exists_characters_eq (c : Char) (rest : List Char) :
    ∃ others, characters (String.ofList (c :: rest)) = firstOf (c :: rest) :: others ∧
      (firstOf (c :: rest)).toList.head? = some c := by
  have hwhole := flatMap_charsOf_numbersOf (c :: rest)
  rw [characters, numbers, String.toList_ofList, firstOf]
  cases hnumbers : numbersOf (c :: rest) with
  | nil =>
    rw [hnumbers] at hwhole
    cases hwhole
  | cons n ns =>
    rw [hnumbers, List.flatMap_cons] at hwhole
    refine ⟨ns.map fun n => ofNumbers [n], rfl, ?_⟩
    rw [List.take_succ_cons, List.take_zero, ofNumbers, List.flatMap_singleton,
      String.toList_ofList, ← List.head?_append_of_ne_nil _ (charsOf_ne_nil n), hwhole]
    rfl

end Text

namespace Symbol

theorem char_ne_arrow (s : Symbol) : s.char ≠ arrow := by
  cases s <;> decide

theorem half?_char (c : Symbol) : Text.half? c.char = none := by
  cases c <;> decide +kernel

/-- The eight command characters, each as a text. -/
def letters : List String :=
  ["F", "f", "+", "-", "L", "R", "A", "B"]

/-- The character of a symbol as a text. -/
def letter (c : Symbol) : String :=
  String.ofList [c.char]

theorem letter_mem_letters (c : Symbol) : c.letter ∈ letters := by
  cases c <;> decide

theorem exists_letter_of_mem {t : String} (h : t ∈ letters) : ∃ c : Symbol, t = c.letter := by
  simp only [letters, List.mem_cons, List.not_mem_nil, or_false] at h
  rcases h with rfl | rfl | rfl | rfl | rfl | rfl | rfl | rfl
  · exact ⟨draw, rfl⟩
  · exact ⟨step, rfl⟩
  · exact ⟨left, rfl⟩
  · exact ⟨right, rfl⟩
  · exact ⟨drawLeft, rfl⟩
  · exact ⟨drawRight, rfl⟩
  · exact ⟨subfigureA, rfl⟩
  · exact ⟨subfigureB, rfl⟩

theorem letter_injective {c d : Symbol} (h : c.letter = d.letter) : c = d := by
  have hchars : [c.char] = [d.char] := String.ofList_injective h
  have hread := congrArg (·.map ofChar?) hchars
  simpa using hread

/-- What starts with a character that is no command is no command either. -/
theorem notMem_letters {t : String} {c : Char} (hhead : t.toList.head? = some c)
    (hc : ofChar? c = none) : t ∉ letters := by
  intro hmem
  obtain ⟨d, rfl⟩ := exists_letter_of_mem hmem
  rw [letter, String.toList_ofList] at hhead
  cases hhead
  rw [ofChar?_char] at hc
  cases hc

end Symbol

/-! ## Sentences -/

/-- A text of command characters alone. -/
def Spelled (text : String) : Prop :=
  ∀ c ∈ Text.characters text, c ∈ Symbol.letters

/-- The leftmost character of a text that is no command, at its place. -/
structure Stray (text : String) (place : Nat) (c : String) : Prop where
  found : (Text.characters text)[place]? = some c
  unknown : c ∉ Symbol.letters
  before : ∀ d ∈ (Text.characters text).take place, d ∈ Symbol.letters

theorem Stray.not_spelled {text c : String} {place : Nat} (h : Stray text place c) :
    ¬Spelled text :=
  fun hs => h.unknown (hs c (List.mem_of_getElem? h.found))

theorem Stray.le {text c d : String} {i j : Nat} (hi : Stray text i c) (hj : Stray text j d) :
    i ≤ j := by
  by_contra hlt
  have hmem : d ∈ (Text.characters text).take i :=
    List.mem_of_getElem? (i := j) (by rw [List.getElem?_take_of_lt (by omega)]; exact hj.found)
  exact hj.unknown (hi.before d hmem)

theorem Stray.unique {text c d : String} {i j : Nat} (hi : Stray text i c)
    (hj : Stray text j d) : i = j ∧ c = d := by
  obtain rfl := Nat.le_antisymm (hi.le hj) (hj.le hi)
  exact ⟨rfl, Option.some.inj (hi.found.symm.trans hj.found)⟩

namespace Sentence

theorem characters_append (s : Sentence) (rest : List Char) :
    Text.characters (String.ofList (s.map Symbol.char ++ rest)) =
      s.map Symbol.letter ++ Text.characters (String.ofList rest) := by
  induction s with
  | nil => rfl
  | cons c s ih => rw [List.map_cons, List.cons_append, Text.characters_cons c.half?_char, ih]; rfl

theorem characters_text (s : Sentence) : Text.characters s.text = s.map Symbol.letter := by
  have h := s.characters_append []
  rwa [List.append_nil, show Text.characters (String.ofList []) = [] from rfl,
    List.append_nil] at h

theorem spelled_text (s : Sentence) : Spelled s.text := by
  intro c hc
  rw [characters_text] at hc
  obtain ⟨symbol, -, rfl⟩ := List.mem_map.mp hc
  exact symbol.letter_mem_letters

/-- Command characters up to the end, or up to the first character that is none. -/
theorem eq_map_or_eq_append (chars : List Char) :
    (∃ s : Sentence, chars = s.map Symbol.char) ∨
      ∃ (s : Sentence) (c : Char) (more : List Char),
        chars = s.map Symbol.char ++ c :: more ∧ Symbol.ofChar? c = none := by
  induction chars with
  | nil => exact .inl ⟨[], rfl⟩
  | cons c chars ih =>
    cases hc : Symbol.ofChar? c with
    | none => exact .inr ⟨[], c, chars, rfl, hc⟩
    | some symbol =>
      obtain rfl := Symbol.ofChar?_eq_some_iff.mp hc
      rcases ih with ⟨s, rfl⟩ | ⟨s, d, more, rfl, hd⟩
      · exact .inl ⟨symbol :: s, rfl⟩
      · exact .inr ⟨symbol :: s, d, more, rfl, hd⟩

theorem parseFrom_stray (text : String) (s : Sentence) {c : Char} (hc : Symbol.ofChar? c = none)
    (more : List Char) (position : Nat) :
    parseFrom text position (s.map Symbol.char ++ c :: more) =
      .error (.unknownSymbol (Text.firstOf (c :: more)) (position + s.length) text) := by
  induction s generalizing position with
  | nil =>
    rw [List.map_nil, List.nil_append, parseFrom, hc]
    rfl
  | cons d s ih =>
    rw [List.map_cons, List.cons_append, parseFrom, Symbol.ofChar?_char]
    simp only [ih, List.length_cons, Except.map]
    congr 2
    omega

theorem stray_append (s : Sentence) {c : Char} (hc : Symbol.ofChar? c = none)
    (more : List Char) :
    Stray (String.ofList (s.map Symbol.char ++ c :: more)) s.length
      (Text.firstOf (c :: more)) := by
  obtain ⟨others, hcharacters, hhead⟩ := Text.exists_characters_eq c more
  have hall : Text.characters (String.ofList (s.map Symbol.char ++ c :: more)) =
      s.map Symbol.letter ++ Text.firstOf (c :: more) :: others := by
    rw [characters_append, hcharacters]
  constructor
  case found =>
    rw [hall, List.getElem?_append_right (by rw [List.length_map]), List.length_map, Nat.sub_self]
    rfl
  case unknown => exact Symbol.notMem_letters hhead hc
  case before =>
    intro d hd
    rw [hall, List.take_left' (List.length_map _)] at hd
    obtain ⟨symbol, -, rfl⟩ := List.mem_map.mp hd
    exact symbol.letter_mem_letters

/-- Either a text is the written form of a sentence, or a character of it is reported. -/
theorem parse_cases (text : String) :
    (∃ s : Sentence, text = s.text) ∨
      ∃ place c, Stray text place c ∧ parse text = .error (.unknownSymbol c place text) := by
  rcases eq_map_or_eq_append text.toList with ⟨s, hs⟩ | ⟨s, c, more, hs, hc⟩
  · exact .inl ⟨s, String.toList_inj.mp (hs.trans String.toList_ofList.symm)⟩
  · obtain rfl : text = String.ofList (s.map Symbol.char ++ c :: more) :=
      String.toList_inj.mp (hs.trans String.toList_ofList.symm)
    refine .inr ⟨_, _, stray_append s hc more, ?_⟩
    rw [parse, String.toList_ofList, parseFrom_stray _ s hc, Nat.zero_add]

theorem spelled_iff {text : String} : Spelled text ↔ ∃ s : Sentence, text = s.text := by
  constructor
  · intro h
    rcases parse_cases text with hs | ⟨place, c, hstray, -⟩
    · exact hs
    · exact absurd h hstray.not_spelled
  · rintro ⟨s, rfl⟩
    exact s.spelled_text

theorem parse_eq_ok_iff {text : String} {s : Sentence} : parse text = .ok s ↔ text = s.text := by
  constructor
  · intro h
    rcases parse_cases text with ⟨s', rfl⟩ | ⟨place, c, -, herror⟩
    · rw [parse_text] at h
      rw [Except.ok.inj h]
    · rw [herror] at h
      cases h
  · rintro rfl
    exact s.parse_text

theorem parse_of_stray {text c : String} {place : Nat} (h : Stray text place c) :
    parse text = .error (.unknownSymbol c place text) := by
  rcases parse_cases text with ⟨s, rfl⟩ | ⟨place', c', h', herror⟩
  · exact absurd s.spelled_text h.not_spelled
  · obtain ⟨rfl, rfl⟩ := h.unique h'
    exact herror

end Sentence
end VoxelCurve
