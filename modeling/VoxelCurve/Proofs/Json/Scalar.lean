import Mathlib.Data.List.Infix
import VoxelCurve.Json.Printer
import VoxelCurve.Json.Reader

/-!
Words and numbers with something behind them.

A word or a number has no closing character; the reader takes as much as it can.  In a document
a comma or the end of a line stands behind it, or nothing at all, and none of these can belong to
it.  So whatever is read of the text alone is read of it there too.
-/

namespace VoxelCurve
namespace Json

/-- Whether no word and no number goes on in what follows. -/
def Ends (rest : List Char) : Prop :=
  ∀ c ∈ rest.head?, c = ',' ∨ c = '\n'

/-- What was read, with more behind what was left. -/
def before {α : Type} (rest : List Char) (p : α × List Char) : α × List Char :=
  (p.1, p.2 ++ rest)

theorem ends_nil : Ends [] :=
  fun _ h => nomatch h

theorem ends_comma (rest : List Char) : Ends (',' :: rest) := by
  intro c h
  exact Or.inl (Option.mem_some.mp h).symm

theorem ends_newline (depth : Nat) (rest : List Char) : Ends (newline depth ++ rest) := by
  intro c h
  exact Or.inr (Option.mem_some.mp h).symm

theorem takeWhole?_cons {c : Char} (hc : c ≠ '0') (s : List Char) :
    takeWhole? (c :: s) =
      if isDigit c then some ((c :: s).takeWhile isDigit, (c :: s).dropWhile isDigit)
      else none := by
  unfold takeWhole?
  split
  · next heq => exact absurd (List.cons.inj heq).1 hc
  · next heq =>
    obtain ⟨rfl, -⟩ := List.cons.inj heq
    rfl
  · next heq => cases heq

theorem takeFraction_of_ne {c : Char} (hc : c ≠ '.') (s : List Char) :
    takeFraction (c :: s) = ([], c :: s) := by
  unfold takeFraction
  split
  · next heq => exact absurd (List.cons.inj heq).1 hc
  · rfl

/-- The sign of an exponent, or none, and what follows. -/
def exponentSign : List Char → List Char × List Char
  | c :: more => if c = '+' ∨ c = '-' then ([c], more) else ([], c :: more)
  | [] => ([], [])

theorem takeExponent_cons (mark : Char) (s : List Char) :
    takeExponent (mark :: s) =
      if mark = 'e' ∨ mark = 'E' then
        if ((exponentSign s).2.takeWhile isDigit).isEmpty then ([], mark :: s)
        else (mark :: (exponentSign s).1 ++ (exponentSign s).2.takeWhile isDigit,
          (exponentSign s).2.dropWhile isDigit)
      else ([], mark :: s) := by
  cases s <;> rfl

theorem findSome?_of_map {α β γ : Type} {xs : List α} {f : α → Option β} {f' : α → Option γ}
    {g : β → γ} (h : ∀ x ∈ xs, f' x = (f x).map g) : xs.findSome? f' = (xs.findSome? f).map g := by
  induction xs with
  | nil => rfl
  | cons x xs ih =>
    obtain ⟨hx, hxs⟩ := List.forall_mem_cons.mp h
    rw [List.findSome?_cons, List.findSome?_cons, hx, ih hxs]
    cases f x <;> rfl

/-- The words that stand for values. -/
def words : List (String × Value) :=
  [("null", .null), ("true", .bool true), ("false", .bool false), ("NaN", .float (0.0 / 0.0)),
   ("Infinity", .float (1.0 / 0.0)), ("-Infinity", .float (-1.0 / 0.0))]

/-- The value of the first word that a text starts with, and what follows it. -/
def readWord? (s : List Char) : Option (Value × List Char) :=
  words.findSome? fun w => (dropWord? w.1 s).map (w.2, ·)

/-- A number with its sign. -/
def readSigned : List Char → Except ReadFault (Value × List Char)
  | '-' :: rest => readNumber true rest
  | s => readNumber false s

theorem readSigned_of_ne {c : Char} (hc : c ≠ '-') (s : List Char) :
    readSigned (c :: s) = readNumber false (c :: s) := by
  unfold readSigned
  split
  · next heq => exact absurd (List.cons.inj heq).1 hc
  · rfl

theorem readScalar_eq (s : List Char) :
    readScalar s = match readWord? s with
      | some found => .ok found
      | none => readSigned s := by
  unfold readScalar
  show (match readWord? s with
    | some found => _
    | none => _) = _
  cases readWord? s with
  | some found => rfl
  | none =>
    cases s with
    | nil => rfl
    | cons c s =>
      by_cases hc : c = '-'
      · rw [hc]
        rfl
      · rw [readSigned_of_ne hc]
        show (match c :: s with
          | '-' :: rest => readNumber true rest
          | _ => readNumber false (c :: s)) = _
        split
        · next heq => exact absurd (List.cons.inj heq).1 hc
        · rfl

section Ends

variable {rest : List Char} (h : Ends rest)

include h

theorem takeWhile_append_of_ends {p : Char → Bool} (hcomma : p ',' = false)
    (hline : p '\n' = false) (s : List Char) :
    (s ++ rest).takeWhile p = s.takeWhile p ∧ (s ++ rest).dropWhile p = s.dropWhile p ++ rest := by
  induction s with
  | nil =>
    cases rest with
    | nil => exact ⟨rfl, rfl⟩
    | cons c rest =>
      have hc : p c = false := by
        rcases h c rfl with rfl | rfl
        · exact hcomma
        · exact hline
      simp [hc]
  | cons c s ih =>
    by_cases hc : p c = true
    · simpa [hc] using ih
    · simp [hc]

theorem isPrefixOf_append_of_ends {word : List Char} (hcomma : ',' ∉ word) (hline : '\n' ∉ word)
    (s : List Char) : word.isPrefixOf (s ++ rest) = word.isPrefixOf s := by
  induction word generalizing s with
  | nil => rfl
  | cons c word ih =>
    cases s with
    | nil =>
      cases rest with
      | nil => rfl
      | cons d rest =>
        have hne : (c == d) = false := by
          rw [beq_eq_false_iff_ne]
          rintro rfl
          rcases h c rfl with rfl | rfl
          · exact hcomma List.mem_cons_self
          · exact hline List.mem_cons_self
        simp [List.isPrefixOf, hne]
    | cons d s =>
      show (c == d && word.isPrefixOf (s ++ rest)) = (c == d && word.isPrefixOf s)
      rw [ih (List.not_mem_of_not_mem_cons hcomma) (List.not_mem_of_not_mem_cons hline)]

theorem dropWord?_append {word : String} (hcomma : ',' ∉ word.toList) (hline : '\n' ∉ word.toList)
    (s : List Char) : dropWord? word (s ++ rest) = (dropWord? word s).map (· ++ rest) := by
  rw [dropWord?, dropWord?, isPrefixOf_append_of_ends h hcomma hline]
  split
  · next hprefix =>
    have hle : word.length ≤ s.length := by
      rw [← String.length_toList]
      exact (List.isPrefixOf_iff_prefix.mp hprefix).length_le
    rw [List.drop_append_of_le_length hle]
    rfl
  · rfl

theorem takeWhole?_append (s : List Char) :
    takeWhole? (s ++ rest) = (takeWhole? s).map (before rest) := by
  cases s with
  | nil =>
    cases rest with
    | nil => rfl
    | cons c rest => rcases h c rfl with rfl | rfl <;> rfl
  | cons c s =>
    by_cases hc : c = '0'
    · rw [hc]
      rfl
    · obtain ⟨htake, hdrop⟩ := takeWhile_append_of_ends h (p := isDigit) rfl rfl (c :: s)
      rw [List.cons_append, takeWhole?_cons hc, takeWhole?_cons hc, ← List.cons_append, htake,
        hdrop]
      split <;> rfl

theorem takeFraction_append (s : List Char) :
    takeFraction (s ++ rest) = before rest (takeFraction s) := by
  cases s with
  | nil =>
    cases rest with
    | nil => rfl
    | cons c rest => rcases h c rfl with rfl | rfl <;> rfl
  | cons c s =>
    by_cases hc : c = '.'
    · obtain ⟨htake, hdrop⟩ := takeWhile_append_of_ends h (p := isDigit) rfl rfl s
      simp only [hc, List.cons_append, takeFraction, htake, hdrop]
      split <;> rfl
    · rw [List.cons_append, takeFraction_of_ne hc, takeFraction_of_ne hc]
      rfl

theorem takeExponent_append (s : List Char) :
    takeExponent (s ++ rest) = before rest (takeExponent s) := by
  cases s with
  | nil =>
    cases rest with
    | nil => rfl
    | cons c rest => rcases h c rfl with rfl | rfl <;> rfl
  | cons mark s =>
    have hsign : exponentSign (s ++ rest) = before rest (exponentSign s) := by
      cases s with
      | nil =>
        cases rest with
        | nil => rfl
        | cons c rest => rcases h c rfl with rfl | rfl <;> rfl
      | cons c s =>
        show (if c = '+' ∨ c = '-' then ([c], s ++ rest) else ([], c :: s ++ rest)) = _
        rw [exponentSign]
        split <;> rfl
    obtain ⟨htake, hdrop⟩ :=
      takeWhile_append_of_ends h (p := isDigit) rfl rfl (exponentSign s).2
    rw [List.cons_append, takeExponent_cons, takeExponent_cons, hsign, before, htake, hdrop]
    split
    · split <;> rfl
    · rfl

theorem readNumber_append (negative : Bool) (s : List Char) :
    readNumber negative (s ++ rest) = (readNumber negative s).map (before rest) := by
  rw [readNumber, readNumber, takeWhole?_append h]
  cases takeWhole? s with
  | none => rfl
  | some p =>
    simp only [Option.map_some, before, takeFraction_append h, takeExponent_append h]
    split
    · split <;> rfl
    · split <;> rfl

theorem readWord?_append (s : List Char) :
    readWord? (s ++ rest) = (readWord? s).map (before rest) := by
  have hplain : ∀ w ∈ words, ',' ∉ w.1.toList ∧ '\n' ∉ w.1.toList := by simp [words]
  refine findSome?_of_map fun w hw => ?_
  rw [dropWord?_append h (hplain w hw).1 (hplain w hw).2, Option.map_map, Option.map_map]
  rfl

theorem readScalar_append (s : List Char) :
    readScalar (s ++ rest) = (readScalar s).map (before rest) := by
  rw [readScalar_eq, readScalar_eq, readWord?_append h]
  cases readWord? s with
  | some found => rfl
  | none =>
    cases s with
    | nil =>
      cases rest with
      | nil => rfl
      | cons c rest => rcases h c rfl with rfl | rfl <;> rfl
    | cons c s =>
      show readSigned (c :: (s ++ rest)) = _
      by_cases hc : c = '-'
      · rw [hc]
        exact readNumber_append h true s
      · rw [readSigned_of_ne hc, readSigned_of_ne hc]
        exact readNumber_append h false (c :: s)

end Ends

end Json
end VoxelCurve
