import VoxelCurve.Proofs.Text.Utf8

/-!
Texts without lone halves.

A text has bytes exactly if each of its characters is read as itself or together with its
neighbour as one character, so that nothing is left of a pair.  Texts like that may be put one
after the other: where one of them ends no pair is cut.
-/

namespace VoxelCurve
namespace Text

/-- Characters that are read as characters, alone or in pairs. -/
inductive Whole : List Char → Prop
  | nil : Whole []
  | single {c : Char} {s : List Char} (hc : half? c = none) (hs : Whole s) : Whole (c :: s)
  | pair {c d : Char} {n : Nat} {s : List Char} (hpair : takenPair? c d = some n) (hs : Whole s) :
    Whole (c :: d :: s)

theorem Whole.append {s t : List Char} (h : Whole s) (ht : Whole t) : Whole (s ++ t) := by
  induction h with
  | nil => exact ht
  | single hc _ ih => exact .single hc ih
  | pair hpair _ ih => exact .pair hpair ih

theorem whole_of_forall {s : List Char} (h : ∀ c ∈ s, half? c = none) : Whole s := by
  induction s with
  | nil => exact .nil
  | cons c s ih =>
    obtain ⟨hc, hs⟩ := List.forall_mem_cons.mp h
    exact .single hc (ih hs)

theorem whole_of_all {s : List Char} (h : (s.all fun c => (half? c).isNone) = true) : Whole s :=
  whole_of_forall fun c hc => Option.isNone_iff_eq_none.mp (List.all_eq_true.mp h c hc)

-- A match on `half?` must not count the bounds down.
seal isTaken

theorem isSurrogate_of_takenPair? {c d : Char} {n : Nat} (h : takenPair? c d = some n) :
    isSurrogate n = false := by
  have htaken := isTaken_iff.mp (of_takenPair? h).1
  rw [← Bool.not_eq_true, isSurrogate_iff]
  omega

theorem exists_half?_of_takenPair? {c d : Char} {n : Nat} (h : takenPair? c d = some n) :
    ∃ high low, half? c = some high ∧ half? d = some low := by
  unfold takenPair? at h
  split at h
  · next high low hhigh hlow => exact ⟨high, low, hhigh, hlow⟩
  · cases h

/-- The first of two characters that are not read together is whole if no half is read of it. -/
theorem half?_eq_none_of_single {c : Char} (h : isSurrogate ((half? c).getD c.toNat) = false) :
    half? c = none := by
  cases hhalf : half? c with
  | none => rfl
  | some n =>
    have hsurrogate := (charOfHalf_of_half? hhalf).1
    rw [hhalf, Option.getD_some, hsurrogate] at h
    cases h

theorem whole_iff {s : List Char} : Whole s ↔ ∀ n ∈ numbersOf s, isSurrogate n = false := by
  constructor
  · intro h
    induction h with
    | nil => exact List.forall_mem_nil _
    | @single c s hc _ ih =>
      have hhead : ∀ d ∈ s.head?, takenPair? c d = none := by
        intro d _
        refine takenPair?_eq_none_of_left ?_ d
        rw [hc]
        intro n hn
        cases hn
      rw [numbersOf_cons hhead, hc]
      exact List.forall_mem_cons.mpr ⟨isSurrogate_toNat c, ih⟩
    | pair hpair _ ih =>
      rw [numbersOf_pair hpair]
      exact List.forall_mem_cons.mpr ⟨isSurrogate_of_takenPair? hpair, ih⟩
  · intro h
    induction s using numbersOf.induct with
    | case1 => exact .nil
    | case2 c => exact .single (half?_eq_none_of_single (h _ List.mem_cons_self)) .nil
    | case3 c d rest n hpair ih =>
      rw [numbersOf_pair hpair] at h
      exact .pair hpair (ih (List.forall_mem_cons.mp h).2)
    | case4 c d rest hpair ih =>
      rw [numbersOf_cons_cons, hpair] at h
      obtain ⟨hc, hrest⟩ := List.forall_mem_cons.mp h
      exact .single (half?_eq_none_of_single hc) (ih hrest)

/-- A text has bytes if nothing is left of a pair in it. -/
theorem isEncodable_of_whole {s : String} (h : Whole s.toList) : isEncodable s = true := by
  rw [isEncodable, Bool.or_eq_true]
  right
  rw [List.all_eq_true]
  intro n hn
  rw [whole_iff.mp h n hn]
  rfl

end Text
end VoxelCurve
