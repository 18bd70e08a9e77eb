import VoxelCurve.Grammar.Derivation

/-!
Derivation as a map of words.

A generation expands every symbol on its own, so a sentence may be cut anywhere and the
parts derived apart.  `derive_cons` is the form in which the walk uses this: what the first
symbol becomes stands before what the rest becomes.
-/

namespace VoxelCurve
namespace Productions

theorem expand_of_find? {p : Productions} {c : Symbol} {replacement : Sentence}
    (h : p.find? c = some replacement) : p.expand c = replacement := by
  rw [expand, h, Option.getD_some]

theorem expand_of_none {p : Productions} {c : Symbol} (h : p.find? c = none) :
    p.expand c = [c] := by
  rw [expand, h, Option.getD_none]

@[simp]
theorem derive_nil (p : Productions) (n : Nat) : p.derive n [] = [] := by
  induction n with
  | zero => rfl
  | succ n ih => exact ih

theorem derive_append (p : Productions) (n : Nat) (s t : Sentence) :
    p.derive n (s ++ t) = p.derive n s ++ p.derive n t := by
  induction n generalizing s t with
  | zero => rfl
  | succ n ih => rw [derive, derive, derive, List.flatMap_append, ih]

theorem derive_cons (p : Productions) (n : Nat) (c : Symbol) (s : Sentence) :
    p.derive n (c :: s) = p.derive n [c] ++ p.derive n s :=
  p.derive_append n [c] s

/-- A symbol with a rule becomes what its replacement becomes in one generation less. -/
theorem derive_succ_singleton {p : Productions} {c : Symbol} {replacement : Sentence}
    (h : p.find? c = some replacement) (n : Nat) :
    p.derive (n + 1) [c] = p.derive n replacement := by
  rw [derive, List.flatMap_singleton, expand_of_find? h]

/-- A symbol without a rule stays as it is, however often it is derived. -/
theorem derive_singleton_of_none {p : Productions} {c : Symbol} (h : p.find? c = none)
    (n : Nat) : p.derive n [c] = [c] := by
  induction n with
  | zero => rfl
  | succ n ih => rw [derive, List.flatMap_singleton, expand_of_none h, ih]

theorem exists_rule_of_find? {p : Productions} {c : Symbol} {replacement : Sentence}
    (h : p.find? c = some replacement) : ∃ rule ∈ p.rules, rule.replacement = replacement := by
  obtain ⟨rule, hfound, hrule⟩ := Option.map_eq_some_iff.mp h
  exact ⟨rule, List.mem_of_find?_eq_some hfound, hrule⟩

/-- No generation has a symbol that is neither in the axiom nor in a replacement. -/
theorem mem_derive {p : Productions} {n : Nat} {s : Sentence} {c : Symbol}
    (h : c ∈ p.derive n s) : c ∈ s ∨ ∃ rule ∈ p.rules, c ∈ rule.replacement := by
  induction n generalizing s with
  | zero => exact .inl h
  | succ n ih =>
    rcases ih h with hexpanded | hrule
    · obtain ⟨c', hc', hc⟩ := List.mem_flatMap.mp hexpanded
      cases hfind : p.find? c' with
      | none =>
        rw [expand_of_none hfind, List.mem_singleton] at hc
        exact .inl (hc ▸ hc')
      | some replacement =>
        rw [expand_of_find? hfind] at hc
        obtain ⟨rule, hrule, rfl⟩ := exists_rule_of_find? hfind
        exact .inr ⟨rule, hrule, hc⟩
    · exact .inr hrule

end Productions
end VoxelCurve
