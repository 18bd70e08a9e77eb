import Mathlib.Algebra.FreeMonoid.Basic
import VoxelCurve.Grammar.LSystem
import VoxelCurve.Proofs.Grammar.Derivation

/-!
Derivation as a power of a homomorphism.

The sentences are the free monoid over the symbols, and one generation is its endomorphism that
takes every symbol to what it becomes.  Deriving `n` generations is applying the `n`-th power of
this endomorphism, so generations add up and a sentence may be cut anywhere.  Nothing is asked of
the table: rules may erase, and may lead back to themselves.  `derive_homomorphic` says this of
the derivation of an L-system.
-/

namespace VoxelCurve
namespace Productions

/-- One generation, as an endomorphism of the sentences. -/
def generationHom (p : Productions) : Monoid.End (FreeMonoid Symbol) :=
  FreeMonoid.lift fun c => .ofList (p.expand c)

theorem generationHom_ofList (p : Productions) (s : Sentence) :
    p.generationHom (.ofList s) = .ofList (s.flatMap p.expand) := by
  induction s with
  | nil => rfl
  | cons c s ih =>
    rw [FreeMonoid.ofList_cons, map_mul, ih, List.flatMap_cons, FreeMonoid.ofList_append]
    rfl

theorem ofList_derive (p : Productions) (n : Nat) (s : Sentence) :
    FreeMonoid.ofList (p.derive n s) = (p.generationHom ^ n) (.ofList s) := by
  induction n generalizing s with
  | zero => rfl
  | succ n ih =>
    rw [derive, ih, ← generationHom_ofList, pow_succ, Monoid.End.coe_mul, Function.comp_apply]

theorem derive_add (p : Productions) (a b : Nat) (s : Sentence) :
    p.derive (a + b) s = p.derive b (p.derive a s) := by
  apply FreeMonoid.ofList.injective
  rw [ofList_derive, ofList_derive, ofList_derive, Nat.add_comm, pow_add, Monoid.End.coe_mul,
    Function.comp_apply]

/-- A sentence none of whose symbols has a rule stays as it is. -/
theorem derive_of_none {p : Productions} {s : Sentence} (h : ∀ c ∈ s, p.find? c = none)
    (n : Nat) : p.derive n s = s := by
  induction s with
  | nil => exact p.derive_nil n
  | cons c s ih =>
    obtain ⟨hc, hs⟩ := List.forall_mem_cons.mp h
    rw [derive_cons, derive_singleton_of_none hc, ih hs]
    rfl

end Productions

namespace LSystem

theorem derive_natCast (g : LSystem) (s : Sentence) (n : Nat) :
    g.derive s n = .ok (g.productions.derive n s) := by
  rw [derive, if_neg (Int.not_lt.mpr (Int.natCast_nonneg n))]
  rfl

/-- Deriving is applying a power of one homomorphism: it always ends in a sentence, generations
add up, what stands side by side is derived side by side, and a sentence of symbols without rules
is left alone. -/
theorem derive_homomorphic (g : LSystem) :
    (∀ (s : Sentence) (n : Nat), ∃ u, g.derive s n = .ok u ∧
      .ofList u = (g.productions.generationHom ^ n) (.ofList s)) ∧
    (∀ (s : Sentence) (a b : Nat), ∃ u v, g.derive s a = .ok u ∧ g.derive u b = .ok v ∧
      g.derive s (a + b) = .ok v) ∧
    (∀ (s t : Sentence) (n : Nat), ∃ u v, g.derive s n = .ok u ∧ g.derive t n = .ok v ∧
      g.derive (s ++ t) n = .ok (u ++ v)) ∧
    (∀ (s : Sentence) (n : Nat), (∀ c ∈ s, g.productions.find? c = none) →
      g.derive s n = .ok s) := by
  refine ⟨?_, ?_, ?_, ?_⟩
  · intro s n
    exact ⟨_, g.derive_natCast s n, g.productions.ofList_derive n s⟩
  · intro s a b
    refine ⟨_, _, g.derive_natCast s a, g.derive_natCast _ b, ?_⟩
    rw [← Int.natCast_add, derive_natCast, Productions.derive_add]
  · intro s t n
    refine ⟨_, _, g.derive_natCast s n, g.derive_natCast t n, ?_⟩
    rw [derive_natCast, Productions.derive_append]
  · intro s n h
    rw [derive_natCast, Productions.derive_of_none h]

end LSystem
end VoxelCurve
