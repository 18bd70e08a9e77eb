import Mathlib.Data.Matrix.Mul
import Mathlib.Data.Fintype.Card
import VoxelCurve.Grammar.Preset
import VoxelCurve.Proofs.Grammar.Homomorphism

/-!
How sentences grow.

What matters for the length of a sentence is only how often each symbol occurs in it.  One
generation acts on these eight numbers by a matrix, whose columns are the numbers of what each
symbol becomes, and deriving `n` generations acts by its `n`-th power.  So the length of a
generation can be told without deriving it; `counts_derived` is the statement for every grammar.
-/

namespace VoxelCurve

instance : Fintype Symbol where
  elems := {.draw, .step, .left, .right, .drawLeft, .drawRight, .subfigureA, .subfigureB}
  complete := by
    intro c
    cases c <;> decide

/-! ## Occurrences -/

/-- How often each symbol occurs. -/
def Sentence.counts (s : Sentence) : Symbol → Nat :=
  fun c => s.count c

namespace Sentence

theorem counts_nil : counts [] = 0 := rfl

theorem counts_append (s t : Sentence) : counts (s ++ t) = counts s + counts t := by
  funext c
  exact List.count_append

theorem counts_singleton (c : Symbol) : counts [c] = Pi.single c 1 := by
  funext d
  rw [counts, List.count_singleton, Pi.single_apply]
  simp only [beq_iff_eq, @eq_comm _ c d]

theorem sum_counts (s : Sentence) : ∑ c, s.counts c = s.length := by
  have hcard : ∑ c, (s : Multiset Symbol).count c = (s : Multiset Symbol).card :=
    Multiset.sum_count_eq_card fun c _ => Finset.mem_univ c
  simpa only [Multiset.coe_count, Multiset.coe_card, counts] using hcard

end Sentence

namespace Productions

open Matrix

/-- How often a symbol, the row, occurs in what another becomes, the column. -/
def growth (p : Productions) : Matrix Symbol Symbol Nat :=
  Matrix.of fun c d =>
    match p.find? d with
    | some replacement => replacement.count c
    | none => if c = d then 1 else 0

theorem col_growth (p : Productions) (d : Symbol) : p.growth.col d = (p.expand d).counts := by
  funext c
  rw [Matrix.col_apply, growth, Matrix.of_apply]
  cases h : p.find? d with
  | none =>
    rw [expand_of_none h, Sentence.counts_singleton, Pi.single_apply]
  | some replacement => rw [expand_of_find? h, Sentence.counts]

/-- One generation acts by the matrix. -/
theorem counts_expanded (p : Productions) (s : Sentence) :
    Sentence.counts (s.flatMap p.expand) = p.growth *ᵥ s.counts := by
  induction s with
  | nil => rw [List.flatMap_nil, Sentence.counts_nil, Matrix.mulVec_zero]
  | cons d s ih =>
    have hcons : Sentence.counts (d :: s) = Pi.single d 1 + Sentence.counts s := by
      rw [← Sentence.counts_singleton, ← Sentence.counts_append]
      rfl
    rw [List.flatMap_cons, Sentence.counts_append, ih, hcons, Matrix.mulVec_add,
      Matrix.mulVec_single_one, col_growth]

theorem counts_derive (p : Productions) (n : Nat) (s : Sentence) :
    Sentence.counts (p.derive n s) = p.growth ^ n *ᵥ s.counts := by
  induction n generalizing s with
  | zero => rw [derive, pow_zero, Matrix.one_mulVec]
  | succ n ih => rw [derive, ih, counts_expanded, Matrix.mulVec_mulVec, pow_succ]

end Productions

namespace LSystem

/-- The occurrences of the symbols in any generation come from a power of one matrix, and the
length of a generation is their sum. -/
theorem counts_derived (g : LSystem) :
    (∀ (s : Sentence) (n : Nat), ∃ u, g.derive s n = .ok u ∧
      u.counts = (g.productions.growth ^ n).mulVec s.counts) ∧
    (∀ n : Nat, ∃ u, g.commands n = .ok u ∧
      u.length = ∑ c, (g.productions.growth ^ n).mulVec g.start.counts c) := by
  constructor
  · intro s n
    exact ⟨_, g.derive_natCast s n, g.productions.counts_derive n s⟩
  · intro n
    refine ⟨_, g.derive_natCast g.start n, ?_⟩
    rw [← Productions.counts_derive, Sentence.sum_counts]

example : ∑ c, (Preset.hilbert.system.productions.growth ^ 2).mulVec
    Preset.hilbert.system.start.counts c = 51 := by decide +kernel

end LSystem
end VoxelCurve
