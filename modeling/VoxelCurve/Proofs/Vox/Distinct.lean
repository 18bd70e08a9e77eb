import Mathlib.Data.List.Basic
import Mathlib.Data.List.Induction
import VoxelCurve.Vox.Model

/-!
Distinct values in the order in which they are first met.

The values are told apart by a set, which holds what the list of distinct values holds, so none
is missed.  The order is all that there is to say about this list: its members are the values
that were met, and of two of them the one before the other was met first
(`pairwise_firstSeen`).
-/

namespace VoxelCurve
namespace Vox

section Distinct

variable {α : Type} [Ord α]

/-- The set holds what is listed. -/
def Seen.Agrees (s : Seen α) : Prop :=
  ∀ x, x ∈ s.values ↔ x ∈ s.backwards

theorem Seen.agrees_empty : (⟨∅, []⟩ : Seen α).Agrees := by
  intro x
  simp only [Std.TreeSet.not_mem_emptyc, List.not_mem_nil]

theorem Seen.mem_backwards_add {s : Seen α} (h : s.Agrees) (x y : α) :
    y ∈ (s.add x).backwards ↔ y = x ∨ y ∈ s.backwards := by
  by_cases hx : s.values.contains x = true
  · have hmem : x ∈ s.backwards := (h x).mp (Std.TreeSet.contains_iff_mem.mp hx)
    rw [add, if_pos hx, or_iff_right_of_imp fun hy => hy ▸ hmem]
  · rw [add, if_neg hx]
    exact List.mem_cons

variable [Std.TransOrd α] [Std.LawfulEqOrd α]

theorem Seen.mem_values_add (s : Seen α) (x y : α) :
    y ∈ (s.add x).values ↔ y = x ∨ y ∈ s.values := by
  by_cases hx : s.values.contains x = true
  · rw [add, if_pos hx, or_iff_right_of_imp fun hy => hy ▸ Std.TreeSet.contains_iff_mem.mp hx]
  · rw [add, if_neg hx, Std.TreeSet.mem_insert, Std.compare_eq_iff_eq, eq_comm]

theorem Seen.Agrees.add {s : Seen α} (h : s.Agrees) (x : α) : (s.add x).Agrees := by
  intro y
  rw [mem_values_add, mem_backwards_add h, h y]

theorem Seen.Agrees.foldl {s : Seen α} (h : s.Agrees) (xs : List α) :
    (xs.foldl Seen.add s).Agrees := by
  induction xs generalizing s with
  | nil => exact h
  | cons x xs ih => exact ih (h.add x)

theorem Seen.mem_backwards_foldl {s : Seen α} (h : s.Agrees) (xs : List α) (y : α) :
    y ∈ (xs.foldl Seen.add s).backwards ↔ y ∈ xs ∨ y ∈ s.backwards := by
  induction xs generalizing s with
  | nil => simp only [List.foldl_nil, List.not_mem_nil, false_or]
  | cons x xs ih =>
    rw [List.foldl_cons, ih (h.add x), mem_backwards_add h, List.mem_cons, or_left_comm, or_assoc]

theorem mem_firstSeen {xs : List α} {x : α} : x ∈ firstSeen xs ↔ x ∈ xs := by
  rw [firstSeen, List.mem_reverse, Seen.mem_backwards_foldl Seen.agrees_empty]
  simp only [List.not_mem_nil, or_false]

variable [BEq α] [LawfulBEq α]

/-- A value behind all others adds itself at the end, unless it was met before. -/
theorem firstSeen_concat (xs : List α) (x : α) :
    firstSeen (xs ++ [x]) = if x ∈ xs then firstSeen xs else firstSeen xs ++ [x] := by
  have hagrees := Seen.agrees_empty.foldl xs
  have hmem : (xs.foldl Seen.add ⟨∅, []⟩).values.contains x = true ↔ x ∈ xs := by
    rw [Std.TreeSet.contains_iff_mem, hagrees x, ← List.mem_reverse]
    exact mem_firstSeen
  rw [firstSeen, List.foldl_append, List.foldl_cons, List.foldl_nil, Seen.add]
  by_cases hx : x ∈ xs
  · rw [if_pos hx, if_pos (hmem.mpr hx)]
    rfl
  · rw [if_neg hx, if_neg (fun h => hx (hmem.mp h)), List.reverse_cons]
    rfl

/-- Of two distinct values the one that was met first stands first. -/
theorem pairwise_firstSeen (xs : List α) :
    (firstSeen xs).Pairwise fun x y => xs.idxOf x < xs.idxOf y := by
  induction xs using List.reverseRecOn with
  | nil => exact .nil
  | append_singleton xs z ih =>
    have hkeep : (firstSeen xs).Pairwise fun x y =>
        (xs ++ [z]).idxOf x < (xs ++ [z]).idxOf y := by
      refine ih.imp_of_mem fun {x y} hx hy h => ?_
      rw [List.idxOf_append_of_mem (mem_firstSeen.mp hx),
        List.idxOf_append_of_mem (mem_firstSeen.mp hy)]
      exact h
    rw [firstSeen_concat]
    by_cases hz : z ∈ xs
    · rw [if_pos hz]
      exact hkeep
    · rw [if_neg hz, List.pairwise_append]
      refine ⟨hkeep, List.pairwise_singleton _ z, ?_⟩
      intro x hx y hy
      have hxs := mem_firstSeen.mp hx
      have hlt := List.idxOf_lt_length_of_mem hxs
      rw [List.mem_singleton.mp hy, List.idxOf_append_of_mem hxs,
        List.idxOf_append_of_notMem hz]
      omega

theorem nodup_firstSeen (xs : List α) : (firstSeen xs).Nodup := by
  refine (pairwise_firstSeen xs).imp ?_
  intro x y hlt heq
  rw [heq] at hlt
  exact Nat.lt_irrefl _ hlt

end Distinct

section Map

variable {α β : Type} [Ord α] [Std.TransOrd α] [Std.LawfulEqOrd α] [BEq α] [LawfulBEq α]
  [Ord β] [Std.TransOrd β] [Std.LawfulEqOrd β] [BEq β] [LawfulBEq β]

/-- A map that tells values apart does not change which of them are met first. -/
theorem firstSeen_map {f : α → β} {xs : List α}
    (h : ∀ x ∈ xs, ∀ y ∈ xs, f x = f y → x = y) : firstSeen (xs.map f) = (firstSeen xs).map f := by
  induction xs using List.reverseRecOn with
  | nil => rfl
  | append_singleton xs z ih =>
    have hxs : firstSeen (xs.map f) = (firstSeen xs).map f :=
      ih fun x hx y hy =>
        h x (List.mem_append_left _ hx) y (List.mem_append_left _ hy)
    have hmem : f z ∈ xs.map f ↔ z ∈ xs := by
      constructor
      · intro hz
        obtain ⟨x, hx, hfx⟩ := List.mem_map.mp hz
        have hxz := h x (List.mem_append_left _ hx) z
          (List.mem_append_right _ List.mem_cons_self) hfx
        exact hxz ▸ hx
      · exact List.mem_map_of_mem
    rw [List.map_append, List.map_singleton, firstSeen_concat, firstSeen_concat, hxs]
    by_cases hz : z ∈ xs
    · rw [if_pos hz, if_pos (hmem.mpr hz)]
    · rw [if_neg hz, if_neg (fun h => hz (hmem.mp h)), List.map_append, List.map_singleton]

end Map
end Vox
end VoxelCurve
