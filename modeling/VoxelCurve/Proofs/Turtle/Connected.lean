import Mathlib.Logic.Relation
import VoxelCurve.Proofs.Turtle.Line

/-!
Points that a king can walk over.

A king moves to any of the eight neighbours of a point.  A set of points is connected if a king
who never leaves it gets from each of its points to each other one; for this it is enough to get
from one of them to all others.  The pen of a line never moves by more than one along an axis, so
every line is connected, whatever its direction.
-/

namespace VoxelCurve
namespace Point

/-- Whether a king who moves at most once gets from one point to another. -/
def Near (p q : Point) : Prop :=
  (q.x - p.x).natAbs ≤ 1 ∧ (q.y - p.y).natAbs ≤ 1

theorem Near.symm {p q : Point} (h : p.Near q) : q.Near p := by
  unfold Near at *
  omega

/-- Whether a king who stays within a set gets from one point to another. -/
def Linked (S : Point → Prop) : Point → Point → Prop :=
  Relation.ReflTransGen fun p q => (S p ∧ S q) ∧ p.Near q

def Connected (S : Point → Prop) : Prop :=
  ∀ p q, S p → S q → Linked S p q

section Sets

variable {S T : Point → Prop}

theorem Linked.symm {p q : Point} (h : Linked S p q) : Linked S q p := by
  induction h with
  | refl => exact .refl
  | tail _ hstep ih => exact .head ⟨hstep.1.symm, hstep.2.symm⟩ ih

theorem Linked.mono (hST : ∀ p, S p → T p) {p q : Point} (h : Linked S p q) : Linked T p q := by
  refine Relation.ReflTransGen.mono ?_ p q h
  intro p q hstep
  obtain ⟨⟨hp, hq⟩, hnear⟩ := hstep
  exact ⟨⟨hST p hp, hST q hq⟩, hnear⟩

/-- A set is connected if one point is linked to all of it. -/
theorem connected_of_linked {p : Point} (h : ∀ q, S q → Linked S p q) : Connected S :=
  fun q r hq hr => (h q hq).symm.trans (h r hr)

end Sets
end Point

namespace Line

/-! ## Lines -/

theorem near_move (start stop : Point) (p : Pen) :
    p.point.Near (p.move (Course.ofEnds start stop)).point := by
  have hsx : (Course.ofEnds start stop).sx = 1 ∨ (Course.ofEnds start stop).sx = -1 := by
    simp only [Course.ofEnds]
    omega
  have hsy : (Course.ofEnds start stop).sy = 1 ∨ (Course.ofEnds start stop).sy = -1 := by
    simp only [Course.ofEnds]
    omega
  simp only [Point.Near, Pen.move]
  omega

variable {start stop : Point}

theorem near_pointAt_succ (h : 0 < distance start stop) (k : Nat) :
    (pointAt start stop k).Near (pointAt start stop (k + 1)) := by
  have hnear := near_move start stop (penAt start stop k)
  rwa [move_penAt h] at hnear

theorem pointAt_mem_points {k : Nat} (hk : k ≤ distance start stop) :
    pointAt start stop k ∈ points start stop := by
  rw [points_eq]
  exact List.mem_map_of_mem (List.mem_range.mpr (Nat.lt_succ_of_le hk))

theorem linked_of_mem_points {p : Point} (h : p ∈ points start stop) :
    Point.Linked (· ∈ points start stop) start p := by
  have hlinked : ∀ k ≤ distance start stop,
      Point.Linked (· ∈ points start stop) start (pointAt start stop k) := by
    intro k hk
    induction k with
    | zero =>
      rw [pointAt_zero]
      exact .refl
    | succ k ih =>
      refine (ih (Nat.le_of_succ_le hk)).tail ⟨⟨?_, ?_⟩, near_pointAt_succ (by omega) k⟩
      · exact pointAt_mem_points (Nat.le_of_succ_le hk)
      · exact pointAt_mem_points hk
  rw [points_eq] at h
  obtain ⟨k, hk, rfl⟩ := List.mem_map.mp h
  exact hlinked k (Nat.le_of_lt_succ (List.mem_range.mp hk))

end Line
end VoxelCurve
