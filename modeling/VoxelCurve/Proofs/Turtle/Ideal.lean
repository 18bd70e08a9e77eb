import Mathlib.Algebra.Order.Field.Basic
import Mathlib.Data.List.Range
import Mathlib.Tactic.Linarith
import VoxelCurve.Proofs.Turtle.Connected

/-!
Lines and ideal lines.

Seen along the axis on which its ends are farther apart, a line goes one step at a time, and along
the other axis it is where an ideal line would be, rounded to a whole number with a half going away
from the start.  So its points do not depend on which of the eight octants it runs through, but for
the names and the directions of the axes.
-/

namespace VoxelCurve
namespace Line

/-- How far apart two points are along the axis on which they are closer. -/
def shorter (start stop : Point) : Nat :=
  min (spanX start stop) (spanY start stop)

/-- The point that is reached from a start in the direction of a stop by `long` steps along the
axis on which the two are farther apart and `short` steps along the other one. -/
def towards (start stop : Point) (long short : Nat) : Point :=
  let dx := (stop.x - start.x).sign
  let dy := (stop.y - start.y).sign
  if spanY start stop ≤ spanX start stop then ⟨start.x + dx * long, start.y + dy * short⟩
  else ⟨start.x + dx * short, start.y + dy * long⟩

/-- The direction of the pen only matters where there is a way to go. -/
theorem add_direction_mul {x y : Int} {t : Nat} (ht : t ≤ (y - x).natAbs) :
    x + (if x < y then 1 else -1) * (t : Int) = x + (y - x).sign * t := by
  rcases lt_trichotomy x y with hlt | rfl | hgt
  · rw [if_pos hlt, Int.sign_eq_one_of_pos (by omega)]
  · obtain rfl : t = 0 := by omega
    rw [Nat.cast_zero, Int.mul_zero, Int.mul_zero]
  · rw [if_neg (by omega), Int.sign_eq_neg_one_of_neg (by omega)]

section Ends

variable {start stop : Point}

theorem pointAt_eq_towards {k : Nat} (hk : k ≤ distance start stop) :
    pointAt start stop k =
      towards start stop k (travel (shorter start stop) (distance start stop) k) := by
  rcases Nat.eq_zero_or_pos (distance start stop) with hzero | hpos
  · obtain rfl : k = 0 := by omega
    simp only [pointAt_zero, towards, travel_zero, Nat.cast_zero, Int.mul_zero, Int.add_zero,
      ite_self]
  have hpoint : pointAt start stop k =
      ⟨start.x + (stop.x - start.x).sign * travel (spanX start stop) (distance start stop) k,
        start.y + (stop.y - start.y).sign * travel (spanY start stop) (distance start stop) k⟩ := by
    rw [Point.mk.injEq]
    exact ⟨add_direction_mul (travel_le hpos _ hk), add_direction_mul (travel_le hpos _ hk)⟩
  rw [hpoint, towards]
  by_cases hle : spanY start stop ≤ spanX start stop
  · have hlong : spanX start stop = distance start stop := (Nat.max_eq_left hle).symm
    have hshort : shorter start stop = spanY start stop := Nat.min_eq_right hle
    rw [if_pos hle, hlong, hshort, travel_self hpos]
  · have hle' : spanX start stop ≤ spanY start stop := by omega
    have hlong : spanY start stop = distance start stop := (Nat.max_eq_right hle').symm
    have hshort : shorter start stop = spanX start stop := Nat.min_eq_left hle'
    rw [if_neg hle, hlong, hshort, travel_self hpos]

theorem getElem?_points {k : Nat} (hk : k ≤ distance start stop) :
    (points start stop)[k]? = some (pointAt start stop k) := by
  rw [points_eq, List.getElem?_map, List.getElem?_range (Nat.lt_succ_of_le hk)]
  rfl

theorem isChain_points (start stop : Point) : (points start stop).IsChain Point.Near := by
  rw [points_eq, List.isChain_map, List.isChain_range_succ]
  exact fun k hk => near_pointAt_succ (Nat.zero_lt_of_lt hk) k

/-- The rounding is off by at most one half, and where it is off by one half it goes up. -/
theorem travel_within_half {n k : Nat} (hk : k ≤ n) (side : Nat) :
    (side * k / n : ℚ) - 1 / 2 < travel side n k ∧
      (travel side n k : ℚ) ≤ side * k / n + 1 / 2 := by
  rcases Nat.eq_zero_or_pos n with rfl | hn
  · obtain rfl : k = 0 := by omega
    rw [travel_zero]
    norm_num
  have hpos : (0 : ℚ) < n := Nat.cast_pos.mpr hn
  obtain ⟨hle, hlt⟩ := travel_near hn side k
  have hle : (2 * (n * travel side n k) : ℚ) ≤ 2 * (side * k) + n := by exact_mod_cast hle
  have hlt : (2 * (side * k) + n : ℚ) < 2 * (n * travel side n k) + 2 * n := by
    exact_mod_cast hlt
  constructor
  · rw [sub_lt_iff_lt_add, div_lt_iff₀ hpos]
    linarith
  · rw [← sub_le_iff_le_add, le_div_iff₀ hpos]
    linarith

/-- The pen arrives, after as many moves as its ends are apart on the axis on which they are
farther apart.  It goes one step along that axis in each move, and along the other one it is at the
nearest whole number to the ideal line, which is one step farther from the start if there are two.
So the line starts and ends where it should, without a gap or a repetition. -/
theorem points_ideal (start stop : Point) :
    let c := Course.ofEnds start stop
    let a := distance start stop
    let b := shorter start stop
    let short := fun k => (2 * b * k + a) / (2 * a)
    let ps := points start stop
    (∀ passed, Passes c (Pen.start c start) passed ↔ passed = ps) ∧
    ps.length = a + 1 ∧
    (∀ k ≤ a, ps[k]? = some (towards start stop k (short k)) ∧
      (b * k / a : ℚ) - 1 / 2 < short k ∧ (short k : ℚ) ≤ b * k / a + 1 / 2) ∧
    ps.head? = some start ∧ ps.getLast? = some stop ∧ ps.IsChain Point.Near ∧ ps.Nodup := by
  intro c a b short ps
  have hpasses : Passes c (Pen.start c start) ps := by
    show Passes _ _ (points start stop)
    rw [points_eq]
    exact passes_pointAt start stop
  have hshort : ∀ k, short k = travel b a k := by
    intro k
    show (2 * b * k + a) / (2 * a) = _
    rw [Nat.mul_assoc]
    rfl
  refine ⟨?_, length_points start stop, ?_, ?_, getLast?_points start stop,
    isChain_points start stop, nodup_points start stop⟩
  · intro passed
    constructor
    · exact fun h => h.unique hpasses
    · rintro rfl
      exact hpasses
  · intro k hk
    rw [hshort, ← pointAt_eq_towards hk]
    exact ⟨getElem?_points hk, travel_within_half hk b⟩
  · rw [List.head?_eq_getElem?, getElem?_points (Nat.zero_le _), pointAt_zero]

/-- A line half as high as it is wide is met between two points at each second step. -/
example : points ⟨0, 0⟩ ⟨-4, 2⟩ = [⟨0, 0⟩, ⟨-1, 1⟩, ⟨-2, 1⟩, ⟨-3, 2⟩, ⟨-4, 2⟩] := by decide

end Ends
end Line
end VoxelCurve
