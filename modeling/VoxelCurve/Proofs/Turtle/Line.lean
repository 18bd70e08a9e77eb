import Mathlib.Data.List.Nodup
import Mathlib.Tactic.Ring
import VoxelCurve.Turtle.Line

/-!
Where the pen of a line is.

After `k` moves the pen has gone along each axis as far as an even movement would be after
that time, rounded to a whole number with a half going up.  Along the axis on which the ends
are farther apart this is `k` itself.  The error that the pen carries is a number that the two
distances determine, and each of its two tests asks whether one of the roundings goes up in
the next move.  No direction has to be told from another for this, and the longer axis from
the shorter one only where the tests are looked at.

So the pen meets its end, and the line has a closed form (`points_eq`): it ends where it should,
it does not come back to a point that it has left, and no point of it lies outside the rectangle
that its ends span.
-/

namespace VoxelCurve
namespace Line

/-! ## Even movement, rounded -/

/-- How far a movement over `side` in `n` even steps is after `k` of them, rounded with a half
going up. -/
def travel (side n k : Nat) : Nat :=
  (2 * (side * k) + n) / (2 * n)

/-- The whole number that is nearest to the exact distance. -/
theorem travel_eq {side n k t : Nat} (hle : 2 * (n * t) ≤ 2 * (side * k) + n)
    (hlt : 2 * (side * k) + n < 2 * (n * t) + 2 * n) : travel side n k = t := by
  have h₁ : t * (2 * n) = 2 * (n * t) := by ring
  have h₂ : (t + 1) * (2 * n) = 2 * (n * t) + 2 * n := by ring
  exact Nat.div_eq_of_lt_le (by omega) (by omega)

/-- Nothing is travelled before the first step, even where there is none. -/
theorem travel_zero (side n : Nat) : travel side n 0 = 0 := by
  rw [travel, Nat.mul_zero, Nat.mul_zero, Nat.zero_add, Nat.div_eq_zero_iff]
  omega

section Travel

variable {n : Nat} (hn : 0 < n)

include hn

theorem travel_near (side k : Nat) :
    2 * (n * travel side n k) ≤ 2 * (side * k) + n ∧
      2 * (side * k) + n < 2 * (n * travel side n k) + 2 * n := by
  have hle : travel side n k * (2 * n) ≤ 2 * (side * k) + n := Nat.div_mul_le_self _ _
  have hlt : 2 * (side * k) + n < 2 * n * (travel side n k + 1) :=
    Nat.lt_mul_div_succ _ (by omega)
  have h₁ : travel side n k * (2 * n) = 2 * (n * travel side n k) := by ring
  have h₂ : 2 * n * (travel side n k + 1) = 2 * (n * travel side n k) + 2 * n := by ring
  omega

theorem travel_self (k : Nat) : travel n n k = k :=
  travel_eq (by omega) (by omega)

theorem travel_end (side : Nat) : travel side n n = side := by
  have hc : n * side = side * n := Nat.mul_comm n side
  exact travel_eq (by omega) (by omega)

theorem travel_le (side : Nat) {k : Nat} (hk : k ≤ n) : travel side n k ≤ side := by
  have hm : side * k ≤ side * n := Nat.mul_le_mul_left side hk
  have hdiv : travel side n k ≤ travel side n n := Nat.div_le_div_right (by omega)
  rwa [travel_end hn] at hdiv

/-- The rounded distance is never ahead of the steps. -/
theorem travel_le_steps {side : Nat} (hs : side ≤ n) (k : Nat) : travel side n k ≤ k := by
  have hm : side * k ≤ n * k := Nat.mul_le_mul_right k hs
  have hdiv : travel side n k ≤ travel n n k := Nat.div_le_div_right (by omega)
  rwa [travel_self hn] at hdiv

/-- In one step the rounded distance grows by one or not at all, and it grows if the exact one
has come at least half a unit beyond it. -/
theorem travel_succ {side : Nat} (hs : side ≤ n) (k : Nat) :
    travel side n (k + 1) =
      if 2 * (n * travel side n k) + n ≤ 2 * (side * k) + 2 * side then travel side n k + 1
      else travel side n k := by
  obtain ⟨hle, hlt⟩ := travel_near hn side k
  have hk : side * (k + 1) = side * k + side := Nat.mul_succ side k
  have ht : n * (travel side n k + 1) = n * travel side n k + n := Nat.mul_succ n _
  split
  · next hup => exact travel_eq (by omega) (by omega)
  · next hup => exact travel_eq (by omega) (by omega)

/-- A test of the error asks whether a rounded distance goes up: `a` is the extent along the
axis that is tested, `b` that along the other one. -/
theorem due_iff {a b : Nat} (h : a = n ∧ b ≤ n ∨ b = n ∧ a ≤ n) (k : Nat) :
    2 * (b * (travel a n k + 1)) ≤ 2 * (a * (travel b n k + 1)) + b ↔
      2 * (n * travel a n k) + n ≤ 2 * (a * k) + 2 * a := by
  have h₁ : b * (travel a n k + 1) = b * travel a n k + b := Nat.mul_succ b _
  have h₂ : a * (travel b n k + 1) = a * travel b n k + a := Nat.mul_succ a _
  rcases h with ⟨rfl, hb⟩ | ⟨rfl, ha⟩
  · -- the longer axis is due at every move
    obtain ⟨-, hlt⟩ := travel_near hn b k
    rw [travel_self hn] at *
    omega
  · rw [travel_self hn] at *
    omega

end Travel

/-! ## The pen -/

/-- How far apart two points are along x. -/
def spanX (start stop : Point) : Nat :=
  (stop.x - start.x).natAbs

/-- How far apart two points are along y. -/
def spanY (start stop : Point) : Nat :=
  (stop.y - start.y).natAbs

/-- The `k`-th point of a line. -/
def pointAt (start stop : Point) (k : Nat) : Point :=
  let c := Course.ofEnds start stop
  let n := distance start stop
  ⟨start.x + c.sx * travel (spanX start stop) n k, start.y + c.sy * travel (spanY start stop) n k⟩

/-- The pen after `k` moves. -/
def penAt (start stop : Point) (k : Nat) : Pen :=
  let n := distance start stop
  let a := spanX start stop
  let b := spanY start stop
  ⟨pointAt start stop k, (a * (travel b n k + 1) : Nat) - (b * (travel a n k + 1) : Nat)⟩

/-- The points that a pen passes on its course, however many moves that takes: those from where
it is to the end of the course. -/
inductive Passes (c : Course) : Pen → List Point → Prop
  | arrived {p : Pen} (h : p.point = c.stop) : Passes c p [p.point]
  | moved {p : Pen} {rest : List Point} (h : p.point ≠ c.stop)
      (hrest : Passes c (p.move c) rest) : Passes c p (p.point :: rest)

namespace Passes

variable {c : Course} {p : Pen} {passed : List Point} (h : Passes c p passed)

include h

theorem length_pos : 0 < passed.length := by
  cases h <;> exact Nat.succ_pos _

theorem unique {passed' : List Point} (h' : Passes c p passed') : passed = passed' := by
  induction h generalizing passed' with
  | arrived hstop =>
    cases h' with
    | arrived => rfl
    | moved hne => exact absurd hstop hne
  | moved hne _ ih =>
    cases h' with
    | arrived hstop => exact absurd hstop hne
    | moved _ hrest => rw [ih hrest]

/-- As soon as there are enough moves, it does not matter how many there are. -/
theorem toList_pointsInto {moves : Nat} (hmoves : passed.length ≤ moves + 1)
    (drawn : Array Point) : (pointsInto c moves p drawn).toList = drawn.toList ++ passed := by
  induction h generalizing moves drawn with
  | arrived hstop =>
    cases moves with
    | zero => rw [pointsInto, Array.toList_push]
    | succ moves => rw [pointsInto, if_pos hstop, Array.toList_push]
  | moved hne hrest ih =>
    have hpos := hrest.length_pos
    rw [List.length_cons] at hmoves
    obtain ⟨moves, rfl⟩ : ∃ m, moves = m + 1 := ⟨moves - 1, by omega⟩
    rw [pointsInto, if_neg hne, ih (by omega), Array.toList_push, List.append_assoc]
    rfl

end Passes

section Ends

variable {start stop : Point}

theorem spans (start stop : Point) :
    spanX start stop = distance start stop ∧ spanY start stop ≤ distance start stop ∨
      spanY start stop = distance start stop ∧ spanX start stop ≤ distance start stop := by
  unfold spanX spanY distance
  omega

theorem pointAt_zero (start stop : Point) : pointAt start stop 0 = start := by
  simp only [pointAt, travel_zero, Nat.cast_zero, Int.mul_zero, Int.add_zero]

/-- A direction leads from one coordinate to the other in as many steps as they are apart. -/
theorem add_sign_mul_eq_iff {x y : Int} {t : Nat} :
    x + (if x < y then 1 else -1) * (t : Int) = y ↔ t = (y - x).natAbs := by
  split <;> omega

/-- The end is met after as many moves as the line has, and not before. -/
theorem pointAt_eq_stop_iff (h : 0 < distance start stop) (k : Nat) :
    pointAt start stop k = stop ↔ k = distance start stop := by
  have hparts : pointAt start stop k = stop ↔
      travel (spanX start stop) (distance start stop) k = spanX start stop ∧
        travel (spanY start stop) (distance start stop) k = spanY start stop := by
    obtain ⟨x, y⟩ := stop
    rw [pointAt, Point.mk.injEq]
    exact and_congr add_sign_mul_eq_iff add_sign_mul_eq_iff
  rw [hparts]
  constructor
  · intro hspans
    obtain ⟨hx, hy⟩ := hspans
    rcases spans start stop with ⟨ha, -⟩ | ⟨hb, -⟩
    · rwa [ha, travel_self h] at hx
    · rwa [hb, travel_self h] at hy
  · intro hk
    rw [hk, travel_end h, travel_end h]
    exact ⟨rfl, rfl⟩

theorem penAt_zero (start stop : Point) :
    penAt start stop 0 = Pen.start (Course.ofEnds start stop) start := by
  rw [Pen.start, penAt, pointAt_zero, travel_zero, travel_zero, Nat.zero_add, Nat.mul_one,
    Nat.mul_one]
  rfl

/-- One move of the pen is one step of the two roundings. -/
theorem move_penAt (h : 0 < distance start stop) (k : Nat) :
    (penAt start stop k).move (Course.ofEnds start stop) = penAt start stop (k + 1) := by
  have hmax := spans start stop
  have hxs := travel_succ h (Nat.le_max_left (spanX start stop) (spanY start stop)) k
  have hys := travel_succ h (Nat.le_max_right (spanX start stop) (spanY start stop)) k
  have hx : 2 * (penAt start stop k).error ≥ (Course.ofEnds start stop).dy ↔ _ :=
    Iff.trans (by simp only [penAt, Course.ofEnds, spanX, spanY]; omega) (due_iff h hmax k)
  have hy : 2 * (penAt start stop k).error ≤ (Course.ofEnds start stop).dx ↔ _ :=
    Iff.trans (by simp only [penAt, Course.ofEnds, spanX, spanY]; omega) (due_iff h hmax.symm k)
  have hpoint : ∀ (p q sign : Int) (t t' : Nat) (due : Prop) [Decidable due],
      p = q + sign * t → t' = (if due then t + 1 else t) →
      (if due then p + sign else p) = q + sign * t' := by
    intro p q sign t t' due _ hp ht
    rw [hp, ht]
    split
    · push_cast
      ring
    · rfl
  simp only [Pen.move, hx, hy]
  change _ = (⟨⟨_, _⟩, _⟩ : Pen)
  rw [Pen.mk.injEq, Point.mk.injEq]
  refine ⟨⟨hpoint _ _ _ _ _ _ rfl hxs, hpoint _ _ _ _ _ _ rfl hys⟩, ?_⟩
  have hdx : (Course.ofEnds start stop).dx = (spanX start stop : Int) := rfl
  have hdy : (Course.ofEnds start stop).dy = -(spanY start stop : Int) := rfl
  simp only [penAt, hdx, hdy, hxs, hys]
  split <;> split <;> push_cast <;> ring

theorem eq_of_distance_eq_zero (h : distance start stop = 0) : start = stop := by
  obtain ⟨x, y⟩ := start
  obtain ⟨x', y'⟩ := stop
  have hmax : max (x' - x).natAbs (y' - y).natAbs = 0 := h
  rw [Point.mk.injEq]
  omega

theorem pointAt_distance (start stop : Point) :
    pointAt start stop (distance start stop) = stop := by
  rcases Nat.eq_zero_or_pos (distance start stop) with hzero | hpos
  · rw [hzero, pointAt_zero, eq_of_distance_eq_zero hzero]
  · exact (pointAt_eq_stop_iff hpos _).mpr rfl

theorem passes_penAt (h : 0 < distance start stop) {moves k : Nat}
    (hk : k + moves = distance start stop) :
    Passes (Course.ofEnds start stop) (penAt start stop k)
      ((List.range' k (moves + 1)).map (pointAt start stop)) := by
  induction moves generalizing k with
  | zero => exact .arrived ((pointAt_eq_stop_iff h k).mpr hk)
  | succ moves ih =>
    have hbefore : pointAt start stop k ≠ stop := by
      rw [Ne, pointAt_eq_stop_iff h]
      omega
    have hrest := ih (k := k + 1) (by omega)
    rw [← move_penAt h] at hrest
    rw [List.range'_succ, List.map_cons]
    exact .moved hbefore hrest

/-- The pen meets the end of its course, and by then has passed the points of the closed form. -/
theorem passes_pointAt (start stop : Point) :
    Passes (Course.ofEnds start stop) (Pen.start (Course.ofEnds start stop) start)
      ((List.range (distance start stop + 1)).map (pointAt start stop)) := by
  rcases Nat.eq_zero_or_pos (distance start stop) with hzero | hpos
  · have hpoint : List.map (pointAt start stop) (List.range 1) = [pointAt start stop 0] := rfl
    rw [hzero, hpoint, pointAt_zero]
    exact .arrived (eq_of_distance_eq_zero hzero)
  · have hpasses := passes_penAt hpos (Nat.zero_add _)
    rwa [← List.range_eq_range', penAt_zero] at hpasses

/-- The points of a line in closed form. -/
theorem points_eq (start stop : Point) :
    points start stop = (List.range (distance start stop + 1)).map (pointAt start stop) := by
  have hlength : ((List.range (distance start stop + 1)).map (pointAt start stop)).length ≤
      distance start stop + 1 := by
    rw [List.length_map, List.length_range]
  exact (passes_pointAt start stop).toList_pointsInto hlength #[]

theorem length_points (start stop : Point) :
    (points start stop).length = distance start stop + 1 := by
  rw [points_eq, List.length_map, List.length_range]

/-- Each point is as far from the start as it took moves to get there. -/
theorem distance_pointAt {k : Nat} (hk : k ≤ distance start stop) :
    distance start (pointAt start stop k) = k := by
  rcases Nat.eq_zero_or_pos (distance start stop) with hzero | hpos
  · obtain rfl : k = 0 := by omega
    rw [pointAt_zero]
    show max (start.x - start.x).natAbs (start.y - start.y).natAbs = 0
    omega
  · have haxis : ∀ (x y : Int) (t : Nat),
        (x + (if x < y then 1 else -1) * (t : Int) - x).natAbs = t := by
      intro x y t
      split <;> omega
    show max (Int.natAbs (_ - start.x)) (Int.natAbs (_ - start.y)) = k
    simp only [pointAt, Course.ofEnds, haxis]
    rcases spans start stop with ⟨ha, hb⟩ | ⟨hb, ha⟩
    · rw [ha, travel_self hpos]
      exact Nat.max_eq_left (travel_le_steps hpos hb k)
    · rw [hb, travel_self hpos]
      exact Nat.max_eq_right (travel_le_steps hpos ha k)

theorem nodup_points (start stop : Point) : (points start stop).Nodup := by
  rw [points_eq]
  refine List.Nodup.map_on ?_ List.nodup_range
  intro i hi j hj heq
  rw [← distance_pointAt (Nat.le_of_lt_succ (List.mem_range.mp hi)), heq,
    distance_pointAt (Nat.le_of_lt_succ (List.mem_range.mp hj))]

theorem getLast?_points (start stop : Point) : (points start stop).getLast? = some stop := by
  rw [points_eq, List.range_succ, List.map_append, List.getLast?_append]
  simp only [List.map_cons, List.map_nil, List.getLast?_singleton, Option.some_or,
    pointAt_distance]

theorem start_mem_points (start stop : Point) : start ∈ points start stop := by
  rw [points_eq]
  exact List.mem_map.mpr ⟨0, List.mem_range.mpr (Nat.succ_pos _), pointAt_zero start stop⟩

theorem stop_mem_points (start stop : Point) : stop ∈ points start stop :=
  List.mem_of_getLast? (getLast?_points start stop)

/-- Going on towards a coordinate, but not past it, leads to one in between. -/
theorem between_of_le {x y : Int} {t : Nat} (ht : t ≤ (y - x).natAbs) :
    min x y ≤ x + (if x < y then 1 else -1) * (t : Int) ∧
      x + (if x < y then 1 else -1) * (t : Int) ≤ max x y := by
  split <;> omega

/-- No point of a line lies outside the rectangle that its ends span. -/
theorem between_of_mem_points {p : Point} (h : p ∈ points start stop) :
    (min start.x stop.x ≤ p.x ∧ p.x ≤ max start.x stop.x) ∧
      (min start.y stop.y ≤ p.y ∧ p.y ≤ max start.y stop.y) := by
  rw [points_eq] at h
  obtain ⟨k, hk, rfl⟩ := List.mem_map.mp h
  have hk : k ≤ distance start stop := Nat.le_of_lt_succ (List.mem_range.mp hk)
  rcases Nat.eq_zero_or_pos (distance start stop) with hzero | hpos
  · rw [hzero] at hk
    rw [Nat.le_zero.mp hk, pointAt_zero]
    omega
  · exact ⟨between_of_le (travel_le hpos _ hk), between_of_le (travel_le hpos _ hk)⟩

end Ends
end Line
end VoxelCurve
