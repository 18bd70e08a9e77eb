import VoxelCurve.Decimal.Binary

/-!
The fewest digits that name a value.

A decimal names a finite value when it lies among the reals that round to it.  Those form
an interval: its ends are half way to the two neighbours, and they belong to it exactly
when `m` is even, since a tie rounds to the even one.  On the grid of a power of ten only
the two points around the value need a look, because an interval around the value that
holds any point of the grid holds one of these.  The coarsest grid with a hit decides.
-/

namespace VoxelCurve
namespace Decimal

/-- The decimal `digits * 10 ^ exponent`. -/
structure Scientific where
  digits : Nat
  exponent : Int
deriving Repr, DecidableEq

/-- The reals that round to a value, over a common denominator. -/
structure Interval where
  low : Nat
  value : Nat
  high : Nat
  unit : Nat
  closed : Bool

namespace Binary

def interval (b : Binary) : Interval :=
  let up := powerOver 2 b.q
  { low := (if b.narrowBelow then 4 * b.m - 1 else 4 * b.m - 2) * up
    value := 4 * b.m * up
    high := (4 * b.m + 2) * up
    unit := 4 * b.denominator
    closed := b.m % 2 = 0 }

end Binary

namespace Interval

/-- The comparison of `digits * 10 ^ exponent` with `n / unit`, by cross-multiplication. -/
def compareWith (i : Interval) (s : Scientific) (n : Nat) : Ordering :=
  compare (s.digits * powerOver 10 s.exponent * i.unit) (n * powerUnder 10 s.exponent)

def contains (i : Interval) (s : Scientific) : Bool :=
  match i.compareWith s i.low, i.compareWith s i.high with
  | .gt, .lt => true
  | .eq, .lt => i.closed
  | .gt, .eq => i.closed
  | _, _ => false

/-- The greatest point of the grid `10 ^ e` not above the value. -/
def below (i : Interval) (e : Int) : Nat :=
  i.value * powerUnder 10 e / (i.unit * powerOver 10 e)

/-- The point of the grid `10 ^ e` that names the value: the nearer one if both do, and on
a tie the even one. -/
def pick? (i : Interval) (e : Int) : Option Scientific :=
  let d := i.below e
  let lower : Scientific := ⟨d, e⟩
  let upper : Scientific := ⟨d + 1, e⟩
  match i.contains lower, i.contains upper with
  | true, false => some lower
  | false, true => some upper
  | false, false => none
  | true, true =>
    match compare (2 * i.value * powerUnder 10 e) ((2 * d + 1) * i.unit * powerOver 10 e) with
    | .lt => some lower
    | .gt => some upper
    | .eq => if d % 2 = 0 then some lower else some upper

/-- The least `k` with the value below `10 ^ k`.  The binary logarithm tells it up to one
step, and three exact comparisons settle it. -/
def scale (i : Interval) : Int :=
  let log2 : Int := (i.value.log2 : Int) - i.unit.log2
  let guess := log2 * 30103 / 100000
  let isAbove := fun k : Int => i.value * powerUnder 10 k < i.unit * powerOver 10 k
  ([guess - 1, guess, guess + 1].find? isAbove).getD (guess + 2)

end Interval

/-- The same decimal without zeros at the end of its digits. -/
def Scientific.strip (s : Scientific) : Scientific :=
  if h : s.digits ≠ 0 ∧ s.digits % 10 = 0 then
    Scientific.strip ⟨s.digits / 10, s.exponent + 1⟩
  else s
termination_by s.digits
decreasing_by exact Nat.div_lt_self (Nat.pos_of_ne_zero h.1) (by decide)

/-- The value itself, written out to its last digit. -/
def Binary.exact (b : Binary) : Scientific :=
  ⟨b.numerator * powerUnder 5 b.q, min b.q 0⟩

/-- The decimal of fewest digits that names the value, the nearest of them.  Seventeen
digits always suffice; were they not to, the exact value would still be an answer. -/
def Binary.shortest (b : Binary) : Scientific :=
  if b.m = 0 then ⟨0, 0⟩
  else
    let i := b.interval
    let k := i.scale
    match (List.range 17).findSome? fun n : Nat => i.pick? (k - 1 - n) with
    | some s => s.strip
    | none => b.exact.strip

end Decimal
end VoxelCurve
