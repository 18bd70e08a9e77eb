/-!
Finite floating-point values as exact fractions.

A finite value is `m * 2 ^ q`, so its whole part, its rounding to a number of places and
its decimal digits are questions about natural numbers.  Nothing here rounds.
-/

namespace VoxelCurve
namespace Decimal

/-- The magnitude `m * 2 ^ q` of a finite value.  Just above a power of two the gap to the
value below is half the gap to the value above, which the digits of the value depend on. -/
structure Binary where
  m : Nat
  q : Int
  narrowBelow : Bool
deriving Repr, DecidableEq

/-- The numerator of `base ^ e`, which is one unless `e` is positive. -/
def powerOver (base : Nat) (e : Int) : Nat :=
  Nat.pow base e.toNat

/-- The denominator of `base ^ e`, which is one unless `e` is negative. -/
def powerUnder (base : Nat) (e : Int) : Nat :=
  Nat.pow base (-e).toNat

namespace Binary

/-- The magnitude behind the bits of a finite value. -/
def ofBits (bits : UInt64) : Binary :=
  let exponent := ((bits >>> 52) &&& 0x7FF).toNat
  let fraction := (bits &&& 0xFFFFFFFFFFFFF).toNat
  if exponent = 0 then ⟨fraction, -1074, false⟩
  else ⟨0x10000000000000 + fraction, (exponent : Int) - 1075, fraction == 0 && exponent > 1⟩

def ofFloat (x : Float) : Binary :=
  ofBits x.toBits

def numerator (b : Binary) : Nat :=
  b.m * powerOver 2 b.q

def denominator (b : Binary) : Nat :=
  powerUnder 2 b.q

/-- The whole part of the magnitude. -/
def floor (b : Binary) : Nat :=
  b.numerator / b.denominator

end Binary

/-- The sign bit, which zero has too. -/
def isNegative (x : Float) : Bool :=
  x.toBits >>> 63 == 1

/-- The integer part of a finite value: what is left when the digits after the point are
dropped, whichever side of zero it stands on. -/
def truncate (x : Float) : Int :=
  let whole : Int := (Binary.ofFloat x).floor
  if isNegative x then -whole else whole

/-- The quotient rounded to the nearest integer, a half going to the even neighbour. -/
def roundHalfEven (num den : Nat) : Nat :=
  let whole := num / den
  match compare (2 * (num % den)) den with
  | .lt => whole
  | .gt => whole + 1
  | .eq => if whole % 2 = 0 then whole else whole + 1

end Decimal
end VoxelCurve
