import VoxelCurve.Color.Transfer
import VoxelCurve.Volume.Extent
import VoxelCurve.Volume.Kind

/-!
Ramps: even steps through a few stops of color.

The stops are linear light with an alpha and lie evenly between zero and one.  Between two
of them the channels change linearly; then the colors are encoded for the eye and rounded to
bytes, a half going to the even one, while the alpha is rounded as it is.
-/

namespace VoxelCurve

/-- Why there is no ramp. -/
inductive RampFault where
  /-- the number of colors is no number -/
  | lengthNotNumber
  | negativeLength (shown : String)
  /-- the number of colors is a number but no integer -/
  | lengthNotInteger
  /-- more steps than can be addressed -/
  | tooLong (n : Nat)
  /-- so many steps that none is made, and there is no last one -/
  | noLastStep (n : Nat)
  | badShape (shape : List Nat)
  | stops (fault : TensorFault)
deriving Repr, DecidableEq

namespace RampFault

def message : RampFault → String
  | lengthNotNumber => "the length of a gradient is no number"
  | negativeLength shown => s!"Gradient length must be non-negative, got {shown}"
  | lengthNotInteger => "the length of a gradient is no integer"
  | tooLong n => s!"a gradient of {n} colors is too long"
  | noLastStep n => s!"a gradient of {n} colors has no last step"
  | badShape shape =>
    "Expected at least two RGBA stops, got shape " ++ Value.shownTuple (shape.map Int.ofNat)
  | stops fault => fault.message

end RampFault

namespace Ramp

/-- The `i`-th of `n` even steps from zero to one.  The last is one exactly. -/
def evenStep (n i : Nat) : Float :=
  if i + 1 = n ∧ 1 < n then 1.0 else Float.ofNat i * (1.0 / Float.ofNat (n - 1))

/-- All of `n` even steps; a single one is at zero. -/
def evenSteps (n : Nat) : List Float :=
  (List.range n).map fun i => if n ≤ 1 then 0.0 else evenStep n i

/-- The value at `t` on the line through two knots.  Where that is no number seen from the
first knot it is taken from the second, and where both have one value it is that value. -/
def between (k₀ v₀ k₁ v₁ t : Float) : Float :=
  let slope := (v₁ - v₀) / (k₁ - k₀)
  let forward := slope * (t - k₀) + v₀
  if forward.isNaN then
    let backward := slope * (t - k₁) + v₁
    if backward.isNaN && v₀ == v₁ then v₀ else backward
  else forward

/-- The value at `t` between ascending knots, of which the last one not above `t` counts. -/
def interpolate (t : Float) : List (Float × Float) → Float
  | [] => 0.0
  | [(_, v)] => v
  | (k₀, v₀) :: (k₁, v₁) :: rest =>
    if k₁ ≤ t then interpolate t ((k₁, v₁) :: rest)
    else if k₀ == t then v₀
    else between k₀ v₀ k₁ v₁ t

/-- The byte for a part of the whole; the value that is no number becomes zero. -/
def byte (x : Float) : UInt8 :=
  let b := Decimal.Binary.ofFloat (Transfer.clamp x * 255.0)
  if x.isNaN then 0 else UInt8.ofNat (Decimal.roundHalfEven b.numerator b.denominator)

/-- A stop: red, green, blue and alpha. -/
abbrev Stop := Vector Float 4

/-- The color at `t` between stops at the given knots. -/
def colorAt (knots : List Float) (stops : List Stop) (t : Float) : Rgba :=
  let channel := fun c : Fin 4 => interpolate t (knots.zip (stops.map (·[c])))
  Rgba.ofBytes (byte (Transfer.encode (channel 0))) (byte (Transfer.encode (channel 1)))
    (byte (Transfer.encode (channel 2))) (byte (channel 3))

/-- A ramp of `n` colors. -/
def colors (stops : List Stop) (n : Nat) : List Rgba :=
  let knots := evenSteps stops.length
  (evenSteps n).map (colorAt knots stops)

/-- Red, yellow, green, cyan, blue, magenta, and red again. -/
def rainbowStops : List Stop :=
  [#v[1.0, 0.0, 0.0, 1.0], #v[1.0, 1.0, 0.0, 1.0], #v[0.0, 1.0, 0.0, 1.0],
   #v[0.0, 1.0, 1.0, 1.0], #v[0.0, 0.0, 1.0, 1.0], #v[1.0, 0.0, 1.0, 1.0],
   #v[1.0, 0.0, 0.0, 1.0]]

def rainbow (n : Nat) : List Rgba :=
  colors rainbowStops n

/-- A row of four numbers as a stop. -/
def stop? (t : Tensor) : Option Stop := do
  match ← t.numbers? with
  | [r, g, b, a] => some #v[r, g, b, a]
  | _ => none

/-- The stops of nested numbers. -/
def stopsOf (v : Value) : Except RampFault (List Stop) := do
  let (shape, t) ← (Tensor.ofValue v).mapError .stops
  match t with
  | .scalar _ => .error (.badShape shape)
  | .row rows =>
    match rows.mapM stop? with
    | some (a :: b :: rest) => .ok (a :: b :: rest)
    | _ => .error (.badShape shape)

/-- Refuses a number of colors that is below zero. -/
def checkSign (n : Value) : Except RampFault Unit :=
  match n.number? with
  | none => .error .lengthNotNumber
  | some number =>
    let isNegative := match number with
      | .bool _ => false
      | .int n => n < 0
      | .float x => x < 0.0
    if isNegative then .error (.negativeLength n.printed) else .ok ()

/-- The bytes of a step. -/
def stepSize : Nat := 8

/-- Whether a number is rounded to the least one that is past all addresses when it is made a
float.  So many steps are taken for none at all. -/
def wrapsToNone (n : Nat) : Bool :=
  Float.ofNat n == Float.ofNat (addressable + 1)

/-- The number of colors that a value asks for, if their steps can be addressed. -/
def lengthOf : Value → Except RampFault Nat
  | .int n =>
    if wrapsToNone n.toNat then .error (.noLastStep n.toNat)
    else if n.toNat * stepSize > addressable then .error (.tooLong n.toNat)
    else .ok n.toNat
  | _ => .error .lengthNotInteger

/-- A ramp through any stops, of any number of colors.  The sign of that number is looked at
first, then the stops, and last whether it is an integer that is not too large. -/
def gradient (stops n : Value) : Except RampFault (List Rgba) := do
  checkSign n
  let stops ← stopsOf stops
  let n ← lengthOf n
  .ok (colors stops n)

/-- The rainbow in any number of colors. -/
def rainbowOf (n : Value) : Except RampFault (List Rgba) := do
  checkSign n
  let n ← lengthOf n
  .ok (rainbow n)

end Ramp
end VoxelCurve
