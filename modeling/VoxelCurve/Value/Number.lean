import VoxelCurve.Decimal.Reading
import VoxelCurve.Value.Basic

/-!
Values where numbers are wanted.

A truth value counts as one or zero wherever a number may stand.  An index has to be an
integer already; a coordinate of a color is made one, by dropping places or by reading
text; a distance is made a float.
-/

namespace VoxelCurve

/-- Why a value could not be made a number. -/
inductive NumberFault where
  /-- the value is of a type that has no number -/
  | notNumber
  /-- a text that denotes no integer -/
  | unreadable (text : String)
  /-- the float that is no number has no integer part -/
  | undefined
  /-- an infinite float has no integer part -/
  | infinite
  /-- an integer beyond every finite float -/
  | tooLarge
  /-- an integer that a complaint cannot show -/
  | unwritable
deriving Repr, DecidableEq

namespace NumberFault

def message : NumberFault → String
  | notNumber => "not a number"
  | unreadable text => "no integer can be read from " ++ text
  | undefined => "a float that is no number has no integer part"
  | infinite => "an infinite float has no integer part"
  | tooLarge => "the integer is too large for a float"
  | unwritable => "the integer has too many digits to be written"

end NumberFault

/-- What may stand for a number in settings, kept as it was given. -/
inductive Number where
  | bool (b : Bool)
  | int (n : Int)
  | float (x : Float)

namespace Number

def toValue : Number → Value
  | bool b => .bool b
  | int n => .int n
  | float x => .float x

/-- The float a number stands for. -/
def toFloat : Number → Except NumberFault Float
  | bool b => .ok (if b then 1.0 else 0.0)
  | int n =>
    let magnitude := Float.ofNat n.natAbs
    if magnitude.isInf then .error .tooLarge
    else .ok (if n < 0 then -magnitude else magnitude)
  | float x => .ok x

/-- The integer a number is, if it is no float. -/
def toInt? : Number → Option Int
  | bool b => some (if b then 1 else 0)
  | int n => some n
  | float _ => none

/-- What two numbers make, by a rule for integers and one for floats.  It is a float as soon
as one of the two is. -/
def combine (onIntegers : Int → Int → Int) (onFloats : Float → Float → Float) (m n : Number) :
    Except NumberFault Number :=
  match m.toInt?, n.toInt? with
  | some i, some j => .ok (int (onIntegers i j))
  | _, _ => do
    let x ← m.toFloat
    let y ← n.toFloat
    .ok (float (onFloats x y))

def plus : Number → Number → Except NumberFault Number :=
  combine (· + ·) (· + ·)

def minus : Number → Number → Except NumberFault Number :=
  combine (· - ·) (· - ·)

def times : Number → Number → Except NumberFault Number :=
  combine (· * ·) (· * ·)

/-- The number without its sign. -/
def magnitude : Number → Number
  | float x => float x.abs
  | n => int ((n.toInt?.getD 0).natAbs)

def opposite : Number → Number
  | float x => float (-x)
  | n => int (-(n.toInt?.getD 0))

/-- Whether a number is below another.  An integer and a float are compared as they are, and
the float that is no number is neither below nor above any. -/
def isBelow (m n : Number) : Bool :=
  match m, n with
  | float x, float y => x < y
  | float x, n =>
    let i := n.toInt?.getD 0
    if x.isNaN then false else if x.isInf then x < 0.0 else Decimal.truncate x.floor < i
  | m, float y =>
    let i := m.toInt?.getD 0
    if y.isNaN then false else if y.isInf then 0.0 < y else i < Decimal.truncate y.ceil
  | m, n => m.toInt?.getD 0 < n.toInt?.getD 0

/-- Whether a number is one at all, as opposed to the float that is none. -/
def isDefined : Number → Bool
  | float x => !x.isNaN
  | _ => true

def equals (m n : Number) : Bool :=
  m.isDefined && n.isDefined && !m.isBelow n && !n.isBelow m

def isAtMost (m n : Number) : Bool :=
  m.isBelow n || m.equals n

/-- How many whole ones a finite number has, without its sign. -/
def wholes? : Number → Option Nat
  | float x => if x.isNaN || x.isInf then none else some (Decimal.truncate x).natAbs
  | n => some (n.toInt?.getD 0).natAbs

end Number

/-- The integer part of a float. -/
def wholePart (x : Float) : Except NumberFault Int :=
  if x.isNaN then .error .undefined
  else if x.isInf then .error .infinite
  else .ok (Decimal.truncate x)

namespace Value

def number? : Value → Option Number
  | bool b => some (.bool b)
  | int n => some (.int n)
  | float x => some (.float x)
  | _ => none

/-- The integer a value is. -/
def index? : Value → Option Int
  | bool b => some (if b then 1 else 0)
  | int n => some n
  | _ => none

def toFloat (v : Value) : Except NumberFault Float :=
  match v.number? with
  | some n => n.toFloat
  | none => .error .notNumber

/-- The integer a value can be made: floats lose their places, texts are read. -/
def toInteger : Value → Except NumberFault Int
  | bool b => .ok (if b then 1 else 0)
  | int n => .ok n
  | float x => wholePart x
  | text s =>
    match Decimal.readInteger? s with
    | some n => .ok n
    | none => .error (.unreadable s)
  | _ => .error .notNumber

/-- Whether a value equals zero. -/
def isZero : Value → Bool
  | bool b => !b
  | int n => n == 0
  | float x => x == 0.0
  | _ => false

end Value
end VoxelCurve
