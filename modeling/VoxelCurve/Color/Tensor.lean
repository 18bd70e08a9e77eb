import VoxelCurve.Value.Nested
import VoxelCurve.Value.Number

/-!
Nested numbers of one shape.

Lists count as nested numbers when all lists at one depth have the same length and are not
nested too deep.  A text stands for the number it denotes, and nothing at all for the float
that is no number.  The shape is looked at before any entry is read.
-/

namespace VoxelCurve

/-- Floats in lists in lists, to any depth. -/
inductive Tensor where
  | scalar (x : Float)
  | row (entries : List Tensor)

/-- Why a value holds no nested numbers. -/
inductive TensorFault where
  | shape (fault : ShapeFault)
  /-- a text that denotes no float -/
  | unreadable (text : String)
  | number (fault : NumberFault)
deriving Repr, DecidableEq

def TensorFault.message : TensorFault → String
  | shape fault => fault.message
  | unreadable text => "no number can be read from " ++ text
  | number fault => fault.message

namespace Tensor

/-- The float of an entry. -/
def entry : Value → Except TensorFault Float
  | .null => .ok (0.0 / 0.0)
  | .text s =>
    match Decimal.readFloat? s with
    | some x => .ok x
    | none => .error (.unreadable s)
  | v => v.toFloat.mapError .number

mutual

def read : Value → Except TensorFault Tensor
  | .list items => (readAll items).map row
  | v => (entry v).map scalar

def readAll : List Value → Except TensorFault (List Tensor)
  | [] => .ok []
  | v :: rest => do
    let t ← read v
    let ts ← readAll rest
    .ok (t :: ts)

end

/-- The nested numbers of a value, with their shape. -/
def ofValue (v : Value) : Except TensorFault (List Nat × Tensor) := do
  let shape ← v.shape.mapError .shape
  let t ← read v
  .ok (shape, t)

mutual

/-- The same nesting with every number changed. -/
def map (f : Float → Float) : Tensor → Tensor
  | scalar x => scalar (f x)
  | row entries => row (mapAll f entries)

def mapAll (f : Float → Float) : List Tensor → List Tensor
  | [] => []
  | t :: rest => map f t :: mapAll f rest

end

/-- The numbers of a row, if it holds nothing but numbers. -/
def numbers? : Tensor → Option (List Float)
  | scalar _ => none
  | row entries => entries.mapM fun
    | scalar x => some x
    | row _ => none

end Tensor
end VoxelCurve
