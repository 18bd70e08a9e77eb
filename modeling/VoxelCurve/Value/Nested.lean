import VoxelCurve.Value.Basic

/-!
Values in lists in lists.

Nested lists have a shape, the lengths at each depth, when all lists at one depth have the
same length and none stands beside a value that is no list.  The values inside them, row
after row, are their entries.
-/

namespace VoxelCurve

/-- Why nested lists have no shape. -/
inductive ShapeFault where
  /-- lists of different lengths, or lists beside other values -/
  | ragged
  /-- lists nested too deep -/
  | tooDeep
deriving Repr, DecidableEq

def ShapeFault.message : ShapeFault → String
  | ragged => "lists of different shapes"
  | tooDeep => "lists nested too deep"

namespace Value

mutual

/-- The lengths at each depth, unless they differ somewhere. -/
def shape? : Value → Option (List Nat)
  | .list items => (commonShape? items).map (items.length :: ·)
  | _ => some []

/-- The shape that all of some values have; without any value it is that of a value that is
no list. -/
def commonShape? : List Value → Option (List Nat)
  | [] => some []
  | [v] => shape? v
  | v :: rest => do
    let s ← shape? v
    if (← commonShape? rest) = s then some s else none

end

/-- How deep lists may stand in one another. -/
def maxNesting : Nat := 64

def shape (v : Value) : Except ShapeFault (List Nat) :=
  match shape? v with
  | none => .error .ragged
  | some s => if s.length > maxNesting then .error .tooDeep else .ok s

mutual

def entries : Value → List Value
  | .list items => allEntries items
  | v => [v]

/-- The entries of values one behind the other. -/
def allEntries : List Value → List Value
  | [] => []
  | v :: rest => entries v ++ allEntries rest

end

end Value
end VoxelCurve
