import VoxelCurve.Value.Number

/-!
When values are equal.

Numbers are equal when they stand for the same number, whatever they were written as, and
the float that is no number equals none.  Lists are equal item by item, and objects when
they have the same names with equal values, in whatever order.
-/

namespace VoxelCurve
namespace Value

/-- Whether a value is equal to a number. -/
def numberEquals (n : Number) (w : Value) : Bool :=
  match w.number? with
  | some m => n.equals m
  | none => false

mutual

def equals : Value → Value → Bool
  | null, null => true
  | text s, text t => s == t
  | list vs, list ws => vs.length == ws.length && itemsEqual vs ws
  | object fs, object gs => fs.length == gs.length && fieldsEqual fs gs
  | bool a, w => numberEquals (.bool a) w
  | int a, w => numberEquals (.int a) w
  | float a, w => numberEquals (.float a) w
  | _, _ => false

def itemsEqual : List Value → List Value → Bool
  | v :: vs, w :: ws => equals v w && itemsEqual vs ws
  | _, _ => true

/-- Whether all of some fields are among others. -/
def fieldsEqual : List (String × Value) → Fields → Bool
  | [], _ => true
  | (name, v) :: rest, others =>
    match others.get? name with
    | some w => equals v w && fieldsEqual rest others
    | none => false

end

end Value
end VoxelCurve
