import VoxelCurve.Text.Surrogate

/-!
Values of settings, grammar files and sidecars.

These arrive untyped, and some of them are kept as they came, so they have a type of their
own.  Integers and floats are apart: `1` and `1.0` are written differently and only the
first can be a size.
-/

namespace VoxelCurve

/-- A value of a document.  An object keeps its fields in the order they were first given,
each name once. -/
inductive Value where
  | null
  | bool (b : Bool)
  | int (n : Int)
  | float (x : Float)
  | text (s : String)
  | list (items : List Value)
  | object (fields : List (String × Value))
deriving Inhabited

/-- The named values of an object. -/
abbrev Fields := List (String × Value)

namespace Fields

def get? (fields : Fields) (name : String) : Option Value :=
  fields.lookup name

/-- A field that is already there keeps its place and takes the new value. -/
def set : Fields → String → Value → Fields
  | [], name, v => [(name, v)]
  | (n, w) :: rest, name, v => if n = name then (n, v) :: rest else (n, w) :: set rest name v

/-- The fields of both, those of the second winning. -/
def update (fields other : Fields) : Fields :=
  other.foldl (fun acc f => set acc f.1 f.2) fields

def names (fields : Fields) : List String :=
  fields.map (·.1)

end Fields

namespace Value

/-- The name of a value's type. -/
def typeName : Value → String
  | null => "NoneType"
  | bool _ => "bool"
  | int _ => "int"
  | float _ => "float"
  | text _ => "str"
  | list _ => "list"
  | object _ => "dict"

/-- Whether a value counts as given where only its presence matters: nothing, zero and
whatever is empty do not. -/
def isGiven : Value → Bool
  | null => false
  | bool b => b
  | int n => n != 0
  | float x => x != 0.0
  | text s => !s.isEmpty
  | list items => !items.isEmpty
  | object fields => !fields.isEmpty

/-- The parts of a value that has parts: the items of a list, the characters of a text, the
names of an object's fields. -/
def parts? : Value → Option (List Value)
  | text s => some ((Text.characters s).map text)
  | list items => some items
  | object fields => some (fields.map fun f => text f.1)
  | _ => none

end Value
end VoxelCurve
