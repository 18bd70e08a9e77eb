import VoxelCurve.Decimal.Reading
import VoxelCurve.Decimal.Written
import VoxelCurve.Text.Quoted
import VoxelCurve.Value.Basic

/-!
Values as messages show them.

Nothing and the truth values are words with a capital, texts are quoted, lists stand in
square brackets and objects in braces.  A text on its own may also be shown without its
quotes.  An integer with more digits than are read from any text has no written form, and what
holds one cannot be shown.
-/

namespace VoxelCurve
namespace Value

/-- In messages the floats without digits are in lower case. -/
def floatWords : Decimal.Words :=
  ⟨"nan", "inf"⟩

def shownFloat (x : Float) : String :=
  Decimal.written floatWords x

def shownBool (b : Bool) : String :=
  if b then "True" else "False"

mutual

/-- A value as a message quotes it. -/
def shown : Value → String
  | null => "None"
  | bool b => shownBool b
  | int n => toString n
  | float x => shownFloat x
  | text s => Text.quoted s
  | list items => "[" ++ ", ".intercalate (shownItems items) ++ "]"
  | object fields => "\x7b" ++ ", ".intercalate (shownFields fields) ++ "\x7d"

def shownItems : List Value → List String
  | [] => []
  | v :: rest => shown v :: shownItems rest

def shownFields : List (String × Value) → List String
  | [] => []
  | (name, v) :: rest => (Text.quoted name ++ ": " ++ shown v) :: shownFields rest

end

/-- Whether an integer has no more digits than are read from a text. -/
def isWritable (n : Int) : Bool :=
  n.natAbs < Nat.pow 10 Decimal.maxIntegerDigits

mutual

/-- Whether all integers in a value can be written. -/
def isShowable : Value → Bool
  | int n => isWritable n
  | list items => areShowable items
  | object fields => areShowableFields fields
  | _ => true

def areShowable : List Value → Bool
  | [] => true
  | v :: rest => isShowable v && areShowable rest

def areShowableFields : List (String × Value) → Bool
  | [] => true
  | (_, v) :: rest => isShowable v && areShowableFields rest

end

/-- A value as a message prints it: a text as it stands, all else as it is shown. -/
def printed : Value → String
  | text s => s
  | v => shown v

/-- Parts in parentheses; a single one keeps its comma. -/
def shownGroup : List String → String
  | [s] => "(" ++ s ++ ",)"
  | parts => "(" ++ ", ".intercalate parts ++ ")"

/-- Integers in parentheses, as coordinates and sizes are shown. -/
def shownTuple (ns : List Int) : String :=
  shownGroup (ns.map toString)

end Value
end VoxelCurve
