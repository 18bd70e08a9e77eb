import VoxelCurve.Grammar.LSystem
import VoxelCurve.Value.Shown

/-!
Built-in L-systems, each with the settings that fit it to the canvas.
-/

namespace VoxelCurve

/-- A built-in L-system. -/
structure Preset where
  system : LSystem
  /-- the settings it was tuned with -/
  options : Fields
  description : String

/-- No built-in L-system has the name. -/
structure UnknownPreset where
  shown : String
deriving Repr, DecidableEq

/-- Why a value names no built-in L-system. -/
inductive PresetFault where
  | unknown (fault : UnknownPreset)
  /-- a value that can be no name at all -/
  | notName
deriving Repr, DecidableEq

namespace Preset

open VoxelCurve.Symbol

def name (p : Preset) : String :=
  p.system.name.printed

def dragon : Preset where
  system :=
    { name := .text "dragon"
      start := [drawLeft]
      productions := .ofRules
        [⟨drawLeft, [drawLeft, left, drawRight, left]⟩,
         ⟨drawRight, [right, drawLeft, right, drawRight]⟩] }
  options :=
    [("derivation_length", .int 8), ("offset_x", .float 10.0), ("offset_y", .float (-15.0)),
     ("rainbow", .bool true)]
  description := "Dragon curve with a rainbow gradient"

def sierpinskiGasket : Preset where
  system :=
    { name := .text "sierpinski-gasket"
      start := [drawRight]
      productions := .ofRules
        [⟨drawLeft, [drawRight, left, drawLeft, left, drawRight]⟩,
         ⟨drawRight, [drawLeft, right, drawRight, right, drawLeft]⟩] }
  options :=
    [("derivation_length", .int 3), ("step_size", .float 4.0),
     ("angle_increment", .float (3.141592653589793 / 3.0)), ("offset_y", .float (-20.0))]
  description := "Sierpinski gasket built from draw-turn-draw symbols"

def hilbert : Preset where
  system :=
    { name := .text "hilbert"
      start := [subfigureA]
      productions := .ofRules
        [⟨subfigureA, [left, subfigureB, draw, right, subfigureA, draw, subfigureA, right,
            draw, subfigureB, left]⟩,
         ⟨subfigureB, [right, subfigureA, draw, left, subfigureB, draw, subfigureB, left,
            draw, subfigureA, right]⟩] }
  options :=
    [("derivation_length", .int 6), ("size_x", .int 127), ("size_y", .int 127),
     ("offset_x", .float 63.0), ("offset_y", .float (-63.0))]
  description := "Space-filling Hilbert curve"

def kochQuadratic : Preset where
  system :=
    { name := .text "koch-quadratic"
      start := [draw, right, draw, right, draw, right, draw]
      productions := .ofRules
        [⟨draw, [draw, right, draw, left, draw, left, draw, draw, right, draw, right, draw,
            left, draw]⟩] }
  options := [("derivation_length", .int 2), ("step_size", .float 1.0)]
  description := "Quadratic Koch island"

/-- The built-in L-systems, by name. -/
def all : List Preset :=
  [dragon, hilbert, kochQuadratic, sierpinskiGasket]

def names : List String :=
  all.map Preset.name

def find (name : String) : Except UnknownPreset Preset :=
  match all.find? fun p => p.name == name with
  | some p => .ok p
  | none => .error ⟨Text.quoted name⟩

/-- The built-in L-system that a value names.  Lists and objects are no names; any other
value is one, if not of an L-system. -/
def findValue : Value → Except PresetFault Preset
  | .text name => (find name).mapError .unknown
  | .list _ | .object _ => .error .notName
  | v => .error (.unknown ⟨v.shown⟩)

end Preset

namespace UnknownPreset

def message (f : UnknownPreset) : String :=
  s!"Unknown preset {f.shown}; choose from " ++ ", ".intercalate Preset.names

end UnknownPreset

def PresetFault.message : PresetFault → String
  | .unknown fault => fault.message
  | .notName => "a list or an object is no name"

end VoxelCurve
