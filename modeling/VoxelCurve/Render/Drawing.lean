import VoxelCurve.Grammar.LSystem
import VoxelCurve.Render.Settings
import VoxelCurve.Turtle.Basic
import VoxelCurve.Vox.Chunk

/-!
Drawing a sentence.

The turtle starts in the middle of the canvas, moved by the offset, and looks north.  Each
command then moves, turns or draws.  With the rainbow on, every command that can draw goes
one color further along the ramp, up to its end, where it stays.
-/

namespace VoxelCurve

/-- Why a drawing could not be made or saved. -/
inductive RenderFault where
  | canvas (fault : AllocationFault)
  | turtle (fault : TurtleFault)
  | encode (fault : Vox.EncodeFault)
  /-- a path without a name, whose suffix cannot be changed -/
  | noName (path : String)
  /-- a number of generations that no name of a file can hold -/
  | length (fault : NumberFault)
deriving Repr, DecidableEq

namespace RenderFault

def message : RenderFault → String
  | canvas fault => fault.message
  | turtle fault => fault.message
  | encode fault => fault.message
  | noName path => s!"{path} has an empty name"
  | length fault => fault.message

end RenderFault

/-- How many colors the ramp of a drawing has. -/
def rampLength : Nat := 250

namespace Settings

def distance (s : Settings) : Value :=
  s.stepSize.val.toValue

def angle (s : Settings) : Value :=
  s.angleIncrement.val.toValue

/-- A right angle. -/
def quarterTurn : Value :=
  .float (3.141592653589793 / 2.0)

def half (side : Side) : Value :=
  .float (Float.ofNat side.val / 2.0)

/-- Takes a turtle from the corner of the canvas to where drawing starts. -/
def approach (s : Settings) (t : Turtle) : Outcome :=
  (((((((t.step (half s.sizeX)).andThen
    (·.left quarterTurn)).andThen
    (·.step (half s.sizeY))).andThen
    (·.step s.offsetY.val.toValue)).andThen
    (·.right quarterTurn)).andThen
    (·.step s.offsetX.val.toValue)).andThen
    (·.left quarterTurn))

/-- The turtle of a drawing, on a new canvas. -/
def turtle (s : Settings) (compass : Compass) : Except RenderFault Turtle :=
  match Turtle.create compass (.int s.sizeX.val) (.int s.sizeY.val) (.int s.sizeZ.val) with
  | .error fault => .error (.canvas fault)
  | .ok t =>
    match s.approach t with
    | ⟨some fault, _⟩ => .error (.turtle fault)
    | ⟨none, t⟩ => .ok t

/-- Draws with a paint, or with the turtle's own color. -/
def draw (s : Settings) (paint? : Option Paint) (t : Turtle) : Outcome :=
  match paint? with
  | none => t.draw s.distance
  | some paint => t.drawWith s.distance paint

/-- Carries out one command. -/
def interpret (s : Settings) (c : Symbol) (paint? : Option Paint) (t : Turtle) : Outcome :=
  match c with
  | .step => t.step s.distance
  | .draw => s.draw paint? t
  | .left => t.left s.angle
  | .right => t.right s.angle
  | .drawLeft => ((s.draw paint? t).andThen (·.left s.angle)).andThen (s.draw paint?)
  | .drawRight => ((s.draw paint? t).andThen (·.right s.angle)).andThen (s.draw paint?)
  | .subfigureA | .subfigureB => ⟨none, t⟩

/-- The colors to draw with, if the rainbow is on. -/
def ramp? (s : Settings) : Option (Array Rgba) :=
  if s.rainbow.isGiven then some (Ramp.rainbow rampLength).toArray else none

/-- The place on the ramp after a command. -/
def advance (place : Nat) (c : Symbol) : Nat :=
  if c.onlyMoves then place else min (place + 1) (rampLength - 1)

/-- The paint at a place on the ramp. -/
def paintAt (ramp? : Option (Array Rgba)) (place : Nat) : Option Paint :=
  ramp?.bind fun ramp => ramp[place]?.map Paint.ofRecord

/-- Carries out commands in order, up to the first that fails. -/
def interpretAll (s : Settings) (ramp? : Option (Array Rgba)) :
    Nat → Sentence → Turtle → Outcome
  | _, [], t => ⟨none, t⟩
  | place, c :: rest, t =>
    let place := advance place c
    match s.interpret c (paintAt ramp? place) t with
    | ⟨none, t⟩ => interpretAll s ramp? place rest t
    | failed => failed

end Settings
end VoxelCurve
