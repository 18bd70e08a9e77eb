import VoxelCurve.Color.Ramp
import VoxelCurve.Machine
import VoxelCurve.Turtle.Line
import VoxelCurve.Turtle.Paint
import VoxelCurve.Volume.Buffer

/-!
The turtle: a place, a heading and a color, above the lowest plane of a canvas.

A command has an outcome, what went wrong, if anything did, and the turtle after it.  A
drawing command first finds all points of its line and all colors for them, and changes
nothing if that fails.  Then the turtle is at the far end, and the points are painted one
after the other up to the first that cannot be.
-/

namespace VoxelCurve

/-- Why a command failed. -/
inductive TurtleFault where
  /-- an infinite heading points nowhere -/
  | noDirection
  | distance (fault : NumberFault)
  | angle (fault : NumberFault)
  | paint (fault : PaintFault)
  | fewColors (colors points : Nat)
  | ramp (fault : RampFault)
  | canvas (fault : BufferFault)
deriving Repr, DecidableEq

namespace TurtleFault

def message : TurtleFault → String
  | noDirection => "an infinite heading has no direction"
  | distance fault => fault.message
  | angle fault => fault.message
  | paint fault => fault.message
  | fewColors colors points =>
    s!"Gradient has {colors} colors but the line has {points} points"
  | ramp fault => fault.message
  | canvas fault => fault.message

end TurtleFault

/-- The heading is in radians, zero to the east and growing counter-clockwise. -/
structure Turtle where
  x : Int
  y : Int
  heading : Float
  color : Color
  canvas : Canvas
  compass : Compass

/-- What became of a command. -/
structure Outcome where
  fault? : Option TurtleFault
  turtle : Turtle

namespace Outcome

/-- Goes on with another command unless one has failed. -/
def andThen (o : Outcome) (next : Turtle → Outcome) : Outcome :=
  match o with
  | ⟨none, t⟩ => next t
  | failed => failed

end Outcome

namespace Turtle

/-- Opaque black. -/
def black : Color :=
  Color.ofInts 0 0 0 255

/-- A turtle at the origin that looks east. -/
def onCanvas (compass : Compass) (canvas : Canvas) : Turtle :=
  ⟨0, 0, 0.0, black, canvas, compass⟩

/-- A turtle on a new canvas. -/
def create (compass : Compass) (width depth height : Value) : Except AllocationFault Turtle := do
  let e ← Extent.ofSides width depth height
  (Buffer.allocate .rgba e).map (onCanvas compass)

def position (t : Turtle) : Point :=
  ⟨t.x, t.y⟩

def moveTo (t : Turtle) (p : Point) : Turtle :=
  { t with x := p.x, y := p.y }

/-- How far along an axis a distance leads: its part there without the digits after the
point. -/
def part (distance along : Float) : Except TurtleFault Int :=
  (wholePart (distance * along)).mapError .distance

/-- The point that a distance along the heading leads to. -/
def destination (t : Turtle) (distance : Value) : Except TurtleFault Point := do
  if t.heading.isInf then .error .noDirection
  else
    let d ← distance.toFloat.mapError .distance
    let dx ← part d (t.compass.cosine t.heading)
    let dy ← part d (t.compass.sine t.heading)
    .ok ⟨t.x + dx, t.y + dy⟩

/-- The points of the line that a distance along the heading draws. -/
def trace (t : Turtle) (distance : Value) : Except TurtleFault (List Point) := do
  let stop ← t.destination distance
  .ok (Line.points t.position stop)

/-- The edit that gives a point of the lowest plane a color, which has to be encodable
before the point has to be on the canvas. -/
def pointEdit (canvas : Canvas) (p : Point) (c : Color) :
    Except BufferFault (Edit canvas.extent.count 4) := do
  let r ← c.record.mapError .voxel
  let i ← canvas.addressOf p.x p.y 0
  .ok ⟨i, r⟩

/-- Paints points in order up to the first that cannot be painted. -/
def paintPoints : List (Point × Color) → Canvas → Option BufferFault × Canvas
  | [], canvas => (none, canvas)
  | (p, c) :: rest, canvas =>
    match pointEdit canvas p c with
    | .error fault => (some fault, canvas)
    | .ok edit => paintPoints rest (canvas.apply edit)

/-- Goes to the last of some points and paints each with its own color. -/
def paint (t : Turtle) (points : List Point) (colors : List Color) : Outcome :=
  match t with
  | ⟨x, y, heading, color, canvas, compass⟩ =>
    let stop := points.getLast?.getD ⟨x, y⟩
    let (fault?, canvas) := paintPoints (points.zip colors) canvas
    ⟨fault?.map .canvas, ⟨stop.x, stop.y, heading, color, canvas, compass⟩⟩

/-- Moves without drawing. -/
def step (t : Turtle) (distance : Value) : Outcome :=
  match t.destination distance with
  | .error fault => ⟨some fault, t⟩
  | .ok p => ⟨none, t.moveTo p⟩

/-- Draws with one paint. -/
def drawWith (t : Turtle) (distance : Value) (paint : Paint) : Outcome :=
  match t.trace distance with
  | .error fault => ⟨some fault, t⟩
  | .ok points =>
    match paint.toColor with
    | .error fault => ⟨some (.paint fault), t⟩
    | .ok c => t.paint points (List.replicate points.length c)

/-- Draws with the turtle's own color. -/
def draw (t : Turtle) (distance : Value) : Outcome :=
  t.drawWith distance (.color t.color)

/-- Draws each point with a paint of its own.  Paints that are left over are not looked
at. -/
def drawGradient (t : Turtle) (distance : Value) (paints : List Paint) : Outcome :=
  match t.trace distance with
  | .error fault => ⟨some fault, t⟩
  | .ok points =>
    if paints.length < points.length then
      ⟨some (.fewColors paints.length points.length), t⟩
    else
      match (paints.take points.length).mapM Paint.toColor with
      | .error fault => ⟨some (.paint fault), t⟩
      | .ok colors => t.paint points colors

/-- Draws with as many colors of the rainbow as are asked for. -/
def drawRainbow (t : Turtle) (distance n : Value) : Outcome :=
  match Ramp.rainbowOf n with
  | .error fault => ⟨some (.ramp fault), t⟩
  | .ok colors => t.drawGradient distance (colors.map Paint.ofRecord)

/-- Turns counter-clockwise. -/
def left (t : Turtle) (angle : Value) : Outcome :=
  match angle.toFloat with
  | .error fault => ⟨some (.angle fault), t⟩
  | .ok a => ⟨none, { t with heading := t.heading + a }⟩

/-- Turns clockwise. -/
def right (t : Turtle) (angle : Value) : Outcome :=
  match angle.toFloat with
  | .error fault => ⟨some (.angle fault), t⟩
  | .ok a => ⟨none, { t with heading := t.heading - a }⟩

def setColor (t : Turtle) (paint : Paint) : Outcome :=
  match paint.toColor with
  | .error fault => ⟨some (.paint fault), t⟩
  | .ok c => ⟨none, { t with color := c }⟩

end Turtle
end VoxelCurve
