import VoxelCurve.Turtle.Line
import VoxelCurve.Value.Number

/-!
Lines between points that are given as any values.

Each end is a value of two parts, and the parts are numbers.  The pen moves as it does
between lattice points, a whole unit along an axis or none, and a coordinate stays as it was
given until it moves.  The line ends where both coordinates equal those of the other end;
where whole units never lead there, there is no line.
-/

namespace VoxelCurve
namespace Line

/-- Why there is no line between two values. -/
inductive LineFault where
  /-- an end that has no parts -/
  | noParts
  /-- an end of more or fewer parts than two -/
  | notTwo
  | number (fault : NumberFault)
  /-- the other end is never met -/
  | endless
deriving Repr, DecidableEq

namespace LineFault

def message : LineFault → String
  | noParts => "the end of a line has no parts"
  | notTwo => "the end of a line has two parts"
  | number fault => fault.message
  | endless => "the line does not end"

end LineFault

/-- The two parts of an end. -/
def endOf (v : Value) : Except LineFault (Value × Value) :=
  match v.parts? with
  | none => .error .noParts
  | some [x, y] => .ok (x, y)
  | some _ => .error .notTwo

def numberOf (v : Value) : Except LineFault Number :=
  match v.number? with
  | some n => .ok n
  | none => .error (.number .notNumber)

/-- A point of any numbers. -/
structure Spot where
  x : Number
  y : Number

/-- What a line of any numbers goes by, as between lattice points. -/
structure Track where
  stop : Spot
  dx : Number
  dy : Number
  sx : Number
  sy : Number

/-- The next spot and error. -/
def Track.move (t : Track) (p : Spot) (error : Number) : Except NumberFault (Spot × Number) := do
  let twice ← (Number.int 2).times error
  let (x, error) ←
    if t.dy.isAtMost twice then
      let moved ← error.plus t.dy
      pure (← p.x.plus t.sx, moved)
    else pure (p.x, error)
  if twice.isAtMost t.dx then
    let moved ← error.plus t.dx
    .ok (⟨x, ← p.y.plus t.sy⟩, moved)
  else .ok (⟨x, p.y⟩, error)

/-- The spots up to the end of a track, in at most `moves` moves. -/
def Track.spots (t : Track) : Nat → Spot → Number → Except LineFault (List Spot)
  | moves, p, error =>
    if p.x.equals t.stop.x && p.y.equals t.stop.y then .ok [p]
    else
      match moves with
      | 0 => .error .endless
      | moves + 1 =>
        match t.move p error with
        | .error fault => .error (.number fault)
        | .ok (next, error) => (t.spots moves next error).map (p :: ·)

/-- The track between two spots, with the error that it starts with. -/
def Track.between (start stop : Spot) : Except NumberFault (Track × Number) := do
  let dx ← stop.x.minus start.x
  let dy ← stop.y.minus start.y
  let direction := fun (m n : Number) => Number.int (if m.isBelow n then 1 else -1)
  let track : Track :=
    ⟨stop, dx.magnitude, dy.magnitude.opposite, direction start.x stop.x, direction start.y stop.y⟩
  .ok (track, ← track.dx.plus track.dy)

/-- The spots of a line between spots. -/
def spots (start stop : Spot) : Except LineFault (List Spot) :=
  match Track.between start stop with
  | .error fault => .error (.number fault)
  | .ok (track, error) =>
    match track.dx.wholes?, track.dy.wholes? with
    | some m, some n => track.spots (max m n) start error
    | _, _ => .error .endless

/-- The points of a line between two values. -/
def pointsOf (start stop : Value) : Except LineFault (List (Value × Value)) := do
  let (x, y) ← endOf start
  let (u, v) ← endOf stop
  match x, y, u, v with
  | .int x, .int y, .int u, .int v =>
    .ok ((points ⟨x, y⟩ ⟨u, v⟩).map fun p => (.int p.x, .int p.y))
  | _, _, _, _ => do
    let u ← numberOf u
    let x ← numberOf x
    let v ← numberOf v
    let y ← numberOf y
    let spots ← spots ⟨x, y⟩ ⟨u, v⟩
    .ok (spots.map fun p => (p.x.toValue, p.y.toValue))

end Line
end VoxelCurve
