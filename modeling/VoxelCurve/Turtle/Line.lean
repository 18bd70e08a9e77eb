/-!
Lines of lattice points.

A line is drawn by a pen that knows how far it is off: each move adds to the error what it
steps along one axis, and the sign of the error tells which axes are due.  Both ends belong
to the line.  Every move advances along the axis on which the ends are farther apart, so
there are as many moves as they are apart there.
-/

namespace VoxelCurve

/-- A point of the plane that is drawn on. -/
structure Point where
  x : Int
  y : Int
deriving Repr, DecidableEq, Inhabited

namespace Line

/-- A line still to be drawn: where it ends, its extents and its directions. -/
structure Course where
  stop : Point
  /-- the extent along x -/
  dx : Int
  /-- the extent along y, below zero -/
  dy : Int
  sx : Int
  sy : Int
deriving Repr, DecidableEq

/-- The pen: where it is, and how far the points so far are off the line. -/
structure Pen where
  point : Point
  error : Int
deriving Repr, DecidableEq

def Course.ofEnds (start stop : Point) : Course where
  stop := stop
  dx := (stop.x - start.x).natAbs
  dy := -(stop.y - start.y).natAbs
  sx := if start.x < stop.x then 1 else -1
  sy := if start.y < stop.y then 1 else -1

def Pen.start (c : Course) (p : Point) : Pen :=
  ⟨p, c.dx + c.dy⟩

/-- One move, along one axis or both. -/
def Pen.move (c : Course) (p : Pen) : Pen :=
  let alongX := 2 * p.error ≥ c.dy
  let alongY := 2 * p.error ≤ c.dx
  { point :=
      ⟨if alongX then p.point.x + c.sx else p.point.x,
       if alongY then p.point.y + c.sy else p.point.y⟩
    error := p.error + (if alongX then c.dy else 0) + (if alongY then c.dx else 0) }

/-- The points from the pen to the end of its course, behind those in `drawn`, in at most
`moves` moves. -/
def pointsInto (c : Course) : Nat → Pen → Array Point → Array Point
  | 0, p, drawn => drawn.push p.point
  | moves + 1, p, drawn =>
    if p.point = c.stop then drawn.push p.point
    else pointsInto c moves (p.move c) (drawn.push p.point)

/-- How many moves lead from one point to another. -/
def distance (start stop : Point) : Nat :=
  max (stop.x - start.x).natAbs (stop.y - start.y).natAbs

/-- The points of a line, from one end to the other. -/
def points (start stop : Point) : List Point :=
  let c := Course.ofEnds start stop
  (pointsInto c (distance start stop) (Pen.start c start) #[]).toList

end Line
end VoxelCurve
