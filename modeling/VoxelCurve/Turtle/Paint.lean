import VoxelCurve.Volume.Voxel
import VoxelCurve.Value.Shown

/-!
Paint: colors as a drawing command is given them.

A paint is a color already, or a value with four parts that are made integers.  Whether
these are bytes is found out only when the color is stored.
-/

namespace VoxelCurve

/-- What a command draws with. -/
inductive Paint where
  | color (c : Color)
  /-- a value that still has to be made a color -/
  | loose (v : Value)

/-- Why a paint is no color. -/
inductive PaintFault where
  /-- a value without parts -/
  | noParts
  | notFour (shown : String)
  | channel (fault : NumberFault)
deriving Repr, DecidableEq

namespace PaintFault

def message : PaintFault → String
  | noParts => "a color has parts"
  | notFour shown => s!"Expected an (r, g, b, a) color, got {shown}"
  | channel fault => fault.message

end PaintFault

namespace Paint

/-- The color of a value with four parts, which are made integers from first to last. -/
def colorOf (v : Value) : Except PaintFault Color :=
  match v.parts? with
  | none => .error .noParts
  | some [r, g, b, a] => do
    let r ← r.toInteger.mapError .channel
    let g ← g.toInteger.mapError .channel
    let b ← b.toInteger.mapError .channel
    let a ← a.toInteger.mapError .channel
    .ok (Color.ofInts r g b a)
  | some _ => .error (.notFour v.shown)

def toColor : Paint → Except PaintFault Color
  | color c => .ok c
  | loose v => colorOf v

/-- The paint of a record. -/
def ofRecord (r : Rgba) : Paint :=
  color (Color.ofRecord r)

end Paint
end VoxelCurve
