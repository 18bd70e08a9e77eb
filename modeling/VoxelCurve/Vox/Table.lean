import VoxelCurve.Volume.Assignment
import VoxelCurve.Vox.Model

/-!
Voxels and palettes that are given as nested values.

The values of voxels are made bytes first, however they are nested, and four bytes after
another are a voxel.  The rows of a palette are put in their places one by one, each as a
value among the four bytes of a color.
-/

namespace VoxelCurve
namespace Vox

/-- The voxels that nested values stand for. -/
def Entry.ofNested (v : Value) : Except BufferFault (List Entry) := do
  let (_, bytes) ← Assignment.laidOut v
  match readQuads? Entry.mk (bytes.length / 4) bytes [] with
  | some voxels => if bytes.length % 4 = 0 then .ok voxels else .error .unfitValues
  | none => .error .unfitValues

namespace Palette

/-- The color that a row stands for. -/
def colorOfRow (row : Value) : Except BufferFault Rgba :=
  match Assignment.bytesFor [4] row with
  | ⟨_, some fault⟩ => .error fault
  | ⟨[r, g, b, a], none⟩ => .ok (Rgba.ofBytes r g b a)
  | ⟨_, none⟩ => .error .unfitValues

/-- The colors of rows, for as many of which there is room. -/
def colorsOfRows : Nat → List Value → Except BufferFault (List Rgba)
  | _, [] => .ok []
  | 0, _ :: _ => .error (.selection .outside)
  | room + 1, row :: rest => do
    let color ← colorOfRow row
    .ok (color :: (← colorsOfRows room rest))

/-- The palette whose first rows are given. -/
def ofRows (rows : List Value) : Except BufferFault Palette :=
  (colorsOfRows 256 rows).map ofColors

end Palette
end Vox
end VoxelCurve
