import VoxelCurve.Volume.Contents
import VoxelCurve.Vox.Column
import VoxelCurve.Vox.Model

/-!
Scanning a canvas into a model.

The opaque voxels are listed in the linear order of their cells.  Each color gets the next
slot when it is first met there.  No table grows along the way: the colors are numbered as words,
the distinct words are sorted, and then brought into the order of their first places; the slot of
a word is its place in this order.  Where the format has no room for a side, a color or a
coordinate, scanning fails, in this order, and nothing is cut off.
-/

namespace VoxelCurve

/-- The opaque records of a canvas with their numbers, in ascending order. -/
def Buffer.opaqueRecords (b : Canvas) : List (Nat × Rgba) :=
  b.filled.filterMap fun r => if r.2[3] = 0 then none else some (r.1.val, r.2)

namespace Vox

/-- The slots that can have a color. -/
def maxColors : Nat := 255

/-- The greatest coordinate an entry holds. -/
def maxCoordinate : Nat := 255

/-- The word of the bytes of a color, the least significant first. -/
def keyOf (r : Rgba) : UInt32 :=
  .ofNat (r.toList.foldr (fun byte n => byte.toNat + 0x100 * n) 0)

/-- For each place of a column its place in the given order.  Whatever stands in the column at
first is written over. -/
def ranks (order : List Nat) : List Nat :=
  Column.scatter (List.replicate order.length 0) order (List.range order.length)

/-- The rows of four columns, cut to bytes. -/
def stack (x y z slot : List Nat) : List Entry :=
  List.zipWith (fun p q => ⟨.ofNat p.1, .ofNat p.2, .ofNat q.1, .ofNat q.2⟩) (x.zip y) (z.zip slot)

/-- The model of a canvas. -/
def scanCanvas (b : Canvas) : Except EncodeFault Model :=
  let e := b.extent
  if e.width > maxWord ∨ e.depth > maxWord ∨ e.height > maxWord then .error (.tooWide e.shown)
  else if !e.isShapeable 4 then .error .noLayout
  else
    let found := b.opaqueRecords
    let ids := found.map (·.1)
    let colors := found.map (·.2)
    let keys := colors.map keyOf
    let distinct := Column.unique keys
    if distinct.length > maxColors then .error (.tooManyColors distinct.length)
    else
      let first := Column.places keys distinct
      let inverse := Column.places distinct keys
      let order := Column.argsort first
      let z := ids.map (· / (e.width * e.depth))
      let plane := ids.map (· % (e.width * e.depth))
      let y := plane.map (· / e.width)
      let x := plane.map (· % e.width)
      if max (Column.greatest x) (max (Column.greatest y) (Column.greatest z)) > maxCoordinate then
        .error .coordinateTooLarge
      else
        .ok
          { width := UInt32.ofNat e.width
            depth := UInt32.ofNat e.depth
            height := UInt32.ofNat e.height
            voxels := stack x y z ((Column.gather (ranks order) inverse).map (· + 1))
            palette := .ofColors (Column.gather colors (Column.gather first order))
            version := defaultVersion }

/-- The model of a buffer, which has to hold colors. -/
def scan : (k : Kind) → Buffer k → Except EncodeFault Model
  | .rgba, b => scanCanvas b
  | k, _ => .error (.notColors k.name)

end Vox
end VoxelCurve
