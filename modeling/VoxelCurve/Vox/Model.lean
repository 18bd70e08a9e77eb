import Std.Data.TreeSet
import VoxelCurve.Vox.Chunk
import VoxelCurve.Volume.Buffer

/-!
Models: what a file of one model says.

A model lists its voxels one by one, each with the slot of its color.  Slots are counted
from one, because zero stands for no voxel; slot `i` is row `i - 1` of the palette.
-/

namespace VoxelCurve
namespace Vox

/-- A voxel of a model. -/
structure Entry where
  x : UInt8
  y : UInt8
  z : UInt8
  slot : UInt8
deriving Repr, DecidableEq

def Entry.bytes (e : Entry) : List UInt8 :=
  [e.x, e.y, e.z, e.slot]

abbrev Palette := Vector Rgba 256

namespace Palette

/-- The given colors, as far as there are rows, and zero bytes in the rows behind them. -/
def ofColors (colors : List Rgba) : Palette :=
  Vector.ofFn fun i => colors[i.val]?.getD (Vector.replicate 4 0)

def bytes (p : Palette) : List UInt8 :=
  p.toList.flatMap Vector.toList

end Palette

/-- The version that is written unless another is asked for. -/
def defaultVersion : UInt32 := 150

/-- A single model. -/
structure Model where
  width : UInt32
  depth : UInt32
  height : UInt32
  voxels : List Entry
  palette : Palette
  version : UInt32

/-- Values that were met, and the distinct ones of them, the last one first. -/
structure Seen (α : Type) [Ord α] where
  values : Std.TreeSet α
  backwards : List α

/-- Adds a value, unless it was met before. -/
def Seen.add {α : Type} [Ord α] (s : Seen α) (x : α) : Seen α :=
  if s.values.contains x then s else ⟨s.values.insert x, x :: s.backwards⟩

/-- The distinct values of a list in the order in which they first stand in it. -/
def firstSeen {α : Type} [Ord α] (xs : List α) : List α :=
  (xs.foldl Seen.add ⟨∅, []⟩).backwards.reverse

/-- Why a model could not be made a buffer again. -/
inductive RebuildFault where
  | storage (fault : AllocationFault)
  | format (fault : FormatFault)
deriving Repr, DecidableEq

namespace RebuildFault

def message : RebuildFault → String
  | storage fault => fault.message
  | format fault => fault.message

/-- The same fault of a model whose sides are shown as they were given. -/
def withSides (sides : List Value) : RebuildFault → RebuildFault
  | format (.voxelOutside x y z _) =>
    format (.voxelOutside x y z (Value.shownGroup (sides.map Value.shown)))
  | fault => fault

end RebuildFault

/-- Why a value names no color. -/
inductive SlotFault where
  | notNumber
  /-- a number among the slots that is no integer -/
  | notInteger
  | format (fault : FormatFault)
deriving Repr, DecidableEq

def SlotFault.message : SlotFault → String
  | notNumber => "a slot is a number"
  | notInteger => "a slot is an integer"
  | format fault => fault.message

namespace Model

def sides (m : Model) : List Nat :=
  [m.width.toNat, m.depth.toNat, m.height.toNat]

def extent (m : Model) : Extent :=
  ⟨m.width.toNat, m.depth.toNat, m.height.toNat⟩

def numVoxels (m : Model) : Nat :=
  m.voxels.length

/-- How many slots the voxels use. -/
def numColors (m : Model) : Nat :=
  (firstSeen (m.voxels.map Entry.slot)).length

/-- The color in a slot. -/
def color (m : Model) (slot : Int) : Except FormatFault Rgba :=
  if h : 1 ≤ slot ∧ slot ≤ 256 then
    have : (slot - 1).toNat < 256 := by omega
    .ok m.palette[(slot - 1).toNat]
  else .error (.slotOutOfRange (toString slot))

/-- The color in the slot that any value names.  Its range is looked at before whether it is
an integer. -/
def colorOf (m : Model) (slot : Value) : Except SlotFault Rgba :=
  match slot with
  | .int n => (m.color n).mapError .format
  | .bool true => (m.color 1).mapError .format
  | .float x =>
    if 1.0 ≤ x && x ≤ 256.0 then .error .notInteger
    else .error (.format (.slotOutOfRange slot.shown))
  | .bool false => .error (.format (.slotOutOfRange slot.shown))
  | _ => .error .notNumber

/-- Where a voxel goes and with which color. -/
def edit (m : Model) (e : Extent) (v : Entry) : Except FormatFault (Edit e.count 4) :=
  let c : Cell := ⟨v.x.toNat, v.y.toNat, v.z.toNat⟩
  if h : e.Contains c then do
    let color ← m.color v.slot.toNat
    .ok ⟨⟨e.index c, Extent.index_lt_count h⟩, color⟩
  else .error (.voxelOutside c.x c.y c.z e.shown)

/-- Puts voxels in their places, one after the other, so that the last one at a cell stays. -/
def place (m : Model) : List Entry → Canvas → Except FormatFault Canvas
  | [], b => .ok b
  | v :: rest, b =>
    match m.edit b.extent v with
    | .error fault => .error fault
    | .ok edit => place m rest (b.apply edit)

/-- The buffer of a model. -/
def toBuffer (m : Model) : Except RebuildFault Canvas := do
  let b ← (Buffer.allocate .rgba m.extent).mapError .storage
  (m.place m.voxels b).mapError .format

/-- The buffer of a model whose sides were given as some values. -/
def toBufferGiven (m : Model) (sides : List Value) : Except RebuildFault Canvas :=
  m.toBuffer.mapError (·.withSides sides)

end Model
end Vox
end VoxelCurve
