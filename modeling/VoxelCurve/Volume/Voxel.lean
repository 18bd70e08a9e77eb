import VoxelCurve.Value.Number
import VoxelCurve.Volume.Kind

/-!
Voxels before they are stored.

A voxel keeps the values it was given, whatever they are; only when it is stored does each
have to be a byte.  So a color can be made, compared and carried about with channels that
no record could hold.
-/

namespace VoxelCurve

/-- Why a value is no byte. -/
inductive ByteFault where
  | notInteger
  | outOfRange (n : Int)
deriving Repr, DecidableEq

namespace ByteFault

def message : ByteFault → String
  | notInteger => "not an integer"
  | outOfRange n => s!"{n} is no byte"

end ByteFault

/-- The byte that a value is. -/
def Value.byte (v : Value) : Except ByteFault UInt8 :=
  match v.index? with
  | none => .error .notInteger
  | some n => if 0 ≤ n ∧ n ≤ 255 then .ok (UInt8.ofNat n.toNat) else .error (.outOfRange n)

/-- A color as it was given.  Channels left out are zero, and an alpha of zero marks a voxel
as empty. -/
structure Color where
  r : Value := .int 0
  g : Value := .int 0
  b : Value := .int 0
  a : Value := .int 0
deriving Inhabited

namespace Color

def channels (c : Color) : List Value :=
  [c.r, c.g, c.b, c.a]

/-- A color of the first channels, up to four. -/
def ofChannels? : List Value → Option Color
  | [] => some {}
  | [r] => some ⟨r, .int 0, .int 0, .int 0⟩
  | [r, g] => some ⟨r, g, .int 0, .int 0⟩
  | [r, g, b] => some ⟨r, g, b, .int 0⟩
  | [r, g, b, a] => some ⟨r, g, b, a⟩
  | _ => none

def ofInts (r g b a : Int) : Color :=
  ⟨.int r, .int g, .int b, .int a⟩

def ofRecord (r : Rgba) : Color :=
  ofInts r[0].toNat r[1].toNat r[2].toNat r[3].toNat

def isTransparent (c : Color) : Bool :=
  c.a.isZero

/-- The record of a color; its channels are looked at from the first to the last. -/
def record (c : Color) : Except ByteFault Rgba := do
  let r ← c.r.byte
  let g ← c.g.byte
  let b ← c.b.byte
  let a ← c.a.byte
  .ok (Rgba.ofBytes r g b a)

end Color

/-- Something to store in a buffer. -/
inductive Voxel where
  | color (c : Color)
  /-- a palette slot, zero for an empty voxel -/
  | slot (index : Value)
  /-- a record of another kind -/
  | raw (bytes : List UInt8)

/-- The bytes a voxel is stored as. -/
def Voxel.bytes : Voxel → Except ByteFault (List UInt8)
  | color c => c.record.map Vector.toList
  | slot index => index.byte.map ([·])
  | raw bytes => .ok bytes

/-- A window whose length is not the width of the kind that reads it. -/
structure WindowFault where
  kind : String
  expected : Nat
  given : Nat
deriving Repr, DecidableEq

def WindowFault.message (f : WindowFault) : String :=
  s!"{f.kind} expects {f.expected} bytes, got {f.given}"

/-- Reads the record in a window. -/
def Kind.read (k : Kind) (bytes : List UInt8) : Except WindowFault (Record k.size) :=
  match k.record? bytes with
  | some r => .ok r
  | none => .error ⟨k.name, k.size, bytes.length⟩

end VoxelCurve
