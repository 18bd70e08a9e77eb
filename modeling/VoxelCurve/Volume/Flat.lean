import VoxelCurve.Volume.Buffer

/-!
Storage as one run of bytes.

Record stands after record, in the linear order of the cells, and nothing stands between them.
A record is reached through its window: the slice that starts at its number times the width of a
record.  Whatever a slice is given is written over the bytes that are there, and work that fails
leaves the bytes as it has made them so far.

A `Buffer` has the same contents without the bytes that nothing was written to.
-/

namespace VoxelCurve

/-- Work on a run of bytes.  A fault does not take back what was written before it. -/
abbrev Access := EStateM BufferFault (List UInt8)

/-- A part of a run of bytes, from a start up to a stop, or up to the end of the bytes. -/
structure Slice where
  start : Nat
  stop : Nat
deriving Repr, DecidableEq

namespace Slice

/-- The bytes of a slice. -/
def read (s : Slice) (bytes : List UInt8) : List UInt8 :=
  (bytes.take s.stop).drop s.start

/-- Other bytes in the place of those of a slice. -/
def write (s : Slice) (bytes new : List UInt8) : List UInt8 :=
  bytes.take s.start ++ new ++ bytes.drop s.stop

def load (s : Slice) : Access (List UInt8) := do
  return s.read (← get)

/-- Gives a slice other bytes.  A single one goes to every place of a longer slice. -/
def assign (s : Slice) (new : List UInt8) : Access Unit := do
  let old ← s.load
  if new.length = old.length then modify fun bytes => s.write bytes new
  else
    match new with
    | [byte] => modify fun bytes => s.write bytes (List.replicate old.length byte)
    | _ => throw .unfitValues

/-- Gives a slice as many other bytes as it has. -/
def fill (s : Slice) (new : List UInt8) : Access Unit := do
  let old ← s.load
  if new.length = old.length then modify fun bytes => s.write bytes new
  else throw (.recordLength new.length old.length)

/-- Gives one place of a slice another byte.  The place is looked at before the byte. -/
def poke (s : Slice) (place value : Value) : Access Unit := do
  let old ← s.load
  match place.index? with
  | none => throw .placeNotInteger
  | some p =>
    match place? old.length p with
    | none => throw (.noByte p old.length)
    | some j =>
      let byte ← ofExcept (value.byte.mapError .byte)
      modify fun bytes => bytes.set (s.start + j) byte

end Slice

/-- The slice of the record with a number. -/
def Kind.window (k : Kind) (i : Nat) : Slice :=
  ⟨i * k.size, i * k.size + k.size⟩

namespace Flat

/-- As many zero bytes as there is to store, if they can be addressed. -/
def zeros (k : Kind) (e : Extent) : Except AllocationFault (List UInt8) :=
  match byteLength? k.size e.sides with
  | none => .error (.overflow e k.size)
  | some n => .ok (List.replicate n.toNat 0)

/-! ## Addresses -/

def index (e : Extent) (x y z : Int) : Access Nat :=
  let c : Cell := ⟨x.toNat, y.toNat, z.toNat⟩
  if (0 ≤ x ∧ 0 ≤ y ∧ 0 ≤ z) ∧ e.Contains c then pure (e.index c)
  else throw (.address (.noCell x y z e))

def checkIndex (e : Extent) (i : Int) : Access Nat :=
  if 0 ≤ i ∧ i.toNat < e.count then pure i.toNat else throw (.address (.noEntry i e.count))

/-! ## Records -/

variable (k : Kind)

/-- The record with a number. -/
def decode (i : Nat) : Access (Record k.size) := do
  let bytes ← (k.window i).load
  ofExcept ((k.read bytes).mapError .window)

/-- Puts a voxel in the place of the record with a number.  Its bytes are counted before any of
them is stored. -/
def encode (i : Nat) (v : Voxel) : Access Unit := do
  let bytes ← ofExcept (v.bytes.mapError .voxel)
  if bytes.length = k.size then (k.window i).assign bytes
  else throw (.voxelLength bytes.length k.size)

variable (e : Extent)

def get (x y z : Int) : Access (Record k.size) := do
  decode k (← index e x y z)

def getEntry (i : Int) : Access (Record k.size) := do
  decode k (← checkIndex e i)

def set (x y z : Int) (v : Voxel) : Access Unit := do
  encode k (← index e x y z) v

def setEntry (i : Int) (v : Voxel) : Access Unit := do
  encode k (← checkIndex e i) v

/-- The window of the record at a cell, through which its bytes can be written. -/
def view (x y z : Int) : Access Slice := do
  return k.window (← index e x y z)

end Flat
end VoxelCurve
