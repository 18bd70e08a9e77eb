import VoxelCurve.Vox.Model

/-!
Reading files of a single model.

The chunks of the file are walked to the end before the first of them is looked at.  Then
the children of the main chunk are read one after the other, and chunks with other
identifiers are passed over.  Every failure is a fault of the format.
-/

namespace VoxelCurve
namespace Vox

/-- What the children of the main chunk have said so far. -/
structure Parts where
  sides? : Option (UInt32 × UInt32 × UInt32) := none
  voxels? : Option (List Entry) := none
  palette? : Option Palette := none

def readSides? (bytes : List UInt8) : Option (UInt32 × UInt32 × UInt32) := do
  let (width, bytes) ← readWord? bytes
  let (depth, bytes) ← readWord? bytes
  let (height, _) ← readWord? bytes
  some (width, depth, height)

/-- The number of voxels, and so many of them. -/
def readVoxels (total : Nat) (w : Window) : Except FormatFault (List Entry) :=
  match readWord? w.bytes with
  | none => .error (.truncated w.offset 4 total)
  | some (count, bytes) =>
    match readQuads? Entry.mk count.toNat bytes [] with
    | none => .error (.fewVoxels count.toNat)
    | some voxels => .ok voxels

def readPalette? (bytes : List UInt8) : Option Palette := do
  let colors ← readQuads? Rgba.ofBytes 256 bytes []
  if h : colors.length = 256 then some ⟨colors.toArray, by simpa using h⟩ else none

namespace Parts

/-- Reads a child of the main chunk. -/
def add (total : Nat) (p : Parts) (w : Window) : Except FormatFault Parts :=
  if w.id = Id.size then
    if p.sides?.isSome then .error .severalModels
    else
      match readSides? w.bytes with
      | none => .error (.truncated w.offset 12 total)
      | some sides => .ok { p with sides? := some sides }
  else if w.id = Id.voxels then do
    let voxels ← readVoxels total w
    .ok { p with voxels? := some voxels }
  else if w.id = Id.palette then
    match readPalette? w.bytes with
    | none => .error .shortPalette
    | some palette => .ok { p with palette? := some palette }
  else .ok p

/-- Reads the windows of a walk, and then reports what ended it. -/
def addAll (total : Nat) (p : Parts) (w : Walk) : Except FormatFault Parts := do
  let p ← w.windows.foldlM (add total) p
  match w.fault? with
  | some fault => .error fault
  | none => .ok p

def model (p : Parts) (version : UInt32) : Except FormatFault Model :=
  match p.sides?, p.voxels? with
  | some (width, depth, height), some voxels =>
    match p.palette? with
    | some palette => .ok ⟨width, depth, height, voxels, palette, version⟩
    | none => .error .noPalette
  | _, _ => .error .noModel

end Parts

/-- The model in the children of the main chunk. -/
def decodeMain (version : UInt32) (total : Nat) (main : Window) : Except FormatFault Model := do
  let children := walk total main.stop main.childrenOffset (main.bytes.drop main.contentSize)
  let parts ← ({} : Parts).addAll total children
  parts.model version

/-- The model in a file. -/
def decode (bytes : List UInt8) : Except FormatFault Model := do
  let total := bytes.length
  if bytes.take 4 = signature then
    match readWord? (bytes.drop 4) with
    | none => .error (.truncated 4 4 total)
    | some (version, rest) =>
      let top := walk total total 8 rest
      match top.fault?, top.windows with
      | some fault, _ => .error fault
      | none, [] => .error .noMain
      | none, main :: _ =>
        if main.id = Id.main then decodeMain version total main else .error .noMain
  else .error (.badSignature (bytes.take 4))

end Vox
end VoxelCurve
