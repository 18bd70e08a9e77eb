import VoxelCurve.Vox.Scan

/-!
Writing models as files.

A file is the signature, the version and one main chunk without content, whose children are
the sides, the voxels and the palette, in this order.
-/

namespace VoxelCurve
namespace Vox

namespace Model

/-- The three sides as the content of a chunk. -/
def sizeBytes (m : Model) : List UInt8 :=
  wordBytes m.width ++ wordBytes m.depth ++ wordBytes m.height

/-- The number of voxels and the voxels as the content of a chunk. -/
def voxelBytes (m : Model) : List UInt8 :=
  wordBytes (UInt32.ofNat m.numVoxels) ++ m.voxels.flatMap Entry.bytes

/-- The bytes of a file. -/
def encode (m : Model) : Except EncodeFault (List UInt8) := do
  let size ← pack Id.size m.sizeBytes []
  let voxels ← pack Id.voxels m.voxelBytes []
  let palette ← pack Id.palette m.palette.bytes []
  let children := size ++ voxels ++ palette
  if children.length > maxWord then .error (.tooManyVoxels m.numVoxels)
  else
    let main ← pack Id.main [] children
    .ok (signature ++ wordBytes m.version ++ main)

/-- The word a value is. -/
def word? (v : Value) : Option UInt32 := do
  let n ← v.index?
  if 0 ≤ n ∧ n ≤ maxWord then some (UInt32.ofNat n.toNat) else none

/-- The file of a model whose sides and version may be anything. -/
def encodeWith (sides : List Value) (voxels : List Entry) (palette : Palette)
    (version : Value) : Except EncodeFault (Model × List UInt8) :=
  match sides.mapM word? with
  | some [width, depth, height] =>
    match word? version with
    | some version => do
      let m : Model := ⟨width, depth, height, voxels, palette, version⟩
      let bytes ← m.encode
      .ok (m, bytes)
    | none => .error .badVersion
  | _ => .error .badSides

end Model

/-- Whether a version is a number in the range of a word. -/
def checkVersion (version : Value) : Except EncodeFault Unit :=
  let inRange := match version.number? with
    | none => none
    | some (.float x) => some (0.0 ≤ x && x ≤ 4294967295.0)
    | some _ => some (Model.word? version).isSome
  match inRange with
  | none => .error .versionNotNumber
  | some true => .ok ()
  | some false => .error (.versionOutOfRange version.printed)

/-- The file of a buffer.  The range of the version is looked at first, and whether it is an
integer when it is written. -/
def encodeAs (version : Value) (k : Kind) (b : Buffer k) : Except EncodeFault (List UInt8) := do
  checkVersion version
  let m ← scan k b
  match Model.word? version with
  | none => .error .badVersion
  | some version => ({ m with version := version } : Model).encode

/-- The file of a buffer with the default version. -/
def encode (k : Kind) (b : Buffer k) : Except EncodeFault (List UInt8) := do
  (← scan k b).encode

end Vox
end VoxelCurve
