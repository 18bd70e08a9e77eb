import VoxelCurve.Text.Quoted
import VoxelCurve.Value.Shown
import VoxelCurve.Vox.Word

/-!
Chunks: an identifier of four bytes, the sizes of content and children, and both of these.

Packing writes one chunk.  Walking goes through the chunks that lie behind one another and
shows a window for each; a window keeps the file from the start of its content on, because
what a chunk holds is read from there.  A walk stops at the first place where no chunk fits,
and still shows the windows before it.
-/

namespace VoxelCurve
namespace Vox

/-- Why bytes are no single-model file. -/
inductive FormatFault where
  | badSignature (found : List UInt8)
  /-- fewer than `wanted` bytes are left at a place -/
  | truncated (offset wanted total : Nat)
  | pastParent (id : List UInt8) (offset : Nat)
  | noMain
  | severalModels
  | fewVoxels (count : Nat)
  | shortPalette
  | noModel
  | noPalette
  | slotOutOfRange (shown : String)
  | voxelOutside (x y z : Nat) (shownSides : String)
deriving Repr, DecidableEq

/-- Why something cannot be written. -/
inductive EncodeFault where
  | badId (id : List UInt8)
  /-- a size of a chunk that no word holds -/
  | chunkTooLong
  | tooManyVoxels (count : Nat)
  /-- a side of the model that is no word, or sides other than three -/
  | badSides
  /-- a version that is a number but no integer -/
  | badVersion
  | versionNotNumber
  | versionOutOfRange (shown : String)
  /-- records of a kind that holds no colors -/
  | notColors (kind : String)
  | tooWide (shown : String)
  /-- an empty box whose sides do not fit a layout -/
  | noLayout
  | tooManyColors (count : Nat)
  | coordinateTooLarge
deriving Repr, DecidableEq

/-- The first bytes of every file. -/
def signature : List UInt8 := [0x56, 0x4F, 0x58, 0x20]

namespace Id

def main : List UInt8 := [0x4D, 0x41, 0x49, 0x4E]

def size : List UInt8 := [0x53, 0x49, 0x5A, 0x45]

def voxels : List UInt8 := [0x58, 0x59, 0x5A, 0x49]

def palette : List UInt8 := [0x52, 0x47, 0x42, 0x41]

end Id

/-- A chunk: its header, its content and its children, which are chunks packed before. -/
def pack (id content children : List UInt8) : Except EncodeFault (List UInt8) :=
  if id.length ≠ 4 then .error (.badId id)
  else if content.length > maxWord ∨ children.length > maxWord then .error .chunkTooLong
  else
    .ok (id ++ wordBytes (UInt32.ofNat content.length) ++
      wordBytes (UInt32.ofNat children.length) ++ content ++ children)

/-- The bytes of a header. -/
def headerSize : Nat := 12

/-- A header, and what follows it. -/
structure Header where
  id : List UInt8
  contentSize : UInt32
  childrenSize : UInt32
  rest : List UInt8

def readHeader? : List UInt8 → Option Header
  | a :: b :: c :: d :: s => do
    let (contentSize, s) ← readWord? s
    let (childrenSize, rest) ← readWord? s
    some ⟨[a, b, c, d], contentSize, childrenSize, rest⟩
  | _ => none

theorem length_of_readHeader? {s : List UInt8} {h : Header} (hs : readHeader? s = some h) :
    s.length = h.rest.length + headerSize := by
  unfold readHeader? at hs
  split at hs
  · simp only [Option.bind_eq_bind, Option.bind_eq_some_iff, Option.some.injEq] at hs
    obtain ⟨⟨w, s'⟩, h₁, ⟨w', s''⟩, h₂, rfl⟩ := hs
    have h₁ := length_of_readWord? h₁
    have h₂ := length_of_readWord? h₂
    simp only [List.length_cons, headerSize, h₁] at *
    omega
  · simp at hs

/-- A chunk in its place. -/
structure Window where
  id : List UInt8
  /-- where the content starts -/
  offset : Nat
  contentSize : Nat
  childrenSize : Nat
  /-- the file from the start of the content on -/
  bytes : List UInt8

namespace Window

/-- Where the children start. -/
def childrenOffset (w : Window) : Nat :=
  w.offset + w.contentSize

/-- Where the chunk ends. -/
def stop (w : Window) : Nat :=
  w.childrenOffset + w.childrenSize

end Window

/-- The chunks that were found, and what ended the search if it was not the end. -/
structure Walk where
  windows : List Window
  fault? : Option FormatFault

/-- Walks through the chunks from `offset` to `stop`, where `bytes` is the file from `offset`
on and `total` its whole length. -/
def walk (total stop offset : Nat) (bytes : List UInt8) : Walk :=
  if offset < stop then
    match _h : readHeader? bytes with
    | none => ⟨[], some (.truncated (offset + 4) 8 total)⟩
    | some header =>
      let window : Window :=
        ⟨header.id, offset + headerSize, header.contentSize.toNat, header.childrenSize.toNat,
          header.rest⟩
      if window.stop > stop then ⟨[], some (.pastParent header.id offset)⟩
      else
        let more := walk total stop window.stop
          (header.rest.drop (header.contentSize.toNat + header.childrenSize.toNat))
        ⟨window :: more.windows, more.fault?⟩
  else ⟨[], none⟩
termination_by bytes.length
decreasing_by
  have := length_of_readHeader? _h
  simp only [List.length_drop, headerSize] at *
  omega

namespace FormatFault

open Text (quotedBytes)

def message : FormatFault → String
  | badSignature found => s!"Bad signature {quotedBytes found}, expected {quotedBytes signature}"
  | truncated offset wanted total =>
    s!"Truncated .vox data at byte {offset}: unpack_from requires a buffer of at least " ++
      s!"{offset + wanted} bytes for unpacking {wanted} bytes at offset {offset} " ++
      s!"(actual buffer size is {total})"
  | pastParent id offset => s!"Chunk {quotedBytes id} at byte {offset} runs past its parent"
  | noMain => "Missing MAIN chunk"
  | severalModels => "Multiple models are not supported"
  | fewVoxels count => s!"XYZI declares {count} voxels but data is truncated"
  | shortPalette => "RGBA chunk is truncated"
  | noModel => "Missing SIZE or XYZI chunk"
  | noPalette => "Missing RGBA chunk; the default palette is not supported"
  | slotOutOfRange shown => s!"Palette index {shown} out of range 1..256"
  | voxelOutside x y z shownSides =>
    s!"Voxel {Value.shownTuple [x, y, z]} outside model size {shownSides}"

end FormatFault

namespace EncodeFault

def message : EncodeFault → String
  | badId id => s!"Chunk id must be 4 bytes, got {Text.quotedBytes id}"
  | chunkTooLong => "a chunk is too long"
  | tooManyVoxels count => s!"{count} voxels exceed the u32 chunk size limit"
  | badSides => "the sides are not three words"
  | badVersion => "the version is no integer"
  | versionNotNumber => "the version is no number"
  | versionOutOfRange shown => s!"Version {shown} does not fit in a u32"
  | notColors kind => s!"Only Rgba buffers can be encoded, got {kind}"
  | tooWide shown => s!"Dimensions {shown} exceed u32 range"
  | noLayout => "the sides do not fit a layout"
  | tooManyColors count => s!"{count} distinct colors exceed the 255-color palette"
  | coordinateTooLarge => "Voxel coordinates above 255 cannot be stored in XYZI records"

end EncodeFault
end Vox
end VoxelCurve
