import VoxelCurve.Value.Shown

/-!
Kinds of voxel records.

Every record of a buffer has the width of its kind, one to four bytes.  Two kinds are built
in; others are declared, and a declaration is checked before anything is stored.
-/

namespace VoxelCurve

/-- The widest record the file format can hold. -/
def maxRecordSize : Nat := 4

/-- What a record holds: a color in four channels, a palette slot, or bytes of a declared
width. -/
inductive Kind where
  | rgba
  | indexed
  | declared (name : String) (size : Nat) (size_pos : 0 < size) (size_le : size ≤ maxRecordSize)

namespace Kind

def name : Kind → String
  | rgba => "Rgba"
  | indexed => "Indexed"
  | declared name _ _ _ => name

/-- The bytes of a record. -/
def size : Kind → Nat
  | rgba => 4
  | indexed => 1
  | declared _ size _ _ => size

theorem size_pos (k : Kind) : 0 < k.size := by
  cases k with
  | rgba => decide
  | indexed => decide
  | declared _ _ h _ => exact h

theorem size_le (k : Kind) : k.size ≤ maxRecordSize := by
  cases k with
  | rgba => decide
  | indexed => decide
  | declared _ _ _ h => exact h

end Kind

/-- A record of `n` bytes. -/
abbrev Record (n : Nat) := Vector UInt8 n

/-- A record of zero bytes. -/
def Record.blank (n : Nat) : Record n :=
  Vector.replicate n 0

/-- Whether a record has nothing but zero bytes. -/
def Record.isBlank {n : Nat} (r : Record n) : Bool :=
  r.all (· == 0)

theorem Record.isBlank_blank (n : Nat) : (Record.blank n).isBlank = true := by
  simp [Record.isBlank, Record.blank]

/-- The four channels of a color. -/
abbrev Rgba := Record 4

/-- The record of four channels. -/
def Rgba.ofBytes (r g b a : UInt8) : Rgba :=
  #v[r, g, b, a]

/-- What a kind says of itself: its width, and whether its records can be read back. -/
structure Declaration where
  name : String
  size? : Option Value
  isReadable : Bool

/-- Why a declaration is no kind. -/
inductive KindFault where
  | noSize (name : String)
  | sizeOutOfRange (size : Int)
  | notReadable (name : String)
deriving Repr, DecidableEq

namespace KindFault

def message : KindFault → String
  | noSize name => s!"{name} does not declare an integer size"
  | sizeOutOfRange size =>
    s!"Voxel size must be between 1 and {maxRecordSize} bytes, got {size}"
  | notReadable name => s!"{name} cannot be read back"

end KindFault

/-- Checks a declaration: a width that is an integer, its range, and that records can be
read, in this order. -/
def Declaration.check (d : Declaration) : Except KindFault Kind :=
  match d.size? with
  | some (.int size) =>
    if h : 0 < size.toNat ∧ size.toNat ≤ maxRecordSize then
      if d.isReadable then .ok (.declared d.name size.toNat h.1 h.2)
      else .error (.notReadable d.name)
    else .error (.sizeOutOfRange size)
  | _ => .error (.noSize d.name)

/-- A record in a window of bytes, which has to be as wide as the kind. -/
def Kind.record? (k : Kind) (bytes : List UInt8) : Option (Record k.size) :=
  if h : bytes.length = k.size then some ⟨bytes.toArray, by simpa using h⟩ else none

end VoxelCurve
