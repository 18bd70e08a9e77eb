import Std.Data.TreeMap
import VoxelCurve.Volume.Selection
import VoxelCurve.Volume.Voxel

/-!
Storage for the voxels of a box.

Every cell has a record, empty or not, at its number in the linear order.  Only records that
were written are stored; all others hold zero bytes.  So a box costs as much as is drawn in
it, however large it is, and `record` does not tell what was written from what was not.

A write is first made into an edit, an address together with the record that goes there, and
only then applied: whatever can fail does so before the buffer is touched, so a write that
fails leaves every byte as it was.
-/

namespace VoxelCurve

/-- The records of `size` bytes that were written, by their addresses. -/
abbrev Written (count size : Nat) := Std.TreeMap (Fin count) (Record size)

/-- Records of one kind, one for each cell of a box. -/
structure Buffer (k : Kind) where
  extent : Extent
  written : Written extent.count k.size

/-- What is drawn on: colors. -/
abbrev Canvas := Buffer .rgba

/-- Why storage was refused. -/
inductive AllocationFault where
  | sideNotInteger
  | negativeSide (sides : List Int)
  | kind (fault : KindFault)
  | overflow (extent : Extent) (size : Nat)
deriving Repr, DecidableEq

/-- Why a buffer could not be read or written. -/
inductive BufferFault where
  | address (fault : AddressFault)
  | voxel (fault : ByteFault)
  /-- bytes that are read where no whole record is -/
  | window (fault : WindowFault)
  /-- a voxel with more or fewer bytes than a record -/
  | voxelLength (given expected : Nat)
  /-- bytes put in the place of a record that are more or fewer -/
  | recordLength (given expected : Nat)
  /-- the place of a byte within its record is no integer -/
  | placeNotInteger
  /-- a record has no byte there -/
  | noByte (place : Int) (size : Nat)
  | byte (fault : ByteFault)
  /-- the records cannot be laid out as nested rows -/
  | noLayout
  | selection (fault : SelectionFault)
  /-- an integer put among the nested records is no byte -/
  | overflow (n : Int)
  /-- what was put among the nested records is no number -/
  | number (fault : NumberFault)
  /-- the values put among the nested records are not laid out like their places -/
  | unfitValues
deriving Repr, DecidableEq

namespace AllocationFault

def message : AllocationFault → String
  | sideNotInteger => "a side is no integer"
  | negativeSide sides =>
    s!"Buffer dimensions must be non-negative, got {Value.shownTuple sides}"
  | kind fault => fault.message
  | overflow e size =>
    s!"VoxelBuffer of {e.shown} with {size}-byte voxels overflows the addressable size"

end AllocationFault

namespace BufferFault

def message : BufferFault → String
  | address fault => fault.message
  | voxel fault => fault.message
  | window fault => fault.message
  | voxelLength given expected =>
    s!"Voxel encodes to {given} bytes, buffer expects {expected}"
  | recordLength given expected => s!"{given} bytes do not fill a record of {expected}"
  | placeNotInteger => "the place of a byte is no integer"
  | noByte place size => s!"a record of {size} bytes has none at {place}"
  | byte fault => fault.message
  | noLayout => "the records do not fit a layout"
  | selection fault => fault.message
  | overflow n => s!"{n} is no byte"
  | number fault => fault.message
  | unfitValues => "values of another shape than their places"

end BufferFault

namespace Extent

/-- The box with the given sides. -/
def ofSides (width depth height : Value) : Except AllocationFault Extent :=
  match width.index?, depth.index?, height.index? with
  | some w, some d, some h =>
    if 0 ≤ w ∧ 0 ≤ d ∧ 0 ≤ h then .ok ⟨w.toNat, d.toNat, h.toNat⟩
    else .error (.negativeSide [w, d, h])
  | _, _, _ => .error .sideNotInteger

end Extent

/-- An edit of a box of records: the record that goes to an address. -/
structure Edit (count size : Nat) where
  address : Fin count
  record : Record size

/-- An edit of a single byte: its place in the record at an address, and what goes there. -/
structure ByteEdit (count size : Nat) where
  address : Fin count
  place : Fin size
  byte : UInt8

namespace Written

variable {count size : Nat}

/-- The record at an address. -/
def record (w : Written count size) (i : Fin count) : Record size :=
  w.getD i (Record.blank size)

/-- The records after an edit. -/
def edit (w : Written count size) (e : Edit count size) : Written count size :=
  w.insert e.address e.record

/-- The records after an edit of a byte. -/
def editByte (w : Written count size) (e : ByteEdit count size) : Written count size :=
  w.edit ⟨e.address, (record w e.address).set e.place e.byte⟩

theorem record_empty (i : Fin count) : record (∅ : Written count size) i = Record.blank size :=
  Std.TreeMap.getD_emptyc

theorem record_edit (w : Written count size) (e : Edit count size) (i : Fin count) :
    record (edit w e) i = if e.address = i then e.record else record w i := by
  simp only [record, edit, Std.TreeMap.getD_insert, Std.compare_eq_iff_eq]

end Written

namespace Buffer

variable {k : Kind}

/-- Storage of nothing but zero bytes, if its size is addressable. -/
def allocate (k : Kind) (e : Extent) : Except AllocationFault (Buffer k) :=
  match byteLength? k.size e.sides with
  | none => .error (.overflow e k.size)
  | some _ => .ok ⟨e, ∅⟩

/-- Storage for a kind that still has to be checked, which happens between the check of the
sides and that of the size. -/
def declare (width depth height : Value) (kind : Except KindFault Kind) :
    Except AllocationFault (Sigma Buffer) := do
  let e ← Extent.ofSides width depth height
  match kind with
  | .error fault => .error (.kind fault)
  | .ok k => (allocate k e).map fun b => ⟨k, b⟩

/-- The record at an address. -/
def record (b : Buffer k) (i : Fin b.extent.count) : Record k.size :=
  Written.record b.written i

/-- Puts a record in its place. -/
def apply (b : Buffer k) (e : Edit b.extent.count k.size) : Buffer k :=
  ⟨b.extent, Written.edit b.written e⟩

/-- Puts bytes in their places, one after the other. -/
def applyBytes (b : Buffer k) (edits : List (ByteEdit b.extent.count k.size)) : Buffer k :=
  ⟨b.extent, edits.foldl Written.editByte b.written⟩

theorem record_apply (b : Buffer k) (e : Edit b.extent.count k.size)
    (i : Fin b.extent.count) :
    (b.apply e).record i = if e.address = i then e.record else b.record i :=
  Written.record_edit b.written e i

/-! ## Reading -/

def addressOf (b : Buffer k) (x y z : Int) : Except BufferFault (Fin b.extent.count) :=
  (b.extent.address x y z).mapError .address

def entryOf (b : Buffer k) (i : Int) : Except BufferFault (Fin b.extent.count) :=
  (b.extent.entry i).mapError .address

/-- The number of a cell. -/
def index (b : Buffer k) (x y z : Int) : Except BufferFault Nat :=
  (b.addressOf x y z).map Fin.val

/-- The cell with a number. -/
def coordinate (b : Buffer k) (i : Int) : Except BufferFault Cell :=
  (b.extent.cell? i).mapError .address

def get (b : Buffer k) (x y z : Int) : Except BufferFault (Record k.size) :=
  (b.addressOf x y z).map b.record

def getEntry (b : Buffer k) (i : Int) : Except BufferFault (Record k.size) :=
  (b.entryOf i).map b.record

/-! ## Writing -/

/-- The record a voxel is stored as in records of `size` bytes. -/
def recordOf (size : Nat) (v : Voxel) : Except BufferFault (Record size) := do
  let bytes ← v.bytes.mapError .voxel
  if h : bytes.length = size then .ok ⟨bytes.toArray, by simpa using h⟩
  else .error (.voxelLength bytes.length size)

/-- The edit that stores a voxel at a cell. -/
def edit (b : Buffer k) (x y z : Int) (v : Voxel) :
    Except BufferFault (Edit b.extent.count k.size) := do
  let i ← b.addressOf x y z
  let r ← recordOf k.size v
  .ok ⟨i, r⟩

/-- The edit that stores a voxel at a number. -/
def editEntry (b : Buffer k) (i : Int) (v : Voxel) :
    Except BufferFault (Edit b.extent.count k.size) := do
  let i ← b.entryOf i
  let r ← recordOf k.size v
  .ok ⟨i, r⟩

/-- The edit that puts other bytes in the place of a whole record. -/
def editRecord (b : Buffer k) (x y z : Int) (bytes : List UInt8) :
    Except BufferFault (Edit b.extent.count k.size) := do
  let i ← b.addressOf x y z
  match k.record? bytes with
  | some r => .ok ⟨i, r⟩
  | none => .error (.recordLength bytes.length k.size)

/-- The edit of a single byte of a record.  Its place is looked at before its new value. -/
def editByte (b : Buffer k) (x y z : Int) (place value : Value) :
    Except BufferFault (Edit b.extent.count k.size) := do
  let i ← b.addressOf x y z
  match place.index? with
  | none => .error .placeNotInteger
  | some p =>
    match place? k.size p with
    | none => .error (.noByte p k.size)
    | some j =>
      let v ← value.byte.mapError .byte
      .ok ⟨i, (b.record i).set j v⟩

/-- Stores a voxel at a cell. -/
def set (b : Buffer k) (x y z : Int) (v : Voxel) : Except BufferFault (Buffer k) :=
  (b.edit x y z v).map b.apply

/-- Stores a voxel at a number. -/
def setEntry (b : Buffer k) (i : Int) (v : Voxel) : Except BufferFault (Buffer k) :=
  (b.editEntry i v).map b.apply

end Buffer
end VoxelCurve
