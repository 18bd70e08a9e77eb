import VoxelCurve.Volume.Buffer

/-!
Readings of a whole buffer.

The records stand in the linear order of their cells.  They can be listed with the cells,
nested by z, y and x, written as one run of bytes, or counted.
-/

namespace VoxelCurve
namespace Buffer

variable {k : Kind}

/-- All records in their order. -/
def records (b : Buffer k) : List (Record k.size) :=
  (List.finRange b.extent.count).map b.record

/-- Each cell with its record. -/
def enumerate (b : Buffer k) : List (Cell × Record k.size) :=
  b.extent.cells.zip b.records

/-- All bytes, record after record. -/
def bytes (b : Buffer k) : List UInt8 :=
  b.records.flatMap Vector.toList

/-- The record at a cell; there is nothing outside the box. -/
def recordAt (b : Buffer k) (c : Cell) : Record k.size :=
  if h : b.extent.Contains c then b.record ⟨b.extent.index c, Extent.index_lt_count h⟩
  else Record.blank k.size

/-- The records nested by z, y and x. -/
def planes (b : Buffer k) : List (List (List (List UInt8))) :=
  let e := b.extent
  (List.range e.height).map fun z =>
    (List.range e.depth).map fun y =>
      (List.range e.width).map fun x => (b.recordAt ⟨x, y, z⟩).toList

/-- The nested records with their shape, unless that cannot be laid out. -/
def planes? (b : Buffer k) : Option (List Nat × List (List (List (List UInt8)))) :=
  if b.extent.isShapeable k.size then
    some ([b.extent.height, b.extent.depth, b.extent.width, k.size], b.planes)
  else none

/-- The records with a byte other than zero, in their order, each with its address.  A record
like that was written. -/
def filled (b : Buffer k) : List (Fin b.extent.count × Record k.size) :=
  b.written.toList.filter fun r => !r.2.isBlank

/-- What is listed are the records with a byte other than zero. -/
theorem mem_filled {b : Buffer k} {i : Fin b.extent.count} {r : Record k.size} :
    (i, r) ∈ b.filled ↔ b.record i = r ∧ r.isBlank = false := by
  simp only [filled, List.mem_filter, Std.TreeMap.mem_toList_iff_getElem?_eq_some, record,
    Written.record, Std.TreeMap.getD_eq_getD_getElem?, Bool.not_eq_true']
  cases h : b.written[i]? with
  | some w => simp
  | none =>
    constructor
    · intro h
      obtain ⟨h, _⟩ := h
      cases h
    · intro h
      obtain ⟨rfl, blank⟩ := h
      simp [Record.isBlank_blank] at blank

/-- How many records have a byte other than zero. -/
def countNonempty (b : Buffer k) : Nat :=
  b.filled.length

/-- How many records are other than zero at one byte. -/
def countAt (b : Buffer k) (place : Fin k.size) : Nat :=
  b.filled.countP fun r => r.2.get place != 0

/-- Whether two buffers hold the same records in boxes of the same sides. -/
def agrees (b c : Buffer k) : Bool :=
  let contents := fun b : Buffer k => b.filled.map fun r => (r.1.val, r.2)
  b.extent == c.extent && contents b == contents c

/-- How many bytes are other than zero at the places that a value picks in each record, or,
without a value, how many records are not empty. -/
def countWhere (b : Buffer k) (channel : Value) : Except SelectionFault Nat :=
  match channel with
  | .null => .ok b.countNonempty
  | v => do
    let s ← Selection.ofValues 1 [k.size] [v]
    let places ← s.places (← s.picked)
    let channels := places.filterMap fun place => place.head?.bind (place? k.size)
    .ok (channels.foldl (fun n c => n + b.countAt c) 0)

/-- A buffer in a few words. -/
def shown (b : Buffer k) : String :=
  let e := b.extent
  s!"VoxelBuffer(width={e.width}, depth={e.depth}, height={e.height}, voxel_type={k.name})"

end Buffer
end VoxelCurve
