import VoxelCurve.Value.Number
import VoxelCurve.Value.Shown

/-!
Boxes of cells and their linear order.

A cell is counted along x first, then y, then z, so the cells of a box are numbered without
a gap.  An address is such a number below the count of the cells, and a cell outside the box
has none.
-/

namespace VoxelCurve

/-- The greatest number of bytes, and of entries along one side, that storage can have. -/
def addressable : Nat := 0x7FFFFFFFFFFFFFFF

/-- A cell of a box: x to the right, y away from the viewer, z up. -/
structure Cell where
  x : Nat
  y : Nat
  z : Nat
deriving Repr, DecidableEq

/-- The sides of a box along x, y and z. -/
structure Extent where
  width : Nat
  depth : Nat
  height : Nat
deriving Repr, DecidableEq

/-- Why a cell or a number has no address. -/
inductive AddressFault where
  | noCell (x y z : Int) (extent : Extent)
  | noEntry (number : Int) (count : Nat)
deriving Repr, DecidableEq

namespace Extent

/-- How many cells there are. -/
def count (e : Extent) : Nat :=
  e.width * e.depth * e.height

def sides (e : Extent) : List Int :=
  [e.width, e.depth, e.height]

def shown (e : Extent) : String :=
  Value.shownTuple e.sides

def Contains (e : Extent) (c : Cell) : Prop :=
  c.x < e.width ∧ c.y < e.depth ∧ c.z < e.height

instance (e : Extent) (c : Cell) : Decidable (e.Contains c) :=
  inferInstanceAs (Decidable (_ ∧ _ ∧ _))

/-- The number of a cell in the linear order. -/
def index (e : Extent) (c : Cell) : Nat :=
  c.x + c.y * e.width + c.z * (e.width * e.depth)

/-- A row before the last leaves room for a whole row more. -/
theorem add_mul_lt {i n k m : Nat} (hi : i < n) (hk : k < m) : i + k * n < n * m := by
  have : (k + 1) * n ≤ m * n := Nat.mul_le_mul_right n hk
  rw [Nat.succ_mul] at this
  rw [Nat.mul_comm n m]
  omega

theorem index_lt_count {e : Extent} {c : Cell} (h : e.Contains c) : e.index c < e.count :=
  add_mul_lt (add_mul_lt h.1 h.2.1) h.2.2

/-- The cell with a number in the linear order. -/
def cell (e : Extent) (i : Nat) : Cell :=
  let plane := i % (e.width * e.depth)
  ⟨plane % e.width, plane / e.width, i / (e.width * e.depth)⟩

/-- All cells in the linear order. -/
def cells (e : Extent) : List Cell :=
  (List.range e.height).flatMap fun z =>
    (List.range e.depth).flatMap fun y =>
      (List.range e.width).map fun x => ⟨x, y, z⟩

/-- The address of a cell given by any three coordinates. -/
def address (e : Extent) (x y z : Int) : Except AddressFault (Fin e.count) :=
  let c : Cell := ⟨x.toNat, y.toNat, z.toNat⟩
  if h : (0 ≤ x ∧ 0 ≤ y ∧ 0 ≤ z) ∧ e.Contains c then .ok ⟨e.index c, index_lt_count h.2⟩
  else .error (.noCell x y z e)

/-- The address of any number. -/
def entry (e : Extent) (i : Int) : Except AddressFault (Fin e.count) :=
  if h : 0 ≤ i ∧ i.toNat < e.count then .ok ⟨i.toNat, h.2⟩ else .error (.noEntry i e.count)

/-- The cell with any number. -/
def cell? (e : Extent) (i : Int) : Except AddressFault Cell :=
  (e.entry i).map fun i => e.cell i

/-- Whether a box can be laid out as nested rows of records of a size.  A side of zero
leaves nothing to store, yet the other sides still have to fit. -/
def isShapeable (e : Extent) (size : Nat) : Bool :=
  ([e.height, e.depth, e.width, size].filter (· != 0)).foldl (· * ·) 1 ≤ addressable

end Extent

namespace AddressFault

def message : AddressFault → String
  | noCell x y z e => s!"VoxelBuffer index {Value.shownTuple [x, y, z]} out of bounds {e.shown}"
  | noEntry i count => s!"VoxelBuffer id {i} out of bounds {count}"

end AddressFault

/-- The bytes that records of a size need in a box, or nothing when the product passes what
is addressable at any of its factors. -/
def byteLength? (size : Int) : List Int → Option Int
  | [] => some size
  | side :: rest => if size * side > addressable then none else byteLength? (size * side) rest

/-- Whether a number is past what is addressable.  No float lies between that and the next
integer, which is one. -/
def Number.isPastAddresses (n : Number) : Bool :=
  match n with
  | float x => Float.ofNat (addressable + 1) ≤ x
  | int i => i > addressable
  | bool _ => false

/-- The same product of any numbers, which are looked at one after the other. -/
def byteLengthOf (size : Number) : List Value → Except NumberFault (Option Number)
  | [] => .ok (some size)
  | side :: rest =>
    match side.number? with
    | none => .error .notNumber
    | some n => do
      let product ← size.times n
      if product.isPastAddresses then .ok none else byteLengthOf product rest

end VoxelCurve
