import VoxelCurve.Proofs.Success
import VoxelCurve.Proofs.Volume.Buffer

/-!
The numbering of the cells of a buffer.

Three coordinates make a number by products and sums, and a number is taken apart by two
divisions with remainder.  Any integers may be asked for.  Both ways look at the range first, so
what lies outside is refused before there is anything to divide, and a side of zero, which would
be a divisor of zero, leaves no number that is not refused.  `digits` is the way back with
divisions that can fail; that they never do is `digits_eq`.  `numbered` is the statement for
every box.
-/

namespace VoxelCurve

namespace Extent

variable {e : Extent}

/-- Three integers are the coordinates of a cell. -/
def Spans (e : Extent) (x y z : Int) : Prop :=
  (0 ≤ x ∧ x < e.width) ∧ (0 ≤ y ∧ y < e.depth) ∧ (0 ≤ z ∧ z < e.height)

theorem spans_iff {x y z : Int} :
    e.Spans x y z ↔
      (0 ≤ x ∧ 0 ≤ y ∧ 0 ≤ z) ∧ e.Contains ⟨x.toNat, y.toNat, z.toNat⟩ := by
  simp only [Spans, Contains]
  omega

theorem Contains.spans {c : Cell} (h : e.Contains c) : e.Spans c.x c.y c.z := by
  obtain ⟨hx, hy, hz⟩ := h
  unfold Spans
  omega

theorem exists_cell_of_spans {x y z : Int} (h : e.Spans x y z) :
    ∃ c : Cell, e.Contains c ∧ c.x = x ∧ c.y = y ∧ c.z = z := by
  obtain ⟨⟨hx, hy, hz⟩, hc⟩ := spans_iff.mp h
  exact ⟨_, hc, Int.toNat_of_nonneg hx, Int.toNat_of_nonneg hy, Int.toNat_of_nonneg hz⟩

/-- The integers that are numbers of cells. -/
def Numbers (e : Extent) (i : Int) : Prop :=
  0 ≤ i ∧ i < e.width * e.depth * e.height

theorem numbers_iff {i : Int} : e.Numbers i ↔ 0 ≤ i ∧ i.toNat < e.count := by
  have hcount : (e.count : Int) = e.width * e.depth * e.height := by
    rw [count, Int.natCast_mul, Int.natCast_mul]
  rw [Numbers, ← hcount]
  omega

theorem exists_nat_of_numbers {i : Int} (h : e.Numbers i) :
    ∃ n : Nat, n < e.count ∧ n = i := by
  obtain ⟨hi, hlt⟩ := numbers_iff.mp h
  exact ⟨i.toNat, hlt, Int.toNat_of_nonneg hi⟩

end Extent

/-- Why a number has no cell, where a division by zero is a reason of its own. -/
inductive DigitFault where
  | zeroDivisor
  | buffer (fault : BufferFault)

/-- Quotient and remainder. -/
def divMod (n divisor : Nat) : Except DigitFault (Nat × Nat) :=
  if divisor = 0 then .error .zeroDivisor else .ok (n / divisor, n % divisor)

theorem divMod_of_pos {n divisor : Nat} (h : 0 < divisor) :
    divMod n divisor = .ok (n / divisor, n % divisor) :=
  if_neg (Nat.ne_of_gt h)

namespace Buffer

variable {k : Kind} (b : Buffer k)

/-- The cell with a number, by divisions that fail where the divisor is zero. -/
def digits (i : Int) : Except DigitFault Cell := do
  let i ← (b.entryOf i).mapError .buffer
  let (z, plane) ← divMod i (b.extent.width * b.extent.depth)
  let (y, x) ← divMod plane b.extent.width
  .ok ⟨x, y, z⟩

theorem coordinate_eq (i : Int) :
    b.coordinate i = (b.entryOf i).map fun j => b.extent.cell j.val := by
  rw [coordinate, Extent.cell?, entryOf]
  cases b.extent.entry i <;> rfl

/-! ## In the box -/

theorem index_of_contains {c : Cell} (h : b.extent.Contains c) :
    b.index c.x c.y c.z = .ok (b.extent.index c) := by
  rw [index, addressOf_of_contains h]
  rfl

theorem coordinate_of_lt {i : Nat} (h : i < b.extent.count) :
    b.coordinate i = .ok (b.extent.cell i) := by
  rw [coordinate_eq, b.entryOf_val ⟨i, h⟩]
  rfl

theorem digits_of_lt {i : Nat} (h : i < b.extent.count) :
    b.digits i = .ok (b.extent.cell i) := by
  obtain ⟨hplane, hwidth⟩ := Extent.divisors_pos h
  rw [digits, bind_eq_ok_iff]
  refine ⟨⟨i, h⟩, mapError_eq_ok_iff.mpr (b.entryOf_val ⟨i, h⟩), ?_⟩
  rw [bind_eq_ok_iff]
  refine ⟨_, divMod_of_pos hplane, ?_⟩
  rw [bind_eq_ok_iff]
  exact ⟨_, divMod_of_pos hwidth, rfl⟩

/-! ## Outside -/

theorem index_of_not_spans {x y z : Int} (h : ¬b.extent.Spans x y z) :
    b.index x y z = .error (.address (.noCell x y z b.extent)) := by
  rw [index, addressOf, Extent.address, dif_neg (mt Extent.spans_iff.mpr h)]
  rfl

theorem entryOf_of_not_numbers {i : Int} (h : ¬b.extent.Numbers i) :
    b.entryOf i = .error (.address (.noEntry i b.extent.count)) := by
  rw [entryOf, Extent.entry, dif_neg (mt Extent.numbers_iff.mpr h)]
  rfl

theorem coordinate_of_not_numbers {i : Int} (h : ¬b.extent.Numbers i) :
    b.coordinate i = .error (.address (.noEntry i b.extent.count)) := by
  rw [coordinate_eq, b.entryOf_of_not_numbers h]
  rfl

/-! ## Both ways -/

/-- Nothing is ever divided by zero. -/
theorem digits_eq (i : Int) : b.digits i = (b.coordinate i).mapError .buffer := by
  by_cases h : b.extent.Numbers i
  · obtain ⟨n, hn, rfl⟩ := Extent.exists_nat_of_numbers h
    rw [b.digits_of_lt hn, b.coordinate_of_lt hn]
    rfl
  · rw [digits, b.entryOf_of_not_numbers h, b.coordinate_of_not_numbers h]
    rfl

/-- Cells and numbers stand for each other, and nothing outside does. -/
structure Numbered : Prop where
  index_ok : ∀ x y z : Int, b.extent.Spans x y z → ∃ i : Nat, b.index x y z = .ok i ∧
    (i : Int) = x + y * b.extent.width + z * (b.extent.width * b.extent.depth) ∧
    ∃ c : Cell, b.coordinate i = .ok c ∧ c.x = x ∧ c.y = y ∧ c.z = z
  index_error : ∀ x y z : Int, ¬b.extent.Spans x y z →
    b.index x y z = .error (.address (.noCell x y z b.extent))
  coordinate_ok : ∀ i : Int, b.extent.Numbers i → ∃ c : Cell, b.coordinate i = .ok c ∧
    b.extent.Spans c.x c.y c.z ∧ ∃ n : Nat, b.index c.x c.y c.z = .ok n ∧ n = i
  coordinate_error : ∀ i : Int, ¬b.extent.Numbers i →
    b.coordinate i = .error (.address (.noEntry i b.extent.count))
  /-- whichever sides are zero, the divisions by them do not come about -/
  divisors : ∀ i : Int, b.digits i = (b.coordinate i).mapError .buffer

theorem numbered : b.Numbered := by
  constructor
  case index_ok =>
    intro x y z h
    obtain ⟨c, hc, rfl, rfl, rfl⟩ := Extent.exists_cell_of_spans h
    have hcoordinate := b.coordinate_of_lt (Extent.index_lt_count hc)
    rw [Extent.cell_index hc] at hcoordinate
    refine ⟨_, b.index_of_contains hc, ?_, c, hcoordinate, rfl, rfl, rfl⟩
    simp only [Extent.index, Int.natCast_add, Int.natCast_mul]
  case index_error =>
    intro x y z h
    exact b.index_of_not_spans h
  case coordinate_ok =>
    intro i h
    obtain ⟨n, hn, rfl⟩ := Extent.exists_nat_of_numbers h
    have hc := Extent.contains_cell hn
    refine ⟨_, b.coordinate_of_lt hn, hc.spans, _, b.index_of_contains hc, ?_⟩
    rw [Extent.index_cell]
  case coordinate_error =>
    intro i h
    exact b.coordinate_of_not_numbers h
  case divisors => exact b.digits_eq

end Buffer
end VoxelCurve
