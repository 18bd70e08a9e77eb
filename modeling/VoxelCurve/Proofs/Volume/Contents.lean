import Mathlib.Data.List.FinRange
import Mathlib.Data.List.Sort
import VoxelCurve.Proofs.Volume.Numbering
import VoxelCurve.Volume.Contents

/-!
The readings of a whole buffer.

The loops over the planes, rows and cells of a box go through the numbers of its cells without a
gap (`map_index_cells`).  Everything else follows from this: the records that are listed with
their cells, the nested ones, the bytes behind one another and the records that are counted are
the same records in the same order.  `readings_agree` compares them with the windows that the
numbers cut out of the bytes.
-/

namespace VoxelCurve

/-! ## The order of the cells -/

/-- Rows of `n` numbers behind one another. -/
theorem range_mul (n m : Nat) :
    List.range (n * m) =
      (List.range m).flatMap fun j => (List.range n).map fun i => i + j * n := by
  induction m with
  | zero => rfl
  | succ m ih =>
    rw [Nat.mul_succ, List.range_add, ih, List.range_succ, List.flatMap_append,
      List.flatMap_singleton]
    simp only [Nat.add_comm, Nat.mul_comm]

namespace Extent

theorem mem_cells {e : Extent} {c : Cell} : c ∈ e.cells ↔ e.Contains c := by
  obtain ⟨x, y, z⟩ := c
  simp only [cells, List.mem_flatMap, List.mem_map, List.mem_range, Cell.mk.injEq]
  constructor
  · intro h
    obtain ⟨z', hz, y', hy, x', hx, rfl, rfl, rfl⟩ := h
    exact ⟨hx, hy, hz⟩
  · intro h
    obtain ⟨hx, hy, hz⟩ := h
    exact ⟨z, hz, y, hy, x, hx, rfl, rfl, rfl⟩

/-- The cells are listed by their numbers. -/
theorem map_index_cells (e : Extent) : e.cells.map e.index = List.range e.count := by
  rw [count, range_mul, cells, List.map_flatMap]
  refine List.flatMap_congr fun z _ => ?_
  rw [range_mul, List.map_flatMap, List.map_flatMap]
  refine List.flatMap_congr fun y _ => ?_
  rw [List.map_map, List.map_map]
  rfl

theorem cells_eq (e : Extent) :
    e.cells = (List.finRange e.count).map fun i => e.cell i.val := by
  have hcells : e.cells.map (e.cell ∘ e.index) = e.cells := by
    refine (List.map_congr_left fun c hc => ?_).trans (List.map_id _)
    exact cell_index (mem_cells.mp hc)
  rw [← hcells, ← List.map_map, map_index_cells, ← List.map_coe_finRange_eq_range, List.map_map]
  rfl

end Extent

namespace Record

variable {n : Nat} {r : Record n}

theorem any_ne_zero_iff : r.any (· != 0) = true ↔ r.isBlank = false := by
  rw [isBlank, ← Bool.not_eq_true, Vector.any_eq_true, Vector.all_eq_true]
  simp

theorem isBlank_eq_false {i : Fin n} (h : r.get i ≠ 0) : r.isBlank = false :=
  any_ne_zero_iff.mp (Vector.any_eq_true.mpr ⟨i, i.isLt, bne_iff_ne.mpr h⟩)

end Record

namespace Buffer

variable {k : Kind} (b : Buffer k)

/-! ## Lists of records -/

theorem enumerate_eq :
    b.enumerate =
      (List.finRange b.extent.count).map fun i => (b.extent.cell i.val, b.record i) := by
  rw [enumerate, Extent.cells_eq, records, List.zip_map']

theorem flatten_planes : b.planes.flatten.flatten = b.records.map Vector.toList := by
  have hcells : b.planes.flatten.flatten =
      b.extent.cells.map fun c => (b.recordAt c).toList := by
    simp only [planes, Extent.cells, List.flatMap_def, List.map_flatten, List.map_map,
      List.flatten_flatten, Function.comp_def]
  rw [hcells, Extent.cells_eq, records, List.map_map, List.map_map]
  exact List.map_congr_left fun i _ => congrArg Vector.toList (b.recordAt_cell i)

/-- What is listed as filled are the records that are not blank, each with its address. -/
theorem filled_eq :
    b.filled = ((List.finRange b.extent.count).map fun i => (i, b.record i)).filter
      fun r => !r.2.isBlank := by
  -- both lists ascend strictly along the addresses, so they are equal if they have the same members
  let before := fun r q : Fin b.extent.count × Record k.size => r.1.val < q.1.val
  have : Std.Irrefl before := ⟨fun r => Nat.lt_irrefl r.1.val⟩
  have : Std.Antisymm before := ⟨fun r q h h' => absurd h' (Nat.lt_asymm h)⟩
  have hlisted : b.written.toList.Pairwise before := by
    refine (Std.TreeMap.ordered_keys_toList (t := b.written)).imp ?_
    intro r q hrq
    exact Std.compare_eq_lt.mp hrq
  have hall : ((List.finRange b.extent.count).map fun i => (i, b.record i)).Pairwise before :=
    List.pairwise_map.mpr (List.pairwise_lt_finRange _)
  refine List.Pairwise.eq_of_mem_iff (hlisted.filter _) (hall.filter _) ?_
  intro r
  obtain ⟨i, r⟩ := r
  show (i, r) ∈ b.filled ↔ _
  rw [mem_filled, List.mem_filter]
  simp

/-! ## All bytes -/

theorem length_bytes : b.bytes.length = b.extent.count * k.size := by
  simp only [bytes, records, List.length_flatMap, List.map_map, Function.comp_def,
    Vector.length_toList, List.map_const', List.length_finRange, List.sum_replicate_nat]

theorem drop_flatMap_toList {n : Nat} (rs : List (Record n)) (i : Nat) :
    (rs.flatMap Vector.toList).drop (i * n) = (rs.drop i).flatMap Vector.toList := by
  induction i generalizing rs with
  | zero => rw [Nat.zero_mul, List.drop_zero, List.drop_zero]
  | succ i ih =>
    cases rs with
    | nil => rw [List.drop_nil, List.flatMap_nil, List.drop_nil]
    | cons r rs =>
      rw [List.drop_succ_cons, ← ih, List.flatMap_cons, Nat.succ_mul, Nat.add_comm,
        ← List.drop_drop, List.drop_left' r.length_toList]

theorem window_bytes (i : Fin b.extent.count) :
    (b.bytes.drop (i * k.size)).take k.size = (b.record i).toList := by
  have hi : i.val < b.records.length := by
    rw [records, List.length_map, List.length_finRange]
    exact i.isLt
  have hrecord : b.records[i.val] = b.record i := by
    simp only [records, List.getElem_map, List.getElem_finRange, Fin.cast_mk, Fin.eta]
  rw [bytes, drop_flatMap_toList, List.drop_eq_getElem_cons hi, hrecord, List.flatMap_cons,
    List.take_left' (b.record i).length_toList]

/-- The bytes of a record, cut out of all bytes at the number of its cell. -/
def view (x y z : Int) : Except BufferFault (List UInt8) :=
  (b.index x y z).map fun i => (b.bytes.drop (i * k.size)).take k.size

theorem view_eq (x y z : Int) : b.view x y z = (b.get x y z).map Vector.toList := by
  rw [view, index, get]
  cases b.addressOf x y z with
  | error fault => rfl
  | ok i => exact congrArg Except.ok (b.window_bytes i)

/-! ## Counts -/

/-- Records that are not blank are counted alike among those that are listed as filled and among
all of them. -/
theorem countP_filled {p : Record k.size → Bool} (hp : ∀ r, p r = true → r.isBlank = false) :
    b.filled.countP (fun r => p r.2) = b.enumerate.countP fun v => p v.2 := by
  rw [filled_eq, enumerate_eq, List.countP_filter, List.countP_map, List.countP_map]
  refine List.countP_congr fun i _ => ?_
  simp only [Function.comp_apply, Bool.and_eq_true, Bool.not_eq_true', and_iff_left_iff_imp]
  exact hp (b.record i)

theorem countNonempty_eq : b.countNonempty = b.enumerate.countP fun v => v.2.any (· != 0) := by
  have hall : b.filled.countP (fun r => r.2.any (· != 0)) = b.filled.length := by
    rw [List.countP_eq_length]
    intro r hr
    exact Record.any_ne_zero_iff.mpr (mem_filled.mp hr).2
  rw [countNonempty, ← hall]
  exact b.countP_filled fun r => Record.any_ne_zero_iff.mp

theorem countAt_eq (place : Fin k.size) :
    b.countAt place = b.enumerate.countP fun v => v.2.get place != 0 := by
  exact b.countP_filled (p := fun r => r.get place != 0) fun r hr =>
    Record.isBlank_eq_false (bne_iff_ne.mp hr)

theorem natAbs_le_of_place? {size : Nat} {i : Int} {place : Fin size}
    (h : place? size i = some place) : i.natAbs ≤ size := by
  obtain ⟨hplace, -⟩ := Option.dite_none_right_eq_some.mp h
  split at hplace
  · omega
  · omega

/-- An integer selects a single place of a row. -/
theorem ofValues_int {size : Nat} {i : Int} {place : Fin size} (hsize : size ≤ addressable)
    (h : place? size i = some place) :
    Selection.ofValues 1 [size] [.int i] = .ok ⟨[.fixed i size]⟩ := by
  have haddress : Pick.address? (.int i) = some i :=
    if_pos (Or.inl (Nat.le_trans (natAbs_le_of_place? h) hsize))
  have hpick : [Value.int i].mapM Pick.ofValue = .ok [.place i] := by
    rw [mapM_eq_ok_iff, List.forall₂_cons]
    refine ⟨?_, .nil⟩
    rw [Pick.ofValue, haddress]
    rfl
  have hinside : [Course.fixed i size].all Course.isInside = true := by
    rw [List.all_cons, Course.isInside, h]
    rfl
  refine bind_eq_ok_iff.mpr ⟨_, hpick, bind_eq_ok_iff.mpr ⟨[.fixed i size], rfl, ?_⟩⟩
  have hdepth : ¬1 > Value.maxNesting := by decide
  exact (if_neg hdepth).trans (if_pos hinside)

theorem countWhere_int {c : Int} {place : Fin k.size} (h : place? k.size c = some place) :
    b.countWhere (.int c) = .ok (b.countAt place) := by
  have hsize : k.size ≤ addressable := Nat.le_trans k.size_le (by decide)
  have hinside : [Course.fixed c k.size].all Course.isInside = true := by
    rw [List.all_cons, Course.isInside, h]
    rfl
  have hplaces : Selection.places ⟨[.fixed c k.size]⟩ [] = .ok [[c]] := by
    exact if_pos (Or.inr hinside)
  refine bind_eq_ok_iff.mpr ⟨_, ofValues_int hsize h, bind_eq_ok_iff.mpr ⟨[], rfl, ?_⟩⟩
  refine bind_eq_ok_iff.mpr ⟨_, hplaces, ?_⟩
  simp [h]

/-! ## Nested records -/

/-- The entry at a cell of nested rows. -/
def nestedAt? (planes : List (List (List (List UInt8)))) (c : Cell) : Option (List UInt8) :=
  (planes[c.z]?.bind (·[c.y]?)).bind (·[c.x]?)

/-- Nested rows have the sides of a box, and entries of a size. -/
def Nested (e : Extent) (size : Nat) (planes : List (List (List (List UInt8)))) : Prop :=
  planes.length = e.height ∧ ∀ rows ∈ planes, rows.length = e.depth ∧
    ∀ row ∈ rows, row.length = e.width ∧ ∀ r ∈ row, r.length = size

theorem nested_planes : Nested b.extent k.size b.planes := by
  simp [Nested, planes]

theorem nestedAt?_planes {c : Cell} (hc : b.extent.Contains c) :
    nestedAt? b.planes c = some (b.recordAt c).toList := by
  obtain ⟨hx, hy, hz⟩ := hc
  simp [nestedAt?, planes, hx, hy, hz]

/-! ## All together -/

/-- The windows of all bytes, the records by their numbers, the list with the cells, the nested
records and the counts say the same. -/
structure ReadsAlike : Prop where
  view_eq : ∀ x y z : Int, b.view x y z = (b.get x y z).map Vector.toList
  length_enumerate : b.enumerate.length = b.extent.width * b.extent.depth * b.extent.height
  enumerate_eq : ∀ i : Nat, i < b.extent.width * b.extent.depth * b.extent.height →
    ∃ c r, b.enumerate[i]? = some (c, r) ∧ b.coordinate i = .ok c ∧ b.getEntry i = .ok r ∧
      r.toList = (b.bytes.drop (i * k.size)).take k.size
  planes_eq : ∃ planes,
    b.planes? = some ([b.extent.height, b.extent.depth, b.extent.width, k.size], planes) ∧
    Nested b.extent k.size planes ∧ planes.flatten.flatten.flatten = b.bytes ∧
    ∀ c, b.extent.Contains c → ∃ bytes,
      b.view c.x c.y c.z = .ok bytes ∧ nestedAt? planes c = some bytes
  countNonempty_eq : b.countNonempty = b.enumerate.countP fun v => v.2.any (· != 0)
  countWhere_eq : ∀ (channel : Int) (place : Fin k.size), place? k.size channel = some place →
    b.countWhere (.int channel) = .ok (b.enumerate.countP fun v => v.2.get place != 0)

theorem readings_agree {b b₀ : Buffer k} (hb : allocate k b.extent = .ok b₀)
    (hsides : 0 < b.extent.width ∧ 0 < b.extent.depth ∧ 0 < b.extent.height) :
    b.ReadsAlike := by
  constructor
  case view_eq => exact b.view_eq
  case length_enumerate =>
    rw [enumerate_eq, List.length_map, List.length_finRange]
    rfl
  case enumerate_eq =>
    intro i hi
    refine ⟨b.extent.cell i, b.record ⟨i, hi⟩, ?_, b.coordinate_of_lt hi, ?_, ?_⟩
    · have hlt : i < (List.finRange b.extent.count).length := by rwa [List.length_finRange]
      rw [enumerate_eq, List.getElem?_map, List.getElem?_eq_getElem hlt, List.getElem_finRange]
      rfl
    · rw [getEntry, b.entryOf_val ⟨i, hi⟩]
      rfl
    · exact (b.window_bytes ⟨i, hi⟩).symm
  case planes_eq =>
    refine ⟨b.planes, if_pos (isShapeable_of_allocate hb hsides), b.nested_planes, ?_, ?_⟩
    · rw [flatten_planes, bytes, List.flatMap_def]
    · intro c hc
      refine ⟨_, ?_, b.nestedAt?_planes hc⟩
      rw [view_eq, get_of_contains hc]
      rfl
  case countNonempty_eq => exact b.countNonempty_eq
  case countWhere_eq =>
    intro channel place h
    rw [b.countWhere_int h, countAt_eq]

/-- One slot in use, in a box of three different sides. -/
def singleSlot : Buffer .indexed :=
  apply ⟨⟨2, 3, 4⟩, ∅⟩ ⟨⟨17, by decide⟩, #v[7]⟩

theorem readings_agree_singleSlot :
    allocate .indexed singleSlot.extent = .ok ⟨singleSlot.extent, ∅⟩ ∧
      (0 < singleSlot.extent.width ∧ 0 < singleSlot.extent.depth ∧
        0 < singleSlot.extent.height) ∧
      singleSlot.ReadsAlike ∧ nestedAt? singleSlot.planes ⟨1, 2, 2⟩ = some [7] := by
  have hb : allocate .indexed singleSlot.extent = .ok ⟨singleSlot.extent, ∅⟩ := rfl
  have hsides : 0 < singleSlot.extent.width ∧ 0 < singleSlot.extent.depth ∧
      0 < singleSlot.extent.height := by decide
  exact ⟨hb, hsides, readings_agree hb hsides, rfl⟩

end Buffer
end VoxelCurve
