import VoxelCurve.Proofs.Volume.Contents
import VoxelCurve.Proofs.Vox.Column

/-!
What a scan finds.

The list of opaque records says the same as `recordAt`: a cell and a color are in it exactly
when the cell is in the box, has this color, and the color is opaque.  What a scan makes of this
list, column by column, is said here of one opaque cell at a time: its entry, `entryOf`, has the
place of its color among the distinct ones, and `scanCanvas_eq` puts these entries together.
A scan succeeds exactly when the format has room for all of this, and then its result is
`model`, which asks for nothing.
-/

namespace VoxelCurve

def Rgba.alpha (r : Rgba) : UInt8 :=
  r.get (Fin.last 3)

namespace Vox

/-- Whether an entry can hold the coordinates of a cell. -/
def fits (c : Cell) : Bool :=
  c.x ≤ maxCoordinate && c.y ≤ maxCoordinate && c.z ≤ maxCoordinate

/-- The entry of a cell whose color is among the given ones. -/
def entryOf (colors : List Rgba) (c : Cell) (color : Rgba) : Entry :=
  ⟨UInt8.ofNat c.x, UInt8.ofNat c.y, UInt8.ofNat c.z, UInt8.ofNat (colors.idxOf color + 1)⟩

end Vox

/-! ## Opaque records -/

namespace Buffer

theorem mem_opaqueRecords {b : Canvas} {i : Nat} {r : Rgba} :
    (i, r) ∈ b.opaqueRecords ↔
      ∃ h : i < b.extent.count, b.record ⟨i, h⟩ = r ∧ r.alpha ≠ 0 := by
  simp only [opaqueRecords, List.mem_filterMap]
  constructor
  · intro h
    obtain ⟨⟨j, r'⟩, hfilled, h⟩ := h
    split at h
    · cases h
    · next halpha =>
      cases h
      exact ⟨j.isLt, (mem_filled.mp hfilled).1, halpha⟩
  · intro h
    obtain ⟨hi, hr, halpha⟩ := h
    have hblank : r.isBlank = false := Record.isBlank_eq_false halpha
    exact ⟨(⟨i, hi⟩, r), mem_filled.mpr ⟨hr, hblank⟩, if_neg halpha⟩

/-- The opaque cells with their colors. -/
def opaqueCells (b : Canvas) : List (Cell × Rgba) :=
  b.opaqueRecords.map fun r => (b.extent.cell r.1, r.2)

theorem mem_opaqueCells {b : Canvas} {c : Cell} {r : Rgba} :
    (c, r) ∈ b.opaqueCells ↔ b.extent.Contains c ∧ b.recordAt c = r ∧ r.alpha ≠ 0 := by
  simp only [opaqueCells, List.mem_map]
  constructor
  · intro h
    obtain ⟨⟨i, r'⟩, hmem, h⟩ := h
    obtain ⟨hi, hr, halpha⟩ := mem_opaqueRecords.mp hmem
    cases h
    exact ⟨Extent.contains_cell hi, (b.recordAt_cell ⟨i, hi⟩).trans hr, halpha⟩
  · intro h
    obtain ⟨hc, hr, halpha⟩ := h
    have hrecord : b.record ⟨b.extent.index c, Extent.index_lt_count hc⟩ = r :=
      (recordAt_of_contains hc).symm.trans hr
    have hmem := mem_opaqueRecords.mpr ⟨Extent.index_lt_count hc, hrecord, halpha⟩
    exact ⟨_, hmem, by rw [Extent.cell_index hc]⟩

/-- Reading finds an opaque color exactly where an opaque cell has it. -/
theorem get_opaque_iff {b : Canvas} {x y z : Int} {r : Rgba} :
    b.get x y z = .ok r ∧ r.alpha ≠ 0 ↔
      ∃ c : Cell, (c, r) ∈ b.opaqueCells ∧ c.x = x ∧ c.y = y ∧ c.z = z := by
  constructor
  · intro h
    obtain ⟨hget, halpha⟩ := h
    rw [get_eq] at hget
    split at hget
    · next hcell =>
      obtain ⟨⟨hx, hy, hz⟩, hc⟩ := hcell
      exact ⟨_, mem_opaqueCells.mpr ⟨hc, Except.ok.inj hget, halpha⟩, Int.toNat_of_nonneg hx,
        Int.toNat_of_nonneg hy, Int.toNat_of_nonneg hz⟩
    · cases hget
  · intro h
    obtain ⟨c, hmem, rfl, rfl, rfl⟩ := h
    obtain ⟨hc, hr, halpha⟩ := mem_opaqueCells.mp hmem
    exact ⟨(get_of_contains hc).trans (congrArg Except.ok hr), halpha⟩

/-- Whether there is a cell at three coordinates and its color is not transparent. -/
def Painted (b : Canvas) (x y z : Int) : Prop :=
  ∃ r : Rgba, b.get x y z = .ok r ∧ r.alpha ≠ 0

/-- The distinct opaque colors. -/
def colors (b : Canvas) : List Rgba :=
  Vox.firstSeen (b.opaqueCells.map (·.2))

theorem mem_colors {b : Canvas} {r : Cell × Rgba} (h : r ∈ b.opaqueCells) : r.2 ∈ b.colors :=
  Vox.mem_firstSeen.mpr (List.mem_map_of_mem h)

/-- The model of a canvas, whether or not there is room for it. -/
def model (b : Canvas) : Vox.Model where
  width := UInt32.ofNat b.extent.width
  depth := UInt32.ofNat b.extent.depth
  height := UInt32.ofNat b.extent.height
  voxels := b.opaqueCells.map fun r => Vox.entryOf b.colors r.1 r.2
  palette := .ofColors b.colors
  version := Vox.defaultVersion

/-- There is room for a canvas in a file. -/
structure Scannable (b : Canvas) : Prop where
  width_le : b.extent.width ≤ Vox.maxWord
  depth_le : b.extent.depth ≤ Vox.maxWord
  height_le : b.extent.height ≤ Vox.maxWord
  shapeable : b.extent.isShapeable 4 = true
  colors_le : b.colors.length ≤ Vox.maxColors
  fits : ∀ r ∈ b.opaqueCells, Vox.fits r.1 = true

end Buffer

namespace Vox

theorem fits_eq_false_iff {c : Cell} : fits c = false ↔ 255 < c.x ∨ 255 < c.y ∨ 255 < c.z := by
  rw [← Bool.not_eq_true]
  simp only [fits, Bool.and_eq_true, decide_eq_true_eq]
  unfold maxCoordinate
  omega

/-! ## Columns, one row at a time -/

theorem keyOf_ofBytes (r g b a : UInt8) : keyOf (Rgba.ofBytes r g b a) = wordOf r g b a :=
  rfl

/-- The word of a color has its four bytes. -/
theorem keyOf_injective : Function.Injective keyOf := by
  intro color color' h
  obtain ⟨r, g, b, a, rfl⟩ := exists_eq_ofBytes color
  obtain ⟨r', g', b', a', rfl⟩ := exists_eq_ofBytes color'
  rw [keyOf_ofBytes, keyOf_ofBytes] at h
  have hbytes : [r, g, b, a] = [r', g', b', a'] := by
    rw [← wordBytes_wordOf, h, wordBytes_wordOf]
  cases hbytes
  rfl

theorem stack_map {α : Type} (rows : List α) (x y z slot : α → Nat) :
    stack (rows.map x) (rows.map y) (rows.map z) (rows.map slot) =
      rows.map fun r => ⟨.ofNat (x r), .ofNat (y r), .ofNat (z r), .ofNat (slot r)⟩ := by
  rw [stack, List.zip_map', List.zip_map', List.zipWith_map, List.zipWith_self]

/-- The columns of the coordinates have no number past the bytes if each cell has none. -/
theorem greatest_le_iff_fits {rows : List (Nat × Rgba)} {e : Extent} :
    max (Column.greatest (rows.map fun r => (e.cell r.1).x))
        (max (Column.greatest (rows.map fun r => (e.cell r.1).y))
          (Column.greatest (rows.map fun r => (e.cell r.1).z))) ≤ maxCoordinate ↔
      (rows.all fun r => fits (e.cell r.1)) = true := by
  simp only [Nat.max_le, Column.greatest_le_iff, List.forall_mem_map, List.all_eq_true, fits,
    Bool.and_eq_true, decide_eq_true_eq]
  exact ⟨fun h r hr => ⟨⟨h.1 r hr, h.2.1 r hr⟩, h.2.2 r hr⟩,
    fun h => ⟨fun r hr => (h r hr).1.1, fun r hr => (h r hr).1.2, fun r hr => (h r hr).2⟩⟩

/-- The slots that a scan finds are the places of the colors in the order in which they are first
met, counted from one. -/
theorem slots_eq (rows : List (Nat × Rgba)) :
    let keys := (rows.map (·.2)).map keyOf
    let distinct := Column.unique keys
    (Column.gather (ranks (Column.argsort (Column.places keys distinct)))
        (Column.places distinct keys)).map (· + 1) =
      rows.map fun r => (firstSeen (rows.map (·.2))).idxOf r.2 + 1 := by
  intro keys distinct
  have hslots := (gather_ranks keys).trans (places_firstSeen_map keyOf_injective (rows.map (·.2)))
  have hplaces : (Column.places (firstSeen (rows.map (·.2))) (rows.map (·.2))).map (· + 1) =
      rows.map fun r => (firstSeen (rows.map (·.2))).idxOf r.2 + 1 := by
    rw [Column.places, List.map_map, List.map_map]
    rfl
  exact (congrArg (List.map (· + 1)) hslots).trans hplaces

/-- A scan fails for the first of its reasons, and otherwise gives the model of the canvas. -/
theorem scanCanvas_eq (b : Canvas) :
    scanCanvas b =
      if b.extent.width > maxWord ∨ b.extent.depth > maxWord ∨ b.extent.height > maxWord then
        .error (.tooWide b.extent.shown)
      else if !b.extent.isShapeable 4 then .error .noLayout
      else if b.colors.length > maxColors then .error (.tooManyColors b.colors.length)
      else if !b.opaqueCells.all fun r => fits r.1 then .error .coordinateTooLarge
      else .ok b.model := by
  have hcolors : b.colors = firstSeen (b.opaqueRecords.map (·.2)) := by
    rw [Buffer.colors, Buffer.opaqueCells, List.map_map]
    rfl
  have hlength :
      (Column.unique ((b.opaqueRecords.map (·.2)).map keyOf)).length = b.colors.length := by
    rw [hcolors, length_unique_map keyOf_injective]
  refine if_congr Iff.rfl rfl (if_congr Iff.rfl rfl (if_congr ?_ ?_ (if_congr ?_ rfl ?_)))
  · rw [hlength]
  · rw [hlength]
  · have hall : (b.opaqueCells.all fun r => fits r.1) =
        b.opaqueRecords.all fun r => fits (b.extent.cell r.1) := List.all_map
    rw [hall, Bool.not_eq_true', ← Bool.not_eq_true, gt_iff_lt, ← Nat.not_le]
    simp only [List.map_map]
    exact not_congr greatest_le_iff_fits
  · have hvoxels : b.model.voxels = b.opaqueRecords.map fun r =>
        entryOf b.colors (b.extent.cell r.1) r.2 := List.map_map
    have hpalette := gather_firstPlaces keyOf_injective (b.opaqueRecords.map (·.2))
    rw [← hcolors] at hpalette
    have hslots := slots_eq b.opaqueRecords
    simp only [List.map_map, ← hcolors] at hslots
    refine congrArg Except.ok ?_
    rw [Model.mk.injEq]
    refine ⟨rfl, rfl, rfl, ?_, congrArg Palette.ofColors hpalette, rfl⟩
    simp only [List.map_map]
    rw [hslots]
    exact (stack_map _ _ _ _ _).trans hvoxels.symm

theorem scanCanvas_eq_ok_iff {b : Canvas} {m : Model} :
    scanCanvas b = .ok m ↔ b.Scannable ∧ b.model = m := by
  rw [scanCanvas_eq]
  constructor
  · intro h
    split at h
    · cases h
    · next hsides =>
      split at h
      · cases h
      · next hshape =>
        split at h
        · cases h
        · next hcolors =>
          split at h
          · cases h
          · next hfits =>
            simp only [Bool.not_eq_true', Bool.not_eq_false, List.all_eq_true] at hshape hfits
            cases h
            exact ⟨⟨by omega, by omega, by omega, hshape, by omega, hfits⟩, rfl⟩
  · intro h
    obtain ⟨h, rfl⟩ := h
    have hsides : ¬(b.extent.width > maxWord ∨ b.extent.depth > maxWord ∨
        b.extent.height > maxWord) := by
      have hw := h.width_le
      have hd := h.depth_le
      have ht := h.height_le
      omega
    have hfits : (b.opaqueCells.all fun r => fits r.1) = true := List.all_eq_true.mpr h.fits
    rw [if_neg hsides, if_neg (by simp [h.shapeable]), if_neg (Nat.not_lt.mpr h.colors_le),
      if_neg (by simp [hfits])]

end Vox
end VoxelCurve
