import VoxelCurve.Proofs.Vox.Rebuild
import VoxelCurve.Proofs.Vox.RoundTrip
import VoxelCurve.Proofs.Vox.Scan

/-!
A canvas through a file.

An opaque cell comes back as an entry whose three coordinates and slot are all bytes, so
nothing is cut off, and the slot leads to the row of the palette with the color of the cell.
There may be several entries at one cell only if they agree, and there is none at a cell that
is not opaque; such a cell comes back blank, whatever its other channels were.
-/

namespace VoxelCurve

/-- What a file keeps of a color. -/
def Rgba.kept (r : Rgba) : Rgba :=
  if r.alpha = 0 then Record.blank 4 else r

namespace Vox

/-! ## Entries of a scan -/

theorem toNat_ofNat_of_le {n : Nat} (h : n ≤ 255) : (UInt8.ofNat n).toNat = n :=
  UInt8.toNat_ofNat_of_lt' (Nat.lt_succ_of_le h)

theorem cell_entryOf {colors : List Rgba} {c : Cell} {r : Rgba} (h : fits c = true) :
    (entryOf colors c r).cell = c := by
  simp only [fits, Bool.and_eq_true, decide_eq_true_eq] at h
  obtain ⟨⟨hx, hy⟩, hz⟩ := h
  rw [entryOf, Entry.cell, toNat_ofNat_of_le hx, toNat_ofNat_of_le hy, toNat_ofNat_of_le hz]

section Slot

variable {colors : List Rgba} {r : Rgba} (hle : colors.length ≤ maxColors) (hr : r ∈ colors)

include hle hr

theorem toNat_slot_entryOf (c : Cell) :
    (entryOf colors c r).slot.toNat = colors.idxOf r + 1 := by
  have hidx := List.idxOf_lt_length_of_mem hr
  unfold maxColors at hle
  exact toNat_ofNat_of_le (by omega)

theorem slot_entryOf_ne_zero (c : Cell) : (entryOf colors c r).slot ≠ 0 := by
  intro h
  have hslot := toNat_slot_entryOf hle hr c
  rw [h] at hslot
  exact absurd hslot.symm (Nat.succ_ne_zero _)

theorem colorIn_entryOf {m : Model} (hm : m.palette = .ofColors colors) (c : Cell) :
    m.colorIn (entryOf colors c r) = r := by
  have hidx := List.idxOf_lt_length_of_mem hr
  have hrow : (entryOf colors c r).slot.toNat - 1 = colors.idxOf r := by
    rw [toNat_slot_entryOf hle hr c, Nat.add_sub_cancel]
  simp only [Model.colorIn, hm, hrow, Palette.ofColors, Vector.getElem_ofFn,
    List.getElem?_eq_getElem hidx, Option.getD_some, List.getElem_idxOf]

end Slot
end Vox

/-! ## The model of a canvas -/

namespace Buffer

open Vox

theorem Scannable.extent_model {b : Canvas} (h : b.Scannable) : b.model.extent = b.extent := by
  rw [Model.extent, model, toNat_ofNat_of_le_maxWord h.width_le,
    toNat_ofNat_of_le_maxWord h.depth_le, toNat_ofNat_of_le_maxWord h.height_le]

/-- An entry of the model stands at its cell with the color of this cell. -/
theorem Scannable.of_mem_voxels {b : Canvas} (h : b.Scannable) {v : Entry}
    (hv : v ∈ b.model.voxels) :
    Model.Placeable b.extent v ∧ b.model.colorIn v = b.recordAt v.cell ∧
      Rgba.alpha (b.recordAt v.cell) ≠ 0 := by
  obtain ⟨⟨c, r⟩, hmem, rfl⟩ := List.mem_map.mp hv
  obtain ⟨hc, hr, halpha⟩ := mem_opaqueCells.mp hmem
  have hcell : (Vox.entryOf b.colors c r).cell = c := cell_entryOf (h.fits _ hmem)
  have hcolor : r ∈ b.colors := mem_colors hmem
  have hpalette : b.model.palette = .ofColors b.colors := rfl
  refine ⟨⟨?_, slot_entryOf_ne_zero h.colors_le hcolor c⟩, ?_, ?_⟩
  · rw [hcell]
    exact hc
  · rw [hcell, hr]
    exact colorIn_entryOf h.colors_le hcolor hpalette c
  · rw [hcell, hr]
    exact halpha

/-- Every opaque cell has an entry of the model. -/
theorem Scannable.exists_entry {b : Canvas} (h : b.Scannable) {c : Cell}
    (hc : b.extent.Contains c) (halpha : Rgba.alpha (b.recordAt c) ≠ 0) :
    ∃ v ∈ b.model.voxels, v.cell = c := by
  have hmem : (c, b.recordAt c) ∈ b.opaqueCells := mem_opaqueCells.mpr ⟨hc, rfl, halpha⟩
  exact ⟨_, List.mem_map_of_mem hmem, cell_entryOf (h.fits _ hmem)⟩

theorem Scannable.toBuffer_model {b : Canvas} (h : b.Scannable) :
    ∃ b' : Canvas, b.model.toBuffer = .ok b' ∧ b'.extent = b.extent ∧
      ∀ c, b.extent.Contains c → b'.recordAt c = Rgba.kept (b.recordAt c) := by
  have hplaceable : ∀ v ∈ b.model.voxels, Model.Placeable b.model.extent v := by
    rw [h.extent_model]
    exact fun v hv => (h.of_mem_voxels hv).1
  have hshape : b.model.extent.isShapeable 4 = true := by
    rw [h.extent_model]
    exact h.shapeable
  obtain ⟨b', hbuffer, hextent, hrecord⟩ :=
    Model.toBuffer_of_placeable (Buffer.allocate_eq hshape) hplaceable
  rw [h.extent_model] at hextent hrecord
  refine ⟨b', hbuffer, hextent, ?_⟩
  intro c hc
  rw [hrecord c hc]
  cases hlast : b.model.voxels.findRev? fun v => v.cell = c with
  | some v =>
    obtain ⟨hmem, hfound⟩ := of_findRev?_eq_some hlast
    have hcell : v.cell = c := of_decide_eq_true hfound
    obtain ⟨-, hcolor, halpha⟩ := h.of_mem_voxels hmem
    rw [hcell] at hcolor halpha
    exact hcolor.trans (if_neg halpha).symm
  | none =>
    rw [List.findRev?_eq_find?_reverse, List.find?_eq_none] at hlast
    have halpha : Rgba.alpha (b.recordAt c) = 0 := by
      apply Decidable.not_not.mp
      intro halpha
      obtain ⟨v, hv, hcell⟩ := h.exists_entry hc halpha
      exact hlast v (List.mem_reverse.mpr hv) (decide_eq_true hcell)
    exact (if_pos halpha).symm

end Buffer

namespace Vox

/-- Whatever is written of a canvas is read back as a canvas of the same sides, with the same
color at every opaque cell and nothing elsewhere. -/
theorem toBuffer_decode_encode {b : Canvas} {bytes : List UInt8}
    (h : encode .rgba b = .ok bytes) :
    ∃ m b', decode bytes = .ok m ∧ m.toBuffer = .ok b' ∧ b'.extent = b.extent ∧
      ∀ x y z : Int, b'.get x y z = (b.get x y z).map Rgba.kept := by
  obtain ⟨m, hscan, hencode⟩ := bind_eq_ok_iff.mp h
  obtain ⟨hs, rfl⟩ := scanCanvas_eq_ok_iff.mp hscan
  obtain ⟨b', hbuffer, hextent, hrecord⟩ := hs.toBuffer_model
  refine ⟨b.model, b', Model.decode_of_encode hencode, hbuffer, hextent, ?_⟩
  intro x y z
  rw [Buffer.get_eq, Buffer.get_eq, hextent]
  by_cases hin : (0 ≤ x ∧ 0 ≤ y ∧ 0 ≤ z) ∧ b.extent.Contains ⟨x.toNat, y.toNat, z.toNat⟩
  · rw [if_pos hin, if_pos hin, hrecord _ hin.2]
    rfl
  · rw [if_neg hin, if_neg hin]
    rfl

/-- A color in two cells, transparent in one of them. -/
def halfTransparent : Canvas :=
  let b : Canvas := ⟨⟨2, 1, 2⟩, ∅⟩
  let b := b.apply ⟨⟨3, by decide⟩, #v[9, 8, 7, 255]⟩
  b.apply ⟨⟨1, by decide⟩, #v[9, 8, 7, 0]⟩

theorem toBuffer_decode_encode_halfTransparent :
    ∃ bytes, encode .rgba halfTransparent = .ok bytes ∧
      ∃ m b', decode bytes = .ok m ∧ m.toBuffer = .ok b' ∧
        b'.extent = halfTransparent.extent ∧
        ∀ x y z : Int, b'.get x y z = (halfTransparent.get x y z).map Rgba.kept := by
  have hs : halfTransparent.Scannable :=
    ⟨by decide, by decide, by decide, by decide, by decide +kernel, by decide +kernel⟩
  have hf : halfTransparent.model.Fits := by decide +kernel
  have h : encode .rgba halfTransparent = .ok (halfTransparent.model.fileBytes hf) :=
    bind_eq_ok_iff.mpr ⟨_, scanCanvas_eq_ok_iff.mpr ⟨hs, rfl⟩, Model.encode_eq_fileBytes _ hf⟩
  exact ⟨_, h, toBuffer_decode_encode h⟩

end Vox
end VoxelCurve
