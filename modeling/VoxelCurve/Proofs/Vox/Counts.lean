import Mathlib.Data.List.Perm.Subperm
import VoxelCurve.Proofs.Vox.FirstSeen

/-!
How much there is in a model.

A canvas counts its voxels by their bytes, and a model by its entries and their slots.  The two
agree because a color keeps one slot and no two colors share one, so that telling the slots apart
is telling the colors apart.  Since the coordinates of an entry are bytes, there are never more
entries than a file has room for: whatever can be scanned can be written.
-/

namespace VoxelCurve
namespace Vox

/-- The cells that an entry has coordinates for. -/
def entryExtent : Extent :=
  ⟨256, 256, 256⟩

theorem contains_entryExtent {c : Cell} (h : fits c = true) : entryExtent.Contains c := by
  simp only [fits, Bool.and_eq_true, decide_eq_true_eq] at h
  unfold maxCoordinate at h
  show c.x < 256 ∧ c.y < 256 ∧ c.z < 256
  omega

end Vox

namespace Buffer

open Vox

theorem length_opaqueCells (b : Canvas) : b.opaqueCells.length = b.countAt (Fin.last 3) := by
  show _ = b.filled.countP fun r => r.2.get (Fin.last 3) != 0
  rw [opaqueCells, List.length_map, opaqueRecords, List.length_filterMap_eq_countP]
  refine List.countP_congr fun r _ => ?_
  show (if r.2.get (Fin.last 3) = 0 then none else some (r.1.val, r.2)).isSome = true ↔
    (r.2.get (Fin.last 3) != 0) = true
  simp

theorem nodup_opaqueCells (b : Canvas) : (b.opaqueCells.map (·.1)).Nodup := by
  have hnumbers : b.opaqueNumbers.Nodup := List.nodup_range.filter _
  rw [opaqueCells_eq, List.map_map]
  refine List.Nodup.map ?_ hnumbers
  intro i j hij
  have hcells : b.extent.cell i = b.extent.cell j := hij
  rw [← b.extent.index_cell i, hcells, b.extent.index_cell j]

/-- There are at most as many opaque cells as three bytes can tell apart. -/
theorem Scannable.length_opaqueCells_le {b : Canvas} (h : b.Scannable) :
    b.opaqueCells.length ≤ entryExtent.count := by
  let numbers := (b.opaqueCells.map (·.1)).map entryExtent.index
  have hin : ∀ c ∈ b.opaqueCells.map (·.1), entryExtent.Contains c := by
    intro c hc
    obtain ⟨r, hr, rfl⟩ := List.mem_map.mp hc
    exact contains_entryExtent (h.fits r hr)
  have hnodup : numbers.Nodup :=
    b.nodup_opaqueCells.map_on fun c hc d hd =>
      (Extent.index_inj (hin c hc) (hin d hd)).mp
  have hsubset : numbers ⊆ List.range entryExtent.count := by
    intro n hn
    obtain ⟨c, hc, rfl⟩ := List.mem_map.mp hn
    exact List.mem_range.mpr (Extent.index_lt_count (hin c hc))
  have hle := (List.subperm_of_subset hnodup hsubset).length_le
  rwa [List.length_map, List.length_map, List.length_range] at hle

/-- Whatever can be scanned can be written. -/
theorem Scannable.fits_model {b : Canvas} (h : b.Scannable) : b.model.Fits := by
  have hle := h.length_opaqueCells_le
  have hcount : entryExtent.count = 16777216 := rfl
  have hvoxels : b.model.numVoxels = b.opaqueCells.length := List.length_map _
  show 1076 + 4 * b.model.numVoxels ≤ 0xFFFFFFFF
  omega

theorem Scannable.numColors_model {b : Canvas} (h : b.Scannable) :
    b.model.numColors = b.colors.length := by
  let slot := fun r : Rgba => UInt8.ofNat (b.colors.idxOf r + 1)
  have hslots : b.model.voxels.map Entry.slot = (b.opaqueCells.map (·.2)).map slot := by
    rw [model, List.map_map, List.map_map]
    rfl
  have hslot : ∀ r ∈ b.opaqueCells.map (·.2), (slot r).toNat = b.colors.idxOf r + 1 :=
    fun r hr => toNat_slot_entryOf h.colors_le (mem_firstSeen.mpr hr) ⟨0, 0, 0⟩
  have hinj : ∀ r ∈ b.opaqueCells.map (·.2), ∀ q ∈ b.opaqueCells.map (·.2),
      slot r = slot q → r = q := by
    intro r hr q hq hrq
    have hidx : b.colors.idxOf r + 1 = b.colors.idxOf q + 1 := by
      rw [← hslot r hr, ← hslot q hq, hrq]
    exact (List.idxOf_inj (mem_firstSeen.mpr hr)).mp (Nat.succ.inj hidx)
  rw [Model.numColors, hslots, firstSeen_map hinj, List.length_map]
  rfl

end Buffer
end VoxelCurve
