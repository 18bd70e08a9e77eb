import Mathlib.Data.List.Induction
import VoxelCurve.Proofs.Vox.Canvas

/-!
The scan as a loop along the cells that fills a table.

Whoever goes through the cells in ascending order, and puts each opaque color that is not in the
table yet at its end, has at last the table in which the colors stand in the order of their first
places, and can write each entry when its cell is met, because a color keeps its place while the
table grows.  `scan_firstSeen` says that a scan, which sorts whole columns instead, returns what
this loop does, and what there is to know about it.
-/

namespace VoxelCurve
/-! ## Opaque records in their order -/

namespace Buffer

/-- The color of the cell with a number. -/
def colorAt (b : Canvas) (i : Nat) : Rgba :=
  b.recordAt (b.extent.cell i)

/-- The numbers of the opaque cells, in ascending order. -/
def opaqueNumbers (b : Canvas) : List Nat :=
  (List.range b.extent.count).filter fun i => (b.colorAt i).alpha ≠ 0

/-- What a scan goes through are the opaque cells, one after the other. -/
theorem opaqueRecords_eq (b : Canvas) :
    b.opaqueRecords = b.opaqueNumbers.map fun i => (i, b.colorAt i) := by
  rw [opaqueRecords, filled_eq, List.filterMap_filter, List.filterMap_map, opaqueNumbers,
    ← List.filterMap_eq_map, List.filterMap_filter, ← List.map_coe_finRange_eq_range,
    List.filterMap_map]
  refine List.filterMap_congr fun i _ => ?_
  have hcolor : b.colorAt i.val = b.record i := b.recordAt_cell i
  simp only [Function.comp_apply, hcolor, decide_eq_true_eq]
  by_cases halpha : Rgba.alpha (b.record i) = 0
  · have hlast : (b.record i)[3] = 0 := halpha
    rw [if_neg (not_not_intro halpha), if_pos hlast, ite_self]
  · have hlast : ¬(b.record i)[3] = 0 := halpha
    have hblank : (!Record.isBlank (b.record i)) = true :=
      congrArg not (Record.isBlank_eq_false halpha)
    rw [if_pos halpha, if_neg hlast]
    exact if_pos hblank

theorem opaqueCells_eq (b : Canvas) :
    b.opaqueCells = b.opaqueNumbers.map fun i => (b.extent.cell i, b.colorAt i) := by
  rw [opaqueCells, opaqueRecords_eq, List.map_map]
  rfl

/-- The colors that are met, in the order of the cells. -/
def metColors (b : Canvas) : List Rgba :=
  b.opaqueNumbers.map b.colorAt

theorem colors_eq (b : Canvas) : b.colors = Vox.firstSeen b.metColors := by
  rw [colors, opaqueCells_eq, List.map_map]
  rfl

theorem nodup_colors (b : Canvas) : b.colors.Nodup := by
  rw [colors_eq]
  exact Vox.nodup_firstSeen b.metColors

end Buffer

namespace Vox

/-! ## The loop -/

/-- The entries that a loop has written, and its table. -/
structure Sweep where
  entries : List Entry
  table : List Rgba

/-- Visits the cell with a number. -/
def Sweep.visit (b : Canvas) (s : Sweep) (i : Nat) : Sweep :=
  let color := b.colorAt i
  if color.alpha = 0 then s
  else
    let table := if color ∈ s.table then s.table else s.table ++ [color]
    ⟨s.entries ++ [entryOf table (b.extent.cell i) color], table⟩

/-- Visits all cells in ascending order. -/
def sweep (b : Canvas) : Sweep :=
  (List.range b.extent.count).foldl (Sweep.visit b) ⟨[], []⟩

/-- A color keeps its place when the table grows. -/
theorem entryOf_append {table : List Rgba} {r : Rgba} (h : r ∈ table) (more : List Rgba)
    (c : Cell) : entryOf (table ++ more) c r = entryOf table c r := by
  rw [entryOf, entryOf, List.idxOf_append_of_mem h]

/-- The loop after the opaque cells among some numbers. -/
def Sweep.after (b : Canvas) (met : List Nat) : Sweep :=
  let table := firstSeen (met.map b.colorAt)
  ⟨met.map fun i => entryOf table (b.extent.cell i) (b.colorAt i), table⟩

/-- One step: another opaque cell is met. -/
theorem Sweep.visit_after {b : Canvas} {i : Nat} (hi : (b.colorAt i).alpha ≠ 0) (met : List Nat) :
    (Sweep.after b met).visit b i = Sweep.after b (met ++ [i]) := by
  have htable : firstSeen ((met ++ [i]).map b.colorAt) =
      if b.colorAt i ∈ met.map b.colorAt then firstSeen (met.map b.colorAt)
      else firstSeen (met.map b.colorAt) ++ [b.colorAt i] := by
    rw [List.map_append, List.map_singleton, firstSeen_concat]
  have hkeep : met.map (fun j => entryOf (firstSeen ((met ++ [i]).map b.colorAt)) (b.extent.cell j)
      (b.colorAt j)) =
        met.map fun j => entryOf (firstSeen (met.map b.colorAt)) (b.extent.cell j)
          (b.colorAt j) := by
    refine List.map_congr_left fun j hj => ?_
    have hmem : b.colorAt j ∈ firstSeen (met.map b.colorAt) :=
      mem_firstSeen.mpr (List.mem_map_of_mem hj)
    rw [htable]
    split
    · rfl
    · exact entryOf_append hmem _ _
  simp only [visit, after, if_neg hi, mem_firstSeen, ← htable, List.map_append,
    List.map_singleton] at hkeep ⊢
  rw [hkeep]

/-- The whole run of the loop, by one step after the other. -/
theorem Sweep.foldl_visit (b : Canvas) (numbers : List Nat) :
    numbers.foldl (Sweep.visit b) ⟨[], []⟩ =
      Sweep.after b (numbers.filter fun i => (b.colorAt i).alpha ≠ 0) := by
  induction numbers using List.reverseRecOn with
  | nil => rfl
  | append_singleton numbers i ih =>
    rw [List.foldl_append, List.foldl_cons, List.foldl_nil, ih, List.filter_append]
    by_cases hi : (b.colorAt i).alpha = 0
    · rw [List.filter_cons_of_neg (by simpa using hi), List.filter_nil, List.append_nil, visit,
        if_pos hi]
    · rw [List.filter_cons_of_pos (by simpa using hi), List.filter_nil, visit_after hi]

theorem sweep_eq (b : Canvas) : sweep b = ⟨b.model.voxels, b.colors⟩ := by
  have hvoxels : b.model.voxels = b.opaqueNumbers.map fun i =>
      entryOf b.colors (b.extent.cell i) (b.colorAt i) := by
    rw [Buffer.model, Buffer.opaqueCells_eq, List.map_map]
    rfl
  rw [sweep, Sweep.foldl_visit, ← Buffer.opaqueNumbers, Sweep.after, ← Buffer.metColors,
    ← Buffer.colors_eq, hvoxels]

/-! ## The scan -/

/-- A model lists the opaque cells of a canvas in ascending order, each with the place of its
color in a table, and the table lists the colors in the order in which they were first met. -/
structure FirstSeenScan (b : Canvas) (table : List Rgba) (m : Model) : Prop where
  extent_eq : m.extent = b.extent
  /-- one entry for each opaque cell and no other, at that cell, in a slot with its color -/
  entries : List.Forall₂
    (fun (i : Nat) v => b.coordinate i = .ok v.cell ∧ v.slot.toNat = table.idxOf (b.colorAt i) + 1 ∧
      1 ≤ v.slot.toNat ∧ v.slot.toNat ≤ maxColors ∧ m.color v.slot.toNat = .ok (b.colorAt i))
    b.opaqueNumbers m.voxels
  mem_table : ∀ r, r ∈ table ↔ r ∈ b.metColors
  nodup_table : table.Nodup
  ordered : table.Pairwise fun r q => b.metColors.idxOf r < b.metColors.idxOf q
  length_le : table.length ≤ maxColors
  rows : ∀ (i : Nat) (h : i < 256), m.palette[i] = table[i]?.getD (Record.blank 4)

theorem coordinate_of_mem_opaqueNumbers {b : Canvas} {i : Nat} (h : i ∈ b.opaqueNumbers) :
    b.coordinate i = .ok (b.extent.cell i) := by
  rw [Buffer.opaqueNumbers, List.mem_filter, List.mem_range] at h
  exact b.coordinate_of_lt h.1

end Vox

namespace Buffer

open Vox

/-- The entry for an opaque cell. -/
theorem Scannable.entryOf_cell {b : Canvas} (h : b.Scannable) {i : Nat}
    (hi : i ∈ b.opaqueNumbers) :
    let v := Vox.entryOf b.colors (b.extent.cell i) (b.colorAt i)
    b.coordinate i = .ok v.cell ∧ v.slot.toNat = b.colors.idxOf (b.colorAt i) + 1 ∧
      1 ≤ v.slot.toNat ∧ v.slot.toNat ≤ maxColors ∧
      b.model.color v.slot.toNat = .ok (b.colorAt i) := by
  have hmem : (b.extent.cell i, b.colorAt i) ∈ b.opaqueCells := by
    rw [opaqueCells_eq]
    exact List.mem_map_of_mem hi
  have hcolor : b.colorAt i ∈ b.colors := mem_colors hmem
  have hidx := List.idxOf_lt_length_of_mem hcolor
  have hslot := toNat_slot_entryOf h.colors_le hcolor (b.extent.cell i)
  have hle := h.colors_le
  have hpalette : b.model.palette = .ofColors b.colors := rfl
  refine ⟨?_, hslot, by omega, by omega, ?_⟩
  · rw [cell_entryOf (h.fits _ hmem)]
    exact coordinate_of_mem_opaqueNumbers hi
  · rw [Model.color_slot (slot_entryOf_ne_zero h.colors_le hcolor _)]
    exact congrArg Except.ok (colorIn_entryOf h.colors_le hcolor hpalette _)

theorem Scannable.firstSeenScan {b : Canvas} (h : b.Scannable) :
    FirstSeenScan b b.colors b.model := by
  have hordered : b.colors.Pairwise fun r q => b.metColors.idxOf r < b.metColors.idxOf q := by
    rw [colors_eq]
    exact pairwise_firstSeen b.metColors
  refine ⟨h.extent_model, ?_, ?_, b.nodup_colors, hordered, h.colors_le, ?_⟩
  · have hvoxels : b.model.voxels = b.opaqueNumbers.map fun i =>
        Vox.entryOf b.colors (b.extent.cell i) (b.colorAt i) := by
      rw [model, opaqueCells_eq, List.map_map]
      rfl
    rw [hvoxels, List.forall₂_map_right_iff, List.forall₂_same]
    exact fun i hi => h.entryOf_cell hi
  · intro r
    rw [colors_eq]
    exact mem_firstSeen
  · intro i hi
    show (Palette.ofColors b.colors)[i] = _
    rw [Palette.ofColors, Vector.getElem_ofFn]
    rfl

end Buffer

namespace Vox

/-- Whatever a scan returns has the entries and the table of the loop: it lists the opaque cells in
ascending order and their colors in the order in which they are first met, with blank rows behind
them. -/
theorem scan_firstSeen {b : Canvas} {m : Model} (h : scan .rgba b = .ok m) :
    ∃ table, sweep b = ⟨m.voxels, table⟩ ∧ FirstSeenScan b table m := by
  obtain ⟨hs, rfl⟩ := scanCanvas_eq_ok_iff.mp h
  exact ⟨b.colors, sweep_eq b, hs.firstSeenScan⟩

/-- Two colors in four cells, the later of them in the order of their bytes met first, and a
transparent cell between them. -/
def interleaved : Canvas :=
  let b : Canvas := ⟨⟨3, 2, 2⟩, ∅⟩
  let b := b.apply ⟨⟨10, by decide⟩, #v[1, 2, 3, 4]⟩
  let b := b.apply ⟨⟨1, by decide⟩, #v[6, 5, 4, 255]⟩
  let b := b.apply ⟨⟨4, by decide⟩, #v[1, 2, 3, 4]⟩
  let b := b.apply ⟨⟨5, by decide⟩, #v[1, 2, 3, 0]⟩
  b.apply ⟨⟨7, by decide⟩, #v[6, 5, 4, 255]⟩

theorem scan_firstSeen_interleaved :
    ∃ m, scan .rgba interleaved = .ok m ∧
      ∃ table, sweep interleaved = ⟨m.voxels, table⟩ ∧ FirstSeenScan interleaved table m := by
  have hs : interleaved.Scannable :=
    ⟨by decide, by decide, by decide, by decide, by decide +kernel, by decide +kernel⟩
  have h : scan .rgba interleaved = .ok interleaved.model :=
    scanCanvas_eq_ok_iff.mpr ⟨hs, rfl⟩
  exact ⟨_, h, scan_firstSeen h⟩

end Vox
end VoxelCurve
