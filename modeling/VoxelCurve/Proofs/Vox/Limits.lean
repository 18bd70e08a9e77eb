import Mathlib.Data.Set.Card
import VoxelCurve.Proofs.Vox.Canonical

/-!
The limits of the format.

A file has no room for a side that is no word, for more colors than there are slots, and for a
coordinate of an opaque cell that is no byte.  A scan fails for these reasons and for no other, and
where it succeeds nothing that it stores is cut off.  Transparent cells do not matter for any of
this, wherever they are.
-/

namespace VoxelCurve

theorem Extent.exists_side_iff {e : Extent} :
    (∃ side ∈ e.sides, 2 ^ 32 - 1 < side) ↔
      e.width > Vox.maxWord ∨ e.depth > Vox.maxWord ∨ e.height > Vox.maxWord := by
  simp only [Extent.sides, Vox.maxWord, List.exists_mem_cons_iff, List.not_mem_nil, false_and,
    exists_const, or_false]
  omega

namespace Buffer

/-- As many colors are listed as there are opaque ones that can be read. -/
theorem ncard_opaqueColors (b : Canvas) :
    {r : Rgba | r.alpha ≠ 0 ∧ ∃ x y z, b.get x y z = .ok r}.ncard = b.colors.length := by
  have hcolors : {r : Rgba | r.alpha ≠ 0 ∧ ∃ x y z, b.get x y z = .ok r} =
      (b.colors.toFinset : Set Rgba) := by
    ext r
    rw [List.coe_toFinset, Set.mem_ofPred_eq, Set.mem_ofPred_eq, colors, Vox.mem_firstSeen,
      List.mem_map]
    constructor
    · intro h
      obtain ⟨halpha, x, y, z, hget⟩ := h
      obtain ⟨c, hmem, -⟩ := get_opaque_iff.mp ⟨hget, halpha⟩
      exact ⟨(c, r), hmem, rfl⟩
    · intro h
      obtain ⟨⟨c, r'⟩, hmem, rfl⟩ := h
      obtain ⟨hget, halpha⟩ := get_opaque_iff.mpr ⟨c, hmem, rfl, rfl, rfl⟩
      exact ⟨halpha, _, _, _, hget⟩
  rw [hcolors, Set.ncard_coe_finset, List.toFinset_card_of_nodup b.nodup_colors]

/-- Some opaque cell has no entry exactly when something is painted past the bytes. -/
theorem exists_not_fits_iff {b : Canvas} :
    (∃ r ∈ b.opaqueCells, Vox.fits r.1 = false) ↔
      ∃ x y z, b.Painted x y z ∧ (255 < x ∨ 255 < y ∨ 255 < z) := by
  constructor
  · intro h
    obtain ⟨⟨c, r⟩, hmem, hunfit⟩ := h
    have hfar : 255 < c.x ∨ 255 < c.y ∨ 255 < c.z := Vox.fits_eq_false_iff.mp hunfit
    exact ⟨c.x, c.y, c.z, ⟨r, get_opaque_iff.mpr ⟨c, hmem, rfl, rfl, rfl⟩⟩, by omega⟩
  · intro h
    obtain ⟨x, y, z, ⟨r, hr⟩, hfar⟩ := h
    obtain ⟨c, hmem, rfl, rfl, rfl⟩ := get_opaque_iff.mp hr
    have hunfit : Vox.fits c = false := Vox.fits_eq_false_iff.mpr (by omega)
    exact ⟨(c, r), hmem, hunfit⟩

end Buffer

namespace Vox

open Buffer

/-- A scan does not tell canvases apart that look alike, whether or not it succeeds. -/
theorem scan_of_looksLike {b b' : Canvas} (h : b.LooksLike b') :
    scan .rgba b' = scan .rgba b := by
  show scanCanvas b' = scanCanvas b
  have hcolors : b'.colors = b.colors := by rw [colors, colors, h.opaqueCells_eq]
  rw [scanCanvas_eq, scanCanvas_eq, ← h.model_eq, hcolors, ← h.opaqueCells_eq, ← h.extent_eq]

/-- A canvas that was had is scanned unless the format has no room for it. -/
theorem scan_cases {b : Canvas} (h : b.extent.isShapeable 4 = true) :
    (∃ side ∈ b.extent.sides, 2 ^ 32 - 1 < side) ∧
        scan .rgba b = .error (.tooWide b.extent.shown) ∨
      255 < b.colors.length ∧ scan .rgba b = .error (.tooManyColors b.colors.length) ∨
      (∃ x y z, b.Painted x y z ∧ (255 < x ∨ 255 < y ∨ 255 < z)) ∧
        scan .rgba b = .error .coordinateTooLarge ∨
      (¬(∃ side ∈ b.extent.sides, 2 ^ 32 - 1 < side) ∧ ¬255 < b.colors.length ∧
        ¬∃ x y z, b.Painted x y z ∧ (255 < x ∨ 255 < y ∨ 255 < z)) ∧
        scan .rgba b = .ok b.model := by
  have hscan : scan .rgba b = _ := scanCanvas_eq b
  rw [h, Bool.not_true, if_neg Bool.false_ne_true] at hscan
  rw [Extent.exists_side_iff, ← exists_not_fits_iff]
  by_cases hsides : b.extent.width > maxWord ∨ b.extent.depth > maxWord ∨ b.extent.height > maxWord
  · rw [if_pos hsides] at hscan
    exact .inl ⟨hsides, hscan⟩
  rw [if_neg hsides] at hscan
  by_cases hcolors : b.colors.length > maxColors
  · rw [if_pos hcolors] at hscan
    exact .inr (.inl ⟨hcolors, hscan⟩)
  rw [if_neg hcolors] at hscan
  by_cases hfits : ∃ r ∈ b.opaqueCells, fits r.1 = false
  · rw [if_pos (by simpa using hfits)] at hscan
    exact .inr (.inr (.inl ⟨hfits, hscan⟩))
  · rw [if_neg (by simpa using hfits)] at hscan
    exact .inr (.inr (.inr ⟨⟨hsides, hcolors, hfits⟩, hscan⟩))

/-- A scan of a canvas that was had fails exactly if a side is no word, if the opaque cells have
more colors than there are slots, or if an opaque cell has a coordinate that is no byte.  If it
does not fail, no coordinate and no slot is cut off.  What is under transparent cells, and where
they are, does not change anything. -/
theorem scan_limits {b b₀ : Canvas} (h : Buffer.allocate .rgba b.extent = .ok b₀)
    (hsides : 0 < b.extent.width ∧ 0 < b.extent.depth ∧ 0 < b.extent.height) :
    ((∃ fault, scan .rgba b = .error fault) ↔
      (∃ side ∈ b.extent.sides, 2 ^ 32 - 1 < side) ∨
      255 < {r : Rgba | r.alpha ≠ 0 ∧ ∃ x y z, b.get x y z = .ok r}.ncard ∨
      ∃ x y z, b.Painted x y z ∧ (255 < x ∨ 255 < y ∨ 255 < z)) ∧
    (∀ fault, scan .rgba b = .error fault →
      fault ∈ [.tooWide b.extent.shown, .tooManyColors b.colors.length, .coordinateTooLarge]) ∧
    (∀ m, scan .rgba b = .ok m → m.extent = b.extent ∧
      List.Forall₂ (fun (i : Nat) v => b.coordinate i = .ok v.cell ∧
        v.slot.toNat = b.colors.idxOf (b.colorAt i) + 1 ∧
        m.color v.slot.toNat = .ok (b.colorAt i)) b.opaqueNumbers m.voxels) ∧
    ∀ b', b.LooksLike b' → scan .rgba b' = scan .rgba b := by
  have hcases := scan_cases (isShapeable_of_allocate h hsides)
  refine ⟨?_, ?_, ?_, fun b' => scan_of_looksLike⟩
  · rw [ncard_opaqueColors]
    rcases hcases with ⟨hwide, hscan⟩ | ⟨hmany, hscan⟩ | ⟨hfar, hscan⟩ | ⟨hroom, hscan⟩
    · exact iff_of_true ⟨_, hscan⟩ (.inl hwide)
    · exact iff_of_true ⟨_, hscan⟩ (.inr (.inl hmany))
    · exact iff_of_true ⟨_, hscan⟩ (.inr (.inr hfar))
    · refine iff_of_false ?_ (by rwa [not_or, not_or])
      intro hfault
      obtain ⟨fault, hfault⟩ := hfault
      cases hscan.symm.trans hfault
  · intro fault hfault
    rcases hcases with ⟨-, hscan⟩ | ⟨-, hscan⟩ | ⟨-, hscan⟩ | ⟨-, hscan⟩ <;>
      cases hscan.symm.trans hfault <;> simp
  · intro m hm
    obtain ⟨hs, rfl⟩ := scanCanvas_eq_ok_iff.mp hm
    refine ⟨hs.extent_model, hs.firstSeenScan.entries.imp ?_⟩
    intro i v hentry
    obtain ⟨hcell, hslot, -, -, hcolor⟩ := hentry
    exact ⟨hcell, hslot, hcolor⟩

/-- A tower with an opaque cell at the greatest coordinate of an entry, and a transparent one above
it. -/
def tower : Canvas :=
  let b : Canvas := ⟨⟨1, 1, 300⟩, ∅⟩
  let b := b.apply ⟨⟨255, by decide⟩, #v[40, 80, 120, 255]⟩
  b.apply ⟨⟨299, by decide⟩, #v[120, 80, 40, 0]⟩

theorem scan_limits_tower :
    Buffer.allocate .rgba tower.extent = .ok ⟨tower.extent, ∅⟩ ∧
      (∃ m, scan .rgba tower = .ok m ∧ m.extent = tower.extent ∧
        m.voxels.map Entry.cell = [⟨0, 0, 255⟩]) ∧
      ¬∃ x y z, tower.Painted x y z ∧ (255 < x ∨ 255 < y ∨ 255 < z) := by
  have hallocate : Buffer.allocate .rgba tower.extent = .ok ⟨tower.extent, ∅⟩ := rfl
  have hs : tower.Scannable :=
    ⟨by decide, by decide, by decide, by decide, by decide +kernel, by decide +kernel⟩
  have hscan : scan .rgba tower = .ok tower.model := scanCanvas_eq_ok_iff.mpr ⟨hs, rfl⟩
  obtain ⟨hfails, -, hexact, -⟩ := scan_limits hallocate (by decide)
  refine ⟨hallocate, ⟨tower.model, hscan, (hexact _ hscan).1, by decide +kernel⟩, ?_⟩
  intro hfar
  obtain ⟨fault, hfault⟩ := hfails.mpr (.inr (.inr hfar))
  cases hscan.symm.trans hfault

end Vox
end VoxelCurve
