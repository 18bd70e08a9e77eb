import VoxelCurve.Proofs.CommandLine.Statistics
import VoxelCurve.Proofs.Render.Painted
import VoxelCurve.Proofs.Vox.Limits

/-!
When a rendering has a model.

The scan of a canvas asks for room for its sides, its colors and its coordinates.  A drawing never
has more colors than its ramp, which is fewer than there are slots, however much is drawn and
drawn over.  So a rendering has a model unless a side of its canvas is no word, or something is
painted too far out along x or y: along z everything stays on the lowest plane.
-/

namespace VoxelCurve

/-- Whether a side of the canvas is larger than a word. -/
def Settings.TooWide (s : Settings) : Prop :=
  ∃ side ∈ s.size, 2 ^ 32 - 1 < side

instance (s : Settings) : Decidable s.TooWide :=
  inferInstanceAs (Decidable (∃ side ∈ s.size, 2 ^ 32 - 1 < side))

/-- Whether something is painted where an entry has no coordinate for it. -/
def Buffer.Spills (b : Canvas) : Prop :=
  ∃ x y z, b.Painted x y z ∧ (255 < x ∨ 255 < y)

namespace LSystem

section Rendered

variable {g : LSystem} {s : Settings} {compass : Compass} {r : Rendering}
  (h : (g.render s compass).result = .ok r)

include h

theorem length_colors_le : r.canvas.colors.length ≤ rampLength := by
  have hinks : r.canvas.colors ⊆ s.inks := by
    intro ink hink
    obtain ⟨⟨c, ink'⟩, hcell, rfl⟩ := List.mem_map.mp (Vox.mem_firstSeen.mp hink)
    obtain ⟨hc, rfl, halpha⟩ := Buffer.mem_opaqueCells.mp hcell
    exact (ink_of_result h hc halpha).2
  have hle := (List.subperm_of_subset r.canvas.nodup_colors hinks).length_le
  have hramp := s.length_inks_le
  omega

/-- Where coordinates are too large, the third one is not among them. -/
theorem spills_iff_of_result :
    r.canvas.Spills ↔ ∃ x y z, r.canvas.Painted x y z ∧ (255 < x ∨ 255 < y ∨ 255 < z) := by
  refine exists_congr fun x => exists_congr fun y => exists_congr fun z => and_congr_right ?_
  intro hpainted
  obtain ⟨c, hc, halpha, -, -, rfl⟩ := Buffer.painted_iff.mp hpainted
  have hz := (ink_of_result h hc halpha).1
  omega

/-- What a scan asks for, of which the number of colors is never missed. -/
theorem model_cases :
    (s.TooWide ∧ r.model = .error (.tooWide s.extent.shown)) ∨
      (r.canvas.Spills ∧ r.model = .error .coordinateTooLarge) ∨
      (¬s.TooWide ∧ ¬r.canvas.Spills ∧ r.model = .ok r.canvas.model) := by
  obtain ⟨b, hallocate⟩ := ((g.ending s compass).exists_rendering_iff.mp ⟨r, h⟩).1
  have hextent := extent_of_result h
  have hshape : r.canvas.extent.isShapeable 4 = true := by
    rw [hextent]
    exact Buffer.isShapeable_of_allocate hallocate
      ⟨s.sizeX.property, s.sizeY.property, s.sizeZ.property⟩
  have hwide : (∃ side ∈ r.canvas.extent.sides, 2 ^ 32 - 1 < side) ↔ s.TooWide := by
    rw [Extent.exists_side_iff, hextent]
    simp only [Settings.TooWide, Settings.size, Settings.extent, Vox.maxWord,
      List.exists_mem_cons_iff, List.not_mem_nil, false_and, exists_const, or_false]
    omega
  have hfew := length_colors_le h
  have hroom : rampLength ≤ 255 := by decide
  have hscan := Vox.scan_cases hshape
  rw [hwide, ← spills_iff_of_result h, hextent] at hscan
  rcases hscan with ⟨hwide, hmodel⟩ | ⟨hmany, -⟩ | ⟨hspills, hmodel⟩ | ⟨⟨hwide, -, hspills⟩, hmodel⟩
  · exact .inl ⟨hwide, hmodel⟩
  · omega
  · exact .inr (.inl ⟨hspills, hmodel⟩)
  · exact .inr (.inr ⟨hwide, hspills, hmodel⟩)

theorem z_of_mem_model {v : Vox.Entry} (hv : v ∈ r.canvas.model.voxels) : v.z = 0 := by
  obtain ⟨⟨c, ink⟩, hcell, rfl⟩ := List.mem_map.mp hv
  obtain ⟨hc, rfl, halpha⟩ := Buffer.mem_opaqueCells.mp hcell
  show UInt8.ofNat c.z = 0
  rw [(ink_of_result h hc halpha).1]
  rfl

/-- A rendering fails to have a model exactly when a side is no word or something is painted too
far out along x or y.  It never fails for its colors, and its entries are all on the lowest
plane. -/
theorem model_never_overflows :
    ((∃ fault, r.model = .error fault) ↔ s.TooWide ∨ r.canvas.Spills) ∧
    (∀ fault, r.model = .error fault →
      fault = .tooWide s.extent.shown ∨ fault = .coordinateTooLarge) ∧
    (r.numColors ≤ rampLength ∧ ∀ count, r.model ≠ .error (.tooManyColors count)) ∧
    ∀ m, r.model = .ok m → ∀ v ∈ m.voxels, v.z = 0 := by
  have hcolors : r.numColors ≤ rampLength := by
    rw [Rendering.numColors_eq]
    exact length_colors_le h
  have hfaults : ∀ fault, r.model = .error fault →
      fault = .tooWide s.extent.shown ∨ fault = .coordinateTooLarge := by
    intro fault hfault
    rcases model_cases h with ⟨-, hmodel⟩ | ⟨-, hmodel⟩ | ⟨-, -, hmodel⟩
    · exact .inl (Except.error.inj (hfault.symm.trans hmodel))
    · exact .inr (Except.error.inj (hfault.symm.trans hmodel))
    · cases hfault.symm.trans hmodel
  refine ⟨?_, hfaults, ⟨hcolors, ?_⟩, ?_⟩
  · rcases model_cases h with ⟨hwide, hmodel⟩ | ⟨hspills, hmodel⟩ | ⟨hwide, hspills, hmodel⟩
    · exact ⟨fun _ => .inl hwide, fun _ => ⟨_, hmodel⟩⟩
    · exact ⟨fun _ => .inr hspills, fun _ => ⟨_, hmodel⟩⟩
    · constructor
      · intro hfault
        obtain ⟨fault, hfault⟩ := hfault
        cases hfault.symm.trans hmodel
      · intro hneither
        exact absurd hneither (not_or.mpr ⟨hwide, hspills⟩)
  · intro count hcount
    rcases hfaults _ hcount with hfault | hfault
    · cases hfault
    · cases hfault
  · intro m hm v hv
    rcases model_cases h with ⟨-, hmodel⟩ | ⟨-, hmodel⟩ | ⟨-, -, hmodel⟩
    · cases hm.symm.trans hmodel
    · cases hm.symm.trans hmodel
    · obtain rfl := Except.ok.inj (hm.symm.trans hmodel)
      exact z_of_mem_model h hv

end Rendered

theorem model_never_overflows_oneStroke : ¬column.TooWide ∧ ∃ r,
    (oneStroke.render column .twoWay).result = .ok r ∧ r.finalPosition = ⟨0, 4⟩ ∧
      ((∃ fault, r.model = .error fault) ↔ column.TooWide ∨ r.canvas.Spills) ∧
      (∀ fault, r.model = .error fault →
        fault = .tooWide column.extent.shown ∨ fault = .coordinateTooLarge) ∧
      (r.numColors ≤ rampLength ∧ ∀ count, r.model ≠ .error (.tooManyColors count)) ∧
      ∀ m, r.model = .ok m → ∀ v ∈ m.voxels, v.z = 0 := by
  obtain ⟨r, hr, hend⟩ := exists_rendering_oneStroke
  exact ⟨by decide, r, hr, hend, model_never_overflows hr⟩

end LSystem
end VoxelCurve
