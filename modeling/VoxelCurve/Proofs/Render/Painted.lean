import VoxelCurve.Proofs.Color.Ramp
import VoxelCurve.Proofs.Render.Reference
import VoxelCurve.Proofs.Turtle.Gradient

/-!
What a rendering has painted.

All colors of a drawing are among a few that its settings tell, and they are opaque.  So a cell
of a rendering is either as it was on the blank canvas or painted with one of them, and the
painted cells are those of the lowest plane that a stroke covers: nothing that is drawn on top
can uncover them again.
-/

namespace VoxelCurve

theorem Buffer.painted_iff {b : Canvas} {x y z : Int} :
    b.Painted x y z ↔
      ∃ c : Cell, b.extent.Contains c ∧ (b.ink c).alpha ≠ 0 ∧ c.x = x ∧ c.y = y ∧ c.z = z := by
  simp only [Painted, get_opaque_iff, mem_opaqueCells]
  constructor
  · intro h
    obtain ⟨r, c, ⟨hc, rfl, halpha⟩, hplace⟩ := h
    exact ⟨c, hc, halpha, hplace⟩
  · intro h
    obtain ⟨c, hc, halpha, hplace⟩ := h
    exact ⟨b.ink c, c, ⟨hc, rfl, halpha⟩, hplace⟩

namespace Stroke

variable {strokes : List Stroke} {p : Point}

theorem topmost?_eq_none (ink : Nat → Rgba) (h : ¬∃ k ∈ strokes, Covers p k) :
    topmost? ink strokes p = none := by
  rw [topmost?, List.findRev?_eq_find?_reverse, Option.map_eq_none_iff, List.find?_eq_none]
  intro k hk hcovers
  exact h ⟨k, List.mem_reverse.mp hk, of_decide_eq_true hcovers⟩

theorem exists_topmost? (ink : Nat → Rgba) (h : ∃ k ∈ strokes, Covers p k) :
    ∃ number, topmost? ink strokes p = some (ink number) := by
  obtain ⟨k, hk, hcovers⟩ := h
  have hfound : (strokes.reverse.find? fun k => Covers p k).isSome = true :=
    List.find?_isSome.mpr ⟨k, List.mem_reverse.mpr hk, decide_eq_true hcovers⟩
  obtain ⟨k', hk'⟩ := Option.isSome_iff_exists.mp hfound
  refine ⟨k'.command, ?_⟩
  rw [topmost?, List.findRev?_eq_find?_reverse, hk', Option.map_some]

end Stroke

/-! ## Where a drawing starts, and its colors -/

namespace Settings

/-- The turtle of a drawing is black and above a blank canvas. -/
theorem of_turtle {s : Settings} {compass : Compass} {t : Turtle} (h : s.turtle compass = .ok t) :
    s.approach (Turtle.onCanvas compass ⟨s.extent, ∅⟩) = ⟨none, t⟩ ∧ t.color = Turtle.black ∧
      t.canvas = ⟨s.extent, ∅⟩ := by
  have happroach : s.approach (Turtle.onCanvas compass ⟨s.extent, ∅⟩) = ⟨none, t⟩ := by
    rw [turtle, create_eq] at h
    cases hallocate : Buffer.allocate .rgba s.extent with
    | error fault =>
      rw [hallocate] at h
      cases h
    | ok b =>
      obtain rfl := Buffer.eq_of_allocate hallocate
      rw [hallocate] at h
      simp only [Except.map] at h
      rcases houtcome : s.approach (Turtle.onCanvas compass ⟨s.extent, ∅⟩) with ⟨_ | fault, t'⟩
      · rw [houtcome] at h
        rw [Except.ok.inj h]
      · rw [houtcome] at h
        cases h
  have hcolor := s.blind_approach.color (Turtle.onCanvas compass ⟨s.extent, ∅⟩)
  have hcanvas := s.blind_approach.canvas (Turtle.onCanvas compass ⟨s.extent, ∅⟩)
  rw [happroach] at hcolor hcanvas
  exact ⟨happroach, hcolor, hcanvas⟩

/-- The colors that a drawing can have. -/
def inks (s : Settings) : List Rgba :=
  if s.rainbow.isGiven then Ramp.rainbow rampLength else [Rgba.ofBytes 0 0 0 255]

theorem length_inks_le (s : Settings) : s.inks.length ≤ rampLength := by
  unfold inks
  split
  · rw [Ramp.length_rainbow]
  · decide

theorem alpha_of_mem_inks {s : Settings} {r : Rgba} (h : r ∈ s.inks) : r.alpha = 255 := by
  unfold inks at h
  split at h
  · exact Ramp.alpha_of_mem_rainbow h
  · rw [List.mem_singleton.mp h]
    rfl

theorem inkAt_mem_inks (s : Settings) (commands : Sentence) (k : Nat) :
    s.inkAt commands k ∈ s.inks := by
  dsimp only [inkAt, inks]
  split
  · exact List.getElem_mem _
  · exact List.mem_singleton_self _

theorem alpha_inkAt (s : Settings) (commands : Sentence) (k : Nat) :
    (s.inkAt commands k).alpha = 255 :=
  alpha_of_mem_inks (s.inkAt_mem_inks commands k)

end Settings

/-! ## The cells of a rendering -/

/-- Strokes leave one of their colors where they cover the lowest plane, and no color elsewhere. -/
theorem Inked.ink_cases {e : Extent} {ink : Nat → Rgba} {strokes : List Stroke} {b : Canvas}
    (h : Inked e ink strokes ⟨e, ∅⟩ b) {c : Cell} (hc : e.Contains c) :
    ((c.z = 0 ∧ ∃ k ∈ strokes, k.Covers c.point) ∧ ∃ number, b.ink c = ink number) ∨
      ¬(c.z = 0 ∧ ∃ k ∈ strokes, k.Covers c.point) ∧ b.ink c = Record.blank 4 := by
  have hink := h.ink_eq c hc
  rw [Canvas.ink_empty] at hink
  by_cases hz : c.z = 0
  · rw [if_pos hz] at hink
    by_cases hcovered : ∃ k ∈ strokes, k.Covers c.point
    · obtain ⟨number, htop⟩ := Stroke.exists_topmost? ink hcovered
      rw [htop] at hink
      exact .inl ⟨⟨hz, hcovered⟩, number, hink⟩
    · rw [Stroke.topmost?_eq_none ink hcovered] at hink
      exact .inr ⟨fun h => hcovered h.2, hink⟩
  · rw [if_neg hz] at hink
    exact .inr ⟨fun h => hz h.1, hink⟩

/-- Opaque strokes are seen wherever they cover the lowest plane, and nothing else is. -/
theorem Inked.alpha_ne_iff {e : Extent} {ink : Nat → Rgba} {strokes : List Stroke} {b : Canvas}
    (h : Inked e ink strokes ⟨e, ∅⟩ b) (hsolid : ∀ number, (ink number).alpha = 255) {c : Cell}
    (hc : e.Contains c) :
    (b.ink c).alpha ≠ 0 ↔ c.z = 0 ∧ ∃ k ∈ strokes, k.Covers c.point := by
  rcases h.ink_cases hc with ⟨hcovered, number, hink⟩ | ⟨hnone, hink⟩
  · rw [hink, hsolid]
    exact iff_of_true (by decide) hcovered
  · rw [hink]
    exact iff_of_false (not_not_intro rfl) hnone

namespace LSystem

section Rendered

variable {g : LSystem} {s : Settings} {compass : Compass} {r : Rendering}
  (h : (g.render s compass).result = .ok r)

include h

theorem extent_of_result : r.canvas.extent = s.extent := by
  obtain ⟨b, hinked, rfl⟩ := (g.ending s compass).eq_of_ok h
  exact hinked.extent

theorem finalPosition_of_result : r.finalPosition =
    (s.tour compass (g.generation s.derivationLength)).outcome.turtle.position := by
  obtain ⟨b, -, rfl⟩ := (g.ending s compass).eq_of_ok h
  rfl

/-- Every color that is seen is one of the drawing, and it is on the lowest plane. -/
theorem ink_of_result {c : Cell} (hc : r.canvas.extent.Contains c)
    (halpha : (r.canvas.ink c).alpha ≠ 0) : c.z = 0 ∧ r.canvas.ink c ∈ s.inks := by
  obtain ⟨b, hinked, rfl⟩ := (g.ending s compass).eq_of_ok h
  have hcontains : s.extent.Contains c := hinked.extent ▸ hc
  rcases hinked.ink_cases hcontains with ⟨⟨hz, -⟩, number, hink⟩ | ⟨-, hink⟩
  · refine ⟨hz, ?_⟩
    show b.ink c ∈ s.inks
    rw [hink]
    exact s.inkAt_mem_inks _ number
  · have hblank : (b.ink c).alpha = 0 := congrArg Rgba.alpha hink
    exact absurd hblank halpha

/-- The painted cells are those of the lowest plane that are covered. -/
theorem painted_iff_of_result (x y z : Int) :
    r.canvas.Painted x y z ↔
      z = 0 ∧ ∃ k ∈ (s.tour compass (g.generation s.derivationLength)).strokes,
        k.Covers ⟨x, y⟩ := by
  have hinside := ((g.ending s compass).exists_rendering_iff.mp ⟨r, h⟩).2.2
  obtain ⟨b, hinked, rfl⟩ := (g.ending s compass).eq_of_ok h
  have hsolid := s.alpha_inkAt (g.generation s.derivationLength)
  rw [Buffer.painted_iff]
  constructor
  · intro hpainted
    obtain ⟨c, hc, halpha, rfl, rfl, rfl⟩ := hpainted
    obtain ⟨hz, hcovered⟩ := (hinked.alpha_ne_iff hsolid (hinked.extent ▸ hc)).mp halpha
    exact ⟨congrArg Nat.cast hz, hcovered⟩
  · intro hcovered
    obtain ⟨rfl, k, hk, hcovers⟩ := hcovered
    obtain ⟨⟨hx, hwidth⟩, ⟨hy, hdepth⟩⟩ :=
      Extent.holds_points_iff.mpr (hinside k hk) ⟨x, y⟩ hcovers
    obtain ⟨x, rfl⟩ := Int.eq_ofNat_of_zero_le hx
    obtain ⟨y, rfl⟩ := Int.eq_ofNat_of_zero_le hy
    have hcontains : s.extent.Contains ⟨x, y, 0⟩ :=
      ⟨Int.ofNat_lt.mp hwidth, Int.ofNat_lt.mp hdepth, s.sizeZ.property⟩
    exact ⟨⟨x, y, 0⟩, hinked.extent.symm ▸ hcontains,
      (hinked.alpha_ne_iff hsolid hcontains).mpr ⟨rfl, k, hk, hcovers⟩, rfl, rfl, rfl⟩

end Rendered

/-! ## A drawing of one stroke -/

/-- A grammar of one symbol that draws. -/
def oneStroke : LSystem :=
  ⟨.text "stroke", [.draw], .empty⟩

/-- A canvas of a single column. -/
def column : Settings :=
  { Settings.defaults with
    sizeX := ⟨1, Nat.one_pos⟩, sizeY := ⟨5, Nat.succ_pos 4⟩, sizeZ := ⟨1, Nat.one_pos⟩ }

/-- The turtle draws from the middle of the column to its end. -/
theorem exists_rendering_oneStroke :
    ∃ r, (oneStroke.render column .twoWay).result = .ok r ∧ r.finalPosition = ⟨0, 4⟩ := by
  have hposition : (oneStroke.render column .twoWay).result.toOption.map Rendering.finalPosition =
      some ⟨0, 4⟩ := by decide +kernel
  obtain ⟨r, hr, hend⟩ := Option.map_eq_some_iff.mp hposition
  exact ⟨r, toOption_eq_some_iff.mp hr, hend⟩

end LSystem
end VoxelCurve
