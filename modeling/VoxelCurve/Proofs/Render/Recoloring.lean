import VoxelCurve.Proofs.CommandLine.Statistics
import VoxelCurve.Proofs.Render.Painted

/-!
What the rainbow leaves alone.

Two drawings of one sentence, one with the rainbow on and one without it, are followed side by
side.  At any moment the two turtles differ in nothing but their canvases, and these have color at
the same cells.  A line finds its points without looking at a color, and every color that is at
hand can be stored and is not transparent; so a draw fails for both turtles at the same point, or
for none of them.  What does not draw cannot tell the canvases apart.
-/

namespace VoxelCurve

/-- Whether two canvases of the same sides have color at the same cells. -/
structure Alike (e : Extent) (b b' : Canvas) : Prop where
  left : b.extent = e
  right : b'.extent = e
  alpha : ∀ c, e.Contains c → ((b.ink c).alpha = 0 ↔ (b'.ink c).alpha = 0)

/-- A color that can be stored and is seen then. -/
def Color.Solid (c : Color) : Prop :=
  ∃ r, c.record = .ok r ∧ r.alpha ≠ 0

namespace Alike

variable {e : Extent} {b b' : Canvas} (h : Alike e b b')

include h

theorem painted_iff (x y z : Int) : b.Painted x y z ↔ b'.Painted x y z := by
  obtain ⟨hleft, hright, halpha⟩ := h
  rw [Buffer.painted_iff, Buffer.painted_iff, hleft, hright]
  refine exists_congr fun c => and_congr_right fun hc => ?_
  rw [Ne, halpha c hc]

theorem opaqueNumbers_eq : b.opaqueNumbers = b'.opaqueNumbers := by
  obtain ⟨hleft, hright, halpha⟩ := h
  rw [Buffer.opaqueNumbers, Buffer.opaqueNumbers, hleft, hright]
  refine List.filter_congr ?_
  intro i hi
  have hcell := halpha _ (Extent.contains_cell (List.mem_range.mp hi))
  have hcolor : b.colorAt i = b.ink (e.cell i) := by
    rw [← hleft]
    rfl
  have hcolor' : b'.colorAt i = b'.ink (e.cell i) := by
    rw [← hright]
    rfl
  rw [hcolor, hcolor', decide_eq_decide]
  exact not_congr hcell

/-- Solid colors at one cell of both. -/
theorem apply {c : Cell} (hc : b.extent.Contains c) (hc' : b'.extent.Contains c) {r r' : Rgba}
    (hr : r.alpha ≠ 0) (hr' : r'.alpha ≠ 0) :
    Alike e (b.apply ⟨⟨b.extent.index c, Extent.index_lt_count hc⟩, r⟩)
      (b'.apply ⟨⟨b'.extent.index c, Extent.index_lt_count hc'⟩, r'⟩) where
  left := h.left
  right := h.right
  alpha d hd := by
    rw [Canvas.ink_apply hc (h.left ▸ hd), Canvas.ink_apply hc' (h.right ▸ hd)]
    by_cases hcd : c = d
    · rw [if_pos hcd, if_pos hcd]
      exact iff_of_false hr hr'
    · rw [if_neg hcd, if_neg hcd]
      exact h.alpha d hd

/-- Points painted with solid colors, up to the same one if they cannot all be painted. -/
theorem paintPoints {c c' : Color} (hc : c.Solid) (hc' : c'.Solid) (hheight : 0 < e.height)
    (points : List Point) :
    let painted := Turtle.paintPoints (points.zip (List.replicate points.length c)) b
    let painted' := Turtle.paintPoints (points.zip (List.replicate points.length c')) b'
    painted'.1 = painted.1 ∧ Alike e painted.2 painted'.2 := by
  obtain ⟨r, hr, halpha⟩ := hc
  obtain ⟨r', hr', halpha'⟩ := hc'
  induction points generalizing b b' with
  | nil => exact ⟨rfl, h⟩
  | cons p points ih =>
    simp only [List.length_cons, List.replicate_succ, List.zip_cons_cons, Turtle.paintPoints]
    by_cases hp : e.Holds p
    · obtain ⟨hcell, hedit⟩ :=
        Turtle.pointEdit_of_holds hr (show b.extent.Holds p ∧ _ from h.left ▸ ⟨hp, hheight⟩)
      obtain ⟨hcell', hedit'⟩ :=
        Turtle.pointEdit_of_holds hr' (show b'.extent.Holds p ∧ _ from h.right ▸ ⟨hp, hheight⟩)
      rw [hedit, hedit']
      exact ih (h.apply hcell hcell' halpha halpha')
    · rw [Turtle.pointEdit_of_not_holds hr fun hp' => hp (h.left ▸ hp'.1),
        Turtle.pointEdit_of_not_holds hr' fun hp' => hp (h.right ▸ hp'.1)]
      refine ⟨?_, h⟩
      show some (BufferFault.address (.noCell p.x p.y 0 b'.extent)) =
        some (.address (.noCell p.x p.y 0 b.extent))
      rw [h.left, h.right]

end Alike

/-! ## Side by side -/

/-- Whether two drawings have come to the same: the same fault, if any, and turtles that differ in
their canvases only, which are alike. -/
def Outcome.Twin (e : Extent) (o o' : Outcome) : Prop :=
  ∃ b, o' = o.onto b ∧ Alike e o.turtle.canvas b ∧ o.turtle.color = Turtle.black

/-- What may be drawn with by a turtle that is black. -/
def Paint.Solid (paint? : Option Paint) : Prop :=
  ∃ c, (paint?.getD (.color Turtle.black)).toColor = .ok c ∧ c.Solid

namespace Outcome.Twin

variable {e : Extent} {t : Turtle} {b : Canvas}

theorem andThen {o o' : Outcome} {next next' : Turtle → Outcome} (h : Twin e o o')
    (hnext : ∀ t b, t.color = Turtle.black → Alike e t.canvas b →
      Twin e (next t) (next' (t.onto b))) : Twin e (o.andThen next) (o'.andThen next') := by
  obtain ⟨b, rfl, halike, hblack⟩ := h
  obtain ⟨_ | fault, t⟩ := o
  · exact hnext t b hblack halike
  · exact ⟨b, rfl, halike, hblack⟩

section Commands

variable (ht : t.color = Turtle.black) (hb : Alike e t.canvas b)

include ht hb

theorem blind {command : Turtle → Outcome} (h : Blind command) :
    Twin e (command t) (command (t.onto b)) := by
  refine ⟨b, h.onto t b, ?_, (h.color t).trans ht⟩
  rw [h.canvas]
  exact hb

theorem drawWith {paint paint' : Paint} {c c' : Color} (hpaint : paint.toColor = .ok c)
    (hpaint' : paint'.toColor = .ok c') (hc : c.Solid) (hc' : c'.Solid) (hheight : 0 < e.height)
    (distance : Value) :
    Twin e (t.drawWith distance paint) ((t.onto b).drawWith distance paint') := by
  have hsame : (t.onto b).destination distance = t.destination distance := rfl
  cases hdest : t.destination distance with
  | error fault =>
    rw [Turtle.drawWith_of_error hdest, Turtle.drawWith_of_error (hsame.trans hdest)]
    exact ⟨b, rfl, hb, ht⟩
  | ok stop =>
    rw [Turtle.drawWith_eq hdest hpaint, Turtle.drawWith_eq (hsame.trans hdest) hpaint']
    obtain ⟨hfault, halike⟩ := hb.paintPoints hc hc' hheight (Line.points t.position stop)
    refine ⟨_, ?_, halike, ht⟩
    exact congrArg (fun fault? : Option BufferFault =>
      Outcome.mk (fault?.map .canvas) ((t.moveTo stop).onto _)) hfault

end Commands
end Outcome.Twin

namespace Settings

open Outcome (Twin)

section Commands

variable {s : Settings} {t : Turtle} {b : Canvas}

theorem twin_interpret {paint? paint?' : Option Paint} (hpaint : Paint.Solid paint?)
    (hpaint' : Paint.Solid paint?') (ht : t.color = Turtle.black)
    (hb : Alike s.extent t.canvas b) (c : Symbol) :
    Twin s.extent (s.interpret c paint? t) (s.interpret c paint?' (t.onto b)) := by
  have hdraw : ∀ t b, t.color = Turtle.black → Alike s.extent t.canvas b →
      Twin s.extent (s.draw paint? t) (s.draw paint?' (t.onto b)) := by
    intro t b ht hb
    obtain ⟨c, hcolor, hc⟩ := hpaint
    obtain ⟨c', hcolor', hc'⟩ := hpaint'
    have hself : t.onto t.canvas = t := rfl
    have hfirst := draw_eq (s := s) (b := t.canvas) ht paint?
    rw [hself] at hfirst
    rw [hfirst, draw_eq ht]
    exact .drawWith ht hb hcolor hcolor' hc hc' s.sizeZ.property s.distance
  cases c with
  | step => exact .blind ht hb (.step s.distance)
  | draw => exact hdraw t b ht hb
  | left => exact .blind ht hb (.left s.angle)
  | right => exact .blind ht hb (.right s.angle)
  | drawLeft =>
    refine ((hdraw t b ht hb).andThen ?_).andThen hdraw
    intro t b ht hb
    exact .blind ht hb (.left s.angle)
  | drawRight =>
    refine ((hdraw t b ht hb).andThen ?_).andThen hdraw
    intro t b ht hb
    exact .blind ht hb (.right s.angle)
  | subfigureA => exact .blind ht hb .pass
  | subfigureB => exact .blind ht hb .pass

/-- Whatever the place, what is found there can be drawn with. -/
theorem solid_paintAt (s : Settings) (place : Nat) : Paint.Solid (paintAt s.ramp? place) := by
  have hblack : Turtle.black.Solid := ⟨Rgba.ofBytes 0 0 0 255, rfl, by decide⟩
  unfold paintAt ramp?
  cases s.rainbow.isGiven with
  | false => exact ⟨Turtle.black, rfl, hblack⟩
  | true =>
    rw [if_pos rfl, Option.bind_some, List.getElem?_toArray]
    cases hplace : (Ramp.rainbow rampLength)[place]? with
    | none => exact ⟨Turtle.black, rfl, hblack⟩
    | some r =>
      refine ⟨Color.ofRecord r, rfl, r, Color.record_ofRecord r, ?_⟩
      rw [Ramp.alpha_of_mem_rainbow (List.mem_of_getElem? hplace)]
      decide

/-- The sentence, from any place on the ramp on. -/
theorem twin_interpretAll (s' : Settings) (place : Nat) (commands : Sentence)
    (ht : t.color = Turtle.black) (hb : Alike s.extent t.canvas b) :
    Twin s.extent (s.interpretAll s.ramp? place commands t)
      (s.interpretAll s'.ramp? place commands (t.onto b)) := by
  induction commands generalizing place t b with
  | nil => exact ⟨b, rfl, hb, ht⟩
  | cons c rest ih =>
    rw [interpretAll_cons, interpretAll_cons]
    refine (twin_interpret (s.solid_paintAt _) (s'.solid_paintAt _) ht hb c).andThen ?_
    intro t b ht hb
    exact ih (advance place c) ht hb

theorem interpretAll_recolored (s : Settings) (rainbow : Value) (ramp? : Option (Array Rgba))
    (place : Nat) (commands : Sentence) (t : Turtle) :
    { s with rainbow }.interpretAll ramp? place commands t =
      s.interpretAll ramp? place commands t := by
  induction commands generalizing place t with
  | nil => rfl
  | cons c rest ih =>
    have hcommand : ∀ paint? t,
        { s with rainbow }.interpret c paint? t = s.interpret c paint? t := by
      intro paint? t
      cases c <;> rfl
    rw [interpretAll, interpretAll, hcommand]
    simp only [ih]

end Commands
end Settings

/-- Whether two renderings differ in nothing but their colors. -/
structure Rendering.SameGeometry (r r' : Rendering) : Prop where
  painted : ∀ x y z, r.canvas.Painted x y z ↔ r'.canvas.Painted x y z
  numVoxels : r.numVoxels = r'.numVoxels
  numCommands : r.numCommands = r'.numCommands
  finalPosition : r.finalPosition = r'.finalPosition

namespace LSystem

/-- What became of a drawing by a turtle that is ready. -/
theorem drawn_recolored (g : LSystem) {s : Settings} {t : Turtle} (ht : t.color = Turtle.black)
    (hb : t.canvas = ⟨s.extent, ∅⟩) (rainbow : Value) (commands : Sentence) :
    (∃ fault, g.drawn s commands t = .error fault ∧
      g.drawn { s with rainbow } commands t = .error fault) ∨
    ∃ r r', g.drawn s commands t = .ok r ∧ g.drawn { s with rainbow } commands t = .ok r' ∧
      r.SameGeometry r' := by
  have hblank : Alike s.extent t.canvas t.canvas := by
    rw [hb]
    exact ⟨rfl, rfl, fun _ _ => Iff.rfl⟩
  have hdrawn : ∀ s' : Settings, g.drawn s' commands t =
      g.finished commands (s'.interpretAll s'.ramp? 0 commands t) := fun _ => rfl
  obtain ⟨b, hrun, halike, -⟩ :=
    Settings.twin_interpretAll (s := s) { s with rainbow } 0 commands ht hblank
  have hrecolored := (s.interpretAll_recolored rainbow _ 0 commands t).trans hrun
  rw [hdrawn s, hdrawn { s with rainbow }, hrecolored]
  generalize s.interpretAll s.ramp? 0 commands t = o at halike
  obtain ⟨_ | fault, t'⟩ := o
  · refine .inr ⟨_, _, rfl, rfl, halike.painted_iff, ?_, rfl, rfl⟩
    rw [Rendering.numVoxels_eq, Rendering.numVoxels_eq, Buffer.opaqueCells_eq,
      Buffer.opaqueCells_eq, List.length_map, List.length_map]
    exact congrArg List.length halike.opaqueNumbers_eq
  · exact .inl ⟨_, rfl, rfl⟩

/-- With the rainbow or without it, a render fails in the same way, or it ends with two renderings
that differ in nothing but their colors. -/
theorem render_recolored (g : LSystem) (s : Settings) (compass : Compass) (rainbow : Value) :
    (∃ fault, (g.render s compass).result = .error fault ∧
      (g.render { s with rainbow } compass).result = .error fault) ∨
    ∃ r r', (g.render s compass).result = .ok r ∧
      (g.render { s with rainbow } compass).result = .ok r' ∧ r.SameGeometry r' := by
  have hturtle : { s with rainbow }.turtle compass = s.turtle compass := rfl
  rw [result_render, result_render, hturtle]
  cases ht : s.turtle compass with
  | error fault => exact .inl ⟨fault, rfl, rfl⟩
  | ok t =>
    obtain ⟨-, hblack, hcanvas⟩ := Settings.of_turtle ht
    exact g.drawn_recolored hblack hcanvas rainbow (g.generation s.derivationLength)

end LSystem
end VoxelCurve
