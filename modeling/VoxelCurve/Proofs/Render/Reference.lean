import Mathlib.Data.List.Induction
import VoxelCurve.Proofs.Render.Tour
import VoxelCurve.Proofs.Run.Script
import VoxelCurve.Render.Rendering

/-!
What a rendering shows.

The color of a command is known from the commands up to it: the place on the ramp is the number
of those that do not only move, up to the last place.  With it the drawing of a sentence follows
the tour of the sentence (`follows_run`), and `render_reference` says what this means for a
rendering: when there is one, what is wrong otherwise, and the color of each cell.
-/

namespace VoxelCurve

/-! ## Colors -/

theorem Ramp.length_rainbow (n : Nat) : (Ramp.rainbow n).length = n := by
  have hsteps : (evenSteps n).length = n := by
    rw [evenSteps, List.length_map, List.length_range]
  rw [rainbow, colors, List.length_map, hsteps]

theorem Settings.foldl_advance (commands : Sentence) :
    commands.foldl advance 0 = min (rampLength - 1) (commands.countP fun c => !c.onlyMoves) := by
  induction commands using List.reverseRecOn with
  | nil => rfl
  | append_singleton commands c ih =>
    rw [List.foldl_append, List.foldl_cons, List.foldl_nil, ih, advance, List.countP_append,
      List.countP_singleton]
    cases c.onlyMoves with
    | true => rfl
    | false =>
      simp only [Bool.false_eq_true, if_false, Bool.not_false, if_true]
      omega

namespace Settings

/-- The color that the `k`-th command draws with. -/
def inkAt (s : Settings) (commands : Sentence) (k : Nat) : Rgba :=
  let place := min (rampLength - 1) ((commands.take k).countP fun c => !c.onlyMoves)
  have hplace : place < (Ramp.rainbow rampLength).length :=
    (Ramp.length_rainbow rampLength).symm ▸ Nat.lt_of_le_of_lt (Nat.min_le_left _ _) (by decide)
  if s.rainbow.isGiven then (Ramp.rainbow rampLength)[place] else Rgba.ofBytes 0 0 0 255

/-- What a command draws with, when the turtle is black, has the color of the command. -/
theorem exists_color (s : Settings) (commands : Sentence) (k : Nat) :
    ∃ c, ((paintAt s.ramp? ((commands.take k).foldl advance 0)).getD
        (.color Turtle.black)).toColor = .ok c ∧ c.record = .ok (s.inkAt commands k) := by
  unfold inkAt paintAt ramp?
  rw [foldl_advance]
  cases s.rainbow.isGiven with
  | true =>
    have hplace : min (rampLength - 1) ((commands.take k).countP fun c => !c.onlyMoves) <
        (Ramp.rainbow rampLength).length := by
      rw [Ramp.length_rainbow]
      exact Nat.lt_of_le_of_lt (Nat.min_le_left _ _) (by decide)
    refine ⟨Color.ofRecord (Ramp.rainbow rampLength)[_], ?_, Color.record_ofRecord _⟩
    rw [if_pos rfl, Option.bind_some, List.getElem?_toArray, List.getElem?_eq_getElem hplace]
    rfl
  | false => exact ⟨Turtle.black, rfl, rfl⟩

/-! ## Drawing follows the tour -/

section Follows

variable {s : Settings} {ink : Nat → Rgba} {b : Canvas} {t : Turtle}

theorem draw_eq (ht : t.color = Turtle.black) (paint? : Option Paint) :
    s.draw paint? (t.onto b) =
      (t.onto b).drawWith s.distance (paint?.getD (.color Turtle.black)) := by
  cases paint? with
  | none =>
    have hcolor : (t.onto b).color = Turtle.black := ht
    rw [draw, Turtle.draw, hcolor]
    rfl
  | some paint => rfl

/-- Every command follows its tour. -/
theorem follows_interpret {number : Nat} {paint? : Option Paint}
    (hpaint : ∃ c, (paint?.getD (.color Turtle.black)).toColor = .ok c ∧
      c.record = .ok (ink number))
    (ht : t.color = Turtle.black) (hb : b.extent = s.extent) (c : Symbol) :
    Follows s.extent ink b (s.interpret c paint? (t.onto b)) (s.tourOf number c t) := by
  have hdraw : ∀ t b, t.color = Turtle.black → b.extent = s.extent →
      Follows s.extent ink b (s.draw paint? (t.onto b)) (.stroke number s.distance t) := by
    intro t b ht hb
    obtain ⟨c, hcolor, hr⟩ := hpaint
    rw [draw_eq ht]
    exact .stroke hcolor hr ht s.sizeZ.property hb
  cases c with
  | step => exact .silent (.step s.distance) ht hb
  | draw => exact hdraw t b ht hb
  | left => exact .silent (.left s.angle) ht hb
  | right => exact .silent (.right s.angle) ht hb
  | drawLeft =>
    refine ((hdraw t b ht hb).andThen ?_).andThen hdraw
    intro t b ht hb
    exact .silent (.left s.angle) ht hb
  | drawRight =>
    refine ((hdraw t b ht hb).andThen ?_).andThen hdraw
    intro t b ht hb
    exact .silent (.right s.angle) ht hb
  | subfigureA => exact .silent .pass ht hb
  | subfigureB => exact .silent .pass ht hb

theorem interpretAll_cons (s : Settings) (ramp? : Option (Array Rgba)) (place : Nat) (c : Symbol)
    (rest : Sentence) (t : Turtle) :
    s.interpretAll ramp? place (c :: rest) t =
      (s.interpret c (paintAt ramp? (advance place c)) t).andThen
        (s.interpretAll ramp? (advance place c) rest) := by
  rw [interpretAll]
  rcases s.interpret c (paintAt ramp? (advance place c)) t with ⟨_ | fault, t'⟩ <;> rfl

/-- So does every sentence, from any place in it on: the commands before tell the place on the
ramp. -/
theorem follows_interpretAll (before rest : Sentence) (ht : t.color = Turtle.black)
    (hb : b.extent = s.extent) :
    Follows s.extent (s.inkAt (before ++ rest)) b
      (s.interpretAll s.ramp? (before.foldl advance 0) rest (t.onto b))
      (s.tourFrom (before.length + 1) rest t) := by
  induction rest generalizing before t b with
  | nil => exact .silent .pass ht hb
  | cons c rest ih =>
    have htake : (before ++ c :: rest).take (before.length + 1) = before ++ [c] := by
      rw [List.take_length_add_append]
      rfl
    have hplace : advance (before.foldl advance 0) c = (before ++ [c]).foldl advance 0 := by
      rw [List.foldl_append]
      rfl
    have hpaint := s.exists_color (before ++ c :: rest) (before.length + 1)
    rw [htake] at hpaint
    rw [interpretAll_cons, hplace]
    refine (follows_interpret hpaint ht hb c).andThen ?_
    intro t b ht hb
    have hrest := ih (before ++ [c]) ht hb
    rwa [List.append_assoc, List.length_append] at hrest

/-- The drawing of a sentence from the corner of a blank canvas on. -/
def run (s : Settings) (compass : Compass) (commands : Sentence) : Outcome :=
  (s.approach (Turtle.onCanvas compass ⟨s.extent, ∅⟩)).andThen (s.interpretAll s.ramp? 0 commands)

theorem follows_run (s : Settings) (compass : Compass) (commands : Sentence) :
    Follows s.extent (s.inkAt commands) ⟨s.extent, ∅⟩ (s.run compass commands)
      (s.tour compass commands) := by
  have hstart : Follows s.extent (s.inkAt commands) ⟨s.extent, ∅⟩
      (s.approach ((Turtle.onCanvas compass ⟨s.extent, ∅⟩).onto ⟨s.extent, ∅⟩))
      (.silent (s.approach (Turtle.onCanvas compass ⟨s.extent, ∅⟩))) :=
    .silent s.blind_approach rfl rfl
  refine hstart.andThen ?_
  intro t b ht hb
  exact follows_interpretAll [] commands ht hb

end Follows

/-! ## Renderings -/

theorem create_eq (s : Settings) (compass : Compass) :
    Turtle.create compass (.int s.sizeX.val) (.int s.sizeY.val) (.int s.sizeZ.val) =
      (Buffer.allocate .rgba s.extent).map (Turtle.onCanvas compass) := by
  have hsides : Extent.ofSides (.int s.sizeX.val) (.int s.sizeY.val) (.int s.sizeZ.val) =
      .ok s.extent := by
    rw [Extent.ofSides]
    exact if_pos ⟨Int.natCast_nonneg _, Int.natCast_nonneg _, Int.natCast_nonneg _⟩
  rw [Turtle.create, hsides]
  rfl

end Settings

namespace LSystem

/-- The rendering that a drawing ends in. -/
def finished (g : LSystem) (commands : Sentence) : Outcome → Except RenderFault Rendering
  | ⟨some fault, _⟩ => .error (.turtle fault)
  | ⟨none, t⟩ => .ok ⟨g.name, t.canvas, commands.length, t.position⟩

theorem result_render (g : LSystem) (s : Settings) (compass : Compass) :
    (g.render s compass).result =
      s.turtle compass >>= g.drawn s (g.generation s.derivationLength) := by
  simp only [render, Script.result_bind, Script.result_log, Script.result_of, Script.result_pure,
    pure_bind, bind_pure]

/-- On a canvas that can be had, a rendering is what the drawing ends in. -/
theorem result_render_of_allocate {s : Settings} {b : Canvas}
    (h : Buffer.allocate .rgba s.extent = .ok b) (g : LSystem) (compass : Compass) :
    (g.render s compass).result =
      g.finished (g.generation s.derivationLength)
        (s.run compass (g.generation s.derivationLength)) := by
  obtain rfl := Buffer.eq_of_allocate h
  have hcreate := s.create_eq compass
  rw [h] at hcreate
  rw [result_render, Settings.turtle, hcreate, Settings.run]
  simp only [Except.map]
  rcases s.approach (Turtle.onCanvas compass ⟨s.extent, ∅⟩) with ⟨_ | fault, t⟩
  · rfl
  · rfl

theorem result_render_of_overflow {s : Settings} {fault : AllocationFault}
    (h : Buffer.allocate .rgba s.extent = .error fault) (g : LSystem) (compass : Compass) :
    (g.render s compass).result = .error (.canvas fault) := by
  have hcreate := s.create_eq compass
  rw [h] at hcreate
  rw [result_render, Settings.turtle, hcreate]
  rfl

/-- What strokes on a blank canvas leave at a cell. -/
theorem get_of_inked {e : Extent} {ink : Nat → Rgba} {strokes : List Stroke} {b : Canvas}
    (h : Inked e ink strokes ⟨e, ∅⟩ b) {x y z : Nat} (hc : e.Contains ⟨x, y, z⟩) :
    b.get x y z = .ok
      (if z = 0 then (Stroke.topmost? ink strokes ⟨x, y⟩).getD (Record.blank 4)
      else Record.blank 4) := by
  have hcell : b.extent.Contains ⟨x, y, z⟩ := by
    rw [h.extent]
    exact hc
  have hink := h.ink_eq ⟨x, y, z⟩ hc
  rw [Canvas.ink_empty] at hink
  exact (Buffer.get_of_contains hcell).trans (congrArg Except.ok hink)

/-- The ways in which a render ends: without a canvas, at a stroke that leaves it, where the turtle
fails on its tour, and with a rendering. -/
inductive Ending (g : LSystem) (s : Settings) (compass : Compass) (commands : Sentence) : Prop
  | noCanvas (fault : AllocationFault)
      (hallocate : Buffer.allocate .rgba s.extent = .error fault)
      (hresult : (g.render s compass).result = .error (.canvas fault))
  | outside (x y : Int) (hallocate : ∃ b, Buffer.allocate .rgba s.extent = .ok b)
      (hstrokes : ¬∀ k ∈ (s.tour compass commands).strokes, k.Inside s.extent)
      (hresult : (g.render s compass).result =
        .error (.turtle (.canvas (.address (.noCell x y 0 s.extent)))))
  | lost (fault : TurtleFault) (hfault : (s.tour compass commands).outcome.fault? = some fault)
      (hstrokes : ∀ k ∈ (s.tour compass commands).strokes, k.Inside s.extent)
      (hresult : (g.render s compass).result = .error (.turtle fault))
  | finished (b : Canvas) (hallocate : ∃ b, Buffer.allocate .rgba s.extent = .ok b)
      (hfault : (s.tour compass commands).outcome.fault? = none)
      (hstrokes : ∀ k ∈ (s.tour compass commands).strokes, k.Inside s.extent)
      (hinked : Inked s.extent (s.inkAt commands) (s.tour compass commands).strokes ⟨s.extent, ∅⟩ b)
      (hresult : (g.render s compass).result =
        .ok ⟨g.name, b, commands.length, (s.tour compass commands).outcome.turtle.position⟩)

theorem ending (g : LSystem) (s : Settings) (compass : Compass) :
    g.Ending s compass (g.generation s.derivationLength) := by
  cases hallocate : Buffer.allocate .rgba s.extent with
  | error fault => exact .noCanvas fault hallocate (result_render_of_overflow hallocate g compass)
  | ok blank =>
    have hresult := result_render_of_allocate hallocate g compass
    have hfollows := s.follows_run compass (g.generation s.derivationLength)
    by_cases hstrokes :
        ∀ k ∈ (s.tour compass (g.generation s.derivationLength)).strokes, k.Inside s.extent
    · obtain ⟨b, hrun, hinked⟩ := hfollows.inside hstrokes
      rw [hrun] at hresult
      rcases houtcome : (s.tour compass (g.generation s.derivationLength)).outcome with
        ⟨_ | fault, t⟩
      · rw [houtcome] at hresult
        refine .finished b ⟨blank, hallocate⟩ (by rw [houtcome]) hstrokes hinked ?_
        rw [houtcome]
        exact hresult
      · rw [houtcome] at hresult
        exact .lost fault (by rw [houtcome]) hstrokes hresult
    · obtain ⟨x, y, hfault⟩ := hfollows.outside hstrokes
      refine .outside x y ⟨blank, hallocate⟩ hstrokes ?_
      rcases hrun : s.run compass (g.generation s.derivationLength) with ⟨_ | fault, t⟩
      · rw [hrun] at hfault
        cases hfault
      · rw [hrun] at hresult hfault
        obtain rfl := Option.some.inj hfault
        exact hresult

section Ends

variable {g : LSystem} {s : Settings} {compass : Compass} {commands : Sentence}
  (h : g.Ending s compass commands)

include h

theorem Ending.exists_rendering_iff :
    (∃ r, (g.render s compass).result = .ok r) ↔
      (∃ b, Buffer.allocate .rgba s.extent = .ok b) ∧
        (s.tour compass commands).outcome.fault? = none ∧
        ∀ k ∈ (s.tour compass commands).strokes, k.Inside s.extent := by
  cases h with
  | noCanvas fault hallocate hresult =>
    rw [hallocate, hresult]
    constructor
    · rintro ⟨r, h⟩
      cases h
    · rintro ⟨⟨b, h⟩, -⟩
      cases h
  | outside x y hallocate hstrokes hresult =>
    rw [hresult]
    constructor
    · rintro ⟨r, h⟩
      cases h
    · rintro ⟨-, -, h⟩
      exact absurd h hstrokes
  | lost fault hfault hstrokes hresult =>
    rw [hfault, hresult]
    constructor
    · rintro ⟨r, h⟩
      cases h
    · rintro ⟨-, h, -⟩
      cases h
  | finished b hallocate hfault hstrokes hinked hresult =>
    exact ⟨fun _ => ⟨hallocate, hfault, hstrokes⟩, fun _ => ⟨_, hresult⟩⟩

theorem Ending.of_outside (hallocate : ∃ b, Buffer.allocate .rgba s.extent = .ok b)
    (hstrokes : ∃ k ∈ (s.tour compass commands).strokes, ¬k.Inside s.extent) :
    ∃ x y, (g.render s compass).result =
      .error (.turtle (.canvas (.address (.noCell x y 0 s.extent)))) := by
  obtain ⟨k, hk, hout⟩ := hstrokes
  cases h with
  | noCanvas fault hoverflow =>
    rw [hoverflow] at hallocate
    obtain ⟨b, h⟩ := hallocate
    cases h
  | outside x y _ _ hresult => exact ⟨x, y, hresult⟩
  | lost _ _ hstrokes => exact absurd (hstrokes k hk) hout
  | finished _ _ _ hstrokes => exact absurd (hstrokes k hk) hout

theorem Ending.eq_of_ok {r : Rendering} (hr : (g.render s compass).result = .ok r) :
    ∃ b, Inked s.extent (s.inkAt commands) (s.tour compass commands).strokes ⟨s.extent, ∅⟩ b ∧
      r = ⟨g.name, b, commands.length, (s.tour compass commands).outcome.turtle.position⟩ := by
  cases h with
  | noCanvas _ _ hresult | outside _ _ _ _ hresult | lost _ _ _ hresult =>
    rw [hresult] at hr
    cases hr
  | finished b _ _ _ hinked hresult =>
    rw [hresult] at hr
    exact ⟨b, hinked, (Except.ok.inj hr).symm⟩

end Ends

/-- What a rendering is, by the tour of its sentence: there is one on a canvas that can be had
if the turtle never fails on its tour and both ends of every stroke are on the canvas; a stroke
that is not ends it with a point without a cell; and it shows the last stroke at each point of the
lowest plane, and nothing elsewhere. -/
theorem render_reference (g : LSystem) (s : Settings) (compass : Compass) :
    let commands := g.generation s.derivationLength
    let tour := s.tour compass commands
    ((∃ r, (g.render s compass).result = .ok r) ↔
      (∃ b, Buffer.allocate .rgba s.extent = .ok b) ∧ tour.outcome.fault? = none ∧
        ∀ k ∈ tour.strokes, k.Inside s.extent) ∧
    ((∃ b, Buffer.allocate .rgba s.extent = .ok b) →
      (∃ k ∈ tour.strokes, ¬k.Inside s.extent) → ∃ x y, (g.render s compass).result =
        .error (.turtle (.canvas (.address (.noCell x y 0 s.extent))))) ∧
    ∀ r, (g.render s compass).result = .ok r →
      r.numCommands = commands.length ∧ r.finalPosition = tour.outcome.turtle.position ∧
        r.canvas.extent = s.extent ∧
        ∀ x y z : Nat, s.extent.Contains ⟨x, y, z⟩ → r.canvas.get x y z = .ok
          (if z = 0 then
            (Stroke.topmost? (s.inkAt commands) tour.strokes ⟨x, y⟩).getD (Record.blank 4)
          else Record.blank 4) := by
  intro commands tour
  have hending : g.Ending s compass commands := g.ending s compass
  refine ⟨hending.exists_rendering_iff, hending.of_outside, ?_⟩
  intro r hr
  obtain ⟨b, hinked, rfl⟩ := hending.eq_of_ok hr
  exact ⟨rfl, rfl, hinked.extent, fun x y z hc => get_of_inked hinked hc⟩

end LSystem
end VoxelCurve
