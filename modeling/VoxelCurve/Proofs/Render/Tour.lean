import VoxelCurve.Proofs.Turtle.Drawing
import VoxelCurve.Render.Drawing

/-!
Where commands lead a turtle, apart from what they draw.

Nothing a turtle does depends on what its canvas shows.  So a drawing can be told in two
parts: a tour, on which the turtle never draws, but steps along every line that it would draw
and notes it as a stroke, and the picture that these strokes make.  `Follows` puts the two
together.  If all strokes of a tour are on the canvas, then drawing ends like the tour does, and
each point shows the last stroke that covers it; if not, drawing ends at the first point that
has no cell.  This is shown of a single draw and of everything that does not draw, and it is
kept when one thing is done after the other.
-/

namespace VoxelCurve

/-- A line that a command draws. -/
structure Stroke where
  /-- the number of the command, counted from one -/
  command : Nat
  start : Point
  stop : Point
deriving DecidableEq

namespace Stroke

/-- Whether both ends are on a canvas. -/
def Inside (e : Extent) (k : Stroke) : Prop :=
  e.Holds k.start ∧ e.Holds k.stop

/-- Whether a point is on the line. -/
def Covers (p : Point) (k : Stroke) : Prop :=
  p ∈ Line.points k.start k.stop

instance (p : Point) : DecidablePred (Covers p) :=
  fun _ => inferInstanceAs (Decidable (_ ∈ _))

/-- What the last of some strokes puts at a point. -/
def topmost? (ink : Nat → Rgba) (strokes : List Stroke) (p : Point) : Option Rgba :=
  (strokes.findRev? fun k => Covers p k).map fun k => ink k.command

theorem topmost?_append (ink : Nat → Rgba) (before after : List Stroke) (p : Point) :
    topmost? ink (before ++ after) p = (topmost? ink after p).or (topmost? ink before p) := by
  simp only [topmost?, List.findRev?_eq_find?_reverse, List.reverse_append, List.find?_append]
  cases after.reverse.find? _ <;> rfl

theorem topmost?_singleton (ink : Nat → Rgba) (k : Stroke) (p : Point) :
    topmost? ink [k] p = if Covers p k then some (ink k.command) else none := by
  simp only [topmost?, List.findRev?_eq_find?_reverse, List.reverse_singleton,
    List.find?_singleton, decide_eq_true_eq]
  split <;> rfl

end Stroke

/-- The strokes up to where the turtle stops or fails, and how it does so. -/
structure Tour where
  strokes : List Stroke
  outcome : Outcome

namespace Tour

def silent (o : Outcome) : Tour :=
  ⟨[], o⟩

/-- A tour of one stroke, unless its end cannot be found. -/
def stroke (number : Nat) (distance : Value) (t : Turtle) : Tour :=
  match t.destination distance with
  | .error fault => ⟨[], ⟨some fault, t⟩⟩
  | .ok stop => ⟨[⟨number, t.position, stop⟩], ⟨none, t.moveTo stop⟩⟩

theorem stroke_of_error {t : Turtle} {distance : Value} {fault : TurtleFault}
    (h : t.destination distance = .error fault) (number : Nat) :
    stroke number distance t = silent ⟨some fault, t⟩ := by
  rw [stroke, h]
  rfl

theorem stroke_of_ok {t : Turtle} {distance : Value} {stop : Point}
    (h : t.destination distance = .ok stop) (number : Nat) :
    stroke number distance t = ⟨[⟨number, t.position, stop⟩], ⟨none, t.moveTo stop⟩⟩ := by
  rw [stroke, h]

/-- Goes on with another tour unless the turtle has failed. -/
def andThen (w : Tour) (next : Turtle → Tour) : Tour :=
  match w with
  | ⟨strokes, ⟨none, t⟩⟩ => ⟨strokes ++ (next t).strokes, (next t).outcome⟩
  | failed => failed

end Tour

namespace Settings

def tourOf (s : Settings) (number : Nat) (c : Symbol) (t : Turtle) : Tour :=
  let stroke := Tour.stroke number s.distance
  match c with
  | .step => .silent (t.step s.distance)
  | .draw => stroke t
  | .left => .silent (t.left s.angle)
  | .right => .silent (t.right s.angle)
  | .drawLeft => ((stroke t).andThen fun t => .silent (t.left s.angle)).andThen stroke
  | .drawRight => ((stroke t).andThen fun t => .silent (t.right s.angle)).andThen stroke
  | .subfigureA | .subfigureB => .silent ⟨none, t⟩

/-- The tour of commands, the first of which has the given number. -/
def tourFrom (s : Settings) : Nat → Sentence → Turtle → Tour
  | _, [], t => .silent ⟨none, t⟩
  | number, c :: rest, t => (s.tourOf number c t).andThen (s.tourFrom (number + 1) rest)

/-- The sides of the canvas as a box. -/
def extent (s : Settings) : Extent :=
  ⟨s.sizeX.val, s.sizeY.val, s.sizeZ.val⟩

def tour (s : Settings) (compass : Compass) (commands : Sentence) : Tour :=
  (Tour.silent (s.approach (Turtle.onCanvas compass ⟨s.extent, ∅⟩))).andThen
    (s.tourFrom 1 commands)

end Settings

/-! ## What does not draw -/

def Outcome.onto (o : Outcome) (b : Canvas) : Outcome :=
  ⟨o.fault?, o.turtle.onto b⟩

/-- A command that neither looks at the canvas nor changes it or the color. -/
structure Blind (command : Turtle → Outcome) : Prop where
  onto : ∀ t b, command (t.onto b) = (command t).onto b
  color : ∀ t, (command t).turtle.color = t.color

namespace Blind

theorem canvas {command : Turtle → Outcome} (h : Blind command) (t : Turtle) :
    (command t).turtle.canvas = t.canvas :=
  congrArg (fun o : Outcome => o.turtle.canvas) (h.onto t t.canvas)

theorem pass : Blind fun t => ⟨none, t⟩ where
  onto _ _ := rfl
  color _ := rfl

theorem step (distance : Value) : Blind (·.step distance) where
  onto t b := by
    have hsame : (t.onto b).destination distance = t.destination distance := rfl
    simp only [Turtle.step, hsame]
    cases t.destination distance <;> rfl
  color t := by
    simp only [Turtle.step]
    cases t.destination distance <;> rfl

theorem left (angle : Value) : Blind (·.left angle) where
  onto t b := by
    simp only [Turtle.left]
    cases angle.toFloat <;> rfl
  color t := by
    simp only [Turtle.left]
    cases angle.toFloat <;> rfl

theorem right (angle : Value) : Blind (·.right angle) where
  onto t b := by
    simp only [Turtle.right]
    cases angle.toFloat <;> rfl
  color t := by
    simp only [Turtle.right]
    cases angle.toFloat <;> rfl

theorem andThen {first next : Turtle → Outcome} (hf : Blind first) (hn : Blind next) :
    Blind fun t => (first t).andThen next where
  onto t b := by
    rw [hf.onto]
    rcases first t with ⟨_ | fault, t'⟩
    · exact hn.onto t' b
    · rfl
  color t := by
    have hcolor := hf.color t
    generalize first t = o at hcolor
    rcases o with ⟨_ | fault, t'⟩
    · exact (hn.color t').trans hcolor
    · exact hcolor

end Blind

theorem Settings.blind_approach (s : Settings) : Blind s.approach :=
  (((((Blind.step _).andThen (.left _)).andThen (.step _)).andThen (.step _)).andThen
    (.right _)).andThen (.step _) |>.andThen (.left _)

/-! ## Drawing along a tour -/

/-- Whether drawing strokes leads from one canvas to another. -/
structure Inked (e : Extent) (ink : Nat → Rgba) (strokes : List Stroke) (b b' : Canvas) : Prop where
  extent : b'.extent = e
  ink_eq : ∀ c, e.Contains c → b'.ink c =
    if c.z = 0 then (Stroke.topmost? ink strokes c.point).getD (b.ink c) else b.ink c

namespace Inked

variable {e : Extent} {ink : Nat → Rgba} {b : Canvas}

theorem nil (hb : b.extent = e) : Inked e ink [] b b where
  extent := hb
  ink_eq c _ := (ite_self (b.ink c)).symm

theorem append {b' b'' : Canvas} {before after : List Stroke} (h : Inked e ink before b b')
    (h' : Inked e ink after b' b'') : Inked e ink (before ++ after) b b'' where
  extent := h'.extent
  ink_eq c hc := by
    rw [h'.ink_eq c hc, h.ink_eq c hc, Stroke.topmost?_append]
    by_cases hz : c.z = 0
    · rw [if_pos hz, if_pos hz, if_pos hz]
      cases Stroke.topmost? ink after c.point <;> rfl
    · rw [if_neg hz, if_neg hz, if_neg hz]

end Inked

/-- Whether drawing on a canvas turns out as a tour foresees, for a turtle that is black. -/
structure Follows (e : Extent) (ink : Nat → Rgba) (b : Canvas) (o : Outcome) (w : Tour) : Prop where
  black : w.outcome.turtle.color = Turtle.black
  inside : (∀ k ∈ w.strokes, k.Inside e) →
    ∃ b', o = w.outcome.onto b' ∧ Inked e ink w.strokes b b'
  outside : (¬∀ k ∈ w.strokes, k.Inside e) →
    ∃ x y, o.fault? = some (.canvas (.address (.noCell x y 0 e)))

namespace Follows

variable {e : Extent} {ink : Nat → Rgba} {b : Canvas}

theorem silent {command : Turtle → Outcome} (h : Blind command) {t : Turtle}
    (ht : t.color = Turtle.black) (hb : b.extent = e) :
    Follows e ink b (command (t.onto b)) (.silent (command t)) where
  black := (h.color t).trans ht
  inside _ := ⟨b, h.onto t b, .nil hb⟩
  outside hout := absurd (List.forall_mem_nil _) hout

theorem stroke {number : Nat} {t : Turtle} {distance : Value} {paint : Paint} {c : Color}
    (hpaint : paint.toColor = .ok c) (hr : c.record = .ok (ink number))
    (ht : t.color = Turtle.black) (hheight : 0 < e.height) (hb : b.extent = e) :
    Follows e ink b ((t.onto b).drawWith distance paint) (.stroke number distance t) := by
  obtain rfl := hb
  have hsame : (t.onto b).destination distance = t.destination distance := rfl
  cases hdest : t.destination distance with
  | error fault =>
    rw [Turtle.drawWith_of_error (hsame.trans hdest), Tour.stroke_of_error hdest]
    exact ⟨ht, fun _ => ⟨b, rfl, .nil rfl⟩, fun hout => absurd (List.forall_mem_nil _) hout⟩
  | ok stop =>
    rw [Tour.stroke_of_ok hdest]
    refine ⟨ht, ?_, ?_⟩
    · intro hin
      have hends : Stroke.Inside b.extent ⟨number, t.position, stop⟩ :=
        hin _ (List.mem_singleton_self _)
      obtain ⟨b', hdraw, hextent, hink⟩ :=
        Turtle.drawWith_of_holds (hsame.trans hdest) hpaint hr hheight hends
      have hink : ∀ d, b.extent.Contains d → b'.ink d =
          if d.z = 0 ∧ Stroke.Covers d.point ⟨number, t.position, stop⟩ then ink number
          else b.ink d := hink
      refine ⟨b', hdraw, hextent, ?_⟩
      intro d hd
      rw [hink d hd, Stroke.topmost?_singleton]
      by_cases hz : d.z = 0
      · rw [if_pos hz]
        by_cases hcovers : Stroke.Covers d.point ⟨number, t.position, stop⟩
        · rw [if_pos ⟨hz, hcovers⟩, if_pos hcovers, Option.getD_some]
        · rw [if_neg (not_and_of_not_right _ hcovers), if_neg hcovers, Option.getD_none]
      · rw [if_neg hz, if_neg (not_and_of_not_left _ hz)]
    · intro hout
      refine Turtle.drawWith_of_not_holds (hsame.trans hdest) hpaint hr ?_
      intro hends
      refine hout ?_
      intro k hk
      rw [List.mem_singleton.mp hk]
      exact hends

theorem andThen {o : Outcome} {w : Tour} {next : Turtle → Outcome} {nextTour : Turtle → Tour}
    (h : Follows e ink b o w)
    (hnext : ∀ t b', t.color = Turtle.black → b'.extent = e →
      Follows e ink b' (next (t.onto b')) (nextTour t)) :
    Follows e ink b (o.andThen next) (w.andThen nextTour) := by
  obtain ⟨strokes, ⟨_ | fault, t⟩⟩ := w
  · refine ⟨(hnext t ⟨e, ∅⟩ h.black rfl).black, ?_, ?_⟩
    · intro hin
      obtain ⟨hbefore, hafter⟩ := List.forall_mem_append.mp hin
      obtain ⟨b', rfl, hink⟩ := h.inside hbefore
      obtain ⟨b'', ho, hink'⟩ := (hnext t b' h.black hink.extent).inside hafter
      exact ⟨b'', ho, hink.append hink'⟩
    · intro hout
      -- drawing only comes to the second tour if all of the first one is on the canvas
      by_cases hbefore : ∀ k ∈ strokes, k.Inside e
      · obtain ⟨b', rfl, hink⟩ := h.inside hbefore
        refine (hnext t b' h.black hink.extent).outside ?_
        intro hafter
        exact hout (List.forall_mem_append.mpr ⟨hbefore, hafter⟩)
      · obtain ⟨x, y, hfault⟩ := h.outside hbefore
        refine ⟨x, y, ?_⟩
        obtain ⟨_ | fault, t'⟩ := o
        · cases hfault
        · exact hfault
  · refine ⟨h.black, ?_, ?_⟩
    · intro hin
      obtain ⟨b', rfl, hink⟩ := h.inside hin
      exact ⟨b', rfl, hink⟩
    · intro hout
      obtain ⟨x, y, hfault⟩ := h.outside hout
      refine ⟨x, y, ?_⟩
      obtain ⟨_ | fault, t'⟩ := o
      · cases hfault
      · exact hfault

end Follows
end VoxelCurve
