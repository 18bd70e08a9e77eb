import VoxelCurve.Proofs.Grammar.Derivation
import VoxelCurve.Proofs.Render.Painted
import VoxelCurve.Proofs.Turtle.Connected

/-!
Drawings in one stroke.

A turtle that never steps only moves along what it draws, so each stroke of its tour starts where
the one before it ended.  Such a chain is connected, since every line is, and reaches from where
the turtle starts to where it is in the end.  If the grammar has no step then neither has any
sentence that is derived from it.
-/

namespace VoxelCurve

/-- Whether a command draws. -/
def Symbol.draws : Symbol → Bool
  | draw | drawLeft | drawRight => true
  | step | left | right | subfigureA | subfigureB => false

namespace Stroke

/-- Whether strokes lead from one point to another, each from where the one before it ended. -/
def Chain : Point → List Stroke → Point → Prop
  | p, [], q => p = q
  | p, k :: rest, q => p = k.start ∧ Chain k.stop rest q

namespace Chain

variable {p q r : Point} {strokes : List Stroke}

theorem append {before after : List Stroke} (h : Chain p before q) (h' : Chain q after r) :
    Chain p (before ++ after) r := by
  induction before generalizing p with
  | nil =>
    obtain rfl : p = q := h
    exact h'
  | cons k before ih => exact ⟨h.1, ih h.2⟩

/-- Along a chain one gets to everything that is covered. -/
theorem linked {S : Point → Prop} (h : Chain p strokes q)
    (hS : ∀ k ∈ strokes, ∀ p, k.Covers p → S p) {k : Stroke} (hk : k ∈ strokes)
    (hr : k.Covers r) : Point.Linked S p r := by
  induction strokes generalizing p with
  | nil => cases hk
  | cons first rest ih =>
    obtain ⟨rfl, hrest⟩ := h
    obtain ⟨hfirst, hothers⟩ := List.forall_mem_cons.mp hS
    rcases List.mem_cons.mp hk with rfl | hmem
    · exact (Line.linked_of_mem_points hr).mono hfirst
    · have halong := Line.linked_of_mem_points (Line.stop_mem_points first.start first.stop)
      exact (halong.mono hfirst).trans (ih hrest hothers hmem)

theorem exists_covers_start (h : Chain p strokes q) (hne : strokes ≠ []) :
    ∃ k ∈ strokes, k.Covers p := by
  cases strokes with
  | nil => exact absurd rfl hne
  | cons k rest =>
    obtain ⟨rfl, -⟩ := h
    exact ⟨k, List.mem_cons_self, Line.start_mem_points k.start k.stop⟩

theorem exists_covers_stop (h : Chain p strokes q) (hne : strokes ≠ []) :
    ∃ k ∈ strokes, k.Covers q := by
  induction strokes generalizing p with
  | nil => exact absurd rfl hne
  | cons k rest ih =>
    obtain ⟨-, hrest⟩ := h
    cases rest with
    | nil =>
      obtain rfl : k.stop = q := hrest
      exact ⟨k, List.mem_cons_self, Line.stop_mem_points k.start k.stop⟩
    | cons k' rest =>
      obtain ⟨k'', hk'', hcovers⟩ := ih hrest (List.cons_ne_nil _ _)
      exact ⟨k'', List.mem_cons_of_mem k hk'', hcovers⟩

end Chain
end Stroke

/-! ## Tours without a step -/

namespace Tour

/-- Whether the strokes of a tour lead from a point to where the turtle stops or fails. -/
def Unbroken (p : Point) (w : Tour) : Prop :=
  Stroke.Chain p w.strokes w.outcome.turtle.position

theorem unbroken_stroke (number : Nat) (distance : Value) (t : Turtle) :
    Unbroken t.position (stroke number distance t) := by
  cases hdest : t.destination distance with
  | error fault =>
    rw [stroke_of_error hdest]
    exact rfl
  | ok stop =>
    rw [stroke_of_ok hdest]
    exact ⟨rfl, rfl⟩

theorem Unbroken.andThen {p : Point} {w : Tour} {next : Turtle → Tour} (h : Unbroken p w)
    (hnext : ∀ t, Unbroken t.position (next t)) : Unbroken p (w.andThen next) := by
  obtain ⟨strokes, ⟨_ | fault, t⟩⟩ := w
  · exact Stroke.Chain.append h (hnext t)
  · exact h

/-- A tour that draws something unless it fails. -/
def Draws (w : Tour) : Prop :=
  w.outcome.fault? = none → w.strokes ≠ []

theorem draws_stroke (number : Nat) (distance : Value) (t : Turtle) :
    Draws (stroke number distance t) := by
  intro hfault
  cases hdest : t.destination distance with
  | error fault =>
    rw [stroke_of_error hdest] at hfault
    cases hfault
  | ok stop =>
    rw [stroke_of_ok hdest]
    exact List.cons_ne_nil _ _

theorem Draws.andThen {w : Tour} (h : Draws w) (next : Turtle → Tour) :
    Draws (w.andThen next) := by
  obtain ⟨strokes, ⟨_ | fault, t⟩⟩ := w
  · intro _
    exact List.append_ne_nil_of_left_ne_nil (h rfl) _
  · exact h

theorem draws_andThen {w : Tour} {next : Turtle → Tour} (h : ∀ t, Draws (next t)) :
    Draws (w.andThen next) := by
  obtain ⟨strokes, ⟨_ | fault, t⟩⟩ := w
  · intro hfault
    exact List.append_ne_nil_of_right_ne_nil _ (h t hfault)
  · intro hfault
    cases hfault

theorem strokes_andThen_eq_nil {w : Tour} {next : Turtle → Tour} (h : w.strokes = [])
    (hnext : ∀ t, (next t).strokes = []) : (w.andThen next).strokes = [] := by
  obtain ⟨strokes, ⟨_ | fault, t⟩⟩ := w
  · exact List.append_eq_nil_iff.mpr ⟨h, hnext t⟩
  · exact h

end Tour

namespace Turtle

theorem position_left (t : Turtle) (angle : Value) :
    (t.left angle).turtle.position = t.position := by
  rw [left]
  cases angle.toFloat <;> rfl

theorem position_right (t : Turtle) (angle : Value) :
    (t.right angle).turtle.position = t.position := by
  rw [right]
  cases angle.toFloat <;> rfl

end Turtle

namespace Settings

open Tour (Unbroken Draws)

variable (s : Settings)

/-- No command but a step leaves the line. -/
theorem unbroken_tourOf (number : Nat) {c : Symbol} (hc : c ≠ .step) (t : Turtle) :
    Unbroken t.position (s.tourOf number c t) := by
  have hstroke := Tour.unbroken_stroke number s.distance
  have hleft : ∀ t : Turtle, Unbroken t.position (.silent (t.left s.angle)) :=
    fun t => (t.position_left s.angle).symm
  have hright : ∀ t : Turtle, Unbroken t.position (.silent (t.right s.angle)) :=
    fun t => (t.position_right s.angle).symm
  cases c with
  | step => exact absurd rfl hc
  | draw => exact hstroke t
  | left => exact hleft t
  | right => exact hright t
  | drawLeft => exact ((hstroke t).andThen hleft).andThen hstroke
  | drawRight => exact ((hstroke t).andThen hright).andThen hstroke
  | subfigureA => exact rfl
  | subfigureB => exact rfl

theorem unbroken_tourFrom (number : Nat) {commands : Sentence} (h : Symbol.step ∉ commands)
    (t : Turtle) : Unbroken t.position (s.tourFrom number commands t) := by
  induction commands generalizing number t with
  | nil => exact rfl
  | cons c rest ih =>
    obtain ⟨hc, hrest⟩ := not_or.mp (mt List.mem_cons.mpr h)
    exact (s.unbroken_tourOf number (Ne.symm hc) t).andThen (ih (number + 1) hrest)

theorem draws_tourOf (number : Nat) {c : Symbol} (hc : c.draws = true) (t : Turtle) :
    Draws (s.tourOf number c t) := by
  have hstroke := Tour.draws_stroke number s.distance
  cases c with
  | draw => exact hstroke t
  | drawLeft => exact ((hstroke t).andThen _).andThen _
  | drawRight => exact ((hstroke t).andThen _).andThen _
  | step | left | right | subfigureA | subfigureB => cases hc

theorem draws_tourFrom (number : Nat) {commands : Sentence}
    (h : ∃ c ∈ commands, c.draws = true) (t : Turtle) :
    Draws (s.tourFrom number commands t) := by
  induction commands generalizing number t with
  | nil =>
    obtain ⟨c, hc, -⟩ := h
    cases hc
  | cons c rest ih =>
    rcases (List.exists_mem_cons_iff _ _ _).mp h with hc | hrest
    · exact (s.draws_tourOf number hc t).andThen _
    · exact Tour.draws_andThen (ih (number + 1) hrest)

theorem strokes_tourFrom_eq_nil (number : Nat) {commands : Sentence}
    (h : ¬∃ c ∈ commands, c.draws = true) (t : Turtle) :
    (s.tourFrom number commands t).strokes = [] := by
  induction commands generalizing number t with
  | nil => rfl
  | cons c rest ih =>
    obtain ⟨hc, hrest⟩ := not_or.mp (mt (List.exists_mem_cons_iff _ _ _).mpr h)
    refine Tour.strokes_andThen_eq_nil ?_ (ih (number + 1) hrest)
    cases c with
    | draw | drawLeft | drawRight => exact absurd rfl hc
    | step | left | right | subfigureA | subfigureB => rfl

/-- The tour of a sentence is that from where the turtle is once it is ready. -/
theorem tour_of_turtle {s : Settings} {compass : Compass} {t : Turtle}
    (h : s.turtle compass = .ok t) (commands : Sentence) :
    s.tour compass commands = s.tourFrom 1 commands t := by
  rw [tour, (of_turtle h).1]
  rfl

end Settings

namespace LSystem

/-- Derivation brings no step in. -/
theorem step_not_mem_generation {g : LSystem} (hstart : Symbol.step ∉ g.start)
    (hrules : ∀ rule ∈ g.productions.rules, Symbol.step ∉ rule.replacement) (n : Nat) :
    Symbol.step ∉ g.generation n := by
  intro hmem
  rcases Productions.mem_derive hmem with hmem | ⟨rule, hrule, hmem⟩
  · exact hstart hmem
  · exact hrules rule hrule hmem

/-- What a grammar without a step draws is connected and reaches from where the turtle starts to
where it is in the end; and if it draws nothing, the turtle stays where it starts. -/
theorem painted_connected {g : LSystem} {s : Settings} {compass : Compass} {r : Rendering}
    (hstart : Symbol.step ∉ g.start)
    (hrules : ∀ rule ∈ g.productions.rules, Symbol.step ∉ rule.replacement)
    (h : (g.render s compass).result = .ok r) :
    ∃ t, s.turtle compass = .ok t ∧ (∀ x y z, r.canvas.Painted x y z → z = 0) ∧
      ((∃ c ∈ g.generation s.derivationLength, c.draws = true) →
        Point.Connected (fun p => r.canvas.Painted p.x p.y 0) ∧ r.canvas.Painted t.x t.y 0 ∧
          r.canvas.Painted r.finalPosition.x r.finalPosition.y 0) ∧
      ((¬∃ c ∈ g.generation s.derivationLength, c.draws = true) →
        (∀ x y z, ¬r.canvas.Painted x y z) ∧ r.finalPosition = t.position) := by
  have hturtle := h
  rw [result_render] at hturtle
  obtain ⟨t, ht, -⟩ := bind_eq_ok_iff.mp hturtle
  have hstep := step_not_mem_generation hstart hrules s.derivationLength
  have hpainted := painted_iff_of_result h
  have hfault := ((g.ending s compass).exists_rendering_iff.mp ⟨r, h⟩).2.1
  have hfinal := finalPosition_of_result h
  rw [Settings.tour_of_turtle ht] at hfault hfinal
  simp only [Settings.tour_of_turtle ht] at hpainted
  have hchain := s.unbroken_tourFrom 1 hstep t
  rw [Tour.Unbroken, ← hfinal] at hchain
  refine ⟨t, ht, fun x y z hp => ((hpainted x y z).mp hp).1, ?_, ?_⟩
  · intro hdraws
    have hne := s.draws_tourFrom 1 hdraws t hfault
    have hcovered : ∀ k ∈ (s.tourFrom 1 (g.generation s.derivationLength) t).strokes,
        ∀ p : Point, k.Covers p → r.canvas.Painted p.x p.y 0 :=
      fun k hk p hcovers => (hpainted p.x p.y 0).mpr ⟨rfl, k, hk, hcovers⟩
    refine ⟨Point.connected_of_linked (p := t.position) ?_, ?_, ?_⟩
    · intro q hq
      obtain ⟨-, k, hk, hcovers⟩ := (hpainted q.x q.y 0).mp hq
      exact hchain.linked hcovered hk hcovers
    · obtain ⟨k, hk, hcovers⟩ := hchain.exists_covers_start hne
      exact hcovered k hk _ hcovers
    · obtain ⟨k, hk, hcovers⟩ := hchain.exists_covers_stop hne
      exact hcovered k hk _ hcovers
  · intro hidle
    have hnone := s.strokes_tourFrom_eq_nil 1 hidle t
    rw [hnone] at hchain
    refine ⟨?_, Eq.symm hchain⟩
    intro x y z hp
    obtain ⟨-, k, hk, -⟩ := (hpainted x y z).mp hp
    rw [hnone] at hk
    cases hk

theorem painted_connected_oneStroke : Symbol.step ∉ oneStroke.start ∧
    (∀ rule ∈ oneStroke.productions.rules, Symbol.step ∉ rule.replacement) ∧
    ∃ r, (oneStroke.render column .twoWay).result = .ok r ∧ r.finalPosition = ⟨0, 4⟩ ∧
      ∃ t, column.turtle .twoWay = .ok t ∧
        Point.Connected (fun p => r.canvas.Painted p.x p.y 0) ∧ r.canvas.Painted t.x t.y 0 ∧
          r.canvas.Painted r.finalPosition.x r.finalPosition.y 0 := by
  have hstart : Symbol.step ∉ oneStroke.start := by decide
  have hrules : ∀ rule ∈ oneStroke.productions.rules, Symbol.step ∉ rule.replacement := by decide
  obtain ⟨r, hr, hend⟩ := exists_rendering_oneStroke
  obtain ⟨t, ht, -, hdrawn, -⟩ := painted_connected hstart hrules hr
  exact ⟨hstart, hrules, r, hr, hend, t, ht, hdrawn ⟨.draw, by decide, rfl⟩⟩

end LSystem
end VoxelCurve
