import VoxelCurve.Proofs.Render.Reference

/-!
Composite commands as abbreviations.

A composite command stands for three basic ones, and a placeholder for none.  When all commands
draw with one paint, a sentence and the sentence with its abbreviations written out come to the
same: the same turtle above the same canvas and, if a draw in the middle of a composite command
fails, the same fault with the same part of the line on the canvas.  What makes this hold is that
going on after an outcome is associative, whether or not anything has failed.
-/

namespace VoxelCurve

namespace Outcome

theorem andThen_assoc (o : Outcome) (first second : Turtle → Outcome) :
    (o.andThen first).andThen second = o.andThen fun t => (first t).andThen second := by
  rcases o with ⟨_ | fault, t⟩ <;> rfl

theorem andThen_pass (o : Outcome) : (o.andThen fun t => ⟨none, t⟩) = o := by
  rcases o with ⟨_ | fault, t⟩ <;> rfl

end Outcome

/-- What a symbol is short for; the symbols for basic commands stand for themselves. -/
def Symbol.expansion : Symbol → Sentence
  | drawLeft => [draw, left, draw]
  | drawRight => [draw, right, draw]
  | subfigureA | subfigureB => []
  | basic => [basic]

def Sentence.expanded (commands : Sentence) : Sentence :=
  commands.flatMap Symbol.expansion

namespace Settings

/-- Carries out commands in order with one paint for all of them, up to the first that fails. -/
def carryOut (s : Settings) (paint? : Option Paint) : Sentence → Turtle → Outcome
  | [], t => ⟨none, t⟩
  | c :: rest, t => (s.interpret c paint? t).andThen (s.carryOut paint? rest)

variable (s : Settings) (paint? : Option Paint)

theorem carryOut_append (before after : Sentence) (t : Turtle) :
    s.carryOut paint? (before ++ after) t =
      (s.carryOut paint? before t).andThen (s.carryOut paint? after) := by
  induction before generalizing t with
  | nil => rfl
  | cons c before ih =>
    rw [List.cons_append, carryOut, carryOut, Outcome.andThen_assoc]
    exact congrArg _ (funext ih)

/-- A symbol is carried out like what it is short for, also where that fails on the way. -/
theorem carryOut_expansion (c : Symbol) (t : Turtle) :
    s.carryOut paint? c.expansion t = s.interpret c paint? t := by
  have hbasic : ∀ basic : Symbol, s.carryOut paint? [basic] t = s.interpret basic paint? t :=
    fun basic => (s.interpret basic paint? t).andThen_pass
  cases c with
  | draw => exact hbasic .draw
  | step => exact hbasic .step
  | left => exact hbasic .left
  | right => exact hbasic .right
  | drawLeft =>
    show (s.draw paint? t).andThen (fun t =>
        (t.left s.angle).andThen fun t => (s.draw paint? t).andThen fun t => ⟨none, t⟩) =
      ((s.draw paint? t).andThen (·.left s.angle)).andThen (s.draw paint?)
    simp only [Outcome.andThen_assoc, Outcome.andThen_pass]
  | drawRight =>
    show (s.draw paint? t).andThen (fun t =>
        (t.right s.angle).andThen fun t => (s.draw paint? t).andThen fun t => ⟨none, t⟩) =
      ((s.draw paint? t).andThen (·.right s.angle)).andThen (s.draw paint?)
    simp only [Outcome.andThen_assoc, Outcome.andThen_pass]
  | subfigureA => rfl
  | subfigureB => rfl

theorem carryOut_flatMap_expansion (commands : Sentence) (t : Turtle) :
    s.carryOut paint? (commands.flatMap Symbol.expansion) t = s.carryOut paint? commands t := by
  induction commands generalizing t with
  | nil => rfl
  | cons c rest ih =>
    rw [List.flatMap_cons, carryOut_append, carryOut_expansion, carryOut]
    exact congrArg _ (funext ih)

/-- A drawing without a ramp has one paint for all commands: none, so that the turtle uses its own
color. -/
theorem interpretAll_none (place : Nat) (commands : Sentence) (t : Turtle) :
    s.interpretAll none place commands t = s.carryOut none commands t := by
  induction commands generalizing place t with
  | nil => rfl
  | cons c rest ih =>
    rw [interpretAll_cons, carryOut]
    exact congrArg _ (funext (ih _))

theorem basic_of_mem_expanded {commands : Sentence} {c : Symbol} (h : c ∈ commands.expanded) :
    c ∈ [Symbol.draw, .step, .left, .right] := by
  obtain ⟨abbreviation, -, hc⟩ := List.mem_flatMap.mp h
  cases abbreviation <;> simp only [Symbol.expansion, List.mem_cons, List.not_mem_nil] at hc ⊢ <;>
    tauto

/-- Writing out its abbreviations leaves a sentence of basic commands that comes to the same as
the sentence itself, from any turtle on and with any paint: the same fault, if any, and the same
turtle above the same canvas.  A drawing without the rainbow is a case of this. -/
theorem carryOut_expanded (commands : Sentence) (t : Turtle) :
    s.carryOut paint? commands.expanded t = s.carryOut paint? commands t ∧
    (∀ place, s.interpretAll none place commands.expanded t =
      s.interpretAll none place commands t) ∧
    ∀ c ∈ commands.expanded, c ∈ [Symbol.draw, .step, .left, .right] := by
  refine ⟨s.carryOut_flatMap_expansion paint? commands t, ?_, fun c => basic_of_mem_expanded⟩
  intro place
  rw [interpretAll_none, interpretAll_none]
  exact s.carryOut_flatMap_expansion none commands t

/-- A left turn is drawn as three commands, and a placeholder in front of it is passed over. -/
example : Sentence.expanded [.subfigureA, .drawLeft, .step] = [.draw, .left, .draw, .step] := rfl

end Settings
end VoxelCurve
