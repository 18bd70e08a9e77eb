import Mathlib.Logic.Relation
import VoxelCurve.Proofs.Grammar.Walk

/-!
The stack of the walk.

A frame keeps the unread part of a sentence.  A `Cursor` keeps the whole sentence and the position
in it, so that it can be said which sentence is being read and that the position never leaves it.
A stack of cursors goes through the same steps as the frames that it stands for
(`step_map_frame`), and reaches the same stacks.

A stack is `Orderly` when each cursor is as deep as there are cursors below it.  This carries the
rest: a turn opens a cursor only above one that is not as deep as the last generation, one deeper
than this, and leaves the depth of every other cursor alone.  So there is never more than one
cursor for each generation from the axiom to the last, however long the last one is.
-/

namespace VoxelCurve
namespace Productions

/-! ## Cursors -/

/-- A sentence that was reached after `depth` generations, read up to a position. -/
structure Cursor where
  sentence : Sentence
  position : Nat
  depth : Nat

namespace Cursor

def frame (f : Cursor) : Frame :=
  ⟨f.sentence.drop f.position, f.depth⟩

def advance (f : Cursor) : Cursor :=
  { f with position := f.position + 1 }

end Cursor

/-- One turn of the loop over a stack of cursors, if there is any: the symbol that was read, if
one was, and the stack at the next turn. -/
def turn (p : Productions) (n : Nat) : List Cursor → Option (Option Symbol × List Cursor)
  | [] => none
  | f :: stack =>
    match f.sentence[f.position]? with
    | none => some (none, stack)
    | some c =>
      match if f.depth < n then p.find? c else none with
      | some replacement => some (none, ⟨replacement, 0, f.depth + 1⟩ :: f.advance :: stack)
      | none => some (some c, f.advance :: stack)

/-- The four ways in which a turn goes. -/
inductive Turns (p : Productions) (n : Nat) :
    List Cursor → Option (Option Symbol × List Cursor) → Prop
  | finish : Turns p n [] none
  | leave {f : Cursor} (hf : f.sentence.length ≤ f.position) (stack : List Cursor) :
      Turns p n (f :: stack) (some (none, stack))
  | enter {f : Cursor} (hf : f.position < f.sentence.length) {replacement : Sentence}
      (h : f.depth < n) (hc : p.find? f.sentence[f.position] = some replacement)
      (stack : List Cursor) :
      Turns p n (f :: stack) (some (none, ⟨replacement, 0, f.depth + 1⟩ :: f.advance :: stack))
  | read {f : Cursor} (hf : f.position < f.sentence.length)
      (h : n ≤ f.depth ∨ p.find? f.sentence[f.position] = none) (stack : List Cursor) :
      Turns p n (f :: stack) (some (some f.sentence[f.position], f.advance :: stack))

theorem turns_turn (p : Productions) (n : Nat) (stack : List Cursor) :
    Turns p n stack (p.turn n stack) := by
  cases stack with
  | nil => exact .finish
  | cons f stack =>
    by_cases hf : f.position < f.sentence.length
    · have hget : f.sentence[f.position]? = some f.sentence[f.position] :=
        List.getElem?_eq_getElem hf
      by_cases h : f.depth < n
      · cases hc : p.find? f.sentence[f.position] with
        | none =>
          simp only [turn, hget, if_pos h, hc]
          exact .read hf (.inr hc) stack
        | some replacement =>
          simp only [turn, hget, if_pos h, hc]
          exact .enter hf h hc stack
      · simp only [turn, hget, if_neg h]
        exact .read hf (.inl (Nat.not_lt.mp h)) stack
    · have hle := Nat.not_lt.mp hf
      simp only [turn, List.getElem?_eq_none hle]
      exact .leave hle stack

/-! ## Cursors and frames -/

/-- A turn as the step of the frames. -/
def stepOf : Option (Option Symbol × List Cursor) → Step
  | none => .finished
  | some (none, stack) => .silent (stack.map Cursor.frame)
  | some (some c, stack) => .symbol c (stack.map Cursor.frame)

/-- Frames step as the cursors do that they stand for. -/
theorem step_map_frame (p : Productions) (n : Nat) (stack : List Cursor) :
    p.step n (stack.map Cursor.frame) = stepOf (p.turn n stack) := by
  have hturn := p.turns_turn n stack
  generalize p.turn n stack = next at hturn
  cases hturn with
  | finish => rfl
  | @leave f hf stack =>
    rw [List.map_cons, Cursor.frame, List.drop_eq_nil_of_le hf]
    rfl
  | @enter f hf replacement h hc stack =>
    rw [List.map_cons, Cursor.frame, List.drop_eq_getElem_cons hf]
    simp only [step, if_pos h, hc]
    rfl
  | @read f hf h stack =>
    rw [List.map_cons, Cursor.frame, List.drop_eq_getElem_cons hf]
    by_cases hd : f.depth < n
    · simp only [step, if_pos hd, h.resolve_left (Nat.not_le.mpr hd)]
      rfl
    · simp only [step, if_neg hd]
      rfl

/-- The stack that a step leaves. -/
def Step.stack? : Step → Option (List Frame)
  | .finished => none
  | .silent stack => some stack
  | .symbol _ stack => some stack

/-- The stacks at which the walk stands on its way from one. -/
def Reaches (p : Productions) (n : Nat) : List Frame → List Frame → Prop :=
  Relation.ReflTransGen fun stack next => (p.step n stack).stack? = some next

/-- The stacks of cursors at which the loop stands on its way from one. -/
def Cursor.Reaches (p : Productions) (n : Nat) : List Cursor → List Cursor → Prop :=
  Relation.ReflTransGen fun stack next => ∃ read?, p.turn n stack = some (read?, next)

theorem stack?_step_map_frame (p : Productions) (n : Nat) (stack : List Cursor) :
    (p.step n (stack.map Cursor.frame)).stack? =
      (p.turn n stack).map fun next => next.2.map Cursor.frame := by
  rw [step_map_frame]
  rcases p.turn n stack with _ | ⟨_ | c, next⟩ <;> rfl

/-- Frames reach what the cursors reach that they stand for. -/
theorem reaches_iff (p : Productions) (n : Nat) (start : List Cursor) (frames : List Frame) :
    p.Reaches n (start.map Cursor.frame) frames ↔
      ∃ stack, Cursor.Reaches p n start stack ∧ stack.map Cursor.frame = frames := by
  constructor
  · intro h
    induction h with
    | refl => exact ⟨start, .refl, rfl⟩
    | tail _ hstep ih =>
      obtain ⟨stack, hreach, rfl⟩ := ih
      rw [stack?_step_map_frame, Option.map_eq_some_iff] at hstep
      obtain ⟨⟨read?, next⟩, hturn, rfl⟩ := hstep
      exact ⟨next, hreach.tail ⟨read?, hturn⟩, rfl⟩
  · intro h
    obtain ⟨stack, hreach, rfl⟩ := h
    induction hreach with
    | refl => exact .refl
    | tail _ hturn ih =>
      obtain ⟨read?, hturn⟩ := hturn
      refine ih.tail ?_
      rw [stack?_step_map_frame, hturn]
      rfl

end Productions

namespace LSystem

open Productions (Cursor)

/-! ## Order on the stack -/

/-- A cursor reads the axiom, or a replacement if it is any deeper, and has not left it. -/
structure IsRead (g : LSystem) (f : Cursor) : Prop where
  start_eq : f.depth = 0 → f.sentence = g.start
  find?_eq : 1 ≤ f.depth → ∃ c, g.productions.find? c = some f.sentence
  position_le : f.position ≤ f.sentence.length

/-- From the bottom of a stack to its top the depths are 0, 1, 2 and so on, as far as `n` at most,
and each cursor reads what it should. -/
structure Orderly (g : LSystem) (n : Nat) (stack : List Cursor) : Prop where
  depths_eq : (stack.map Cursor.depth).reverse = List.range stack.length
  length_le : stack.length ≤ n + 1
  isRead : ∀ f ∈ stack, g.IsRead f

theorem orderly_nil (g : LSystem) (n : Nat) : g.Orderly n [] :=
  ⟨rfl, Nat.zero_le _, fun _ h => absurd h List.not_mem_nil⟩

/-- Depths that count up from the bottom are each the number of cursors below. -/
theorem depths_cons_eq_range_iff {f : Cursor} {stack : List Cursor} :
    ((f :: stack).map Cursor.depth).reverse = List.range (f :: stack).length ↔
      f.depth = stack.length ∧ (stack.map Cursor.depth).reverse = List.range stack.length := by
  rw [List.map_cons, List.reverse_cons, List.length_cons, List.range_succ]
  constructor
  · intro h
    obtain ⟨hbelow, htop⟩ := List.append_inj' h rfl
    exact ⟨List.singleton_inj.mp htop, hbelow⟩
  · intro h
    obtain ⟨htop, hbelow⟩ := h
    rw [htop, hbelow]

theorem orderly_cons_iff {g : LSystem} {n : Nat} {f : Cursor} {stack : List Cursor} :
    g.Orderly n (f :: stack) ↔
      f.depth = stack.length ∧ f.depth ≤ n ∧ g.IsRead f ∧ g.Orderly n stack := by
  constructor
  · intro h
    obtain ⟨hdepths, hlength, hread⟩ := h
    obtain ⟨htop, hbelow⟩ := depths_cons_eq_range_iff.mp hdepths
    rw [List.length_cons] at hlength
    rw [List.forall_mem_cons] at hread
    exact ⟨htop, by omega, hread.1, hbelow, by omega, hread.2⟩
  · intro h
    obtain ⟨htop, hn, hf, hbelow, -, hread⟩ := h
    refine ⟨depths_cons_eq_range_iff.mpr ⟨htop, hbelow⟩, ?_, ?_⟩
    · rw [List.length_cons, ← htop]
      omega
    · exact List.forall_mem_cons.mpr ⟨hf, hread⟩

theorem orderly_start (g : LSystem) (n : Nat) : g.Orderly n [⟨g.start, 0, 0⟩] :=
  orderly_cons_iff.mpr ⟨rfl, Nat.zero_le _,
    ⟨fun _ => rfl, fun h => absurd h (Nat.not_succ_le_zero 0), Nat.zero_le _⟩, g.orderly_nil n⟩

/-- A cursor may go on where its sentence does. -/
theorem Orderly.advance {g : LSystem} {n : Nat} {f : Cursor} {stack : List Cursor}
    (h : g.Orderly n (f :: stack)) (hf : f.position < f.sentence.length) :
    g.Orderly n (f.advance :: stack) := by
  obtain ⟨hdepth, hn, hread, hstack⟩ := orderly_cons_iff.mp h
  exact orderly_cons_iff.mpr ⟨hdepth, hn, ⟨hread.start_eq, hread.find?_eq, hf⟩, hstack⟩

theorem Orderly.turn {g : LSystem} {n : Nat} {stack next : List Cursor} {read? : Option Symbol}
    (h : g.Orderly n stack) (ht : g.productions.turn n stack = some (read?, next)) :
    g.Orderly n next := by
  have hturn := g.productions.turns_turn n stack
  rw [ht] at hturn
  cases hturn with
  | leave hf stack => exact (orderly_cons_iff.mp h).2.2.2
  | @enter f hf replacement hd hc stack =>
    -- the cursor below was not as deep as generation `n`, and the new one is one deeper
    have hdepth := (orderly_cons_iff.mp h).1
    refine orderly_cons_iff.mpr ⟨congrArg (· + 1) hdepth, hd, ?_, h.advance hf⟩
    exact ⟨fun h => absurd h (Nat.succ_ne_zero f.depth), fun _ => ⟨_, hc⟩, Nat.zero_le _⟩
  | read hf h' stack => exact h.advance hf

/-- At every turn of the loop that reads generation `n` the stack is in order, and so are the
frames of the walk, which are at each step those of such a stack. -/
theorem stack_orderly (g : LSystem) (n : Nat) :
    (∀ stack, Cursor.Reaches g.productions n [⟨g.start, 0, 0⟩] stack → g.Orderly n stack) ∧
      ∀ frames, g.productions.Reaches n [⟨g.start, 0⟩] frames ↔
        ∃ stack, Cursor.Reaches g.productions n [⟨g.start, 0, 0⟩] stack ∧
          stack.map Cursor.frame = frames := by
  refine ⟨?_, g.productions.reaches_iff n [⟨g.start, 0, 0⟩]⟩
  intro stack h
  induction h with
  | refl => exact g.orderly_start n
  | tail _ hturn ih =>
    obtain ⟨read?, hturn⟩ := hturn
    exact ih.turn hturn

/-- A stack that is as high as it may be, when each symbol becomes two. -/
example :
    Cursor.Reaches (.ofRules [⟨.draw, [.draw, .draw]⟩]) 2 [⟨[.draw], 0, 0⟩]
      [⟨[.draw, .draw], 0, 2⟩, ⟨[.draw, .draw], 1, 1⟩, ⟨[.draw], 1, 0⟩] :=
  .tail (.tail .refl ⟨none, rfl⟩) ⟨none, rfl⟩

end LSystem
end VoxelCurve
