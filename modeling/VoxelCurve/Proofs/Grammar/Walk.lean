import VoxelCurve.Grammar.LSystem
import VoxelCurve.Proofs.Grammar.Derivation

/-!
The walk through frames reads the derived sentence.

Every frame still owes a part of the last generation: its unread symbols, derived as often
as its depth leaves room for.  What a whole stack owes, from the top frame down, is `owed`.
A silent step leaves it as it is, and a step that reads a symbol takes just this symbol off
its front; when no frame is left nothing is owed.  So whatever the walk reads from a stack
is what the stack owed, and a stack of the axiom alone owes the derived axiom.

Nothing is asked of the table: rules may erase, and may lead back to themselves.  That the
walk ends is not left to the recursion of its definition: `Run` counts the steps, and
`stackWork` is their exact number.
-/

namespace VoxelCurve
namespace Productions

/-! ## What a step does -/

/-- The four ways in which a step goes. -/
inductive Takes (p : Productions) (n : Nat) : List Frame → Step → Prop
  | finish : Takes p n [] .finished
  | leave (depth : Nat) (stack : List Frame) : Takes p n (⟨[], depth⟩ :: stack) (.silent stack)
  | enter {c : Symbol} {replacement : Sentence} {depth : Nat} (h : depth < n)
      (hc : p.find? c = some replacement) (unread : Sentence) (stack : List Frame) :
      Takes p n (⟨c :: unread, depth⟩ :: stack)
        (.silent (⟨replacement, depth + 1⟩ :: ⟨unread, depth⟩ :: stack))
  | read {c : Symbol} {depth : Nat} (h : n ≤ depth ∨ p.find? c = none) (unread : Sentence)
      (stack : List Frame) :
      Takes p n (⟨c :: unread, depth⟩ :: stack) (.symbol c (⟨unread, depth⟩ :: stack))

theorem takes_step (p : Productions) (n : Nat) (stack : List Frame) :
    Takes p n stack (p.step n stack) := by
  match stack with
  | [] => exact .finish
  | ⟨[], depth⟩ :: stack => exact .leave depth stack
  | ⟨c :: unread, depth⟩ :: stack =>
    by_cases h : depth < n
    · cases hc : p.find? c with
      | none =>
        simp only [step, if_pos h, hc]
        exact .read (Or.inr hc) unread stack
      | some replacement =>
        simp only [step, if_pos h, hc]
        exact .enter h hc unread stack
    · simp only [step, if_neg h]
      exact .read (Or.inl (Nat.not_lt.mp h)) unread stack

/-! ## What a stack owes -/

/-- The part of generation `n` that the frames have not read yet. -/
def owed (p : Productions) (n : Nat) (stack : List Frame) : Sentence :=
  stack.flatMap fun f => p.derive (n - f.depth) f.unread

theorem owed_cons (p : Productions) (n : Nat) (f : Frame) (stack : List Frame) :
    p.owed n (f :: stack) = p.derive (n - f.depth) f.unread ++ p.owed n stack :=
  List.flatMap_cons

theorem owed_start (p : Productions) (n : Nat) (start : Sentence) :
    p.owed n [⟨start, 0⟩] = p.derive n start := by
  rw [owed_cons]
  exact List.append_nil _

/-- What is owed before a step, as the step left it. -/
def owedBefore (p : Productions) (n : Nat) : Step → Sentence
  | .finished => []
  | .silent stack => p.owed n stack
  | .symbol c stack => c :: p.owed n stack

/-- A step reads what is owed first, or nothing. -/
theorem owed_of_takes {p : Productions} {n : Nat} {stack : List Frame} {next : Step}
    (h : Takes p n stack next) : p.owed n stack = p.owedBefore n next := by
  cases h with
  | finish => rfl
  | leave depth stack => rw [owed_cons, derive_nil, List.nil_append, owedBefore]
  | @enter c replacement depth h hc unread stack =>
    have hk : n - depth = (n - (depth + 1)) + 1 := by omega
    have hd : p.derive (n - depth) (c :: unread) =
        p.derive (n - (depth + 1)) replacement ++ p.derive (n - depth) unread := by
      rw [derive_cons, hk, derive_succ_singleton hc]
    rw [owedBefore, owed_cons, owed_cons, owed_cons, hd, List.append_assoc]
  | @read c depth h unread stack =>
    have hd : p.derive (n - depth) [c] = [c] := by
      rcases h with h | h
      · rw [Nat.sub_eq_zero_of_le h, derive]
      · exact derive_singleton_of_none h _
    rw [owedBefore, owed_cons, owed_cons, derive_cons, hd]
    rfl

/-! ## How many steps are left -/

/-- The steps left before a step, as the step left them. -/
def workBefore (p : Productions) (n : Nat) : Step → Nat
  | .finished => 0
  | .silent stack => p.stackWork n stack + 1
  | .symbol _ stack => p.stackWork n stack + 1

/-- The work in the frames is the number of steps and no mere bound on it. -/
theorem stackWork_of_takes {p : Productions} {n : Nat} {stack : List Frame} {next : Step}
    (h : Takes p n stack next) : p.stackWork n stack = p.workBefore n next := by
  cases h with
  | finish => rfl
  | leave depth stack =>
    simp only [workBefore, stackWork, frameWork, total]
    omega
  | @enter c replacement depth h hc unread stack =>
    have hk : n - depth = (n - (depth + 1)) + 1 := by omega
    have hw : p.work (n - depth) c = 2 + total (p.work (n - (depth + 1))) replacement := by
      rw [hk, work, hc]
    simp only [workBefore, stackWork, frameWork, total, hw]
    omega
  | @read c depth h unread stack =>
    have hw : p.work (n - depth) c = 1 := by
      rcases h with h | h
      · rw [Nat.sub_eq_zero_of_le h, work]
      · cases n - depth with
        | zero => rfl
        | succ k => rw [work, h]
    simp only [workBefore, stackWork, frameWork, total, hw]
    omega

/-! ## Runs -/

/-- From a stack, the walk reads a sentence in a number of steps, and then no frame is left. -/
inductive Run (p : Productions) (n : Nat) : Nat → List Frame → Sentence → Prop
  | finished {stack : List Frame} (h : p.step n stack = .finished) : Run p n 0 stack []
  | silent {stack rest : List Frame} {steps : Nat} {s : Sentence}
      (h : p.step n stack = .silent rest) (more : Run p n steps rest s) :
      Run p n (steps + 1) stack s
  | symbol {stack rest : List Frame} {steps : Nat} {c : Symbol} {s : Sentence}
      (h : p.step n stack = .symbol c rest) (more : Run p n steps rest s) :
      Run p n (steps + 1) stack (c :: s)

/-- Every walk ends, and reads what its stack owes. -/
theorem run_owed (p : Productions) (n : Nat) (stack : List Frame) :
    Run p n (p.stackWork n stack) stack (p.owed n stack) := by
  -- the work left is the number of steps, so the induction is on this number
  generalize hw : p.stackWork n stack = steps
  induction steps generalizing stack with
  | zero =>
    have hs := stackWork_of_takes (p.takes_step n stack)
    have ho := owed_of_takes (p.takes_step n stack)
    cases h : p.step n stack with
    | finished =>
      rw [ho, h, owedBefore]
      exact .finished h
    | silent rest => rw [h, workBefore] at hs; omega
    | symbol c rest => rw [h, workBefore] at hs; omega
  | succ steps ih =>
    have hs := stackWork_of_takes (p.takes_step n stack)
    have ho := owed_of_takes (p.takes_step n stack)
    cases h : p.step n stack with
    | finished => rw [h, workBefore] at hs; omega
    | silent rest =>
      rw [h, workBefore] at hs
      rw [ho, h, owedBefore]
      exact .silent h (ih rest (by omega))
    | symbol c rest =>
      rw [h, workBefore] at hs
      rw [ho, h, owedBefore]
      exact .symbol h (ih rest (by omega))

/-! ## The walks that are run -/

theorem toList_walkInto (p : Productions) (n : Nat) (stack : List Frame) (read : Array Symbol) :
    (p.walkInto n stack read).toList = read.toList ++ p.owed n stack := by
  have ho := owed_of_takes (p.takes_step n stack)
  fun_induction walkInto p n stack read with
  | case1 stack read h => rw [ho, h, owedBefore, List.append_nil]
  | case2 stack read rest h ih =>
    rw [ih (owed_of_takes (p.takes_step n rest)), ho, h, owedBefore]
  | case3 stack read c rest h ih =>
    rw [ih (owed_of_takes (p.takes_step n rest)), ho, h, owedBefore, Array.toList_push,
      List.append_assoc]
    rfl

theorem walk_eq_derive (p : Productions) (n : Nat) (start : Sentence) :
    p.walk n start = p.derive n start := by
  rw [walk, toList_walkInto, owed_start]
  rfl

/-- The next symbol is the first that is owed; there is none only when nothing is. -/
theorem owed_eq_next? (p : Productions) (n : Nat) (stack : List Frame) :
    p.owed n stack =
      match p.next? n stack with
      | none => []
      | some (c, rest) => c :: p.owed n rest := by
  have ho := owed_of_takes (p.takes_step n stack)
  fun_induction next? p n stack with
  | case1 stack h => rw [ho, h, owedBefore]
  | case2 stack rest h ih =>
    rw [ho, h, owedBefore, ← ih (owed_of_takes (p.takes_step n rest))]
  | case3 stack c rest h => rw [ho, h, owedBefore]

theorem toList_takeInto (p : Productions) (n k : Nat) (stack : List Frame)
    (read : Array Symbol) :
    (p.takeInto n k stack read).toList = read.toList ++ (p.owed n stack).take k := by
  induction k generalizing stack read with
  | zero => rw [takeInto, List.take_zero, List.append_nil]
  | succ k ih =>
    rw [owed_eq_next?]
    cases h : p.next? n stack with
    | none => simp only [takeInto, h, List.take_nil, List.append_nil]
    | some next =>
      simp only [takeInto, h, ih, Array.toList_push, List.append_assoc, List.take_succ_cons]
      rfl

theorem take_eq_take_derive (p : Productions) (n k : Nat) (start : Sentence) :
    p.take n k start = (p.derive n start).take k := by
  rw [take, toList_takeInto, owed_start]
  rfl

end Productions

namespace LSystem

/-- Reading a generation symbol by symbol gives the derived sentence: the walk through
frames ends, it reads all of the sentence, and its first `k` symbols are those of the
sentence. -/
theorem walk_refines_derive (g : LSystem) (n : Nat) :
    ∃ s, g.commands n = .ok s ∧ g.derive g.start n = .ok s ∧ g.walk n = .ok s ∧
      (∀ k, g.take n k = .ok (s.take k)) ∧
      ∃ steps, g.productions.Run n steps [⟨g.start, 0⟩] s := by
  have hn : ¬((n : Int) < 0) := by omega
  have hd : g.derive g.start n = .ok (g.generation n) := by
    rw [derive, if_neg hn]
    rfl
  have hw : g.walk n = .ok (g.generation n) := by
    rw [walk, if_neg hn, Productions.walk_eq_derive]
    rfl
  have hr := g.productions.run_owed n [⟨g.start, 0⟩]
  rw [Productions.owed_start] at hr
  refine ⟨g.generation n, hd, hd, hw, ?_, _, hr⟩
  intro k
  rw [take]
  by_cases hk : k = 0
  · rw [if_pos hk, hk, List.take_zero]
  · rw [if_neg hk, if_neg hn, Productions.take_eq_take_derive]
    rfl

end LSystem
end VoxelCurve
