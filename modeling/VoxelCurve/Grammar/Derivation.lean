import VoxelCurve.Grammar.Rule

/-!
Derivation: expanding every symbol at once, a number of times.

`derive` expands the whole sentence generation by generation.  The walk through frames
reads the last generation symbol by symbol without building any sentence: a frame is the
unread part of an axiom or a replacement, at the generation it belongs to, and a symbol
that can still be expanded opens a frame of its own.  The walk ends because the work left
in the frames, the number of steps they still cause, falls with every step.
-/

namespace VoxelCurve
namespace Productions

/-- What a symbol becomes in one generation; a symbol without a rule stays. -/
def expand (p : Productions) (c : Symbol) : Sentence :=
  (p.find? c).getD [c]

/-- A sentence after `n` generations. -/
def derive (p : Productions) : Nat → Sentence → Sentence
  | 0, s => s
  | n + 1, s => derive p n (s.flatMap p.expand)

/-- The unread part of a sentence that was reached after `depth` generations. -/
structure Frame where
  unread : Sentence
  depth : Nat
deriving Repr, DecidableEq

/-- The outcome of one step of the walk. -/
inductive Step where
  /-- no frame is left -/
  | finished
  /-- a frame was left or opened -/
  | silent (stack : List Frame)
  /-- a symbol of the last generation was read -/
  | symbol (c : Symbol) (stack : List Frame)

/-- Looks at the next unread symbol of the top frame. -/
def step (p : Productions) (n : Nat) : List Frame → Step
  | [] => .finished
  | ⟨[], _⟩ :: stack => .silent stack
  | ⟨c :: unread, depth⟩ :: stack =>
    if depth < n then
      match p.find? c with
      | some replacement => .silent (⟨replacement, depth + 1⟩ :: ⟨unread, depth⟩ :: stack)
      | none => .symbol c (⟨unread, depth⟩ :: stack)
    else .symbol c (⟨unread, depth⟩ :: stack)

/-- The sum of what a measure finds in a list. -/
def total {α : Type} (measure : α → Nat) : List α → Nat
  | [] => 0
  | a :: rest => measure a + total measure rest

/-- The steps that a symbol causes when it may be expanded `k` more times: its own, and
those of the frame it opens. -/
def work (p : Productions) : Nat → Symbol → Nat
  | 0, _ => 1
  | k + 1, c =>
    match p.find? c with
    | some replacement => 2 + total (work p k) replacement
    | none => 1

/-- The steps that a frame causes, with the one that leaves it. -/
def frameWork (p : Productions) (n : Nat) (f : Frame) : Nat :=
  1 + total (p.work (n - f.depth)) f.unread

def stackWork (p : Productions) (n : Nat) (stack : List Frame) : Nat :=
  total (p.frameWork n) stack

theorem work_pos (p : Productions) (k : Nat) (c : Symbol) : 0 < p.work k c := by
  cases k with
  | zero => simp [work]
  | succ k => unfold work; split <;> omega

theorem stackWork_leave (p : Productions) (n : Nat) (c : Symbol) (unread : Sentence)
    (depth : Nat) (stack : List Frame) :
    p.stackWork n (⟨unread, depth⟩ :: stack) <
      p.stackWork n (⟨c :: unread, depth⟩ :: stack) := by
  have := p.work_pos (n - depth) c
  simp only [stackWork, frameWork, total]
  omega

theorem stackWork_open (p : Productions) {n depth : Nat} (h : depth < n) {c : Symbol}
    {replacement : Sentence} (hc : p.find? c = some replacement) (unread : Sentence)
    (stack : List Frame) :
    p.stackWork n (⟨replacement, depth + 1⟩ :: ⟨unread, depth⟩ :: stack) <
      p.stackWork n (⟨c :: unread, depth⟩ :: stack) := by
  have hk : n - depth = (n - (depth + 1)) + 1 := by omega
  have hw : p.work (n - depth) c = 2 + total (p.work (n - (depth + 1))) replacement := by
    rw [hk, work, hc]
  simp only [stackWork, frameWork, total, hw]
  omega

theorem stackWork_silent (p : Productions) {n : Nat} {stack rest : List Frame}
    (h : p.step n stack = .silent rest) : p.stackWork n rest < p.stackWork n stack := by
  unfold step at h
  split at h
  · simp at h
  · injection h with h
    subst h
    simp only [stackWork, frameWork, total]
    omega
  · split at h
    · split at h
      · injection h with h
        subst h
        exact p.stackWork_open ‹_› ‹_› _ _
      · simp at h
    · simp at h

theorem stackWork_symbol (p : Productions) {n : Nat} {stack rest : List Frame} {c : Symbol}
    (h : p.step n stack = .symbol c rest) : p.stackWork n rest < p.stackWork n stack := by
  unfold step at h
  split at h
  · simp at h
  · simp at h
  · split at h
    · split at h
      · simp at h
      · injection h with h h'
        subst h h'
        exact p.stackWork_leave n _ _ _ _
    · injection h with h h'
      subst h h'
      exact p.stackWork_leave n _ _ _ _

/-- Goes on to the next symbol of the last generation. -/
def next? (p : Productions) (n : Nat) (stack : List Frame) : Option (Symbol × List Frame) :=
  match _h : p.step n stack with
  | .finished => none
  | .silent rest => next? p n rest
  | .symbol c rest => some (c, rest)
termination_by p.stackWork n stack
decreasing_by exact p.stackWork_silent _h

/-- The first `k` symbols that the walk reads, behind those in `read`. -/
def takeInto (p : Productions) (n : Nat) : Nat → List Frame → Array Symbol → Array Symbol
  | 0, _, read => read
  | k + 1, stack, read =>
    match p.next? n stack with
    | none => read
    | some (c, rest) => takeInto p n k rest (read.push c)

/-- All symbols that the walk reads, behind those in `read`. -/
def walkInto (p : Productions) (n : Nat) (stack : List Frame) (read : Array Symbol) :
    Array Symbol :=
  match _h : p.step n stack with
  | .finished => read
  | .silent rest => walkInto p n rest read
  | .symbol c rest => walkInto p n rest (read.push c)
termination_by p.stackWork n stack
decreasing_by
  · exact p.stackWork_silent _h
  · exact p.stackWork_symbol _h

/-- The walk through the `n`-th generation of an axiom. -/
def walk (p : Productions) (n : Nat) (start : Sentence) : Sentence :=
  (p.walkInto n [⟨start, 0⟩] #[]).toList

/-- The first `k` symbols of the `n`-th generation of an axiom, read no further. -/
def take (p : Productions) (n k : Nat) (start : Sentence) : Sentence :=
  (p.takeInto n k [⟨start, 0⟩] #[]).toList

end Productions
end VoxelCurve
