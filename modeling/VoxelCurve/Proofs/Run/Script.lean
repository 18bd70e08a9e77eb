import Mathlib.Data.List.TakeWhile
import VoxelCurve.Proofs.Files.Tree
import VoxelCurve.Run.Script

/-!
What scripts come to.

The result of a script does not depend on what it says or does on the way.  Whether a script
returns when it is performed does: it has to have a result, and no step may fail, no action on the
files and no line that is printed.  A script in two parts returns if the first part does and the
second one does on the tree that the first has left.
-/

namespace VoxelCurve

namespace Text.Piece

variable {m : Machine}

theorem fault?_eq_none_iff {p : Piece} :
    p.fault? m = none ↔
      p.depth ≤ m.writingDepth ∧ p.isWritable = true ∧ Text.isEncodable p.text = true := by
  rw [fault?, ← Nat.not_lt]
  split
  · simp [*]
  · split
    · simp_all
    · split <;> simp_all

/-- Pieces that can be written are. -/
theorem start_of_forall {pieces : List Piece} (h : ∀ p ∈ pieces, p.fault? m = none) :
    start m pieces = (pieces.map text).flatMap Text.utf8 := by
  have hall : ∀ p ∈ pieces, (p.fault? m).isNone = true :=
    fun p hp => Option.isNone_iff_eq_none.mpr (h p hp)
  rw [start, List.takeWhile_eq_self_iff.mpr hall]
  exact (List.flatMap_map text Text.utf8 pieces).symm

end Text.Piece

namespace Step

variable {m : Machine} {t t' : Tree}

/-- Whether steps can all be taken, and what they leave. -/
structure Completes (m : Machine) (t : Tree) (steps : List Step) (t' : Tree) : Prop where
  fault? : (perform m t steps).fault? = none
  tree : (perform m t steps).tree = t'

theorem completes_nil : Completes m t [] t' ↔ t' = t := by
  constructor
  · intro h
    exact h.tree.symm
  · rintro rfl
    exact ⟨rfl, rfl⟩

theorem completes_cons {s : Step} {steps : List Step} :
    Completes m t (s :: steps) t' ↔ ∃ t₁, s.take m t = (t₁, none) ∧ Completes m t₁ steps t' := by
  rcases htake : s.take m t with ⟨t₁, _ | fault⟩
  · have hperform : perform m t (s :: steps) =
        { perform m t₁ steps with taken := s :: (perform m t₁ steps).taken } := by
      rw [perform, htake]
    constructor
    · rintro ⟨hfault, htree⟩
      rw [hperform] at hfault htree
      exact ⟨t₁, rfl, hfault, htree⟩
    · rintro ⟨t₂, h₂, hfault, htree⟩
      obtain rfl := (Prod.mk.inj h₂).1
      exact ⟨by rw [hperform]; exact hfault, by rw [hperform]; exact htree⟩
  · constructor
    · rintro ⟨hfault, -⟩
      rw [perform, htake] at hfault
      cases hfault
    · rintro ⟨t₂, h₂, -⟩
      cases h₂

theorem completes_append {first rest : List Step} :
    Completes m t (first ++ rest) t' ↔
      ∃ t₁, Completes m t first t₁ ∧ Completes m t₁ rest t' := by
  induction first generalizing t with
  | nil => simp only [List.nil_append, completes_nil, exists_eq_left]
  | cons s first ih =>
    simp only [List.cons_append, completes_cons, ih]
    constructor
    · rintro ⟨t₁, hs, t₂, hfirst, hrest⟩
      exact ⟨t₂, ⟨t₁, hs, hfirst⟩, hrest⟩
    · rintro ⟨t₂, ⟨t₁, hs, hfirst⟩, hrest⟩
      exact ⟨t₁, hs, t₂, hfirst, hrest⟩

/-- Once a first part of some steps has been taken, the rest is performed on the tree it leaves. -/
theorem taken_append {first rest : List Step} (h : Completes m t first t') :
    (perform m t (first ++ rest)).taken = first ++ (perform m t' rest).taken := by
  induction first generalizing t with
  | nil =>
    obtain rfl := completes_nil.mp h
    rfl
  | cons s first ih =>
    obtain ⟨t₁, hs, hfirst⟩ := completes_cons.mp h
    rw [List.cons_append, perform, hs]
    exact congrArg (s :: ·) (ih hfirst)

theorem completes_one {s : Step} : Completes m t [s] t' ↔ s.take m t = (t', none) := by
  simp only [completes_cons, completes_nil]
  constructor
  · rintro ⟨t₁, hs, rfl⟩
    exact hs
  · intro hs
    exact ⟨t', hs, rfl⟩

/-! ## Steps that spare the files -/

/-- Whether a step is a line of the log or a warning. -/
def Silent : Step → Prop
  | log _ _ _ | warn _ => True
  | act _ | say _ => False

theorem Silent.take {s : Step} (h : s.Silent) (m : Machine) (t : Tree) :
    s.take m t = (t, none) := by
  cases s with
  | log | warn => rfl
  | act | say => exact h.elim

theorem completes_of_silent {steps : List Step} (h : ∀ s ∈ steps, s.Silent) :
    Completes m t steps t' ↔ t' = t := by
  induction steps with
  | nil => exact completes_nil
  | cons s steps ih =>
    obtain ⟨hs, hsteps⟩ := List.forall_mem_cons.mp h
    rw [completes_cons, hs.take m t]
    simp [ih hsteps]

/-- Whether a step makes a directory at most. -/
def Spares : Step → Prop
  | act (.write _ _) | act (.writeText _ _) => False
  | _ => True

theorem Spares.take {s : Step} (h : s.Spares) (m : Machine) (t : Tree) :
    t.AddsDirectories (s.take m t).1 := by
  cases s with
  | act a =>
    cases a with
    | makeDirectory p => exact Tree.addsDirectories_makeDirectory rfl
    | write | writeText => exact h.elim
  | log | say | warn => exact .refl t

theorem addsDirectories_perform {steps : List Step} (h : ∀ s ∈ steps, s.Spares) (m : Machine)
    (t : Tree) : t.AddsDirectories (perform m t steps).tree := by
  induction steps generalizing t with
  | nil => exact .refl t
  | cons s steps ih =>
    obtain ⟨hs, hsteps⟩ := List.forall_mem_cons.mp h
    have hfirst := hs.take m t
    rw [perform]
    rcases htake : s.take m t with ⟨t₁, _ | fault⟩
    · rw [htake] at hfirst
      exact hfirst.trans (ih hsteps t₁)
    · rw [htake] at hfirst
      exact hfirst

/-! ## Output -/

theorem completes_say {lines : List String} :
    Completes m t (lines.map .say) t' ↔ (∀ line ∈ lines, m.prints line = true) ∧ t' = t := by
  induction lines with
  | nil => simp [completes_nil]
  | cons line lines ih =>
    rw [List.map_cons, completes_cons, List.forall_mem_cons, take]
    cases m.prints line with
    | true => simp [ih]
    | false => simp

theorem output_append (first rest : List Step) :
    output (first ++ rest) = output first ++ output rest := by
  rw [output, List.filterMap_append, String.join_append]
  rfl

theorem output_say (lines : List String) :
    output (lines.map .say) = String.join (lines.map (· ++ "\n")) := by
  have hlines : lines.filterMap (fun line => some (line ++ "\n")) = lines.map (· ++ "\n") :=
    congrFun List.filterMap_eq_map lines
  rw [output, List.filterMap_map, ← hlines]
  rfl

end Step

namespace Script

variable {ε ε' α β : Type} {m : Machine} {t t' : Tree}

@[simp]
theorem result_bind (s : Script ε α) (next : α → Script ε β) :
    (s >>= next).result = s.result >>= fun a => (next a).result := by
  obtain ⟨steps, _ | a⟩ := s <;> rfl

@[simp]
theorem result_pure (a : α) : (pure a : Script ε α).result = pure a :=
  rfl

@[simp]
theorem result_of (result : Except ε α) : (of result).result = result :=
  rfl

@[simp]
theorem result_log (level : Level) (source text : String) :
    (log level source text : Script ε Unit).result = pure () :=
  rfl

/-- Whether a script returns when it is performed on a tree, with what, and what it leaves. -/
structure Returns (s : Script ε α) (m : Machine) (t : Tree) (a : α) (t' : Tree) : Prop where
  completes : Step.Completes m t s.steps t'
  result : s.result = .ok a

/-- Whether something holds of all that a script may return on a tree, and of what it leaves. -/
def Ensures (s : Script ε α) (m : Machine) (t : Tree) (post : α → Tree → Prop) : Prop :=
  ∀ a t', s.Returns m t a t' → post a t'

theorem returns_bind_iff {s : Script ε α} {next : α → Script ε β} {b : β} :
    (s >>= next).Returns m t b t' ↔ ∃ a t₁, s.Returns m t a t₁ ∧ (next a).Returns m t₁ b t' := by
  obtain ⟨steps, fault | a⟩ := s
  · constructor
    · rintro ⟨-, hresult⟩
      cases hresult
    · rintro ⟨a, t₁, ⟨-, hresult⟩, -⟩
      cases hresult
  · have hsteps : ((⟨steps, .ok a⟩ : Script ε α) >>= next).steps = steps ++ (next a).steps := rfl
    have hvalue : ((⟨steps, .ok a⟩ : Script ε α) >>= next).result = (next a).result := rfl
    constructor
    · rintro ⟨hcompletes, hresult⟩
      rw [hsteps] at hcompletes
      obtain ⟨t₁, hfirst, hrest⟩ := Step.completes_append.mp hcompletes
      exact ⟨a, t₁, ⟨hfirst, rfl⟩, ⟨hrest, hresult⟩⟩
    · rintro ⟨a', t₁, ⟨hfirst, ha⟩, ⟨hrest, hresult⟩⟩
      obtain rfl := Except.ok.inj ha
      refine ⟨?_, hresult⟩
      rw [hsteps]
      exact Step.completes_append.mpr ⟨t₁, hfirst, hrest⟩

theorem returns_of_iff {result : Except ε α} {a : α} :
    (of result).Returns m t a t' ↔ result = .ok a ∧ t' = t := by
  constructor
  · rintro ⟨hcompletes, hresult⟩
    exact ⟨hresult, Step.completes_nil.mp hcompletes⟩
  · rintro ⟨hresult, htree⟩
    exact ⟨Step.completes_nil.mpr htree, hresult⟩

theorem returns_pure_iff {a b : α} : (pure a : Script ε α).Returns m t b t' ↔ b = a ∧ t' = t := by
  have hof : (of (.ok a) : Script ε α).Returns m t b t' ↔ _ := returns_of_iff
  rwa [Except.ok.injEq, eq_comm] at hof

theorem returns_one_iff {s : Step} {u : Unit} :
    (one s : Script ε Unit).Returns m t u t' ↔ s.take m t = (t', none) := by
  constructor
  · rintro ⟨hcompletes, -⟩
    exact Step.completes_one.mp hcompletes
  · intro h
    exact ⟨Step.completes_one.mpr h, rfl⟩

theorem returns_log_iff {level : Level} {source text : String} {u : Unit} :
    (log level source text : Script ε Unit).Returns m t u t' ↔ t' = t := by
  have hone : (log level source text : Script ε Unit).Returns m t u t' ↔ (t, none) = (t', none) :=
    returns_one_iff
  rw [hone, Prod.mk.injEq, and_iff_left rfl, eq_comm]

theorem returns_say_iff {line : String} {u : Unit} :
    (say line : Script ε Unit).Returns m t u t' ↔ m.prints line = true ∧ t' = t := by
  refine returns_one_iff.trans ?_
  rw [Step.take]
  cases m.prints line <;> simp [eq_comm]

theorem returns_makeDirectory_iff {p : Path} {u : Unit} :
    (makeDirectory p : Script ε Unit).Returns m t u t' ↔ t.makeDirectory m p = (t', none) := by
  refine returns_one_iff.trans ?_
  rw [Step.take, Tree.act]
  rcases t.makeDirectory m p with ⟨t₁, _ | e⟩ <;> simp

theorem returns_write_iff {p : Path} {bytes : List UInt8} {u : Unit} :
    (write p bytes : Script ε Unit).Returns m t u t' ↔ t.write p bytes = .ok t' := by
  refine returns_one_iff.trans ?_
  rw [Step.take, Tree.act]
  cases t.write p bytes with
  | error e => simp
  | ok t₁ => simp

theorem returns_writeText_iff {p : Path} {pieces : List Text.Piece} {u : Unit} :
    (writeText p pieces : Script ε Unit).Returns m t u t' ↔
      t.write p ((pieces.map Text.Piece.text).flatMap Text.utf8) = .ok t' ∧
        ∀ piece ∈ pieces, piece.fault? m = none := by
  have hone : (writeText p pieces : Script ε Unit).Returns m t u t' ↔
      t.write p (Text.Piece.start m pieces) = .ok t' ∧ ∀ piece ∈ pieces, piece.fault? m = none := by
    refine returns_one_iff.trans ?_
    rw [Step.take, Tree.act, Tree.writeText, ← List.findSome?_eq_none_iff]
    cases t.write p (Text.Piece.start m pieces) with
    | error e => simp
    | ok t₁ => simp
  rw [hone]
  refine and_congr_left fun h => ?_
  rw [Text.Piece.start_of_forall h]

/-! ## Scripts that leave the files alone -/

/-- What holds of the steps of both parts of a script holds of all its steps. -/
theorem forall_steps_bind {P : Step → Prop} {s : Script ε α} {next : α → Script ε β}
    (hs : ∀ step ∈ s.steps, P step) (hnext : ∀ a, ∀ step ∈ (next a).steps, P step) :
    ∀ step ∈ (s >>= next).steps, P step := by
  obtain ⟨steps, fault | a⟩ := s
  · exact hs
  · exact List.forall_mem_append.mpr ⟨hs, hnext a⟩

/-- Whether a script only adds to the log and gives warnings. -/
def Silent (s : Script ε α) : Prop :=
  ∀ step ∈ s.steps, step.Silent

theorem silent_of_steps_eq_nil {s : Script ε α} (h : s.steps = []) : s.Silent := by
  intro step hstep
  rw [h] at hstep
  cases hstep

theorem silent_of (result : Except ε α) : (of result).Silent :=
  silent_of_steps_eq_nil rfl

theorem silent_pure (a : α) : (pure a : Script ε α).Silent :=
  silent_of_steps_eq_nil rfl

theorem silent_log (level : Level) (source text : String) :
    (log level source text : Script ε Unit).Silent :=
  List.forall_mem_singleton.mpr trivial

theorem silent_ofReading {f : GrammarFault → ε} (r : Reading α) :
    ((ofReading r).mapError f).Silent :=
  List.forall_mem_map.mpr fun _ _ => trivial

theorem Silent.bind {s : Script ε α} {next : α → Script ε β} (hs : s.Silent)
    (hnext : ∀ a, (next a).Silent) : (s >>= next).Silent :=
  forall_steps_bind hs hnext

/-- Nothing stops such a script. -/
theorem Silent.returns_iff {s : Script ε α} (hs : s.Silent) {a : α} :
    s.Returns m t a t' ↔ s.result = .ok a ∧ t' = t := by
  have hcompletes : Step.Completes m t s.steps t' ↔ t' = t := Step.completes_of_silent hs
  constructor
  · rintro ⟨h, hresult⟩
    exact ⟨hresult, hcompletes.mp h⟩
  · rintro ⟨hresult, htree⟩
    exact ⟨hcompletes.mpr htree, hresult⟩

/-! ## Scripts that are refused -/

/-- Whether a script makes directories at most. -/
def Spares (s : Script ε α) : Prop :=
  ∀ step ∈ s.steps, step.Spares

theorem Silent.spares {s : Script ε α} (hs : s.Silent) : s.Spares := by
  intro step hstep
  cases step with
  | act | say => exact (hs _ hstep).elim
  | log | warn => trivial

theorem spares_say (line : String) : (say line : Script ε Unit).Spares :=
  List.forall_mem_singleton.mpr trivial

theorem spares_makeDirectory (p : Path) : (makeDirectory p : Script ε Unit).Spares :=
  List.forall_mem_singleton.mpr trivial

theorem Spares.bind {s : Script ε α} {next : α → Script ε β} (hs : s.Spares)
    (hnext : ∀ a, (next a).Spares) : (s >>= next).Spares :=
  forall_steps_bind hs hnext

/-- Whether a script is performed to its end and has a fault as its result, and what it leaves. -/
structure Fails (s : Script ε α) (m : Machine) (t : Tree) (e : ε) (t' : Tree) : Prop where
  completes : Step.Completes m t s.steps t'
  result : s.result = .error e

theorem fails_of_error {result : Except ε α} {e : ε} (h : result = .error e) :
    (of result).Fails m t e t :=
  ⟨Step.completes_nil.mpr rfl, h⟩

theorem Fails.bind {s : Script ε α} {e : ε} (h : s.Fails m t e t') (next : α → Script ε β) :
    (s >>= next).Fails m t e t' := by
  obtain ⟨steps, fault | a⟩ := s
  · obtain rfl := Except.error.inj h.result
    exact ⟨h.completes, rfl⟩
  · cases h.result

theorem Returns.bind_fails {s : Script ε α} {next : α → Script ε β} {a : α} {t₁ : Tree} {e : ε}
    (h : s.Returns m t a t₁) (hnext : (next a).Fails m t₁ e t') : (s >>= next).Fails m t e t' := by
  obtain ⟨steps, fault | b⟩ := s
  · cases h.result
  · obtain rfl := Except.ok.inj h.result
    exact ⟨Step.completes_append.mpr ⟨t₁, h.completes, hnext.completes⟩, hnext.result⟩

/-- Whether a script that is refused makes directories at most. -/
def Cautious (refused : ε → Prop) (s : Script ε α) : Prop :=
  ∀ e, s.result = .error e → refused e → s.Spares

variable {refused : ε → Prop}

theorem Cautious.addsDirectories {s : Script ε α} (hs : s.Cautious refused) {e : ε}
    (h : s.Fails m t e t') (he : refused e) : t.AddsDirectories t' := by
  have hspares := hs e h.result he
  rw [← h.completes.tree]
  exact Step.addsDirectories_perform hspares m t

theorem Spares.cautious {s : Script ε α} (hs : s.Spares) : s.Cautious refused :=
  fun _ _ _ => hs

/-- A script that is never refused may write what it likes. -/
theorem cautious_of_never {s : Script ε α} (h : ∀ e, s.result = .error e → ¬refused e) :
    s.Cautious refused :=
  fun e he hrefused => absurd hrefused (h e he)

theorem Spares.bind_cautious {s : Script ε α} {next : α → Script ε β} (hs : s.Spares)
    (hnext : ∀ a, (next a).Cautious refused) : (s >>= next).Cautious refused := by
  intro e he hrefused
  obtain ⟨steps, fault | a⟩ := s
  · exact hs
  · intro step hstep
    rcases List.mem_append.mp hstep with hstep | hstep
    · exact hs step hstep
    · exact hnext a e he hrefused step hstep

theorem Cautious.bind_of_never {s : Script ε α} {next : α → Script ε β} (hs : s.Cautious refused)
    (hnext : ∀ a e, (next a).result ≠ .error e) : (s >>= next).Cautious refused := by
  obtain ⟨steps, fault | a⟩ := s
  · intro e he hrefused
    obtain rfl := Except.error.inj he
    exact hs fault rfl hrefused
  · exact cautious_of_never fun e he => absurd he (hnext a e)

theorem Cautious.mapError {f : ε → ε'} {s : Script ε α} {refused : ε' → Prop}
    (hs : s.Cautious fun e => refused (f e)) : (s.mapError f).Cautious refused := by
  obtain ⟨steps, fault | a⟩ := s
  · intro e he hrefused
    obtain rfl := Except.error.inj he
    exact hs fault rfl hrefused
  · intro e he
    cases he

end Script

/-- A machine with room for three lists and objects in one another, and an output that encodes every
text that has bytes. -/
def Machine.narrow : Machine :=
  ⟨"2024-05-01", .native, Text.isEncodable, 3, 3, 3⟩

end VoxelCurve
