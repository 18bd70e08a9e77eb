import VoxelCurve.Files.Tree
import VoxelCurve.Grammar.Rule

/-!
Scripts: what a run says and does, in order, and how it ends.

A script is made before anything is done.  Performing it takes its steps one after the other
and stops at the first action that fails, or at the first line that the output cannot encode, so
what has been said by then is a first part of the script.
-/

namespace VoxelCurve

/-- How much a line of the log matters. -/
inductive Level where
  | debug
  | info
  | warning
deriving Repr, DecidableEq

namespace Level

def rank : Level → Nat
  | debug => 10
  | info => 20
  | warning => 30

def name : Level → String
  | debug => "DEBUG"
  | info => "INFO"
  | warning => "WARNING"

end Level

inductive Step where
  /-- a line of the log -/
  | log (level : Level) (source text : String)
  /-- a line of output -/
  | say (line : String)
  /-- a warning about a rule -/
  | warn (warning : AmbiguousRule)
  | act (action : Action)

structure Script (ε α : Type) where
  steps : List Step
  result : Except ε α

namespace Script

variable {ε ε' α β : Type}

def done (a : α) : Script ε α :=
  ⟨[], .ok a⟩

def fail (e : ε) : Script ε α :=
  ⟨[], .error e⟩

def of (result : Except ε α) : Script ε α :=
  ⟨[], result⟩

/-- A single step. -/
def one (s : Step) : Script ε Unit :=
  ⟨[s], .ok ()⟩

/-- Goes on with the result, unless there is none. -/
def andThen (s : Script ε α) (next : α → Script ε β) : Script ε β :=
  match s.result with
  | .error e => ⟨s.steps, .error e⟩
  | .ok a =>
    let more := next a
    ⟨s.steps ++ more.steps, more.result⟩

def mapError (f : ε → ε') (s : Script ε α) : Script ε' α :=
  ⟨s.steps, s.result.mapError f⟩

instance : Monad (Script ε) where
  pure := done
  bind := andThen

/-- The log's line. -/
def log (level : Level) (source text : String) : Script ε Unit :=
  one (.log level source text)

def say (line : String) : Script ε Unit :=
  one (.say line)

def makeDirectory (p : Path) : Script ε Unit :=
  one (.act (.makeDirectory p))

def write (p : Path) (bytes : List UInt8) : Script ε Unit :=
  one (.act (.write p bytes))

def writeText (p : Path) (pieces : List Text.Piece) : Script ε Unit :=
  one (.act (.writeText p pieces))

/-- What was read from text, with its warnings as steps. -/
def ofReading (r : Reading α) : Script GrammarFault α :=
  ⟨r.warnings.map .warn, r.result⟩

end Script

/-- Why a step could not be taken. -/
inductive StepFault where
  | file (error : FileError)
  /-- a line that the output cannot encode, and nothing of which is printed -/
  | output (line : String)
deriving Repr, DecidableEq

/-- The steps that were taken, the tree after them, and what stopped them, if anything did. -/
structure Performance where
  taken : List Step
  tree : Tree
  fault? : Option StepFault

namespace Step

/-- Takes a step. -/
def take (m : Machine) (t : Tree) : Step → Tree × Option StepFault
  | act a =>
    let (t, e?) := t.act m a
    (t, e?.map .file)
  | say line => (t, if m.prints line then none else some (.output line))
  | log _ _ _ | warn _ => (t, none)

/-- Takes steps up to the first that fails. -/
def perform (m : Machine) (t : Tree) : List Step → Performance
  | [] => ⟨[], t, none⟩
  | s :: rest =>
    match s.take m t with
    | (t, some fault) => ⟨[], t, some fault⟩
    | (t, none) =>
      let p := perform m t rest
      { p with taken := s :: p.taken }

/-- The lines of output among some steps. -/
def output (steps : List Step) : String :=
  String.join (steps.filterMap fun
    | say line => some (line ++ "\n")
    | _ => none)

/-- The lines of the log that matter enough. -/
def logged (threshold : Nat) (steps : List Step) : String :=
  String.join (steps.filterMap fun
    | log level source text =>
      if threshold ≤ level.rank then some (level.name ++ " " ++ source ++ ": " ++ text ++ "\n")
      else none
    | _ => none)

def warnings (steps : List Step) : List AmbiguousRule :=
  steps.filterMap fun
    | warn w => some w
    | _ => none

end Step
end VoxelCurve
