import VoxelCurve.CommandLine.Execution

/-!
Whole runs of the program.

A run reads its command line, carries the command out on the files there are, and ends with
a status, unless something is not caught.  What it says goes to two channels: output, and
the log with the complaint a failed run ends with.
-/

namespace VoxelCurve
namespace CommandLine

/-- How a run ends. -/
inductive Ending where
  /-- the command line was not carried out -/
  | refused (refusal : Refusal)
  | exit (status : Nat)
  /-- a fault that is not caught -/
  | escaped (fault : CommandFault)
deriving Repr, DecidableEq

/-- What a run leaves behind. -/
structure Conclusion where
  tree : Tree
  output : String
  log : String
  warnings : List AmbiguousRule
  ending : Ending

namespace Refusal

/-- The line that a refused command line ends with. -/
def message : Refusal → String
  | help _ => ""
  | fault program cause => program ++ ": error: " ++ cause.message

def status : Refusal → Nat
  | help _ => 0
  | fault _ _ => 2

end Refusal

/-- The least level that is logged. -/
def threshold (verbosity : Nat) : Nat :=
  30 - 10 * min verbosity 2

/-- How a script has ended, after a step that failed or by itself. -/
def failure? (p : Performance) (result : Except CommandFault Unit) : Option CommandFault :=
  match p.fault?, result with
  | some (.file e), _ => some (.file e)
  | some (.output line), _ => some (.output line)
  | none, .error fault => some fault
  | none, .ok () => none

/-- The complaint that a caught fault ends the log with. -/
def complaint (fault? : Option CommandFault) : String :=
  match fault? with
  | some fault => if fault.status?.isSome then "error: " ++ fault.message ++ "\n" else ""
  | none => ""

def endingOf (fault? : Option CommandFault) : Ending :=
  match fault? with
  | none => .exit 0
  | some fault =>
    match fault.status? with
    | some status => .exit status
    | none => .escaped fault

/-- Runs the program on a tree. -/
def run (t : Tree) (m : Machine) (words : List String) : Conclusion :=
  match request words with
  | .error refusal => ⟨t, "", refusal.message, [], .refused refusal⟩
  | .ok r =>
    let script := r.command.script m t.read
    let p := Step.perform m t script.steps
    let fault? := failure? p script.result
    { tree := p.tree
      output := Step.output p.taken
      log := Step.logged (threshold r.verbosity) p.taken ++ complaint fault?
      warnings := Step.warnings p.taken
      ending := endingOf fault? }

end CommandLine
end VoxelCurve
