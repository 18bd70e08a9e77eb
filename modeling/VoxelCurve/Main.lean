import Std.Time.Format
import VoxelCurve.CommandLine.Program

/-!
The program.

A command line becomes a script, and the script decides everything.  Here the files that it
is made from are read, and its steps are taken one after the other on the machine.
-/

namespace VoxelCurve
namespace CommandLine

/-- The fault that an error of the machine stands for, if it is one. -/
def fileFault? : IO.Error → Option FileFault
  | .noFileOrDirectory .. => some .notFound
  | .alreadyExists .. => some .alreadyThere
  | .inappropriateType _ number _ =>
    some (if number.toNat = (FileError.cause .isDirectory).1 then .isDirectory else .notDirectory)
  | _ => none

/-- A path as the machine takes it. -/
def written (p : Path) : String :=
  Text.released p.text

/-- A file that a script is made from. -/
def readInput (p : Path) : IO (Path × Except FileError (List UInt8)) := do
  try
    let bytes ← IO.FS.readBinFile (written p)
    pure (p, .ok bytes.data.toList)
  catch e =>
    match fileFault? e with
    | some fault => pure (p, .error ⟨fault, p.text⟩)
    | none => throw e

/-- The files that a command reads. -/
def readInputs (c : Command) : IO Contents := do
  let inputs ← c.inputs.mapM readInput
  pure fun p => (inputs.lookup p).getD (.error ⟨.notFound, p.text⟩)

/-- Takes a step. -/
def takeStep (m : Machine) (threshold : Nat) : Step → IO Unit
  | .say line =>
    if m.prints line then IO.println (Text.released line)
    else throw (IO.userError (CommandFault.output line).message)
  | .warn w => IO.eprintln (Text.released w.message)
  | .act (.makeDirectory p) => IO.FS.createDirAll (written p)
  | .act (.write p bytes) => IO.FS.writeBinFile (written p) ⟨bytes.toArray⟩
  | .act (.writeText p pieces) => do
    IO.FS.writeBinFile (written p) ⟨(Text.Piece.start m pieces).toArray⟩
    if let some fault := pieces.findSome? (·.fault? m) then
      throw (IO.userError (FileError.message ⟨fault, written p⟩))
  | step => IO.eprint (Text.released (Step.logged threshold [step]))

/-- The time of the clock on the wall. -/
def currentTime : IO String := do
  let now ← Std.Time.PlainDateTime.now
  pure (now.format "uuuu-MM-dd'T'HH:mm:ss.SSSSSS")

/-- This machine: its output is UTF-8, and calls go as deep as a thousand on it. -/
def thisMachine : IO Machine := do
  pure ⟨← currentTime, .native, Text.isEncodable, 1000, 1000, 1000⟩

/-- Carries out a request, and tells its status. -/
def Request.execute (r : Request) : IO UInt32 := do
  let contents ← readInputs r.command
  let m ← thisMachine
  let script := r.command.script m contents
  script.steps.forM (takeStep m (threshold r.verbosity))
  match script.result with
  | .ok () => pure 0
  | .error fault =>
    IO.eprintln ("error: " ++ Text.released fault.message)
    pure (UInt32.ofNat (fault.status?.getD 1))

end CommandLine
end VoxelCurve

open VoxelCurve CommandLine in
def main (words : List String) : IO UInt32 := do
  match request (words.map Text.kept) with
  | .error refusal =>
    IO.eprintln (Text.released refusal.message)
    pure (UInt32.ofNat refusal.status)
  | .ok r =>
    try r.execute
    catch e =>
      IO.eprintln s!"error: {e}"
      pure 1
