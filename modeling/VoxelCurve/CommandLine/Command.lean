import VoxelCurve.CommandLine.Parse

/-!
The commands of the program and their options.

There are four: rendering a grammar to a file, printing a derived sentence, listing the
built-in grammars and summarizing a file.  An option that was given no value says nothing
where a text is wanted and is an empty list where a number is.
-/

namespace VoxelCurve
namespace CommandLine

/-- Which grammar is meant, and under which name. -/
structure GrammarChoice where
  preset? : Option String
  file? : Option String
  /-- an axiom, to go with rules -/
  start? : Option String
  rules : List Value
  name? : Option String

structure RenderArguments where
  grammar : GrammarChoice
  derivationLength? : Option Value
  stepSize? : Option Value
  /-- in degrees -/
  angle? : Option Value
  sizeX? : Option Value
  sizeY? : Option Value
  sizeZ? : Option Value
  offsetX? : Option Value
  offsetY? : Option Value
  rainbow? : Option Bool
  outputDir : Value
  output? : Option String
  noMetadata : Bool
  progress : Bool

inductive Command where
  | render (arguments : RenderArguments)
  | derive (grammar : GrammarChoice) (length : Value)
  | presets
  | inspect (path : String)

/-- What a command line asks for. -/
structure Request where
  /-- how often more words were asked for -/
  verbosity : Nat
  command : Command

namespace Form

def help : OptionSpec :=
  { names := ["-h", "--help"], isHelp := true }

def flag (names : List String) : OptionSpec :=
  { names }

def valued (kind : ValueKind) (names : List String) : OptionSpec :=
  { names, value? := some kind }

/-- One of the options that say which grammar is meant. -/
def source (name : String) : OptionSpec :=
  { names := [name], value? := some .text, isExclusive := true }

def grammarOptions : List OptionSpec :=
  [source "--preset", source "--grammar", source "--axiom", valued .text ["--rule"],
   valued .text ["--name"]]

def lengthOption : OptionSpec :=
  valued .integer ["-n", "--derivation-length"]

def main : Form where
  program := "voxgen"
  options := [help, flag ["-v", "--verbose"]]
  operand := .rest "command"

def render : Form where
  program := "voxgen render"
  options :=
    help :: grammarOptions ++
      [lengthOption, valued .decimal ["--step-size"], valued .decimal ["--angle"],
       valued .integer ["--size-x"], valued .integer ["--size-y"], valued .integer ["--size-z"],
       valued .decimal ["--offset-x"], valued .decimal ["--offset-y"],
       flag ["--rainbow", "--no-rainbow"], valued .text ["--output-dir"],
       valued .text ["-o", "--output"], flag ["--no-metadata"], flag ["--progress"]]
  operand := .none

def derive : Form where
  program := "voxgen derive"
  options := help :: grammarOptions ++ [lengthOption]
  operand := .none

def presets : Form where
  program := "voxgen presets"
  options := [help]
  operand := .none

def inspect : Form where
  program := "voxgen inspect"
  options := [help]
  operand := .one "path"

/-- The forms of the commands by name. -/
def commands : List (String × Form) :=
  [("render", render), ("derive", derive), ("presets", presets), ("inspect", inspect)]

end Form

namespace Parsed

/-- The value that an option was last given, if it was. -/
def setting? (p : Parsed) (name : String) : Option Value :=
  (p.value? name).map Argument.toValue

def grammarChoice (p : Parsed) : GrammarChoice where
  preset? := p.text? "--preset"
  file? := p.text? "--grammar"
  start? := (p.value? "--axiom").map fun a => a.text?.getD ""
  rules := (p.values "--rule").map Argument.toValue
  name? := p.text? "--name"

def renderArguments (p : Parsed) : RenderArguments where
  grammar := p.grammarChoice
  derivationLength? := p.setting? "--derivation-length"
  stepSize? := p.setting? "--step-size"
  angle? := p.setting? "--angle"
  sizeX? := p.setting? "--size-x"
  sizeY? := p.setting? "--size-y"
  sizeZ? := p.setting? "--size-z"
  offsetX? := p.setting? "--offset-x"
  offsetY? := p.setting? "--offset-y"
  rainbow? := (p.nameOf? "--rainbow").map (· == "--rainbow")
  outputDir := (p.setting? "--output-dir").getD (.text "volumes")
  output? := p.text? "--output"
  noMetadata := p.has "--no-metadata"
  progress := p.has "--progress"

/-- The command with a name, from what its own words say. -/
def command (name : String) (p : Parsed) : Command :=
  match name with
  | "render" => .render p.renderArguments
  | "derive" => .derive p.grammarChoice ((p.setting? "--derivation-length").getD (.int 2))
  | "inspect" => .inspect ((p.operand?.bind List.head?).getD "")
  | _ => .presets

end Parsed

/-- Reads a command line.  The words of the command are read on their own, and what neither
reading has a use for is complained about last. -/
def request (words : List String) : Except Refusal Request := do
  let top ← read Form.main words
  match top.operand?.getD [] with
  | [] => .error (.fault Form.main.program (.missingOperand "command"))
  | name :: rest =>
    match Form.commands.lookup name with
    | none =>
      .error (.fault Form.main.program
        (.unknownCommand "command" name (Form.commands.map (·.1))))
    | some form => do
      let p ← read form rest
      match top.extras ++ p.extras with
      | [] => .ok ⟨(top.values "--verbose").length, p.command name⟩
      | extras => .error (.fault Form.main.program (.unrecognized extras))

end CommandLine
end VoxelCurve
