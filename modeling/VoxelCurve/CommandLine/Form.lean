import VoxelCurve.Text.Quoted

/-!
Forms of command lines.

A form says which options a program knows, which of them take a value and of what sort,
which exclude each other, and which words may stand by themselves.
-/

namespace VoxelCurve
namespace CommandLine

/-- What the value of an option has to be. -/
inductive ValueKind where
  | text
  | integer
  | decimal
deriving Repr, DecidableEq

namespace ValueKind

def name : ValueKind → String
  | text => "str"
  | integer => "int"
  | decimal => "float"

end ValueKind

/-- An option, under all its names. -/
structure OptionSpec where
  names : List String
  /-- what its value has to be, if it takes one -/
  value? : Option ValueKind := none
  /-- whether it excludes the others of which this is said -/
  isExclusive : Bool := false
  /-- whether it asks for help and for nothing else -/
  isHelp : Bool := false
deriving Repr, DecidableEq

def OptionSpec.shown (o : OptionSpec) : String :=
  "/".intercalate o.names

/-- The words that may stand by themselves. -/
inductive Operand where
  | none
  /-- a single word -/
  | one (name : String)
  /-- a word and all that follows it, options too -/
  | rest (name : String)
deriving Repr, DecidableEq

structure Form where
  program : String
  options : List OptionSpec
  operand : Operand
deriving Repr

namespace Form

/-- The options by name, in their order. -/
def byName (f : Form) : List (String × OptionSpec) :=
  f.options.flatMap fun o => o.names.map fun name => (name, o)

def find? (f : Form) (name : String) : Option OptionSpec :=
  f.byName.lookup name

/-- The options that exclude each other. -/
def exclusive (f : Form) : List OptionSpec :=
  f.options.filter (·.isExclusive)

end Form

/-- Why a command line is outside its form. -/
inductive UsageFault where
  | ambiguous (word : String) (names : List String)
  | noValue (option : String)
  | badValue (option kind value : String)
  /-- a value behind an option that takes none -/
  | unwantedValue (option value : String)
  | conflict (option other : String)
  | missingOperand (name : String)
  | missingExclusive (names : List String)
  | unknownCommand (operand word : String) (names : List String)
  | unrecognized (words : List String)
deriving Repr, DecidableEq

namespace UsageFault

open Text (quoted)

def message : UsageFault → String
  | ambiguous word names =>
    s!"ambiguous option: {word} could match " ++ ", ".intercalate names
  | noValue option => s!"argument {option}: expected one argument"
  | badValue option kind value =>
    s!"argument {option}: invalid {kind} value: {quoted value}"
  | unwantedValue option value =>
    s!"argument {option}: ignored explicit argument {quoted value}"
  | conflict option other => s!"argument {option}: not allowed with argument {other}"
  | missingOperand name => s!"the following arguments are required: {name}"
  | missingExclusive names =>
    "one of the arguments " ++ " ".intercalate names ++ " is required"
  | unknownCommand operand word names =>
    s!"argument {operand}: invalid choice: {quoted word} (choose from " ++
      ", ".intercalate (names.map quoted) ++ ")"
  | unrecognized words => "unrecognized arguments: " ++ " ".intercalate words

end UsageFault

/-- Why a command line is not carried out: it asks for help, or it is at fault. -/
inductive Refusal where
  | help (program : String)
  | fault (program : String) (fault : UsageFault)
deriving Repr, DecidableEq

end CommandLine
end VoxelCurve
