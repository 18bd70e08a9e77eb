import VoxelCurve.CommandLine.Token
import VoxelCurve.Decimal.Reading
import VoxelCurve.Value.Basic

/-!
Reading command lines.

Words are taken from left to right.  An option takes its value from the same word or from
the next one; words that no option takes go to the operand until it has what it wants, and
all others are left over.  Values are read and conflicts noticed as the options come, and
what is missing only at the end.
-/

namespace VoxelCurve
namespace CommandLine

/-- The value of an option. -/
inductive Argument where
  /-- the value of an option that takes none -/
  | nothing
  /-- a lone pair of hyphens in the same word, which stands for no value and is not read -/
  | empty
  | text (s : String)
  | integer (n : Int)
  | decimal (x : Float)

namespace Argument

def toValue : Argument → Value
  | nothing => .null
  | empty => .list []
  | text s => .text s
  | integer n => .int n
  | decimal x => .float x

def text? : Argument → Option String
  | text s => some s
  | _ => none

end Argument

/-- An option that was given. -/
structure Given where
  option : OptionSpec
  /-- the name it was given under -/
  name : String
  argument : Argument

/-- What a command line says. -/
structure Parsed where
  given : List Given := []
  /-- the words of the operand, if they are there -/
  operand? : Option (List String) := none
  /-- the words that nothing took -/
  extras : List String := []

/-- Why reading stops. -/
inductive Halt where
  | help
  | fault (fault : UsageFault)
deriving Repr, DecidableEq

/-- The value that a text is for options of a kind.  Two dashes are dropped and leave no value, as
argparse does it up to release 3.11.2; from release 3.11.10 on it keeps them and reads them like any
other text. -/
def argument? (kind : ValueKind) (s : String) : Option Argument :=
  if s = "--" then some .empty
  else
    match kind with
    | .text => some (.text s)
    | .integer => (Decimal.readInteger? s).map .integer
    | .decimal => (Decimal.readFloat? s).map .decimal

/-- Reads the value of an option. -/
def readArgument (option : OptionSpec) (kind : ValueKind) (s : String) :
    Except UsageFault Argument :=
  match argument? kind s with
  | some argument => .ok argument
  | none => .error (.badValue option.shown kind.name s)

/-- An option with the text of its value, before that is read. -/
structure Taken where
  option : OptionSpec
  name : String
  value? : Option String

namespace Parsed

/-- The first option that excludes another and has been given already. -/
def conflict? (p : Parsed) (f : Form) (option : OptionSpec) : Option OptionSpec :=
  if option.isExclusive then
    f.exclusive.find? fun other => other != option && p.given.any (·.option == other)
  else none

/-- Notes an option. -/
def take (f : Form) (p : Parsed) (t : Taken) : Except Halt Parsed :=
  if t.option.isHelp then .error .help
  else do
    let argument ← match t.option.value?, t.value? with
      | some kind, some s => (readArgument t.option kind s).mapError .fault
      | _, _ => .ok .nothing
    match p.conflict? f t.option with
    | some other => .error (.fault (.conflict t.option.shown other.shown))
    | none => .ok { p with given := p.given ++ [⟨t.option, t.name, argument⟩] }

end Parsed

/-- The options in one word, and the words after those it takes. -/
structure Bundle where
  taken : List Taken
  rest : List Token

/-- Whether an option's name is a single letter. -/
def isShort (name : String) : Bool :=
  match name.toList with
  | '-' :: c :: _ => c != '-'
  | _ => false

/-- An option without a value in the same word. -/
def bundleBare (option : OptionSpec) (name : String) (rest : List Token) :
    Except UsageFault Bundle :=
  match option.value?, rest with
  | none, rest => .ok ⟨[⟨option, name, none⟩], rest⟩
  | some _, .plain s :: rest => .ok ⟨[⟨option, name, some s⟩], rest⟩
  | some _, _ => .error (.noValue option.shown)

/-- An option with something behind it in the same word.  Behind a letter that takes no
value, further letters are options of their own; what is none is a value that nothing
takes. -/
def bundleAttached (f : Form) (rest : List Token) (option : OptionSpec) (name : String)
    (value : List Char) : Except UsageFault Bundle :=
  let unwanted : Except UsageFault Bundle :=
    .error (.unwantedValue option.shown (String.ofList value))
  if option.value?.isSome then .ok ⟨[⟨option, name, some (String.ofList value)⟩], rest⟩
  else if isShort name then
    match value with
    | [] => unwanted
    | c :: more =>
      let letter := String.ofList ['-', c]
      match f.find? letter with
      | none => unwanted
      | some next =>
        let others := match more with
          | [] => bundleBare next letter rest
          | d :: value => bundleAttached f rest next letter (d :: value)
        others.map fun b => { b with taken := ⟨option, name, none⟩ :: b.taken }
  else unwanted
termination_by value.length

/-- The options in the word that a match was found in. -/
def bundle (f : Form) (m : Match) (rest : List Token) : Except UsageFault Bundle :=
  match m.attached? with
  | none => bundleBare m.option m.name rest
  | some value => bundleAttached f rest m.option m.name value

/-- The words of the operand at the front of some tokens, and the tokens behind them.  A
separator on either side of a single word belongs to it and is dropped. -/
def takeOperand? (operand : Operand) (ts : List Token) : Option (List String × List Token) :=
  match operand, ts with
  | .one _, .separator :: .plain s :: rest => some ([s], rest)
  | .one _, .plain s :: .separator :: rest => some ([s], rest)
  | .one _, .plain s :: rest => some ([s], rest)
  | .rest _, .separator :: .plain s :: rest => some ("--" :: s :: rest.map word, [])
  | .rest _, .plain s :: rest => some (s :: rest.map word, [])
  | _, _ => none
where
  /-- A token as it was written. -/
  word : Token → String
    | .separator => "--"
    | .plain s => s
    | .option s _ => s

/-- Reads tokens in order.  Every step takes at least one of them, so there are no more
steps than tokens. -/
def readTokens (f : Form) : Nat → List Token → Parsed → Except Halt Parsed
  | 0, _, p => .ok p
  | _, [], p => .ok p
  | fuel + 1, t :: rest, p =>
    match t with
    | .option word none => readTokens f fuel rest { p with extras := p.extras ++ [word] }
    | .option _ (some m) => do
      let b ← (bundle f m rest).mapError .fault
      let p ← b.taken.foldlM (Parsed.take f) p
      readTokens f fuel b.rest p
    | _ =>
      match p.operand?, takeOperand? f.operand (t :: rest) with
      | none, some (words, rest) => readTokens f fuel rest { p with operand? := some words }
      | _, _ => readTokens f fuel rest { p with extras := p.extras ++ [takeOperand?.word t] }

/-- Complains about what is missing. -/
def checkComplete (f : Form) (p : Parsed) : Except UsageFault Parsed :=
  match f.operand, p.operand? with
  | .one name, none => .error (.missingOperand name)
  | .rest name, none => .error (.missingOperand name)
  | _, _ =>
    if !f.exclusive.isEmpty && !p.given.any (·.option.isExclusive) then
      .error (.missingExclusive (f.exclusive.map (·.shown)))
    else .ok p

/-- Reads a command line of a form. -/
def read (f : Form) (words : List String) : Except Refusal Parsed :=
  let outcome : Except Halt Parsed := do
    let ts ← (tokens f words).mapError .fault
    let p ← readTokens f ts.length ts {}
    (checkComplete f p).mapError .fault
  match outcome with
  | .ok p => .ok p
  | .error .help => .error (.help f.program)
  | .error (.fault fault) => .error (.fault f.program fault)

namespace Parsed

/-- The values that an option was given, in order. -/
def values (p : Parsed) (name : String) : List Argument :=
  (p.given.filter fun g => g.option.names.contains name).map (·.argument)

def value? (p : Parsed) (name : String) : Option Argument :=
  (p.values name).getLast?

def text? (p : Parsed) (name : String) : Option String :=
  (p.value? name).bind Argument.text?

def has (p : Parsed) (name : String) : Bool :=
  p.given.any fun g => g.option.names.contains name

/-- The name under which an option was last given. -/
def nameOf? (p : Parsed) (name : String) : Option String :=
  ((p.given.filter fun g => g.option.names.contains name).getLast?).map (·.name)

end Parsed
end CommandLine
end VoxelCurve
