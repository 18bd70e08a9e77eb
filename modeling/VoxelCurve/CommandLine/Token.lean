import VoxelCurve.CommandLine.Form
import VoxelCurve.Text.DecimalDigit

/-!
The words of a command line, told apart before any of them is acted on.

A word is an option if its first part names one, in full or by its beginning, and no more
than one.  What looks like a negative number, holds a blank or is nothing but a hyphen
stands by itself, and so does every word behind a lone pair of hyphens.
-/

namespace VoxelCurve
namespace CommandLine

/-- An option as a word names it, and what hangs on it in the same word. -/
structure Match where
  option : OptionSpec
  name : String
  attached? : Option (List Char)
deriving Repr, DecidableEq

inductive Token where
  /-- a lone pair of hyphens -/
  | separator
  | plain (word : String)
  /-- a word in the shape of an option, and the option it names, if there is one -/
  | option (word : String) (found? : Option Match)
deriving Repr, DecidableEq

/-- The parts of a word before and behind its first equals sign. -/
def splitSign (word : List Char) : List Char × Option (List Char) :=
  match word.dropWhile (· != '=') with
  | _ :: value => (word.takeWhile (· != '='), some value)
  | [] => (word, none)

/-- Digits to the end, where a line feed may follow. -/
def areDigits (s : List Char) : Bool :=
  let digits := s.takeWhile Text.isDecimalDigit
  let rest := s.dropWhile Text.isDecimalDigit
  !digits.isEmpty && (rest.isEmpty || rest == ['\n'])

/-- Whether a word looks like a negative number: a hyphen, digits and perhaps a point with
digits behind it. -/
def isNegativeNumber : List Char → Bool
  | '-' :: s =>
    areDigits s ||
      match s.dropWhile Text.isDecimalDigit with
      | '.' :: places => areDigits places
      | _ => false
  | _ => false

/-- The options whose names a word begins.  Behind two hyphens the name ends at an equals
sign; behind one it is a single letter, and what follows hangs on it. -/
def candidates (f : Form) (word : List Char) : List Match :=
  match word with
  | '-' :: '-' :: _ =>
    let (beginning, value?) := splitSign word
    f.byName.filterMap fun (name, option) =>
      if beginning.isPrefixOf name.toList then some ⟨option, name, value?⟩ else none
  | '-' :: letter :: value =>
    f.byName.filterMap fun (name, option) =>
      if name.toList = ['-', letter] then some ⟨option, name, some value⟩ else none
  | _ => []

/-- The option that a word names in full, perhaps with a value behind an equals sign. -/
def named? (f : Form) (word : List Char) : Option Match :=
  let named := fun (name : List Char) (attached? : Option (List Char)) =>
    (f.find? (String.ofList name)).map fun option =>
      (⟨option, String.ofList name, attached?⟩ : Match)
  match named word none with
  | some found => some found
  | none =>
    match splitSign word with
    | (_, none) => none
    | (name, some value) => named name (some value)

/-- What a word is. -/
def tokenOf (f : Form) (word : String) : Except UsageFault Token :=
  match word.toList with
  | '-' :: letter :: rest =>
    let chars := '-' :: letter :: rest
    match named? f chars with
    | some found => .ok (.option word (some found))
    | none =>
      match candidates f chars with
      | [found] => .ok (.option word (some found))
      | [] =>
        if isNegativeNumber chars || chars.contains ' ' then .ok (.plain word)
        else .ok (.option word none)
      | several => .error (.ambiguous word (several.map (·.name)))
  | _ => .ok (.plain word)

/-- What the words of a command line are. -/
def tokens (f : Form) : List String → Except UsageFault (List Token)
  | [] => .ok []
  | word :: rest =>
    if word = "--" then .ok (.separator :: rest.map .plain)
    else do
      let token ← tokenOf f word
      let more ← tokens f rest
      .ok (token :: more)

end CommandLine
end VoxelCurve
