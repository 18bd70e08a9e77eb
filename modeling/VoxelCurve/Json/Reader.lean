import VoxelCurve.Decimal.Reading
import VoxelCurve.Text.Surrogate
import VoxelCurve.Value.Basic

/-!
Reading JSON.

The reader takes the standard's grammar and, as numbers, the three words for values without
digits.  A field given twice keeps its first place and its last value.  An integer has at
most as many digits as any text that is read as one.  Lists and objects that stand in one
another are read by calls that do, so how many of them may be open at once is what the
interpreter has left of its stack where it is called: a parameter, and no rule of the reader.
-/

namespace VoxelCurve
namespace Json

/-- Why bytes are no document. -/
inductive ReadFault where
  /-- the bytes are not UTF-8 -/
  | notText
  /-- the text is outside the grammar -/
  | malformed
  /-- an integer with more digits than can be read -/
  | integerTooLong
  /-- lists and objects nested too deep -/
  | tooDeep
deriving Repr, DecidableEq

namespace ReadFault

def message : ReadFault → String
  | notText => "not UTF-8"
  | malformed => "not a JSON document"
  | integerTooLong => "an integer has too many digits"
  | tooDeep => "nested too deep"

end ReadFault

def isSpace (c : Char) : Bool :=
  c == ' ' || c == '\t' || c == '\n' || c == '\r'

def skipSpace (s : List Char) : List Char :=
  s.dropWhile isSpace

/-- What follows a word, if the text starts with it. -/
def dropWord? (word : String) (s : List Char) : Option (List Char) :=
  if word.toList.isPrefixOf s then some (s.drop word.length) else none

def isDigit (c : Char) : Bool :=
  '0' ≤ c && c ≤ '9'

def hexValue? (c : Char) : Option Nat :=
  if isDigit c then some (c.toNat - 48)
  else if 'a' ≤ c && c ≤ 'f' then some (c.toNat - 87)
  else if 'A' ≤ c && c ≤ 'F' then some (c.toNat - 55)
  else none

/-- Four hexadecimal digits. -/
def readUnit? : List Char → Option (Nat × List Char)
  | a :: b :: c :: d :: rest => do
    let a ← hexValue? a
    let b ← hexValue? b
    let c ← hexValue? c
    let d ← hexValue? d
    some (((a * 16 + b) * 16 + c) * 16 + d, rest)
  | _ => none

/-- The number of a character after the backslash and the letter `u`: four digits, and four
more after another such mark when the first are the upper half of a pair and those are the
lower. -/
def readCodePoint? (s : List Char) : Option (Nat × List Char) := do
  let (high, rest) ← readUnit? s
  if Text.isHighSurrogate high then
    match rest with
    | '\\' :: 'u' :: more =>
      let (low, after) ← readUnit? more
      if Text.isLowSurrogate low then some (Text.numberOfPair high low, after)
      else some (high, rest)
    | _ => some (high, rest)
  else some (high, rest)

/-- The character that a letter behind a backslash stands for. -/
def unescapeLetter? (letter : Char) : Option Char :=
  match letter with
  | '"' => some '"'
  | '\\' => some '\\'
  | '/' => some '/'
  | 'n' => some '\n'
  | 'r' => some '\r'
  | 't' => some '\t'
  | 'b' => some '\x08'
  | 'f' => some '\x0c'
  | _ => none

/-- The rest of a text whose opening quote has been read, in order behind `acc`, which
holds what has been read backwards.  Each step takes at least one character, so the length
of the input bounds the number of steps. -/
def readText? : Nat → List Char → List Char → Option (List Char × List Char)
  | 0, _, _ => none
  | _, [], _ => none
  | fuel + 1, c :: rest, acc =>
    if c = '"' then some (acc.reverse, rest)
    else if c = '\\' then
      match rest with
      | 'u' :: more => do
        let (n, after) ← readCodePoint? more
        readText? fuel after ((Text.charsOf n).reverse ++ acc)
      | letter :: more => do
        let c ← unescapeLetter? letter
        readText? fuel more (c :: acc)
      | [] => none
    else if c.toNat < 0x20 then none
    else readText? fuel rest (c :: acc)

/-- A point with digits after it. -/
def takeFraction (s : List Char) : List Char × List Char :=
  match s with
  | '.' :: rest =>
    let digits := rest.takeWhile isDigit
    if digits.isEmpty then ([], s) else ('.' :: digits, rest.dropWhile isDigit)
  | _ => ([], s)

/-- An exponent mark, a sign or none, and digits. -/
def takeExponent (s : List Char) : List Char × List Char :=
  match s with
  | mark :: rest =>
    if mark = 'e' ∨ mark = 'E' then
      let (sign, body) := match rest with
        | c :: more => if c = '+' ∨ c = '-' then ([c], more) else ([], rest)
        | [] => ([], rest)
      let digits := body.takeWhile isDigit
      if digits.isEmpty then ([], s)
      else (mark :: sign ++ digits, body.dropWhile isDigit)
    else ([], s)
  | [] => ([], s)

/-- The whole digits of a number: a lone zero, or digits that do not start with one. -/
def takeWhole? (s : List Char) : Option (List Char × List Char) :=
  match s with
  | '0' :: rest => some (['0'], rest)
  | c :: _ => if isDigit c then some (s.takeWhile isDigit, s.dropWhile isDigit) else none
  | [] => none

/-- A number whose sign has been read.  Without a fraction and an exponent it is an
integer. -/
def readNumber (negative : Bool) (s : List Char) : Except ReadFault (Value × List Char) :=
  match takeWhole? s with
  | none => .error .malformed
  | some (whole, rest) =>
    let (fraction, rest) := takeFraction rest
    let (exponent, rest) := takeExponent rest
    let text := String.ofList ((if negative then ['-'] else []) ++ whole ++ fraction ++ exponent)
    if fraction.isEmpty && exponent.isEmpty then
      match Decimal.readInteger? text with
      | some n => .ok (.int n, rest)
      | none => .error .integerTooLong
    else
      match Decimal.readFloat? text with
      | some x => .ok (.float x, rest)
      | none => .error .malformed

/-- A value that is one word or one number. -/
def readScalar (s : List Char) : Except ReadFault (Value × List Char) :=
  let words : List (String × Value) :=
    [("null", .null), ("true", .bool true), ("false", .bool false), ("NaN", .float (0.0 / 0.0)),
     ("Infinity", .float (1.0 / 0.0)), ("-Infinity", .float (-1.0 / 0.0))]
  match words.findSome? fun w => (dropWord? w.1 s).map (w.2, ·) with
  | some found => .ok found
  | none =>
    match s with
    | '-' :: rest => readNumber true rest
    | _ => readNumber false s

mutual

/-- A value and what follows it.  Of two calls one behind the other at least one takes a
character, so twice the length of the input bounds the number of calls; `depth` is how many
lists and objects may still be opened. -/
def readValue (depth : Nat) : Nat → List Char → Except ReadFault (Value × List Char)
  | 0, _ => .error .malformed
  | fuel + 1, s =>
    match s with
    | '"' :: rest =>
      match readText? fuel rest [] with
      | some (text, after) => .ok (.text (String.ofList text), after)
      | none => .error .malformed
    | '[' :: rest =>
      match depth with
      | 0 => .error .tooDeep
      | depth + 1 =>
        match skipSpace rest with
        | ']' :: after => .ok (.list [], after)
        | body => do
          let (items, after) ← readItems depth fuel body
          .ok (.list items, after)
    | '\x7b' :: rest =>
      match depth with
      | 0 => .error .tooDeep
      | depth + 1 =>
        match skipSpace rest with
        | '\x7d' :: after => .ok (.object [], after)
        | body => do
          let (fields, after) ← readFields depth fuel body []
          .ok (.object fields, after)
    | _ => readScalar s

/-- The items of a list up to its closing bracket. -/
def readItems (depth : Nat) : Nat → List Char → Except ReadFault (List Value × List Char)
  | 0, _ => .error .malformed
  | fuel + 1, s => do
    let (v, rest) ← readValue depth fuel s
    match skipSpace rest with
    | ']' :: after => .ok ([v], after)
    | ',' :: more =>
      let (items, after) ← readItems depth fuel (skipSpace more)
      .ok (v :: items, after)
    | _ => .error .malformed

/-- The fields of an object up to its closing brace, added to those before them. -/
def readFields (depth : Nat) :
    Nat → List Char → Fields → Except ReadFault (Fields × List Char)
  | 0, _, _ => .error .malformed
  | fuel + 1, s, before =>
    match s with
    | '"' :: rest =>
      match readText? fuel rest [] with
      | none => .error .malformed
      | some (name, after) =>
        match skipSpace after with
        | ':' :: body => do
          let (v, rest) ← readValue depth fuel (skipSpace body)
          let fields := before.set (String.ofList name) v
          match skipSpace rest with
          | '\x7d' :: after => .ok (fields, after)
          | ',' :: more => readFields depth fuel (skipSpace more) fields
          | _ => .error .malformed
        | _ => .error .malformed
    | _ => .error .malformed

end

/-- The value a text stands for, in which at most `depth` lists and objects are open at once. -/
def read (depth : Nat) (text : String) : Except ReadFault Value := do
  let s := skipSpace text.toList
  let (v, rest) ← readValue depth (2 * s.length + 1) s
  if (skipSpace rest).isEmpty then .ok v else .error .malformed

/-- The value that the bytes of a file stand for. -/
def readBytes (depth : Nat) (bytes : List UInt8) : Except ReadFault Value :=
  match Text.ofUtf8? bytes with
  | some text => read depth text
  | none => .error .notText

end Json
end VoxelCurve
