import VoxelCurve.Text.Printable
import VoxelCurve.Text.Surrogate

/-!
Quoted text, as messages show it.

A text stands between two quotes of one sort: single quotes, unless the text holds a single
quote and no double one.  Inside, the quote in use and the backslash follow a backslash,
line feed, carriage return and tab are written as letters, and a character with no glyph is
written by its number in lower case: two hexadecimal digits, four or eight, whichever is
the least that holds it.  Half of a surrogate pair has no glyph either.  A string of bytes is
written the same way behind a `b`, each byte outside the printable part of ASCII by its
number.
-/

namespace VoxelCurve
namespace Text

/-- The hexadecimal digit for a number below sixteen. -/
def hexDigit (d : Nat) : Char :=
  if d < 10 then Char.ofNat (48 + d) else Char.ofNat (87 + d)

/-- The last `width` hexadecimal digits of a number, most significant first. -/
def hexDigits : Nat → Nat → List Char
  | 0, _ => []
  | width + 1, n => hexDigits width (n / 16) ++ [hexDigit (n % 16)]

def singleQuote : Char := '\x27'

def doubleQuote : Char := '"'

/-- The letter that stands for a control character behind a backslash. -/
def controlLetter? (n : Nat) : Option Char :=
  if n = 0x0A then some 'n'
  else if n = 0x0D then some 'r'
  else if n = 0x09 then some 't'
  else none

/-- A character written by its number. -/
def codePoint (n : Nat) : List Char :=
  if n ≤ 0xFF then '\\' :: 'x' :: hexDigits 2 n
  else if n ≤ 0xFFFF then '\\' :: 'u' :: hexDigits 4 n
  else '\\' :: 'U' :: hexDigits 8 n

/-- The character with a number inside a text quoted with `quote`; `shows` says which
characters stand for themselves. -/
def quotedNumber (shows : Nat → Bool) (quote : Char) (n : Nat) : List Char :=
  if n = quote.toNat ∨ n = 0x5C then ['\\', Char.ofNat n]
  else match controlLetter? n with
    | some letter => ['\\', letter]
    | none => if shows n then [Char.ofNat n] else codePoint n

/-- Double quotes are used only to spare a single quote its backslash, so a text with quotes
of both sorts keeps the single ones. -/
def quoteFor (ns : List Nat) : Char :=
  if ns.contains singleQuote.toNat && !ns.contains doubleQuote.toNat then doubleQuote
  else singleQuote

/-- The characters with some numbers between quotes. -/
def quotedWith (shows : Nat → Bool) (ns : List Nat) : List Char :=
  let quote := quoteFor ns
  quote :: ns.flatMap (quotedNumber shows quote) ++ [quote]

/-- A text between quotes. -/
def quoted (s : String) : String :=
  String.ofList (quotedWith isPrintable (numbers s))

/-- A single character between quotes. -/
def quotedOne (c : Char) : String :=
  quoted (String.ofList [c])

/-- Bytes between quotes, read as the characters of the same numbers. -/
def quotedBytes (bytes : List UInt8) : String :=
  let shows := fun n => decide (0x20 ≤ n ∧ n < 0x7F)
  String.ofList ('b' :: quotedWith shows (bytes.map UInt8.toNat))

end Text
end VoxelCurve
