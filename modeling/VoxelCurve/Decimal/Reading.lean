import VoxelCurve.Decimal.Binary
import VoxelCurve.Text.Blank
import VoxelCurve.Text.DecimalDigit

/-!
Reading numbers from text.

Blanks around a number are ignored, a sign may stand before it, digits may be of any script
and a single underscore may stand between two of them.  An integer has at most 4300 digits,
leading zeros counted, so that no text costs quadratic time.  A float is a run of digits
with a point somewhere in or beside it and an optional exponent, or one of the words for
infinity and for no number in any case of letters.
-/

namespace VoxelCurve
namespace Decimal

open Text (digitValue? isDecimalDigit strip)

/-- The digits of a run; underscores stand only between digits. -/
def digitRun? : List Char → Option (List Nat)
  | [] => none
  | c :: rest =>
    match digitValue? c, rest with
    | none, _ => none
    | some d, [] => some [d]
    | some d, '_' :: more => (digitRun? more).map (d :: ·)
    | some d, more => (digitRun? more).map (d :: ·)

/-- The number that digits stand for, most significant first. -/
def ofDigits (digits : List Nat) : Nat :=
  digits.foldl (fun n d => 10 * n + d) 0

/-- A sign, and what follows it. -/
def takeSign : List Char → Bool × List Char
  | '-' :: rest => (true, rest)
  | '+' :: rest => (false, rest)
  | rest => (false, rest)

def maxIntegerDigits : Nat := 4300

/-- The integer a text denotes. -/
def readInteger? (text : String) : Option Int := do
  let (negative, body) := takeSign (strip text.toList)
  let digits ← digitRun? body
  if digits.length ≤ maxIntegerDigits then
    let n : Int := ofDigits digits
    some (if negative then -n else n)
  else none

/-- The float nearest to `mantissa * 10 ^ exponent`.  Where every value is too large or too
small the power is not computed. -/
def nearest (mantissa : Nat) (exponent : Int) : Float :=
  if mantissa = 0 then 0.0
  else
    let power := exponent + (Nat.toDigits 10 mantissa).length
    if power > 310 then 1.0 / 0.0
    else if power < -330 then 0.0
    else Float.ofScientific mantissa (exponent < 0) exponent.natAbs

def signed (negative : Bool) (x : Float) : Float :=
  if negative then -x else x

/-- An exponent mark with its signed digits, or nothing at all. -/
def readExponent? : List Char → Option Int
  | [] => some 0
  | mark :: rest =>
    if mark = 'e' ∨ mark = 'E' then do
      let (negative, body) := takeSign rest
      let digits ← digitRun? body
      let n : Int := ofDigits digits
      some (if negative then -n else n)
    else none

def isRunChar (c : Char) : Bool :=
  isDecimalDigit c || c == '_'

/-- A run that may be empty. -/
def optionalRun? (run : List Char) : Option (List Nat) :=
  if run.isEmpty then some [] else digitRun? run

/-- An unsigned decimal: digits, a point and more digits, not all missing, and an
exponent. -/
def readUnsigned? (body : List Char) : Option Float := do
  let whole ← optionalRun? (body.takeWhile isRunChar)
  let rest := body.dropWhile isRunChar
  let (places, rest) ← match rest with
    | '.' :: rest => (optionalRun? (rest.takeWhile isRunChar)).map (·, rest.dropWhile isRunChar)
    | rest => some ([], rest)
  let exponent ← readExponent? rest
  if whole.isEmpty && places.isEmpty then none
  else some (nearest (ofDigits (whole ++ places)) (exponent - places.length))

/-- The float a text denotes. -/
def readFloat? (text : String) : Option Float :=
  let (negative, body) := takeSign (strip text.toList)
  let word := String.ofList (body.map Char.toLower)
  if word = "inf" ∨ word = "infinity" then some (signed negative (1.0 / 0.0))
  else if word = "nan" then some (0.0 / 0.0)
  else (readUnsigned? body).map (signed negative)

end Decimal
end VoxelCurve
