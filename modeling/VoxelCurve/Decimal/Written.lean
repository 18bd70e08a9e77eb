import VoxelCurve.Decimal.Shortest

/-!
How numbers are written.

A float is written with the fewest digits that name it.  It is positional while its leading
digit stands between `10 ^ -4` and `10 ^ 15`, and then always shows a point with a digit on
either side; beyond that it has an exponent of at least two digits, with its sign.  Only
the words for the values that are no number differ from one text to another.
-/

namespace VoxelCurve
namespace Decimal

/-- The words for the values without digits. -/
structure Words where
  nan : String
  infinity : String

def digitsOf (n : Nat) : List Char :=
  Nat.toDigits 10 n

/-- Positional notation, with `point` digits before the point. -/
def positional (digits : List Char) (point : Int) : List Char :=
  if point ≤ 0 then
    '0' :: '.' :: List.replicate (-point).toNat '0' ++ digits
  else if point < digits.length then
    digits.take point.toNat ++ '.' :: digits.drop point.toNat
  else
    digits ++ List.replicate (point.toNat - digits.length) '0' ++ ['.', '0']

/-- Scientific notation, for a leading digit at `10 ^ power`. -/
def scientific (digits : List Char) (power : Int) : List Char :=
  let tail := digits.drop 1
  let mantissa := digits.take 1 ++ (if tail.isEmpty then [] else '.' :: tail)
  let magnitude := digitsOf power.natAbs
  let padding := List.replicate (2 - magnitude.length) '0'
  mantissa ++ 'e' :: (if power < 0 then '-' else '+') :: padding ++ magnitude

def Scientific.written (s : Scientific) : List Char :=
  let digits := digitsOf s.digits
  let point := s.exponent + digits.length
  if -4 < point ∧ point ≤ 16 then positional digits point
  else scientific digits (point - 1)

/-- The text of a float. -/
def written (words : Words) (x : Float) : String :=
  if x.isNaN then words.nan
  else
    let magnitude :=
      if x.isInf then words.infinity.toList else (Binary.ofFloat x).shortest.written
    String.ofList (if isNegative x then '-' :: magnitude else magnitude)

/-- The text of a finite float with a fixed number of places, a half in the last one going
to the even digit. -/
def fixed (places : Nat) (x : Float) : String :=
  let b := Binary.ofFloat x
  let digits := digitsOf (roundHalfEven (b.numerator * Nat.pow 10 places) b.denominator)
  let padded := List.replicate (places + 1 - digits.length) '0' ++ digits
  let whole := padded.length - places
  let text := padded.take whole ++ '.' :: padded.drop whole
  String.ofList (if isNegative x then '-' :: text else text)

/-- Digits in groups of three from the right, with a comma between the groups. -/
def groupThrees (digits : List Char) : List Char :=
  match digits with
  | a :: b :: c :: d :: rest =>
    let tail := b :: c :: d :: rest
    if tail.length % 3 = 0 then a :: ',' :: groupThrees tail else a :: groupThrees tail
  | short => short

/-- A count with a comma after every three digits. -/
def grouped (n : Nat) : String :=
  String.ofList (groupThrees (digitsOf n))

end Decimal
end VoxelCurve
