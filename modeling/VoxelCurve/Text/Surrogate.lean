/-!
Halves of surrogate pairs.

Two numbers from U+D800 to U+DFFF stand together for one character above U+FFFF; neither of
them stands for a character alone.  A text that has such a number on its own keeps it as a
character of the last private plane, as far up there as the number is, so that the text can
be carried about and shown.  The characters whose own place that is are kept by the two
halves of their pair, so that no two texts are kept alike.  No bytes stand for a half, so a
text with one cannot be written to a file.
-/

namespace VoxelCurve
namespace Text

def isHighSurrogate (n : Nat) : Bool :=
  0xD800 ≤ n && n < 0xDC00

def isLowSurrogate (n : Nat) : Bool :=
  0xDC00 ≤ n && n < 0xE000

def isSurrogate (n : Nat) : Bool :=
  isHighSurrogate n || isLowSurrogate n

/-- The number of the character that a pair stands for. -/
def numberOfPair (high low : Nat) : Nat :=
  0x10000 + (high - 0xD800) * 0x400 + (low - 0xDC00)

/-- The halves of the pair that stands for a character above U+FFFF. -/
def pairOf (n : Nat) : Nat × Nat :=
  (0xD800 + (n - 0x10000) / 0x400, 0xDC00 + (n - 0x10000) % 0x400)

/-- The first number of the last private plane. -/
def lastPlane : Nat := 0x100000

/-- The character that is kept for half of a pair. -/
def charOfHalf (n : Nat) : Char :=
  Char.ofNat (lastPlane + n)

/-- Whether a number is that of a character that is kept for half of a pair. -/
def isTaken (n : Nat) : Bool :=
  0x10D800 ≤ n && n < 0x10E000

/-- The half of a pair that a character is kept for. -/
def half? (c : Char) : Option Nat :=
  if isTaken c.toNat then some (c.toNat - lastPlane) else none

/-- How the character with a number is kept, and how a half is. -/
def charsOf (n : Nat) : List Char :=
  if isSurrogate n then [charOfHalf n]
  else if isTaken n then [charOfHalf (pairOf n).1, charOfHalf (pairOf n).2]
  else [Char.ofNat n]

/-- The number of the character that two characters are kept for, if its own place is
taken. -/
def takenPair? (c d : Char) : Option Nat :=
  match half? c, half? d with
  | some high, some low =>
    let n := numberOfPair high low
    if isHighSurrogate high && isLowSurrogate low && isTaken n then some n else none
  | _, _ => none

/-- The numbers of what characters are kept for. -/
def numbersOf : List Char → List Nat
  | [] => []
  | [c] => [(half? c).getD c.toNat]
  | c :: d :: rest =>
    match takenPair? c d with
    | some n => n :: numbersOf rest
    | none => (half? c).getD c.toNat :: numbersOf (d :: rest)

/-- The numbers of a text, which texts are put in order by. -/
def numbers (s : String) : List Nat :=
  numbersOf s.toList

/-- Texts in the order of their numbers. -/
def sorted (texts : List String) : List String :=
  texts.mergeSort fun a b => !(numbers b < numbers a)

/-- The text with some numbers. -/
def ofNumbers (ns : List Nat) : String :=
  String.ofList (ns.flatMap charsOf)

/-- The characters of a text, each as a text of its own. -/
def characters (s : String) : List String :=
  (numbers s).map fun n => ofNumbers [n]

/-- The first of some characters as a text of its own. -/
def firstOf (s : List Char) : String :=
  ofNumbers ((numbersOf s).take 1)

/-- Whether a text has neither halves nor characters whose place they take. -/
def isPlain (s : String) : Bool :=
  s.toList.all fun c => !isTaken c.toNat

/-- How a text of nothing but characters is kept. -/
def kept (s : String) : String :=
  if isPlain s then s else ofNumbers (s.toList.map Char.toNat)

/-- A text with its characters in their own places; what is left of the halves stands where
it was kept. -/
def released (s : String) : String :=
  if isPlain s then s
  else String.ofList ((numbers s).map fun n => if isSurrogate n then charOfHalf n else Char.ofNat n)

/-- Whether bytes stand for all of a text. -/
def isEncodable (s : String) : Bool :=
  isPlain s || (numbers s).all fun n => !isSurrogate n

/-- The bytes of a text. -/
def utf8 (s : String) : List UInt8 :=
  (released s).toUTF8.data.toList

/-- The text that bytes stand for. -/
def ofUtf8? (bytes : List UInt8) : Option String :=
  (String.fromUTF8? ⟨bytes.toArray⟩).map kept

/-- A piece of a document: how many lists and objects are open when it is written, and whether it
can be, which a number of too many digits cannot. -/
structure Piece where
  depth : Nat
  chars : List Char
  isWritable : Bool

namespace Piece

/-- A piece that is no number. -/
def plain (depth : Nat) (chars : List Char) : Piece :=
  ⟨depth, chars, true⟩

def text (p : Piece) : String :=
  String.ofList p.chars

end Piece

end Text
end VoxelCurve
