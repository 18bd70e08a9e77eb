import VoxelCurve.Decimal.Written
import VoxelCurve.Text.Quoted
import VoxelCurve.Value.Shown

/-!
Writing values as JSON.

A list or an object that holds anything opens a line for each of its parts, two blanks
deeper than the line it stands on.  Text is written as it is; only the quote, the backslash
and the characters below U+0020 are escaped.  Floats are written with the fewest digits
that name them, and those that are no number as words outside the standard.

A document is written piece by piece.  A name, a text and a number are pieces of their own,
except that an item of a list is one piece with the start of its line; a list or an object
among the items starts only after that.  Like reading, writing goes as deep as there is stack
for, and a number may have too many digits to be written, so a piece says how deep it stands and
whether its number can be.
-/

namespace VoxelCurve
namespace Json

def floatWords : Decimal.Words :=
  ⟨"NaN", "Infinity"⟩

/-- The letter that stands for a character behind a backslash. -/
def escapeLetter? (c : Char) : Option Char :=
  match c with
  | '"' => some '"'
  | '\\' => some '\\'
  | '\n' => some 'n'
  | '\r' => some 'r'
  | '\t' => some 't'
  | '\x08' => some 'b'
  | '\x0c' => some 'f'
  | _ => none

def escapedChar (c : Char) : List Char :=
  match escapeLetter? c with
  | some letter => ['\\', letter]
  | none => if c.toNat < 0x20 then '\\' :: 'u' :: Text.hexDigits 4 c.toNat else [c]

/-- A text between quotes. -/
def textChars (s : String) : List Char :=
  '"' :: s.toList.flatMap escapedChar ++ ['"']

/-- The start of a line at a given depth. -/
def newline (depth : Nat) : List Char :=
  '\n' :: List.replicate (2 * depth) ' '

/-- Puts a piece before those of a value: into the first one, or, before a list or an object, as
a piece of its own. -/
def putBefore (start : Text.Piece) (v : Value) (pieces : List Text.Piece) : List Text.Piece :=
  match v, pieces with
  | .list _, _ | .object _, _ => start :: pieces
  | _, first :: rest => { first with chars := start.chars ++ first.chars } :: rest
  | _, [] => [start]

mutual

/-- The pieces of a value inside as many lists and objects as `depth` says, which is also how far
its lines are moved in. -/
def pieces (depth : Nat) : Value → List Text.Piece
  | .null => [.plain depth "null".toList]
  | .bool b => [.plain depth (if b then "true".toList else "false".toList)]
  | .int n => [⟨depth, (toString n).toList, Value.isWritable n⟩]
  | .float x => [.plain depth (Decimal.written floatWords x).toList]
  | .text s => [.plain depth (textChars s)]
  | .list [] => [.plain (depth + 1) ['[', ']']]
  | .list (v :: rest) =>
    putBefore (.plain (depth + 1) ('[' :: newline (depth + 1))) v (pieces (depth + 1) v) ++
      itemPieces (depth + 1) rest ++ [newline depth, [']']].map (.plain (depth + 1))
  | .object [] => [.plain (depth + 1) ['\x7b', '\x7d']]
  | .object ((name, v) :: rest) =>
    [['\x7b'], newline (depth + 1), textChars name, [':', ' ']].map (.plain (depth + 1)) ++
      pieces (depth + 1) v ++ fieldPieces (depth + 1) rest ++
        [newline depth, ['\x7d']].map (.plain (depth + 1))

/-- The items after the first. -/
def itemPieces (depth : Nat) : List Value → List Text.Piece
  | [] => []
  | v :: rest =>
    putBefore (.plain depth (',' :: newline depth)) v (pieces depth v) ++ itemPieces depth rest

/-- The fields after the first. -/
def fieldPieces (depth : Nat) : List (String × Value) → List Text.Piece
  | [] => []
  | (name, v) :: rest =>
    [',' :: newline depth, textChars name, [':', ' ']].map (.plain depth) ++ pieces depth v ++
      fieldPieces depth rest

end

/-- The texts of the pieces of a document. -/
def printedPieces (v : Value) : List String :=
  (pieces 0 v).map Text.Piece.text

/-- The text of a document. -/
def print (v : Value) : String :=
  String.join (printedPieces v)

end Json
end VoxelCurve
