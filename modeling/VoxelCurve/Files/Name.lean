import VoxelCurve.Text.Surrogate

/-!
Names of files, as bytes.

The files know a name by its bytes.  A byte that is part of no character is read as a low
half of a pair, as far above the first of them as the byte is large, and such a half stands
for that byte again in a name that is used.  Two names with the same bytes are one name, and
`readBack` is the one that the files tell.
-/

namespace VoxelCurve
namespace FileName

/-- The half that a byte outside all characters is read as. -/
def strayHalf (b : UInt8) : Nat :=
  0xDC00 + b.toNat

/-- The bytes of the character with a number, or the byte that a half stands for. -/
def bytesOf? (n : Nat) : Option (List UInt8) :=
  if !Text.isSurrogate n then some (String.utf8EncodeChar (Char.ofNat n))
  else if 0xDC80 ≤ n ∧ n ≤ 0xDCFF then some [UInt8.ofNat (n - 0xDC00)]
  else none

/-- The bytes of a name or a path, if there are any for all of it. -/
def bytes? (s : String) : Option (List UInt8) :=
  ((Text.numbers s).mapM bytesOf?).map List.flatten

/-- The character that bytes start with. -/
def firstChar? (bytes : List UInt8) : Option Char :=
  [1, 2, 3, 4].findSome? fun n =>
    match (String.fromUTF8? ⟨(bytes.take n).toArray⟩).map String.toList with
    | some [c] => some c
    | _ => none

/-- The numbers of the characters that bytes are read as. -/
def ofBytes : List UInt8 → List Nat
  | [] => []
  | b :: rest =>
    match firstChar? (b :: rest) with
    | some c => c.toNat :: ofBytes (rest.drop (c.utf8Size - 1))
    | none => strayHalf b :: ofBytes rest
termination_by bytes => bytes.length
decreasing_by
  · rw [List.length_drop, List.length_cons]
    omega
  · exact Nat.lt_succ_self rest.length

/-- Whether the files have bytes for a name. -/
def isUsable (s : String) : Bool :=
  Text.isPlain s || (bytes? s).isSome

/-- How many bytes a name or a path has. -/
def byteSize (s : String) : Nat :=
  if Text.isPlain s then s.utf8ByteSize else ((bytes? s).getD []).length

/-- A name as it is read from the files. -/
def readBack (s : String) : String :=
  if Text.isPlain s then s else ((bytes? s).map fun b => Text.ofNumbers (ofBytes b)).getD s

end FileName
end VoxelCurve
