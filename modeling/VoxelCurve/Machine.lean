/-!
What the program is given by the machine that it runs on.

A run depends on more than its words and the files.  The time comes from a clock, the cosine and
the sine of a heading from a library, a line can be printed if the output can encode it, and how
deep a call can go is up to what the interpreter has left of its stack, which differs from one
version to the next and with the place of the call.  All this is a parameter, and nothing is
assumed of it.
-/

namespace VoxelCurve

/-- The cosine and the sine by which a turtle finds its way. -/
structure Compass where
  cosine : Float → Float
  sine : Float → Float

namespace Compass

/-- Those of the library of floats. -/
def native : Compass :=
  ⟨Float.cos, Float.sin⟩

end Compass

structure Machine where
  /-- the time by its clock, as it is written -/
  time : String
  compass : Compass
  /-- whether its output can encode a line -/
  prints : String → Bool
  /-- how many lists and objects may be open at once in a document that is read -/
  readingDepth : Nat
  /-- the same for a document that is written -/
  writingDepth : Nat
  /-- how many missing directories, one in the other, are made at once -/
  missingDepth : Nat

end VoxelCurve
