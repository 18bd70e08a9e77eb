import Std.Data.TreeSet

/-!
Columns: lists of values that are worked on as a whole.

What a loop would find by going through a column, and remembering what it met, is found here by
sorting.  Places are counted from zero.
-/

namespace VoxelCurve
namespace Column

variable {α : Type}

/-- The distinct values of a column, in ascending order. -/
def unique [Ord α] (column : List α) : List α :=
  (Std.TreeSet.ofList column compare).toList

/-- For each of some values its first place in a column. -/
def places [BEq α] (column values : List α) : List Nat :=
  values.map column.idxOf

/-- The places of a column in the order in which what stands there ascends. -/
def argsort (column : List Nat) : List Nat :=
  (List.range column.length).mergeSort fun i j => column.getD i 0 ≤ column.getD j 0

/-- What stands at some places of a column. -/
def gather [Inhabited α] (column : List α) (places : List Nat) : List α :=
  places.map fun i => column.getD i default

/-- Puts values at places of a column, one after the other. -/
def scatter (column : List α) (places : List Nat) (values : List α) : List α :=
  (places.zip values).foldl (fun column p => column.set p.1 p.2) column

/-- The greatest number of a column. -/
def greatest (column : List Nat) : Nat :=
  column.foldl max 0

end Column
end VoxelCurve
