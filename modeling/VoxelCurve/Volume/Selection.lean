import VoxelCurve.Value.Nested
import VoxelCurve.Value.Number
import VoxelCurve.Volume.Extent

/-!
Selecting entries of nested rows.

Rows in rows are indexed by one value after the other, from the outermost side inwards.  An
integer picks one place, counted from the end if it is negative.  Nested integers pick many,
and nested truth values as many as are true, on as many sides as they have.  Nothing at all
adds a side of length one and uses up none, and so does a single truth value, whose side is
empty when it is false.  The sides that are left over are taken whole.

Places that are picked together stand side by side, so their shapes have to fit: two lengths
fit if they are equal or one of them is one.  The selection has the sides of those shapes
where the first of these picks stands, unless something else stands between them; then it
starts with them.

A single place is looked up when the selection is made.  Whether shapes fit and whether the
many places are there is asked only later, and the second not at all when the shape that
they fit is empty.
-/

namespace VoxelCurve

/-- Why nothing is selected. -/
inductive SelectionFault where
  /-- a value that picks nothing -/
  | notIndex
  /-- an integer past the addressable ones that still fits a word -/
  | pastAddresses (n : Int)
  | shape (fault : ShapeFault)
  /-- more picks than sides -/
  | tooManyPicks
  /-- a selection of more sides than values can be nested deep -/
  | tooManySides
  /-- truth values that are not as many as the places of their sides -/
  | wrongMarks
  /-- shapes that cannot stand side by side -/
  | unfitShapes
  /-- no such place -/
  | outside
deriving Repr, DecidableEq

namespace SelectionFault

def message : SelectionFault → String
  | notIndex => "not an index"
  | pastAddresses n => s!"{n} is past all addresses"
  | shape fault => fault.message
  | tooManyPicks => "more indices than sides"
  | tooManySides => "a selection of too many sides"
  | wrongMarks => "truth values for other places than there are"
  | unfitShapes => "indices of different shapes"
  | outside => "no such place"

end SelectionFault

/-- A place among `size`, counted from the end if it is negative. -/
def place? (size : Nat) (i : Int) : Option (Fin size) :=
  let j := if i < 0 then i + size else i
  if h : 0 ≤ j ∧ j.toNat < size then some ⟨j.toNat, h.2⟩ else none

/-! ## Shapes side by side -/

/-- The number of entries of a shape. -/
def volume (shape : List Nat) : Nat :=
  shape.foldl (· * ·) 1

/-- The last sides of a shape, at most as many as `depth`, if the sides before them leave as
many entries. -/
def narrow? (depth : Nat) (shape : List Nat) : Option (List Nat) :=
  let rest := shape.drop (shape.length - depth)
  if volume rest = volume shape then some rest else none

/-- A shape with sides of length one put before it. -/
def widen (depth : Nat) (shape : List Nat) : List Nat :=
  List.replicate (depth - shape.length) 1 ++ shape

/-- The length of two that fit each other. -/
def fitLength? (a b : Nat) : Option Nat :=
  if a = b then some a else if a = 1 then some b else if b = 1 then some a else none

/-- The shape of two that fit each other from their ends on. -/
def fitShape? (s t : List Nat) : Option (List Nat) :=
  let depth := max s.length t.length
  ((widen depth s).zip (widen depth t)).mapM fun p => fitLength? p.1 p.2

/-- Lays entries of one shape out in another of the same depth, where a side of length one is
gone through again and again. -/
def spreadOver? {α : Type} : List Nat → List Nat → List α → Option (List α)
  | [], [], entries => some entries
  | s :: shape, t :: target, entries =>
    let size := volume shape
    let row := fun i => spreadOver? shape target ((entries.drop (i * size)).take size)
    if s = t then ((List.range s).mapM row).map List.flatten
    else if s = 1 then (row 0).map fun r => (List.replicate t r).flatten
    else none
  | _, _, _ => none

/-- Lays entries of one shape out in another one. -/
def spread? {α : Type} (shape target : List Nat) (entries : List α) : Option (List α) :=
  spreadOver? (widen target.length shape) target entries

/-- The places of a shape, the last side going fastest. -/
def placesOf : List Nat → List (List Nat)
  | [] => [[]]
  | n :: shape => (List.range n).flatMap fun i => (placesOf shape).map (i :: ·)

/-! ## Picks -/

/-- What a value picks. -/
inductive Pick where
  | newSide
  | place (i : Int)
  | gate (isOpen : Bool)
  | places (shape : List Nat) (places : List Int)
  | marks (shape : List Nat) (marks : List Bool)

namespace Pick

/-- An integer that an address can be. -/
def address? (v : Value) : Option Int := do
  let n ← v.index?
  if n.natAbs ≤ addressable ∨ n = -addressable - 1 then some n else none

def mark? : Value → Option Bool
  | .bool b => some b
  | _ => none

/-- The place that an integer past the addressable ones stands for among others like it: it
is counted from the end of all that a word can hold. -/
def wrapped? (v : Value) : Option Int := do
  let n ← v.index?
  if (mark? v).isSome then some n
  else if addressable < n ∧ n ≤ 2 * addressable + 1 then some (n - (2 * addressable + 2))
  else none

/-- What the entries of nested lists pick. -/
def ofEntries (shape : List Nat) (entries : List Value) : Except SelectionFault Pick :=
  if entries.isEmpty then .ok (.places shape [])
  else
    match entries.mapM mark?, entries.mapM address?, entries.mapM wrapped? with
    | some bs, _, _ => .ok (.marks shape bs)
    | none, some is, _ | none, none, some is => .ok (.places shape is)
    | none, none, none => .error .notIndex

def ofValue (v : Value) : Except SelectionFault Pick :=
  match v with
  | .null => .ok .newSide
  | .bool b => .ok (.gate b)
  | .int n =>
    if (address? v).isSome then .ok (.place n)
    else if 0 < n ∧ n ≤ 2 * addressable + 1 then .error (.pastAddresses n)
    else .error .notIndex
  | .list _ => do
    let shape ← v.shape.mapError .shape
    ofEntries shape v.entries
  | _ => .error .notIndex

end Pick

/-- How one side is gone through. -/
inductive Course where
  | newSide
  | fixed (place : Int) (size : Nat)
  | gate (size : Nat)
  | listed (shape : List Nat) (places : List Int) (size : Nat)
  | whole (size : Nat)

namespace Course

/-- Whether its places stand side by side with others. -/
def isPicked : Course → Bool
  | fixed _ _ | gate _ | listed _ _ _ => true
  | newSide | whole _ => false

/-- The shape of places that stand side by side with others. -/
def shape? : Course → Option (List Nat)
  | gate n => some [n]
  | listed shape _ _ => some shape
  | _ => none

/-- The sides that the selection has from it alone. -/
def ownSides : Course → List Nat
  | newSide => [1]
  | whole n => [n]
  | _ => []

/-- Whether all its places are there. -/
def isInside : Course → Bool
  | fixed i size => (place? size i).isSome
  | listed _ places size => places.all fun i => (place? size i).isSome
  | _ => true

/-- The places on its side, laid out in a shape. -/
def column? (shape : List Nat) : Course → Option (List Int)
  | fixed i _ => some (List.replicate (volume shape) i)
  | listed own places _ => spread? own shape places
  | _ => none

end Course

/-- The places of marks that are true, on each of their sides. -/
def markedPlaces (shape : List Nat) (marks : List Bool) : List (List Int) :=
  let marked := ((placesOf shape).zip marks).filterMap fun p => if p.2 then some p.1 else none
  (List.range shape.length).map fun side => marked.map fun place => ((place[side]?).getD 0 : Nat)

/-- The courses on the sides that marks stand for. -/
def markedCourses (sizes : List Nat) (columns : List (List Int)) : List Course :=
  (sizes.zip columns).map fun p => .listed [p.2.length] p.2 p.1

/-- The courses of some picks through sides of the given lengths. -/
def coursesOf : List Nat → List Pick → Except SelectionFault (List Course)
  | sizes, [] => .ok (sizes.map .whole)
  | sizes, .newSide :: picks => (coursesOf sizes picks).map (.newSide :: ·)
  | sizes, .gate isOpen :: picks =>
    (coursesOf sizes picks).map (.gate (if isOpen then 1 else 0) :: ·)
  | size :: sizes, .place i :: picks => (coursesOf sizes picks).map (.fixed i size :: ·)
  | size :: sizes, .places shape places :: picks =>
    (coursesOf sizes picks).map (.listed shape places size :: ·)
  | sizes, .marks shape marks :: picks =>
    if sizes.length < shape.length then .error .tooManyPicks
    else if sizes.take shape.length = shape then
      (coursesOf (sizes.drop shape.length) picks).map
        (markedCourses shape (markedPlaces shape marks) ++ ·)
    else .error .wrongMarks
  | [], _ :: _ => .error .tooManyPicks

/-- What is selected of nested rows. -/
structure Selection where
  courses : List Course

namespace Selection

/-- The sides that a selection has from one course alone. -/
def ownSides (courses : List Course) : List Nat :=
  courses.flatMap Course.ownSides

/-- The shapes of the places that stand side by side. -/
def shapes (s : Selection) : List (List Nat) :=
  s.courses.filterMap Course.shape?

/-- Selects by values, one for each side, from rows that lie in `outer` others.  Single places
are looked up at once. -/
def ofValues (outer : Nat) (sizes : List Nat) (indices : List Value) :
    Except SelectionFault Selection := do
  let picks ← indices.mapM Pick.ofValue
  let s : Selection := ⟨← coursesOf sizes picks⟩
  let depth := (s.shapes.map List.length).foldl max 0
  if outer + (ownSides s.courses).length + depth > Value.maxNesting then .error .tooManySides
  else
    let single := s.courses.filter fun c => c.shape?.isNone
    if single.all Course.isInside then .ok s else .error .outside

/-- Whether a single entry is meant. -/
def isSingle (s : Selection) : Bool :=
  s.courses.all fun
    | .fixed _ _ => true
    | _ => false

/-- Whether no places stand side by side. -/
def isPlain (s : Selection) : Bool :=
  s.shapes.isEmpty

/-- The shape that all places which stand side by side fit. -/
def picked (s : Selection) : Except SelectionFault (List Nat) :=
  match s.shapes.foldlM fitShape? [] with
  | some picked => .ok picked
  | none => .error .unfitShapes

/-- The shape of the selection, where places stand side by side in the given one. -/
def shape (s : Selection) (picked : List Nat) : List Nat :=
  let before := s.courses.takeWhile fun c => !c.isPicked
  let behind := s.courses.dropWhile fun c => !c.isPicked
  let apart := behind.dropWhile Course.isPicked
  if s.isPlain then ownSides s.courses
  else if apart.any Course.isPicked then picked ++ ownSides s.courses
  else ownSides before ++ picked ++ ownSides apart

/-- The places of the selected entries, one for each side of the rows, in order. -/
def places (s : Selection) (picked : List Nat) : Except SelectionFault (List (List Int)) :=
  if volume picked = 0 ∨ s.courses.all Course.isInside then
    let columns := s.courses.filterMap (Course.column? picked)
    let rows := columns.foldl (fun rows column => List.zipWith (fun r i => r ++ [i]) rows column)
      (List.replicate (volume picked) [])
    let whole := placesOf (s.courses.filterMap fun
      | .whole n => some n
      | _ => none)
    .ok (rows.flatMap fun row => whole.map fun place => row ++ place.map Int.ofNat)
  else .error .outside

end Selection
end VoxelCurve
