/-!
Paths of files.

A path is a root, if it has one, and the names that lead on from there.  Written paths are
read with their empty names and their dots dropped; two dots stay, because where they lead
depends on the files.  Two slashes at the front are a root of their own, and any other
number of them is a single one.
-/

namespace VoxelCurve

/-- Where a path starts. -/
inductive Root where
  | working
  | single
  | double
deriving Repr, DecidableEq

structure Path where
  root : Root
  names : List String
deriving Repr, DecidableEq

namespace Path

/-- The pieces of a text between its slashes. -/
def segments : List Char → List (List Char)
  | [] => [[]]
  | c :: rest =>
    if c = '/' then [] :: segments rest
    else
      match segments rest with
      | s :: more => (c :: s) :: more
      | [] => [[c]]

/-- Whether a piece of a written path is a name in it. -/
def isName (s : List Char) : Bool :=
  !s.isEmpty && s != ['.']

def rootOf (s : List Char) : Root :=
  match (s.takeWhile (· == '/')).length with
  | 0 => .working
  | 2 => .double
  | _ => .single

/-- Reads a written path. -/
def ofText (text : String) : Path :=
  let s := text.toList
  ⟨rootOf s, ((segments s).filter isName).map String.ofList⟩

/-- Whether a written path ends in a way that only a directory's can: in a slash or a lone
dot. -/
def endsInDirectory (text : String) : Bool :=
  match (segments text.toList).getLast? with
  | some s => !isName s
  | none => false

/-- Writes a path; the one without names is a dot where it has no root. -/
def text (p : Path) : String :=
  let names := "/".intercalate p.names
  match p.root with
  | .working => if p.names.isEmpty then "." else names
  | .single => "/" ++ names
  | .double => "//" ++ names

/-- The path that a written path leads to from another.  A path with a root leads there from
everywhere. -/
def join (p : Path) (text : String) : Path :=
  let q := ofText text
  match q.root with
  | .working => ⟨p.root, p.names ++ q.names⟩
  | _ => q

/-- The path without its last name. -/
def parent (p : Path) : Path :=
  { p with names := p.names.dropLast }

/-- A name in two parts, of which the second starts at the last dot.  A dot at either end of
the name does not count. -/
def splitSuffix (name : List Char) : List Char × List Char :=
  let last := name.reverse.takeWhile (· != '.')
  match name.reverse.dropWhile (· != '.') with
  | '.' :: c :: stem =>
    if last.isEmpty then (name, []) else ((c :: stem).reverse, '.' :: last.reverse)
  | _ => (name, [])

/-- The last name, if there is one. -/
def name? (p : Path) : Option String :=
  p.names.getLast?

/-- The path whose last name ends in another suffix. -/
def withSuffix? (p : Path) (suffix : String) : Option Path :=
  p.name?.map fun name =>
    let stem := String.ofList (splitSuffix name.toList).1
    { p with names := p.names.dropLast ++ [stem ++ suffix] }

end Path
end VoxelCurve
