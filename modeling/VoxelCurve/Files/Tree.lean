import VoxelCurve.Files.Name
import VoxelCurve.Files.Path
import VoxelCurve.Machine
import VoxelCurve.Text.Quoted

/-!
Files and directories.

A tree holds what is at each location, and the location that paths without a root start
from.  A path is followed name by name: everything passed on the way has to be a directory,
two dots lead back to where the names before led to, and a name has a greatest length.
Actions change the tree one after the other until one of them fails.

Two locations are never one file, and whatever is there can be read and written: a tree has no
links and no permissions.
-/

namespace VoxelCurve

/-- Why a path could not be used. -/
inductive FileFault where
  | notFound
  | alreadyThere
  | notDirectory
  | isDirectory
  | nameTooLong
  /-- no path holds the character zero -/
  | zeroCharacter
  /-- a path or a text that no bytes stand for -/
  | notEncodable
  /-- a number with more digits than are written -/
  | unwritable
  /-- more directories missing, or more lists and objects open, than there is stack for -/
  | tooDeep
deriving Repr, DecidableEq

/-- A fault at a path, as it was written. -/
structure FileError where
  fault : FileFault
  path : String
deriving Repr, DecidableEq

/-- Whether a fault comes from the file system, and not from a path or a text that never gets
there. -/
def FileFault.isOfSystem : FileFault → Bool
  | zeroCharacter | notEncodable | unwritable | tooDeep => false
  | _ => true

namespace FileError

/-- The number and the text of a fault. -/
def cause : FileFault → Nat × String
  | .notFound => (2, "No such file or directory")
  | .alreadyThere => (17, "File exists")
  | .notDirectory => (20, "Not a directory")
  | .isDirectory => (21, "Is a directory")
  | .nameTooLong => (36, "File name too long")
  | .zeroCharacter | .notEncodable | .unwritable => (22, "Invalid argument")
  | .tooDeep => (40, "Too many levels")

def message (e : FileError) : String :=
  let (number, text) := cause e.fault
  s!"[Errno {number}] {text}: {Text.quoted e.path}"

end FileError

/-- What is at a location. -/
inductive Node where
  | directory
  | file (bytes : List UInt8)
deriving Repr, DecidableEq

/-- The names that lead to a node from the root, the last one first, with how many there
are, which tells most locations apart without their names. -/
structure Location where
  names : List String
  depth : Nat
  depth_eq : depth = names.length

namespace Location

def root : Location :=
  ⟨[], 0, rfl⟩

def child (l : Location) (name : String) : Location :=
  ⟨name :: l.names, l.depth + 1, by rw [l.depth_eq]; rfl⟩

/-- The location that a node lies in; the root lies in itself. -/
def parent (l : Location) : Location :=
  ⟨l.names.tail, l.depth - 1, by rw [l.depth_eq, List.length_tail]⟩

theorem ext_names {l m : Location} (h : l.names = m.names) : l = m := by
  obtain ⟨ls, d, hd⟩ := l
  obtain ⟨ms, e, he⟩ := m
  subst h hd he
  rfl

instance : DecidableEq Location := fun l m =>
  if h : l.depth = m.depth then
    if hn : l.names = m.names then isTrue (ext_names hn) else isFalse fun e => hn (e ▸ rfl)
  else isFalse fun e => h (e ▸ rfl)

/-- The names that lead to a location from another one, if it lies below that. -/
def below? (l top : Location) : Option (List String) :=
  let count := l.depth - top.depth
  if 0 < count ∧ l.names.drop count = top.names then some (l.names.take count).reverse else none

end Location

/-- A change to a tree. -/
inductive Action where
  /-- makes a directory and those it lies in, if they are not there -/
  | makeDirectory (path : Path)
  /-- gives a file new contents -/
  | write (path : Path) (bytes : List UInt8)
  /-- gives a file the bytes of a text, piece by piece; what comes before the first piece that
  cannot be written is -/
  | writeText (path : Path) (pieces : List Text.Piece)

structure Tree where
  working : Location
  nodes : List (Location × Node)

/-- The longest name and the longest written path, in bytes. -/
def maxNameBytes : Nat := 255

def maxPathBytes : Nat := 4095

namespace Text.Piece

/-- What is in the way of writing a piece, if anything is. -/
def fault? (m : Machine) (p : Piece) : Option FileFault :=
  if m.writingDepth < p.depth then some .tooDeep
  else if !p.isWritable then some .unwritable
  else if !Text.isEncodable p.text then some .notEncodable
  else none

/-- The bytes of the pieces before the first that cannot be written. -/
def start (m : Machine) (pieces : List Piece) : List UInt8 :=
  (pieces.takeWhile fun p => (p.fault? m).isNone).flatMap fun p => Text.utf8 p.text

end Text.Piece

namespace Tree

/-- Nothing but the working directory. -/
def empty (name : String) : Tree :=
  let working := Location.root.child name
  ⟨working, [(working, .directory)]⟩

/-- What is at a location.  The root is a directory. -/
def find? (t : Tree) (l : Location) : Option Node :=
  if l = .root then some .directory else t.nodes.lookup l

/-- Puts a node at a location, in the place of the one there or behind all others. -/
def putNode (l : Location) (node : Node) : List (Location × Node) → List (Location × Node)
  | [] => [(l, node)]
  | n :: rest => if n.1 = l then (l, node) :: rest else n :: putNode l node rest

def put (t : Tree) (l : Location) (node : Node) : Tree :=
  { t with nodes := putNode l node t.nodes }

/-- Follows names from a location. -/
def follow (t : Tree) (l : Location) : List String → Except FileFault Location
  | [] => .ok l
  | name :: rest =>
    match t.find? l with
    | none => .error .notFound
    | some (.file _) => .error .notDirectory
    | some .directory =>
      if name = ".." then follow t l.parent rest
      else if FileName.byteSize name > maxNameBytes then .error .nameTooLong
      else follow t (l.child name) rest

/-- The location that a path starts from. -/
def start (t : Tree) (p : Path) : Location :=
  match p.root with
  | .working => t.working
  | _ => .root

/-- The location that a path leads to, with what is there. -/
def locate (t : Tree) (p : Path) : Except FileFault (Location × Option Node) :=
  if !p.names.all FileName.isUsable then .error .notEncodable
  else if p.names.any (·.contains '\x00') then .error .zeroCharacter
  else if FileName.byteSize p.text > maxPathBytes then .error .nameTooLong
  else (t.follow (t.start p) (p.names.map FileName.readBack)).map fun l => (l, t.find? l)

/-- The bytes of a file. -/
def read (t : Tree) (p : Path) : Except FileError (List UInt8) :=
  match t.locate p with
  | .error fault => .error ⟨fault, p.text⟩
  | .ok (_, none) => .error ⟨.notFound, p.text⟩
  | .ok (_, some .directory) => .error ⟨.isDirectory, p.text⟩
  | .ok (_, some (.file bytes)) => .ok bytes

/-- The bytes of a file at a written path.  One that can only lead to a directory leads to no
file. -/
def readWritten (t : Tree) (text : String) : Except FileError (List UInt8) := do
  let bytes ← t.read (Path.ofText text)
  if Path.endsInDirectory text then .error ⟨.notDirectory, text⟩ else .ok bytes

def isDirectory (t : Tree) (p : Path) : Bool :=
  match t.locate p with
  | .ok (_, some .directory) => true
  | _ => false

/-- Gives a file its contents; the directory it lies in has to be there. -/
def write (t : Tree) (p : Path) (bytes : List UInt8) : Except FileError Tree :=
  match t.locate p with
  | .error fault => .error ⟨fault, p.text⟩
  | .ok (_, some .directory) => .error ⟨.isDirectory, p.text⟩
  | .ok (l, _) => .ok (t.put l (.file bytes))

/-- Makes a single directory. -/
def makeOne (t : Tree) (p : Path) : Except FileError Tree :=
  match t.locate p with
  | .error fault => .error ⟨fault, p.text⟩
  | .ok (_, some _) => .error ⟨.alreadyThere, p.text⟩
  | .ok (l, none) => .ok (t.put l .directory)

/-- Settles an attempt to make a directory: one that is there already is as good. -/
def settle (t : Tree) (p : Path) (attempt : Except FileError Tree) : Tree × Option FileError :=
  match attempt with
  | .ok t => (t, none)
  | .error e => if t.isDirectory p then (t, none) else (t, some e)

/-- Follows names from a location as long as they lead to directories, and says which are
left. -/
def reach (t : Tree) (l : Location) : List String → Location × List String
  | [] => (l, [])
  | name :: rest =>
    if name = ".." then t.reach l.parent rest
    else
      match t.find? (l.child name) with
      | some .directory => t.reach (l.child name) rest
      | _ => (l, name :: rest)

/-- Makes the last directories of a path, whose names are given, from the location that the
names before them lead to.  Those that were made stay even if a later one cannot be. -/
def makeLast (t : Tree) (p : Path) (l : Location) : List String → Tree × Option FileError
  | [] => (t, none)
  | name :: rest =>
    let fault := fun f : FileFault =>
      some (⟨f, ({ p with names := p.names.take (p.names.length - rest.length) } : Path).text⟩
        : FileError)
    if name = ".." then t.makeLast p l.parent rest
    else if FileName.byteSize name > maxNameBytes then (t, fault .nameTooLong)
    else
      match t.find? (l.child name) with
      | some .directory => t.makeLast p (l.child name) rest
      | some (.file _) => (t, fault .alreadyThere)
      | none => (t.put (l.child name) .directory).makeLast p (l.child name) rest

/-- Makes a directory, and before it those it lies in when they are missing, unless these
are too many. -/
def makeDirectory (t : Tree) (m : Machine) (p : Path) : Tree × Option FileError :=
  match t.makeOne p with
  | .error ⟨.notFound, path⟩ =>
    let (l, names) := t.reach (t.start p) (p.names.map FileName.readBack)
    if names.length > m.missingDepth then (t, some ⟨.tooDeep, path⟩) else t.makeLast p l names
  | attempt => settle t p attempt

/-- Gives a file the bytes of a text, up to the first piece that cannot be written. -/
def writeText (t : Tree) (m : Machine) (p : Path) (pieces : List Text.Piece) :
    Tree × Option FileError :=
  match t.write p (Text.Piece.start m pieces) with
  | .error e => (t, some e)
  | .ok t => (t, (pieces.findSome? (·.fault? m)).map fun fault => ⟨fault, p.text⟩)

/-- Performs an action. -/
def act (t : Tree) (m : Machine) : Action → Tree × Option FileError
  | .makeDirectory p => t.makeDirectory m p
  | .write p bytes =>
    match t.write p bytes with
    | .ok t => (t, none)
    | .error e => (t, some e)
  | .writeText p pieces => t.writeText m p pieces

end Tree
end VoxelCurve
