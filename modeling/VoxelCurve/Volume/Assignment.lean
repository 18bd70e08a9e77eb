import VoxelCurve.Volume.Buffer

/-!
Putting values among nested records.

The records of a buffer can be indexed as rows in rows, by z, y, x and the place of a byte,
and values put at whatever such indices select.  A value alone goes to all places.  Nested
ones are laid out like the places: from their last side on, each side of theirs is as long as
that of the places, or one long, and then gone through again and again.

Where places that stand side by side are picked, all values are made bytes before anything is
put, and sides of length one may be left out at the front.  Where none are, values that are
laid out exactly like the places are put one by one, so that those before one that is no byte
stay.
-/

namespace VoxelCurve

/-- Something for each of the first places that were asked for, and why there is nothing for
the others. -/
structure Part (α : Type) where
  items : List α
  fault? : Option BufferFault

namespace Part

variable {α β : Type}

def ofResult : Except BufferFault (List α) → Part α
  | .ok items => ⟨items, none⟩
  | .error fault => ⟨[], some fault⟩

def map (f : List α → List β) (p : Part α) : Part β :=
  ⟨f p.items, p.fault?⟩

/-- What some values can be made, up to the first that cannot. -/
def collect (f : Value → Except BufferFault α) : List Value → Part α
  | [] => ⟨[], none⟩
  | v :: rest =>
    match f v with
    | .error fault => ⟨[], some fault⟩
    | .ok a => (collect f rest).map (a :: ·)

end Part

namespace Assignment

/-- The byte that a value can be made. -/
def byte (v : Value) : Except BufferFault UInt8 :=
  match v.toInteger with
  | .error fault => .error (.number fault)
  | .ok n => if 0 ≤ n ∧ n ≤ 255 then .ok (UInt8.ofNat n.toNat) else .error (.overflow n)

/-- The bytes that values can be made, with the shape they are laid out in. -/
def laidOut (v : Value) : Except BufferFault (List Nat × List UInt8) := do
  let shape ← v.shape.mapError fun _ => .unfitValues
  let bytes ← v.entries.mapM byte
  .ok (shape, bytes)

/-- Bytes of one shape, laid out in another. -/
def fit (shape target : List Nat) (bytes : List UInt8) : Except BufferFault (List UInt8) :=
  match spread? shape target bytes with
  | some bytes => .ok bytes
  | none => .error .unfitValues

/-- The bytes for places of a shape, none of which stand side by side. -/
def bytesFor (target : List Nat) (v : Value) : Part UInt8 :=
  match v.shape with
  | .error _ => ⟨[], some .unfitValues⟩
  | .ok shape =>
    if shape.length > target.length then ⟨[], some .unfitValues⟩
    else if shape = target then Part.collect byte v.entries
    else
      .ofResult do
        let (shape, bytes) ← laidOut v
        fit shape target bytes

/-- The bytes for places of a selection, and the places. -/
def sideBySide (s : Selection) (v : Value) : Except BufferFault (List (List Int × UInt8)) := do
  let (shape, bytes) ← laidOut v
  let picked ← s.picked.mapError .selection
  let target := s.shape picked
  match narrow? target.length shape with
  | none => .error .unfitValues
  | some shape =>
    let bytes ← fit shape target bytes
    let places ← (s.places picked).mapError .selection
    .ok (places.zip bytes)

/-- What goes to which places of a selection. -/
def puts (s : Selection) (v : Value) : Part (List Int × UInt8) :=
  if !s.isPlain then .ofResult (sideBySide s v)
  else
    match s.places [] with
    | .error fault => ⟨[], some (.selection fault)⟩
    | .ok places =>
      if s.isSingle then .ofResult ((byte v).map fun b => places.map (·, b))
      else (bytesFor (s.shape []) v).map (places.zip ·)

end Assignment

namespace Buffer

variable {k : Kind}

/-- The edit of a byte at the places on the sides of the nested records. -/
def nestedEdit? (b : Buffer k) (places : List Int) (byte : UInt8) :
    Option (ByteEdit b.extent.count k.size) :=
  let e := b.extent
  match places with
  | [z, y, x, c] => do
    let z ← place? e.height z
    let y ← place? e.depth y
    let x ← place? e.width x
    let c ← place? k.size c
    let i ← (b.addressOf x.val y.val z.val).toOption
    some ⟨i, c, byte⟩
  | _ => none

/-- The edits of bytes among the records nested by z, y and x, where each index may be any
value.  A place outside the records is a fault of the selection, so every place that is left
has its edit. -/
def editNested (b : Buffer k) (indices : List Value) (v : Value) :
    Part (ByteEdit b.extent.count k.size) :=
  let e := b.extent
  if e.isShapeable k.size then
    match Selection.ofValues 0 [e.height, e.depth, e.width, k.size] indices with
    | .error fault => ⟨[], some (.selection fault)⟩
    | .ok s => (Assignment.puts s v).map (·.filterMap fun p => b.nestedEdit? p.1 p.2)
  else ⟨[], some .noLayout⟩

end Buffer
end VoxelCurve
