import VoxelCurve.Grammar.Derivation
import VoxelCurve.Json.Reader
import VoxelCurve.Value.Equality

/-!
L-systems: a name, an axiom and a table of productions.

The same grammar has three forms: texts, a document of three fields, and the value itself.
Reading a form looks at the axiom before the productions, and at the productions in order.
A name is carried along as it was given; only a document has to have a text there.
-/

namespace VoxelCurve

/-- A grammar to derive sentences from. -/
structure LSystem where
  /-- the name that output files are given, where it is printed -/
  name : Value
  /-- the axiom: the sentence of generation zero -/
  start : Sentence
  productions : Productions

/-- A derivation cannot have fewer than no generations. -/
structure NegativeLength where
  length : Int
deriving Repr, DecidableEq

namespace NegativeLength

def message (f : NegativeLength) : String :=
  s!"Derivation length must be non-negative, got {f.length}"

end NegativeLength

namespace LSystem

/-- Reads an L-system from its texts. -/
def ofTexts (name start : String) (rules : List String) : Reading LSystem :=
  (Reading.of (Sentence.parse start)).andThen fun start =>
    (Productions.parse rules).andThen fun productions =>
      .of (.ok ⟨.text name, start, productions⟩)

/-- The symbol that a text of one character names. -/
def symbolOf? (text : String) : Option Symbol :=
  match text.toList with
  | [c] => Symbol.ofChar? c
  | _ => none

/-- The symbol that a value names. -/
def symbolOfValue? : Value → Option Symbol
  | .text s => symbolOf? s
  | _ => none

/-- The sentence that another becomes in `n` generations. -/
def derive (g : LSystem) (s : Sentence) (n : Int) : Except NegativeLength Sentence :=
  if n < 0 then .error ⟨n⟩ else .ok (g.productions.derive n.toNat s)

/-- The sentence of a generation. -/
def generation (g : LSystem) (n : Nat) : Sentence :=
  g.productions.derive n g.start

/-- The sentence of generation `n`, which cannot be negative. -/
def commands (g : LSystem) (n : Int) : Except NegativeLength Sentence :=
  g.derive g.start n

/-- The sentence of generation `n`, read symbol by symbol. -/
def walk (g : LSystem) (n : Int) : Except NegativeLength Sentence :=
  if n < 0 then .error ⟨n⟩ else .ok (g.productions.walk n.toNat g.start)

/-- The first `k` symbols of generation `n`.  The length is looked at when the first symbol
is asked for, so that asking for none never fails. -/
def take (g : LSystem) (n : Int) (k : Nat) : Except NegativeLength Sentence :=
  if k = 0 then .ok []
  else if n < 0 then .error ⟨n⟩
  else .ok (g.productions.take n.toNat k g.start)

/-- The rules in their written form. -/
def rules (g : LSystem) : List String :=
  g.productions.texts

/-- Whether two L-systems are equal as values; the order of the productions is no part of
the value. -/
def agrees (g h : LSystem) : Bool :=
  g.name.equals h.name && g.start == h.start && g.productions.agrees h.productions

/-- The document of a grammar. -/
def toFields (g : LSystem) : Fields :=
  [("name", g.name), ("axiom", .text g.start.text),
   ("productions", .list (g.rules.map .text))]

def toValue (g : LSystem) : Value :=
  .object g.toFields

/-- The texts of a list of texts. -/
def texts? (items : List Value) : Option (List String) :=
  items.mapM fun
    | .text s => some s
    | _ => none

/-- The fields are looked at in the order of a document: name, axiom, productions. -/
def ofFields (fields : Fields) : Reading LSystem :=
  match fields.get? "name", fields.get? "axiom", fields.get? "productions" with
  | some (.text name), some (.text start), some (.list productions) =>
    match texts? productions with
    | some rules => ofTexts name start rules
    | none => .fail .productionNotText
  | some (.text _), some (.text _), _ => .fail (.badField "productions" "list")
  | some (.text _), _, _ => .fail (.badField "axiom" "str")
  | _, _, _ => .fail (.badField "name" "str")

/-- Reads an L-system from its document. -/
def ofValue : Value → Reading LSystem
  | .object fields => ofFields fields
  | v => .fail (.notObject v.typeName)

/-- The document in a file's bytes. -/
def ofDocument (v : Except Json.ReadFault Value) (path : String) :
    Except Json.ReadFault (Reading LSystem) :=
  match v with
  | .ok v => .ok (ofValue v)
  | .error .notText => .ok (.fail (.unreadable path))
  | .error .malformed => .ok (.fail (.unreadable path))
  | .error fault => .error fault

/-- Reads an L-system from the bytes of the file at `path`.  Bytes that are no document are
no grammar; the limits of the reader are reported as its own. -/
def ofBytes (depth : Nat) (bytes : List UInt8) (path : String) :
    Except Json.ReadFault (Reading LSystem) :=
  ofDocument (Json.readBytes depth bytes) path

end LSystem
end VoxelCurve
