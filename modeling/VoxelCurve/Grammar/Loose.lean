import VoxelCurve.Grammar.LSystem
import VoxelCurve.Value.Number
import VoxelCurve.Value.Shown

/-!
Grammars and lengths that are given as any values.

A value that has parts may stand for a sentence or for rules: its parts are read one after
the other, and each has to be a symbol or a rule.  A length may be any number; what needs an
integer refuses the others only after their sign, and what counts generations one by one
takes as many as are below it.
-/

namespace VoxelCurve

/-- The symbols of `rest`, which stands at `position` in a value that is shown as `whole`. -/
def Sentence.ofParts (whole : String) (position : Nat) :
    List Value → Except GrammarFault Sentence
  | [] => .ok []
  | v :: rest =>
    match LSystem.symbolOfValue? v with
    | none => .error (.unknownPart v.shown position whole)
    | some s => (ofParts whole (position + 1) rest).map (s :: ·)

/-- The sentence that a value stands for. -/
def Sentence.ofValue (v : Value) : Except GrammarFault Sentence :=
  match v, v.parts? with
  | .text s, _ => Sentence.parse s
  | _, some parts => Sentence.ofParts v.shown 0 parts
  | _, none => .error .noParts

/-- The rule that a value stands for.  A list can have an arrow, but is no text all the
same. -/
def Rule.ofValue : Value → Reading Rule
  | .text s => Rule.parse s
  | .list items =>
    let arrows := items.countP fun
      | .text s => s == String.ofList [arrow]
      | _ => false
    if arrows = 1 then .fail .ruleNotText else .fail (.arrowCount (Value.list items).shown)
  | _ => .fail .ruleNotText

namespace Productions

/-- The rules that could be read before the first that could not, if there is one. -/
def rulesOfValues : List Value → Reading (List Rule)
  | [] => .of (.ok [])
  | v :: rest =>
    (Rule.ofValue v).andThen fun r => (rulesOfValues rest).andThen fun rs => .of (.ok (r :: rs))

def ofValues (rules : List Value) : Reading Productions :=
  (rulesOfValues rules).andThen fun rs => .of (.ok (ofRules rs))

/-- The table that the parts of a value stand for. -/
def ofValue (v : Value) : Reading Productions :=
  match v.parts? with
  | some rules => ofValues rules
  | none => .fail .noParts

end Productions

namespace LSystem

/-- The L-system that values stand for. -/
def ofValues (name start rules : Value) : Reading LSystem :=
  (Reading.of (Sentence.ofValue start)).andThen fun start =>
    (Productions.ofValue rules).andThen fun productions =>
      .of (.ok ⟨name, start, productions⟩)

/-- Why values name no symbols. -/
inductive NamingFault where
  /-- a value without parts -/
  | noParts
  /-- a value that names no symbol -/
  | unnamed
deriving Repr, DecidableEq

def NamingFault.message : NamingFault → String
  | noParts => "a value without parts"
  | unnamed => "no symbol has the name"

/-- The symbol that a value names. -/
def named (v : Value) : Except NamingFault Symbol :=
  match symbolOfValue? v with
  | some s => .ok s
  | none => .error .unnamed

/-- The symbols that the parts of a value name. -/
def allNamed (v : Value) : Except NamingFault Sentence :=
  match v.parts? with
  | some parts => parts.mapM named
  | none => .error .noParts

/-- An L-system whose symbols are named one by one: those of the axiom, and under each symbol
that is replaced those of its replacement. -/
def ofNames (name start : Value) (replacements : Fields) : Except NamingFault LSystem := do
  let start ← allNamed start
  let rules ← replacements.mapM fun r => do
    let symbol ← named (.text r.1)
    .ok (Rule.mk symbol (← allNamed r.2))
  .ok ⟨name, start, Productions.ofRules rules⟩

end LSystem

/-- Why a value is no number of generations. -/
inductive LengthFault where
  | notNumber
  | negative (shown : String)
  | notInteger
deriving Repr, DecidableEq

namespace LengthFault

def message : LengthFault → String
  | notNumber => "a length is a number"
  | negative shown => s!"Derivation length must be non-negative, got {shown}"
  | notInteger => "a length is an integer"

end LengthFault

/-- The number of generations that a value asks for. -/
def Value.toLength (v : Value) : Except LengthFault Nat :=
  match v with
  | .bool b => .ok (if b then 1 else 0)
  | .int n => if n < 0 then .error (.negative v.shown) else .ok n.toNat
  | .float x => if x < 0.0 then .error (.negative v.shown) else .error .notInteger
  | _ => .error .notNumber

/-- The number of generations below a value.  No walk comes to the end of the greatest
one. -/
def Value.toDepth (v : Value) : Except LengthFault Nat :=
  match v with
  | .float x =>
    if x < 0.0 then .error (.negative v.shown)
    else if x.isNaN then .ok 0
    else if x.isInf then .ok 0xFFFFFFFFFFFFFFFF
    else .ok (Decimal.truncate x.ceil).toNat
  | _ => v.toLength

end VoxelCurve
