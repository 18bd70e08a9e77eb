import VoxelCurve.Text.Quoted

/-!
The alphabet of drawing commands, and sentences over it.

A sentence is written with one character per symbol, so printing and reading a sentence are
inverse to each other: `Sentence.parse` accepts exactly the texts over the eight characters.
-/

namespace VoxelCurve

/-- A command to the turtle.  The composite ones draw, turn and draw again; the two
placeholders stand for parts of a figure and draw nothing themselves. -/
inductive Symbol where
  | draw
  | step
  | left
  | right
  | drawLeft
  | drawRight
  | subfigureA
  | subfigureB
deriving Repr, DecidableEq, Inhabited

namespace Symbol

def char : Symbol → Char
  | draw => 'F'
  | step => 'f'
  | left => '+'
  | right => '-'
  | drawLeft => 'L'
  | drawRight => 'R'
  | subfigureA => 'A'
  | subfigureB => 'B'

def ofChar? : Char → Option Symbol
  | 'F' => some draw
  | 'f' => some step
  | '+' => some left
  | '-' => some right
  | 'L' => some drawLeft
  | 'R' => some drawRight
  | 'A' => some subfigureA
  | 'B' => some subfigureB
  | _ => none

@[simp]
theorem ofChar?_char (s : Symbol) : ofChar? s.char = some s := by
  cases s <;> rfl

theorem ofChar?_eq_some_iff {c : Char} {s : Symbol} : ofChar? c = some s ↔ c = s.char := by
  constructor
  · intro h
    unfold ofChar? at h
    split at h <;> simp_all <;> subst h <;> rfl
  · intro h
    obtain rfl := h
    exact ofChar?_char s

/-- Whether the symbol only moves or turns the turtle. -/
def onlyMoves : Symbol → Bool
  | step | left | right => true
  | _ => false

end Symbol

/-- Why a text or a value is no grammar. -/
inductive GrammarFault where
  /-- a character outside the alphabet -/
  | unknownSymbol (character : String) (position : Nat) (text : String)
  /-- a part of another value that is no symbol -/
  | unknownPart (shown : String) (position : Nat) (shownWhole : String)
  /-- a value without parts where a sentence or rules are wanted -/
  | noParts
  /-- a rule with no arrow or with several -/
  | arrowCount (shown : String)
  /-- a rule that is no text -/
  | ruleNotText
  /-- a rule that expands nothing -/
  | emptyLeft (rule : String)
  /-- a value that is no object -/
  | notObject (typeName : String)
  /-- a field that is missing or of another type -/
  | badField (name typeName : String)
  /-- a production that is no text -/
  | productionNotText
  /-- a file that holds no document -/
  | unreadable (path : String)
deriving Repr, DecidableEq

/-- The arrow between the two sides of a rule. -/
def arrow : Char := '→'

namespace GrammarFault

open Text (quoted quotedOne)

def message : GrammarFault → String
  | unknownSymbol c position text =>
    s!"Unrecognized symbol {quoted c} at position {position} in {quoted text}"
  | unknownPart shown position shownWhole =>
    s!"Unrecognized symbol {shown} at position {position} in {shownWhole}"
  | noParts => "a value without parts"
  | arrowCount shown => s!"Production {shown} must contain exactly one {quotedOne arrow}"
  | ruleNotText => "a rule is a text"
  | emptyLeft rule => s!"Production {quoted rule} has an empty left side"
  | notObject typeName => s!"Grammar must be an object, got {typeName}"
  | badField name typeName => s!"Grammar field {quoted name} must be a {typeName}"
  | productionNotText => "Grammar productions must be strings"
  | unreadable path => s!"Invalid grammar JSON in {path}"

/-- Whether what was read breaks a rule of grammars, and is not just a value of a type that
cannot be read at all. -/
def isRefusal : GrammarFault → Bool
  | noParts | ruleNotText => false
  | _ => true

end GrammarFault

/-- A word over the alphabet. -/
abbrev Sentence := List Symbol

namespace Sentence

def text (s : Sentence) : String :=
  String.ofList (s.map Symbol.char)

/-- The symbols of `rest`, which stands at `position` in `text`. -/
def parseFrom (text : String) (position : Nat) (rest : List Char) :
    Except GrammarFault Sentence :=
  match rest with
  | [] => .ok []
  | c :: more =>
    match Symbol.ofChar? c with
    | none => .error (.unknownSymbol (Text.firstOf rest) position text)
    | some s => (parseFrom text (position + 1) more).map (s :: ·)

/-- Reads one symbol per character, and reports the first character that is none. -/
def parse (text : String) : Except GrammarFault Sentence :=
  parseFrom text 0 text.toList

theorem parseFrom_chars (text : String) (s : Sentence) (position : Nat) :
    parseFrom text position (s.map Symbol.char) = .ok s := by
  induction s generalizing position with
  | nil => rfl
  | cons c s ih => simp [parseFrom, ih, Except.map]

theorem parse_text (s : Sentence) : parse s.text = .ok s := by
  simp [parse, text, parseFrom_chars]

end Sentence
end VoxelCurve
