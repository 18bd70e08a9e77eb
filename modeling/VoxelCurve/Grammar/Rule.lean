import VoxelCurve.Grammar.Symbol

/-!
Production rules and tables of them.

A rule is written as a left side, an arrow and a right side.  Only the first symbol of the
left side is expanded; a longer left side is accepted with a warning, so that reading a
rule has two results, the warning and the rule itself.  A table binds each symbol at most
once: its place is that of the first rule for the symbol and its replacement that of the
last.
-/

namespace VoxelCurve

/-- A warning that a rule has a left side of several symbols, of which one is used. -/
structure AmbiguousRule where
  rule : String
  symbols : Nat
  used : Symbol
deriving Repr, DecidableEq

namespace AmbiguousRule

def message (w : AmbiguousRule) : String :=
  s!"Production {Text.quoted w.rule} has {w.symbols} symbols on its left side; " ++
    s!"only {Text.quotedOne w.used.char} is used"

end AmbiguousRule

/-- What was read, and the warnings that were given on the way, which a failure keeps. -/
structure Reading (α : Type) where
  warnings : List AmbiguousRule
  result : Except GrammarFault α

namespace Reading

def fail {α : Type} (fault : GrammarFault) : Reading α :=
  ⟨[], .error fault⟩

def of {α : Type} (result : Except GrammarFault α) : Reading α :=
  ⟨[], result⟩

/-- Goes on with what was read; the later warnings follow the earlier ones. -/
def andThen {α β : Type} (r : Reading α) (next : α → Reading β) : Reading β :=
  match r.result with
  | .error fault => ⟨r.warnings, .error fault⟩
  | .ok a =>
    let more := next a
    ⟨r.warnings ++ more.warnings, more.result⟩

end Reading

/-- A rule: the symbol it expands and the sentence that takes its place. -/
structure Rule where
  symbol : Symbol
  replacement : Sentence
deriving Repr, DecidableEq

namespace Rule

def text (r : Rule) : String :=
  String.ofList (r.symbol.char :: arrow :: r.replacement.map Symbol.char)

/-- The sides are looked at in order, and that the left one is empty only when both could
be read. -/
def parseSides (rule left right : String) : Reading Rule :=
  match Sentence.parse left with
  | .error fault => .fail fault
  | .ok left =>
    match Sentence.parse right with
    | .error fault => .fail fault
    | .ok replacement =>
      match left with
      | [] => .fail (.emptyLeft rule)
      | [symbol] => .of (.ok ⟨symbol, replacement⟩)
      | symbol :: _ => ⟨[⟨rule, left.length, symbol⟩], .ok ⟨symbol, replacement⟩⟩

/-- Reads a rule from its text. -/
def parse (rule : String) : Reading Rule :=
  let chars := rule.toList
  if chars.count arrow = 1 then
    let left := chars.takeWhile (· != arrow)
    let right := (chars.dropWhile (· != arrow)).drop 1
    parseSides rule (String.ofList left) (String.ofList right)
  else .fail (.arrowCount (Text.quoted rule))

end Rule

/-- A table of rules, one for each symbol at most, in the order in which the symbols were
first given one. -/
structure Productions where
  rules : List Rule
  symbols_nodup : (rules.map Rule.symbol).Nodup

namespace Productions

def empty : Productions :=
  ⟨[], List.nodup_nil⟩

/-- The replacement of a symbol, if it has a rule. -/
def find? (p : Productions) (c : Symbol) : Option Sentence :=
  (p.rules.find? fun r => r.symbol = c).map Rule.replacement

/-- Gives a rule to its symbol, in place of the one it has or behind all others. -/
def insertRule : List Rule → Rule → List Rule
  | [], r => [r]
  | r' :: rest, r => if r'.symbol = r.symbol then r :: rest else r' :: insertRule rest r

theorem symbols_insertRule (rules : List Rule) (r : Rule) :
    (insertRule rules r).map Rule.symbol =
      if r.symbol ∈ rules.map Rule.symbol then rules.map Rule.symbol
      else rules.map Rule.symbol ++ [r.symbol] := by
  induction rules with
  | nil => simp [insertRule]
  | cons r' rest ih =>
    by_cases h : r'.symbol = r.symbol
    · simp [insertRule, h]
    · have h' : ¬ r.symbol = r'.symbol := fun e => h e.symm
      simp only [insertRule, h, if_false, List.map_cons, ih, List.mem_cons, h', false_or]
      split <;> rfl

def insert (p : Productions) (r : Rule) : Productions where
  rules := insertRule p.rules r
  symbols_nodup := by
    rw [symbols_insertRule]
    split
    · exact p.symbols_nodup
    · next h =>
      rw [List.nodup_append]
      refine ⟨p.symbols_nodup, by simp, ?_⟩
      intro a ha b hb e
      simp only [List.mem_singleton] at hb
      exact h (hb ▸ e ▸ ha)

def ofRules (rules : List Rule) : Productions :=
  rules.foldl insert empty

/-- The rules that could be read before the first that could not, if there is one. -/
def parseRules : List String → Reading (List Rule)
  | [] => .of (.ok [])
  | rule :: rest =>
    (Rule.parse rule).andThen fun r => (parseRules rest).andThen fun rs => .of (.ok (r :: rs))

def parse (rules : List String) : Reading Productions :=
  (parseRules rules).andThen fun rs => .of (.ok (ofRules rs))

/-- The rules in their written form. -/
def texts (p : Productions) : List String :=
  p.rules.map Rule.text

/-- Whether two tables expand alike, in whatever order their rules stand. -/
def agrees (p q : Productions) : Bool :=
  p.rules.length == q.rules.length &&
    p.rules.all fun r => q.find? r.symbol == some r.replacement

end Productions
end VoxelCurve
