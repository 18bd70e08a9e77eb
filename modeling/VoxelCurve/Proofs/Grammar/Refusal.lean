import VoxelCurve.Grammar.Loose
import VoxelCurve.Proofs.Grammar.Table

/-!
Faults of grammars that are read.

Texts are read as a grammar or refused by the rules of grammars, and so are documents, whatever
they hold, and files, whatever bytes are in them.  Only the limits of the reader of documents come
through as its own.
-/

namespace VoxelCurve

theorem Sentence.isRefusal_of_parse {text : String} {fault : GrammarFault}
    (h : parse text = .error fault) : fault.isRefusal = true := by
  rcases parse_cases text with ⟨s, rfl⟩ | ⟨place, c, hstray, -⟩
  · cases (parse_text s).symm.trans h
  · obtain rfl := Except.error.inj ((parse_of_stray hstray).symm.trans h)
    rfl

theorem Rule.Refuses.isRefusal {text : String} {fault : GrammarFault} (h : Refuses text fault) :
    fault.isRefusal = true := by
  cases h <;> rfl

namespace Productions

theorem isRefusal_of_parse {texts : List String} {fault : GrammarFault}
    (h : (parse texts).result = .error fault) : fault.isRefusal = true := by
  have hparse : parse texts = ⟨(parse texts).warnings, .error fault⟩ := by rw [← h]
  obtain ⟨before, text, after, rules, -, -, hrefuses⟩ := parse_eq_error_iff.mp hparse
  exact hrefuses.isRefusal

theorem rulesOfValues_text (texts : List String) :
    rulesOfValues (texts.map .text) = parseRules texts := by
  induction texts with
  | nil => rfl
  | cons text texts ih =>
    rw [List.map_cons, rulesOfValues, ih]
    rfl

end Productions

namespace Reading

variable {α β : Type}

/-- What is read in two steps fails in one of them. -/
theorem result_andThen_eq_error_iff {r : Reading α} {next : α → Reading β}
    {fault : GrammarFault} :
    (r.andThen next).result = .error fault ↔
      r.result = .error fault ∨ ∃ a, r.result = .ok a ∧ (next a).result = .error fault := by
  obtain ⟨warnings, fault' | a⟩ := r
  · simp only [andThen, Except.error.injEq, reduceCtorEq, false_and, exists_false, or_false]
  · simp only [andThen, reduceCtorEq, false_or, Except.ok.injEq, exists_eq_left']

end Reading

namespace LSystem

/-- Texts are read alike whether they are given as texts or as values. -/
theorem ofValues_text (name start : String) (rules : List String) :
    ofValues (.text name) (.text start) (.list (rules.map .text)) = ofTexts name start rules := by
  have hrules : Productions.ofValue (.list (rules.map .text)) = Productions.parse rules := by
    show Productions.ofValues (rules.map .text) = _
    rw [Productions.ofValues, Productions.rulesOfValues_text]
    rfl
  rw [ofValues, hrules]
  rfl

variable {fault : GrammarFault}

theorem isRefusal_of_ofTexts {name start : String} {rules : List String}
    (h : (ofTexts name start rules).result = .error fault) : fault.isRefusal = true := by
  rw [ofTexts, Reading.result_andThen_eq_error_iff] at h
  obtain h | ⟨s, -, h⟩ := h
  · exact Sentence.isRefusal_of_parse h
  · rw [Reading.result_andThen_eq_error_iff] at h
    obtain h | ⟨p, -, h⟩ := h
    · exact Productions.isRefusal_of_parse h
    · cases h

theorem isRefusal_of_ofFields {fields : Fields} (h : (ofFields fields).result = .error fault) :
    fault.isRefusal = true := by
  unfold ofFields at h
  split at h
  · split at h
    · exact isRefusal_of_ofTexts h
    · cases h
      rfl
  all_goals
    cases h
    rfl

theorem isRefusal_of_ofValue {v : Value} (h : (ofValue v).result = .error fault) :
    fault.isRefusal = true := by
  unfold ofValue at h
  split at h
  · exact isRefusal_of_ofFields h
  · cases h
    rfl

/-- The limits of the reader are all that is left of its faults. -/
theorem ofBytes_eq_error_iff {depth : Nat} {bytes : List UInt8} {path : String}
    {limit : Json.ReadFault} :
    ofBytes depth bytes path = .error limit ↔
      Json.readBytes depth bytes = .error limit ∧ limit ≠ .notText ∧ limit ≠ .malformed := by
  rw [ofBytes]
  cases hread : Json.readBytes depth bytes with
  | ok v => simp only [ofDocument, reduceCtorEq, false_and]
  | error limit' => cases limit' <;> cases limit <;> simp [ofDocument]

theorem isRefusal_of_ofBytes {depth : Nat} {bytes : List UInt8} {path : String}
    {reading : Reading LSystem} (hread : ofBytes depth bytes path = .ok reading)
    (h : reading.result = .error fault) :
    fault.isRefusal = true := by
  unfold ofBytes ofDocument at hread
  split at hread
  · obtain rfl := Except.ok.inj hread
    exact isRefusal_of_ofValue h
  · obtain rfl := Except.ok.inj hread
    cases h
    rfl
  · obtain rfl := Except.ok.inj hread
    cases h
    rfl
  · cases hread

end LSystem
end VoxelCurve
