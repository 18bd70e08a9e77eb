import Mathlib.Data.List.Induction
import VoxelCurve.Proofs.Grammar.Rule

/-!
The document of a grammar.

A rule is read from its written form as it was.  No two rules of a table have their symbol in
common, so putting them into an empty table one after the other gives the table itself, in its
order.
-/

namespace VoxelCurve

/-! ## Rules -/

namespace Rule

theorem parse_text (r : Rule) : parse r.text = .of (.ok r) := by
  have hcut := cut_text [r.symbol] r.replacement
  rw [← r.text_eq] at hcut
  rw [parse_of_cut hcut, parseSides_text]
  rfl

end Rule

/-! ## Tables -/

namespace Productions

theorem insertRule_of_notMem {rules : List Rule} {r : Rule}
    (h : r.symbol ∉ rules.map Rule.symbol) : insertRule rules r = rules ++ [r] := by
  induction rules with
  | nil => rfl
  | cons r' rules ih =>
    have hne : r'.symbol ≠ r.symbol := fun e => h (e ▸ List.mem_cons_self)
    have hrest : r.symbol ∉ rules.map Rule.symbol := fun e => h (List.mem_cons_of_mem _ e)
    rw [insertRule, if_neg hne, ih hrest]
    rfl

theorem rules_ofRules {rules : List Rule} (h : (rules.map Rule.symbol).Nodup) :
    (ofRules rules).rules = rules := by
  induction rules using List.reverseRecOn with
  | nil => rfl
  | append_singleton rules r ih =>
    rw [List.map_append, List.nodup_append] at h
    have hnew : r.symbol ∉ rules.map Rule.symbol :=
      fun e => h.2.2 r.symbol e r.symbol List.mem_cons_self rfl
    have hinsert : (ofRules (rules ++ [r])).rules = insertRule (ofRules rules).rules r := by
      rw [ofRules, List.foldl_append]
      rfl
    rw [hinsert, ih h.1, insertRule_of_notMem hnew]

theorem ofRules_rules (p : Productions) : ofRules p.rules = p := by
  obtain ⟨rules, hnodup⟩ := p
  have hrules := rules_ofRules hnodup
  cases htable : ofRules rules with
  | mk rules' hnodup' =>
    rw [htable] at hrules
    obtain rfl : rules' = rules := hrules
    rfl

theorem parseRules_texts (rules : List Rule) :
    parseRules (rules.map Rule.text) = .of (.ok rules) := by
  induction rules with
  | nil => rfl
  | cons r rules ih =>
    rw [List.map_cons, parseRules, r.parse_text]
    show Reading.andThen ⟨[], .ok r⟩ _ = _
    simp only [Reading.andThen, ih, List.nil_append]
    rfl

theorem parse_texts (p : Productions) : parse p.texts = .of (.ok p) := by
  rw [parse, texts, parseRules_texts]
  show Reading.of (.ok (ofRules p.rules)) = _
  rw [p.ofRules_rules]

end Productions

/-! ## Documents -/

namespace LSystem

theorem texts?_map_text (rules : List String) : texts? (rules.map .text) = some rules := by
  induction rules with
  | nil => rfl
  | cons rule rules ih =>
    unfold texts? at ih ⊢
    rw [List.map_cons, List.mapM_cons, ih]
    rfl

theorem ofFields_of_get? {fields : Fields} {name start : String} {items : List Value}
    {rules : List String} (hname : fields.get? "name" = some (.text name))
    (hstart : fields.get? "axiom" = some (.text start))
    (hitems : fields.get? "productions" = some (.list items))
    (hrules : texts? items = some rules) : ofFields fields = ofTexts name start rules := by
  rw [ofFields, hname, hstart, hitems]
  simp only [hrules]

/-- A grammar whose name is a text is read from its document as it was, without a warning. -/
theorem ofValue_toValue {g : LSystem} {name : String} (hname : g.name = .text name) :
    ofValue g.toValue = .of (.ok g) := by
  obtain ⟨gname, start, productions⟩ := g
  obtain rfl : gname = .text name := hname
  show ofFields (toFields ⟨.text name, start, productions⟩) = _
  rw [ofFields_of_get? rfl rfl rfl (texts?_map_text _), ofTexts, Sentence.parse_text]
  show Reading.andThen (Productions.parse productions.texts) _ = _
  rw [productions.parse_texts]
  rfl

end LSystem
end VoxelCurve
