import Mathlib.Data.List.Sort
import VoxelCurve.Proofs.Grammar.Document

/-!
What a table holds of the rules it was built from.

The first rule for a symbol decides where the symbol stands in a table, and the last rule for it
decides what replaces it.  `Binds` says so without a fold, by places in the list of rules, and only
one table is as it says.  `Written` says the same of texts: which rules they are, and which
warnings come with them.  `ofTexts_binds` is the statement for every list of texts.
-/

namespace VoxelCurve
namespace Productions

/-! ## Tables and rules -/

/-- A table has a rule for each symbol that some rules are for, in the order in which there is
first a rule for the symbols, and each rule of it is the last one for its symbol. -/
structure Binds (p : Productions) (rules : List Rule) : Prop where
  symbols : ∀ c, c ∈ p.rules.map Rule.symbol ↔ c ∈ rules.map Rule.symbol
  order : (p.rules.map Rule.symbol).Pairwise fun c d =>
    (rules.map Rule.symbol).idxOf c < (rules.map Rule.symbol).idxOf d
  last : ∀ r ∈ p.rules, ∃ before after,
    rules = before ++ r :: after ∧ r.symbol ∉ after.map Rule.symbol

theorem mem_insertRule {rules : List Rule} {r r' : Rule}
    (hnodup : (rules.map Rule.symbol).Nodup) (h : r' ∈ insertRule rules r) :
    r' = r ∨ r' ∈ rules ∧ r'.symbol ≠ r.symbol := by
  induction rules with
  | nil => exact .inl (List.mem_singleton.mp h)
  | cons first rules ih =>
    rw [List.map_cons, List.nodup_cons] at hnodup
    by_cases hfirst : first.symbol = r.symbol
    · rw [insertRule, if_pos hfirst] at h
      rcases List.mem_cons.mp h with rfl | hmem
      · exact .inl rfl
      · refine .inr ⟨List.mem_cons_of_mem _ hmem, fun hsame => hnodup.1 ?_⟩
        rw [hfirst, ← hsame]
        exact List.mem_map_of_mem hmem
    · rw [insertRule, if_neg hfirst] at h
      rcases List.mem_cons.mp h with rfl | hmem
      · exact .inr ⟨List.mem_cons_self, hfirst⟩
      · rcases ih hnodup.2 hmem with hsame | ⟨hrest, hne⟩
        · exact .inl hsame
        · exact .inr ⟨List.mem_cons_of_mem _ hrest, hne⟩

theorem binds_empty : empty.Binds [] :=
  ⟨fun _ => Iff.rfl, List.Pairwise.nil, nofun⟩

/-- A further rule goes to the place of its symbol, and behind all others if it has none. -/
theorem Binds.insert {p : Productions} {rules : List Rule} (h : p.Binds rules) (r : Rule) :
    (p.insert r).Binds (rules ++ [r]) := by
  have hsymbols : (p.insert r).rules.map Rule.symbol =
      if r.symbol ∈ p.rules.map Rule.symbol then p.rules.map Rule.symbol
      else p.rules.map Rule.symbol ++ [r.symbol] := symbols_insertRule p.rules r
  -- the places of the symbols that are there already do not change
  have hkept : ∀ c ∈ p.rules.map Rule.symbol,
      ((rules ++ [r]).map Rule.symbol).idxOf c = (rules.map Rule.symbol).idxOf c := by
    intro c hc
    rw [List.map_append, List.idxOf_append_of_mem ((h.symbols c).mp hc)]
  have horder : (p.rules.map Rule.symbol).Pairwise fun c d =>
      ((rules ++ [r]).map Rule.symbol).idxOf c < ((rules ++ [r]).map Rule.symbol).idxOf d := by
    refine h.order.imp_of_mem fun hc hd hlt => ?_
    rwa [hkept _ hc, hkept _ hd]
  constructor
  case symbols =>
    intro c
    rw [hsymbols, List.map_append, List.mem_append, ← h.symbols c, List.map_singleton]
    split
    · next hmem =>
      rw [List.mem_singleton, iff_self_or]
      rintro rfl
      exact hmem
    · exact List.mem_append
  case order =>
    rw [hsymbols]
    split
    · exact horder
    · next hnew =>
      rw [List.pairwise_append]
      refine ⟨horder, List.pairwise_singleton _ _, fun c hc d hd => ?_⟩
      obtain rfl := List.mem_singleton.mp hd
      have hlast : r.symbol ∉ rules.map Rule.symbol := fun hmem => hnew ((h.symbols _).mpr hmem)
      rw [hkept c hc, List.map_append, List.idxOf_append_of_notMem hlast]
      have hlt := List.idxOf_lt_length_of_mem ((h.symbols c).mp hc)
      omega
  case last =>
    intro r' hr'
    rcases mem_insertRule p.symbols_nodup hr' with rfl | ⟨hmem, hne⟩
    · exact ⟨rules, [], rfl, List.not_mem_nil⟩
    · obtain ⟨before, after, rfl, hafter⟩ := h.last r' hmem
      refine ⟨before, after ++ [r], by rw [List.append_assoc, List.cons_append], ?_⟩
      rw [List.map_append, List.mem_append, List.map_singleton, List.mem_singleton]
      exact not_or.mpr ⟨hafter, hne⟩

theorem binds_ofRules (rules : List Rule) : (ofRules rules).Binds rules := by
  induction rules using List.reverseRecOn with
  | nil => exact binds_empty
  | append_singleton rules r ih =>
    have hinsert : ofRules (rules ++ [r]) = (ofRules rules).insert r := by
      rw [ofRules, List.foldl_append]
      rfl
    rw [hinsert]
    exact ih.insert r

/-! ### There is one such table -/

/-- Of two rules that are the last for their symbols, no two are for the same symbol. -/
theorem eq_of_last {rules before after before' after' : List Rule} {r r' : Rule}
    (h : rules = before ++ r :: after) (hafter : r.symbol ∉ after.map Rule.symbol)
    (h' : rules = before' ++ r' :: after') (hafter' : r'.symbol ∉ after'.map Rule.symbol)
    (hsame : r.symbol = r'.symbol) : r = r' := by
  rcases List.append_eq_append_iff.mp (h.symm.trans h') with ⟨mid, -, hmid⟩ | ⟨mid, -, hmid⟩
  · cases mid with
    | nil => exact (List.cons.inj hmid).1
    | cons first mid =>
      refine absurd ?_ hafter
      rw [(List.cons.inj hmid).2, hsame]
      exact List.mem_map_of_mem (List.mem_append_right _ List.mem_cons_self)
  · cases mid with
    | nil => exact (List.cons.inj hmid).1.symm
    | cons first mid =>
      refine absurd ?_ hafter'
      rw [(List.cons.inj hmid).2, ← hsame]
      exact List.mem_map_of_mem (List.mem_append_right _ List.mem_cons_self)

theorem Binds.symbols_eq {p q : Productions} {rules : List Rule} (hp : p.Binds rules)
    (hq : q.Binds rules) : p.rules.map Rule.symbol = q.rules.map Rule.symbol := by
  have hperm : (p.rules.map Rule.symbol).Perm (q.rules.map Rule.symbol) :=
    (List.perm_ext_iff_of_nodup p.symbols_nodup q.symbols_nodup).mpr fun c =>
      (hp.symbols c).trans (hq.symbols c).symm
  exact hperm.eq_of_pairwise (fun c d _ _ hcd hdc => absurd hcd (by omega)) hp.order hq.order

theorem Binds.unique {p q : Productions} {rules : List Rule} (hp : p.Binds rules)
    (hq : q.Binds rules) : p = q := by
  have hsymbols := hp.symbols_eq hq
  have hrules : p.rules = q.rules := by
    have hlength : p.rules.length = q.rules.length := by
      simpa using congrArg List.length hsymbols
    refine List.ext_getElem hlength fun i hi hi' => ?_
    have hsame : p.rules[i].symbol = q.rules[i].symbol := by
      have hat : (p.rules.map Rule.symbol)[i]? = (q.rules.map Rule.symbol)[i]? := by rw [hsymbols]
      simpa [hi, hi'] using hat
    obtain ⟨before, after, h, hafter⟩ := hp.last _ (List.getElem_mem hi)
    obtain ⟨before', after', h', hafter'⟩ := hq.last _ (List.getElem_mem hi')
    exact eq_of_last h hafter h' hafter' hsame
  obtain ⟨rules', hnodup⟩ := p
  obtain rfl : rules' = q.rules := hrules
  rfl

/-! ## Texts -/

/-- Some texts are written as rules.  The warnings are about those that have several symbols on
their left side, in the order of the texts. -/
inductive Written : List String → List Rule → List AmbiguousRule → Prop
  | nil : Written [] [] []
  | single {text left right : String} {c : Symbol} {r : Sentence} {texts : List String}
      {rules : List Rule} {warnings : List AmbiguousRule} (h : Rule.Writes text left right c r)
      (hleft : (Text.characters left).length = 1) (hrest : Written texts rules warnings) :
      Written (text :: texts) (⟨c, r⟩ :: rules) warnings
  | several {text left right : String} {c : Symbol} {r : Sentence} {texts : List String}
      {rules : List Rule} {warnings : List AmbiguousRule} (h : Rule.Writes text left right c r)
      (hleft : 1 < (Text.characters left).length) (hrest : Written texts rules warnings) :
      Written (text :: texts) (⟨c, r⟩ :: rules)
        (⟨text, (Text.characters left).length, c⟩ :: warnings)

theorem parseRules_cons_of_parse {text : String} {r : Rule} {warnings more : List AmbiguousRule}
    {texts : List String} {result : Except GrammarFault (List Rule)}
    (h : Rule.parse text = ⟨warnings, .ok r⟩) (hrest : parseRules texts = ⟨more, result⟩) :
    parseRules (text :: texts) = ⟨warnings ++ more, result.map (r :: ·)⟩ := by
  rw [parseRules, h, hrest]
  cases result with
  | error fault => rfl
  | ok rules =>
    show Reading.mk (warnings ++ (more ++ [])) _ = _
    rw [List.append_nil]
    rfl

/-- What is read behind texts that are written as rules comes behind these rules, and so do its
warnings. -/
theorem Written.parseRules_append {texts : List String} {rules : List Rule}
    {warnings : List AmbiguousRule} (h : Written texts rules warnings) {texts' : List String}
    {more : List AmbiguousRule} {result : Except GrammarFault (List Rule)}
    (hrest : parseRules texts' = ⟨more, result⟩) :
    parseRules (texts ++ texts') = ⟨warnings ++ more, result.map (rules ++ ·)⟩ := by
  induction h with
  | nil =>
    rw [List.nil_append, hrest]
    cases result <;> rfl
  | single h hleft _ ih =>
    have hparse := Rule.parse_of_writes h
    rw [if_neg (by omega)] at hparse
    rw [List.cons_append, parseRules_cons_of_parse hparse ih]
    cases result <;> rfl
  | several h hleft _ ih =>
    have hparse := Rule.parse_of_writes h
    rw [if_pos hleft] at hparse
    rw [List.cons_append, parseRules_cons_of_parse hparse ih]
    cases result <;> rfl

theorem Written.parseRules {texts : List String} {rules : List Rule}
    {warnings : List AmbiguousRule} (h : Written texts rules warnings) :
    parseRules texts = ⟨warnings, .ok rules⟩ := by
  have happend := h.parseRules_append (show Productions.parseRules [] = ⟨[], .ok []⟩ from rfl)
  rwa [List.append_nil, List.append_nil, Except.map, List.append_nil] at happend

theorem parseRules_of_refuses {text : String} {fault : GrammarFault}
    (h : Rule.Refuses text fault) (texts : List String) :
    parseRules (text :: texts) = ⟨[], .error fault⟩ := by
  rw [parseRules, Rule.parse_of_refuses h]
  rfl

/-- All of some texts are written as rules, or there is a first that is not. -/
theorem written_or_refused (texts : List String) :
    (∃ rules warnings, Written texts rules warnings) ∨
      ∃ before text after rules warnings fault, texts = before ++ text :: after ∧
        Written before rules warnings ∧ Rule.Refuses text fault := by
  induction texts with
  | nil => exact .inl ⟨[], [], .nil⟩
  | cons text texts ih =>
    rcases Rule.exists_writes_or_refuses text with ⟨left, right, c, r, hwrites⟩ | ⟨fault, hrefuses⟩
    · -- whatever is written behind it is written with it
      have hcons : ∀ {texts rules warnings}, Written texts rules warnings →
          ∃ warnings', Written (text :: texts) (⟨c, r⟩ :: rules) warnings' := by
        intro texts rules warnings hrest
        obtain ⟨s, rfl, -, -⟩ := hwrites.exists_text
        have hlength : (Text.characters (Sentence.text (c :: s))).length = s.length + 1 := by
          rw [Sentence.characters_text, List.length_map, List.length_cons]
        cases s with
        | nil => exact ⟨_, .single hwrites hlength hrest⟩
        | cons d s =>
          rw [List.length_cons] at hlength
          exact ⟨_, .several hwrites (by omega) hrest⟩
      rcases ih with ⟨rules, warnings, hall⟩ | ⟨before, text', after, rules, warnings, fault, rfl,
        hbefore, hrefuses⟩
      · obtain ⟨warnings', hwritten⟩ := hcons hall
        exact .inl ⟨_, _, hwritten⟩
      · obtain ⟨warnings', hwritten⟩ := hcons hbefore
        exact .inr ⟨text :: before, text', after, _, _, fault, rfl, hwritten, hrefuses⟩
    · exact .inr ⟨[], text, texts, [], [], fault, rfl, .nil, hrefuses⟩

theorem parse_of_written {texts : List String} {rules : List Rule}
    {warnings : List AmbiguousRule} (h : Written texts rules warnings) :
    parse texts = ⟨warnings, .ok (ofRules rules)⟩ := by
  rw [parse, h.parseRules]
  show Reading.mk (warnings ++ []) _ = _
  rw [List.append_nil]
  rfl

theorem parse_of_refused {before after : List String} {text : String} {rules : List Rule}
    {warnings : List AmbiguousRule} {fault : GrammarFault} (h : Written before rules warnings)
    (hrefuses : Rule.Refuses text fault) :
    parse (before ++ text :: after) = ⟨warnings, .error fault⟩ := by
  rw [parse, h.parseRules_append (parseRules_of_refuses hrefuses after), List.append_nil]
  rfl

theorem parse_eq_ok_iff {texts : List String} {p : Productions} {warnings : List AmbiguousRule} :
    parse texts = ⟨warnings, .ok p⟩ ↔ ∃ rules, Written texts rules warnings ∧ p.Binds rules := by
  constructor
  · intro h
    rcases written_or_refused texts with ⟨rules, warnings', hwritten⟩ | ⟨before, text, after, rules,
      warnings', fault, rfl, hbefore, hrefuses⟩
    · rw [parse_of_written hwritten] at h
      injection h with hwarnings hresult
      obtain rfl := hwarnings
      obtain rfl := Except.ok.inj hresult
      exact ⟨rules, hwritten, binds_ofRules rules⟩
    · rw [parse_of_refused hbefore hrefuses] at h
      injection h with _ hresult
      cases hresult
  · rintro ⟨rules, hwritten, hbinds⟩
    rw [parse_of_written hwritten, hbinds.unique (binds_ofRules rules)]

theorem parse_eq_error_iff {texts : List String} {fault : GrammarFault}
    {warnings : List AmbiguousRule} :
    parse texts = ⟨warnings, .error fault⟩ ↔ ∃ before text after rules,
      texts = before ++ text :: after ∧ Written before rules warnings ∧
        Rule.Refuses text fault := by
  constructor
  · intro h
    rcases written_or_refused texts with ⟨rules, warnings', hwritten⟩ | ⟨before, text, after, rules,
      warnings', fault', rfl, hbefore, hrefuses⟩
    · rw [parse_of_written hwritten] at h
      injection h with _ hresult
      cases hresult
    · rw [parse_of_refused hbefore hrefuses] at h
      injection h with hwarnings hresult
      obtain rfl := hwarnings
      obtain rfl := Except.error.inj hresult
      exact ⟨before, text, after, rules, rfl, hbefore, hrefuses⟩
  · rintro ⟨before, text, after, rules, rfl, hbefore, hrefuses⟩
    exact parse_of_refused hbefore hrefuses

end Productions

namespace Reading

variable {α β : Type} {r : Reading α} {f : α → β} {warnings : List AmbiguousRule}

theorem andThen_of_eq_ok_iff {b : β} :
    r.andThen (fun a => .of (.ok (f a))) = ⟨warnings, .ok b⟩ ↔
      ∃ a, r = ⟨warnings, .ok a⟩ ∧ f a = b := by
  obtain ⟨warnings', fault | a⟩ := r
  · simp [andThen]
  · simp [andThen, of]

theorem andThen_of_eq_error_iff {fault : GrammarFault} :
    r.andThen (fun a => .of (.ok (f a))) = ⟨warnings, .error fault⟩ ↔
      r = ⟨warnings, .error fault⟩ := by
  obtain ⟨warnings', fault' | a⟩ := r
  · simp [andThen]
  · simp [andThen, of]

end Reading

namespace LSystem

/-- With an axiom that is one, an L-system has the table of its texts, or their fault. -/
theorem ofTexts_text (name : String) (start : Sentence) (texts : List String) :
    ofTexts name start.text texts = (Productions.parse texts).andThen fun p =>
      .of (.ok ⟨.text name, start, p⟩) := by
  rw [ofTexts, Sentence.parse_text]
  show Reading.mk ([] ++ _) _ = _
  rw [List.nil_append]

/-- The texts of rules make a table of one rule for each symbol that they are for, at the place of
the first and with the replacement of the last rule for it; the warnings are those of the rules
with several symbols on the left, in order.  A text that is no rule is reported if it is the first
such text, behind the warnings of the rules before it.  The L-system of the texts has this table,
and its own rules give it back in its order and without a warning. -/
theorem ofTexts_binds (name : String) (start : Sentence) (texts : List String) :
    (∀ p warnings, Productions.parse texts = ⟨warnings, .ok p⟩ ↔
      ∃ rules, Productions.Written texts rules warnings ∧ p.Binds rules) ∧
    (∀ fault warnings, Productions.parse texts = ⟨warnings, .error fault⟩ ↔
      ∃ before text after rules, texts = before ++ text :: after ∧
        Productions.Written before rules warnings ∧ Rule.Refuses text fault) ∧
    (∀ g warnings, ofTexts name start.text texts = ⟨warnings, .ok g⟩ ↔
      g.name = .text name ∧ g.start = start ∧
        ∃ rules, Productions.Written texts rules warnings ∧ g.productions.Binds rules) ∧
    (∀ fault warnings, ofTexts name start.text texts = ⟨warnings, .error fault⟩ ↔
      Productions.parse texts = ⟨warnings, .error fault⟩) ∧
    ∀ g : LSystem, g.rules = g.productions.rules.map Rule.text ∧
      ofTexts name g.start.text g.rules = ⟨[], .ok ⟨.text name, g.start, g.productions⟩⟩ := by
  refine ⟨fun p warnings => Productions.parse_eq_ok_iff,
    fun fault warnings => Productions.parse_eq_error_iff, ?_, ?_, ?_⟩
  · intro g warnings
    rw [ofTexts_text, Reading.andThen_of_eq_ok_iff]
    constructor
    · rintro ⟨p, hp, rfl⟩
      exact ⟨rfl, rfl, Productions.parse_eq_ok_iff.mp hp⟩
    · rintro ⟨hname, hstart, hrules⟩
      refine ⟨g.productions, Productions.parse_eq_ok_iff.mpr hrules, ?_⟩
      rw [← hname, ← hstart]
  · intro fault warnings
    rw [ofTexts_text, Reading.andThen_of_eq_error_iff]
  · intro g
    refine ⟨rfl, ?_⟩
    rw [ofTexts_text, show g.rules = g.productions.texts from rfl, g.productions.parse_texts]
    rfl

/-- A symbol keeps the place of its first rule and is replaced as its last rule says. -/
example : (ofTexts "" "F" ["F→L", "RF→A", "F→R"]).result.toOption.map rules =
    some ["F→R", "R→A"] := by decide +kernel

end LSystem
end VoxelCurve
