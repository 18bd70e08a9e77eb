import VoxelCurve.Proofs.Grammar.Sentence

/-!
The texts that are rules.

A rule is cut at its arrow, which no command character is, and its sides are read in order.  Four
things can be wrong with a text at once; `Refuses` says which of them is reported.  `parse_exact`
is the statement for every text: what is read, when there is a warning, and what is reported.
-/

namespace VoxelCurve
namespace Rule

/-! ## The sides -/

/-- A text with a single arrow, and what stands before and behind it. -/
structure Cut (rule left right : String) : Prop where
  text : rule = left ++ String.ofList [arrow] ++ right
  left_clean : arrow ∉ left.toList
  right_clean : arrow ∉ right.toList

theorem Cut.toList {rule left right : String} (h : Cut rule left right) :
    rule.toList = left.toList ++ arrow :: right.toList := by
  rw [h.text, String.toList_append, String.toList_append, String.toList_ofList,
    List.append_assoc, List.singleton_append]

theorem Cut.count {rule left right : String} (h : Cut rule left right) :
    rule.toList.count arrow = 1 := by
  rw [h.toList, List.count_append, List.count_cons_self, List.count_eq_zero.mpr h.left_clean,
    List.count_eq_zero.mpr h.right_clean]

theorem exists_cut {rule : String} (h : rule.toList.count arrow = 1) :
    ∃ left right, Cut rule left right := by
  have hmem : arrow ∈ rule.toList := List.count_pos_iff.mp (h ▸ Nat.one_pos)
  obtain ⟨left, right, hsides, hleft⟩ := List.eq_append_cons_of_mem hmem
  rw [hsides, List.count_append, List.count_cons_self, List.count_eq_zero.mpr hleft] at h
  have hright : arrow ∉ right := List.count_eq_zero.mp (by omega)
  refine ⟨String.ofList left, String.ofList right, ?_, ?_, ?_⟩
  · apply String.toList_inj.mp
    rw [hsides]
    simp
  · rwa [String.toList_ofList]
  · rwa [String.toList_ofList]

theorem parse_of_cut {rule left right : String} (h : Cut rule left right) :
    parse rule = parseSides rule left right := by
  have hbefore : ∀ c ∈ left.toList, (c != arrow) = true := by
    intro c hc
    exact bne_iff_ne.mpr fun heq => h.left_clean (heq ▸ hc)
  have htake : rule.toList.takeWhile (· != arrow) = left.toList := by
    rw [h.toList, List.takeWhile_append_of_pos hbefore,
      List.takeWhile_cons_of_neg (by rw [bne_self_eq_false]; exact Bool.false_ne_true),
      List.append_nil]
  have hdrop : rule.toList.dropWhile (· != arrow) = arrow :: right.toList := by
    rw [h.toList, List.dropWhile_append_of_pos hbefore,
      List.dropWhile_cons_of_neg (by rw [bne_self_eq_false]; exact Bool.false_ne_true)]
  simp only [parse, h.count, if_true, htake, hdrop, List.drop_succ_cons, List.drop_zero,
    String.ofList_toList]

theorem arrow_notMem_text (s : Sentence) : arrow ∉ s.text.toList := by
  rw [Sentence.text, String.toList_ofList]
  intro hmem
  obtain ⟨c, -, hc⟩ := List.mem_map.mp hmem
  exact c.char_ne_arrow hc

theorem cut_text (s r : Sentence) :
    Cut (s.text ++ String.ofList [arrow] ++ r.text) s.text r.text :=
  ⟨rfl, arrow_notMem_text s, arrow_notMem_text r⟩

theorem text_eq (r : Rule) :
    r.text = Sentence.text [r.symbol] ++ String.ofList [arrow] ++ r.replacement.text := by
  apply String.toList_inj.mp
  simp [text, Sentence.text]

/-! ## What is read -/

theorem parseSides_text (rule : String) (c : Symbol) (s r : Sentence) :
    parseSides rule (Sentence.text (c :: s)) r.text =
      ⟨if s = [] then [] else [⟨rule, s.length + 1, c⟩], .ok ⟨c, r⟩⟩ := by
  rw [parseSides, Sentence.parse_text, Sentence.parse_text]
  cases s <;> rfl

/-- A text is written as a rule: a left side of commands, the first of which is expanded, an
arrow, and the replacement. -/
structure Writes (rule left right : String) (c : Symbol) (r : Sentence) : Prop where
  text : rule = left ++ String.ofList [arrow] ++ right
  left_spelled : Spelled left
  right_spelled : Spelled right
  first : (Text.characters left).head? = some c.letter
  replacement : r.text = right

theorem writes_text (c : Symbol) (s r : Sentence) :
    Writes (Sentence.text (c :: s) ++ String.ofList [arrow] ++ r.text) (Sentence.text (c :: s))
      r.text c r :=
  ⟨rfl, Sentence.spelled_text _, Sentence.spelled_text _,
    by rw [Sentence.characters_text, List.map_cons, List.head?_cons], rfl⟩

theorem Writes.exists_text {rule left right : String} {c : Symbol} {r : Sentence}
    (h : Writes rule left right c r) :
    ∃ s : Sentence, left = Sentence.text (c :: s) ∧ right = r.text ∧ Cut rule left right := by
  obtain ⟨s, rfl⟩ := Sentence.spelled_iff.mp h.left_spelled
  obtain rfl := h.replacement
  have hcut : Cut rule s.text r.text := h.text ▸ cut_text s r
  have hfirst := h.first
  rw [Sentence.characters_text] at hfirst
  cases s with
  | nil => cases hfirst
  | cons d s =>
    obtain rfl : d = c := Symbol.letter_injective (Option.some.inj hfirst)
    exact ⟨s, rfl, rfl, hcut⟩

theorem parse_of_writes {rule left right : String} {c : Symbol} {r : Sentence}
    (h : Writes rule left right c r) :
    parse rule = ⟨if 1 < (Text.characters left).length then
      [⟨rule, (Text.characters left).length, c⟩] else [], .ok ⟨c, r⟩⟩ := by
  obtain ⟨s, rfl, rfl, hcut⟩ := h.exists_text
  rw [parse_of_cut hcut, parseSides_text, Sentence.characters_text, List.length_map,
    List.length_cons]
  cases s <;> rfl

/-! ## What is reported -/

/-- Why a text is no rule.  Each complaint is made only where no earlier one is. -/
inductive Refuses (rule : String) : GrammarFault → Prop
  | arrows (h : rule.toList.count arrow ≠ 1) : Refuses rule (.arrowCount (Text.quoted rule))
  | left {left right c : String} {place : Nat} (h : Cut rule left right)
      (hleft : Stray left place c) : Refuses rule (.unknownSymbol c place left)
  | right {left right c : String} {place : Nat} (h : Cut rule left right)
      (hleft : Spelled left) (hright : Stray right place c) :
      Refuses rule (.unknownSymbol c place right)
  | emptyLeft {right : String} (h : Cut rule "" right) (hright : Spelled right) :
      Refuses rule (.emptyLeft rule)

theorem parse_of_refuses {rule : String} {fault : GrammarFault} (h : Refuses rule fault) :
    parse rule = .fail fault := by
  cases h with
  | arrows h => exact if_neg h
  | left h hleft => rw [parse_of_cut h, parseSides, Sentence.parse_of_stray hleft]
  | right h hleft hright =>
    obtain ⟨s, rfl⟩ := Sentence.spelled_iff.mp hleft
    rw [parse_of_cut h, parseSides, Sentence.parse_text, Sentence.parse_of_stray hright]
  | emptyLeft h hright =>
    obtain ⟨r, rfl⟩ := Sentence.spelled_iff.mp hright
    have hempty : Sentence.parse "" = .ok [] := rfl
    rw [parse_of_cut h, parseSides, hempty, Sentence.parse_text]

/-- Every text is a rule, or there is a complaint about it. -/
theorem exists_writes_or_refuses (rule : String) :
    (∃ left right c r, Writes rule left right c r) ∨ ∃ fault, Refuses rule fault := by
  by_cases hcount : rule.toList.count arrow = 1
  · obtain ⟨left, right, hcut⟩ := exists_cut hcount
    rcases Sentence.parse_cases left with ⟨s, rfl⟩ | ⟨place, c, hstray, -⟩
    · rcases Sentence.parse_cases right with ⟨r, rfl⟩ | ⟨place, c, hstray, -⟩
      · cases s with
        | nil => exact .inr ⟨_, .emptyLeft hcut r.spelled_text⟩
        | cons c s =>
          obtain rfl := hcut.text
          exact .inl ⟨_, _, _, _, writes_text c s r⟩
      · exact .inr ⟨_, .right hcut s.spelled_text hstray⟩
    · exact .inr ⟨_, .left hcut hstray⟩
  · exact .inr ⟨_, .arrows hcount⟩

/-- A text is read as a rule exactly when it is written as one, with a warning when its left side
has several symbols; of any other text the first complaint is reported, and nothing else. -/
theorem parse_exact (rule : String) :
    (∀ c r, (parse rule).result = .ok ⟨c, r⟩ ↔ ∃ left right, Writes rule left right c r) ∧
    (∀ left right c r, Writes rule left right c r → (parse rule).warnings =
      if 1 < (Text.characters left).length then
        [⟨rule, (Text.characters left).length, c⟩] else []) ∧
    (∀ fault, (parse rule).result = .error fault ↔ Refuses rule fault) ∧
    (∀ fault, Refuses rule fault → fault.isRefusal = true ∧ (parse rule).warnings = []) := by
  have hrefused : ∀ fault, Refuses rule fault → (parse rule).result = .error fault := by
    intro fault h
    rw [parse_of_refuses h]
    rfl
  have hread : ∀ left right c r, Writes rule left right c r →
      (parse rule).result = .ok ⟨c, r⟩ := by
    intro left right c r h
    rw [parse_of_writes h]
  refine ⟨?_, ?_, ?_, ?_⟩
  · intro c r
    refine ⟨?_, fun ⟨left, right, h⟩ => hread left right c r h⟩
    intro hok
    rcases exists_writes_or_refuses rule with ⟨left, right, c', r', h⟩ | ⟨fault, h⟩
    · obtain ⟨rfl, rfl⟩ : c' = c ∧ r' = r := by
        simpa using (hread _ _ _ _ h).symm.trans hok
      exact ⟨left, right, h⟩
    · cases (hrefused fault h).symm.trans hok
  · intro left right c r h
    rw [parse_of_writes h]
  · intro fault
    refine ⟨?_, hrefused fault⟩
    intro herror
    rcases exists_writes_or_refuses rule with ⟨left, right, c, r, h⟩ | ⟨fault', h⟩
    · cases (hread _ _ _ _ h).symm.trans herror
    · obtain rfl : fault' = fault := by
        simpa using (hrefused fault' h).symm.trans herror
      exact h
  · intro fault h
    refine ⟨?_, ?_⟩
    · cases h <;> rfl
    · rw [parse_of_refuses h]
      rfl

end Rule
end VoxelCurve
