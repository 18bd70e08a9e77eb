import VoxelCurve.CommandLine.Execution
import VoxelCurve.Proofs.Grammar.Refusal
import VoxelCurve.Proofs.Json.Limits
import VoxelCurve.Proofs.Text.Whole

/-!
Documents that are grammars, and files that are loaded as one.

A document is a grammar just when its three fields are there, each of its type, and its sentence and
its rules are well formed.  Whatever else is in a file is complained about by the rules of grammars,
with one exception: where the reader of documents meets one of its limits, there is no document to
complain about, and the limit comes through.
-/

namespace VoxelCurve

/-- Whether a text is a rule: a left side of commands that is not empty, an arrow, and commands
again. -/
def Rule.IsWellFormed (text : String) : Prop :=
  ∃ left right, text = left ++ String.ofList [arrow] ++ right ∧ left ≠ "" ∧ Spelled left ∧
    Spelled right

theorem Rule.isWellFormed_iff {text : String} :
    IsWellFormed text ↔ ∃ left right c r, Writes text left right c r := by
  constructor
  · rintro ⟨left, right, rfl, hne, hleft, hright⟩
    obtain ⟨s, rfl⟩ := Sentence.spelled_iff.mp hleft
    obtain ⟨r, rfl⟩ := Sentence.spelled_iff.mp hright
    cases s with
    | nil => exact absurd rfl hne
    | cons c s => exact ⟨_, _, c, r, writes_text c s r⟩
  · rintro ⟨left, right, c, r, h⟩
    refine ⟨left, right, h.text, ?_, h.left_spelled, h.right_spelled⟩
    rintro rfl
    cases h.first

namespace Productions

theorem Written.isWellFormed {texts : List String} {rules : List Rule}
    {warnings : List AmbiguousRule} (h : Written texts rules warnings) :
    ∀ text ∈ texts, Rule.IsWellFormed text := by
  induction h with
  | nil => exact List.forall_mem_nil _
  | single h _ _ ih =>
    exact List.forall_mem_cons.mpr ⟨Rule.isWellFormed_iff.mpr ⟨_, _, _, _, h⟩, ih⟩
  | several h _ _ ih =>
    exact List.forall_mem_cons.mpr ⟨Rule.isWellFormed_iff.mpr ⟨_, _, _, _, h⟩, ih⟩

theorem exists_parse_iff {texts : List String} :
    (∃ p, (parse texts).result = .ok p) ↔ ∀ text ∈ texts, Rule.IsWellFormed text := by
  rcases written_or_refused texts with ⟨rules, warnings, hwritten⟩ | ⟨before, text, after, rules,
    warnings, fault, rfl, hbefore, hrefuses⟩
  · refine iff_of_true ⟨ofRules rules, ?_⟩ hwritten.isWellFormed
    rw [parse_of_written hwritten]
  · refine iff_of_false ?_ fun hall => ?_
    · rintro ⟨p, hp⟩
      rw [parse_of_refused hbefore hrefuses] at hp
      cases hp
    · have htext := hall text (List.mem_append_right before List.mem_cons_self)
      obtain ⟨left, right, c, r, hwrites⟩ := Rule.isWellFormed_iff.mp htext
      have hresult := congrArg Reading.result (Rule.parse_of_writes hwrites)
      rw [Rule.parse_of_refuses hrefuses] at hresult
      cases hresult

end Productions

theorem Reading.result_andThen_eq_ok_iff {α β : Type} {r : Reading α} {next : α → Reading β}
    {b : β} :
    (r.andThen next).result = .ok b ↔ ∃ a, r.result = .ok a ∧ (next a).result = .ok b := by
  obtain ⟨warnings, fault | a⟩ := r
  · simp [andThen]
  · simp [andThen]

namespace LSystem

theorem exists_ofTexts_iff {name start : String} {rules : List String} :
    (∃ g, (ofTexts name start rules).result = .ok g) ↔
      Spelled start ∧ ∀ rule ∈ rules, Rule.IsWellFormed rule := by
  rw [← Productions.exists_parse_iff, Sentence.spelled_iff]
  simp only [ofTexts, Reading.result_andThen_eq_ok_iff]
  constructor
  · rintro ⟨g, s, hs, p, hp, -⟩
    exact ⟨⟨s, Sentence.parse_eq_ok_iff.mp hs⟩, p, hp⟩
  · rintro ⟨⟨s, hs⟩, p, hp⟩
    exact ⟨_, s, Sentence.parse_eq_ok_iff.mpr hs, p, hp, rfl⟩

theorem texts?_eq_some_iff {items : List Value} {texts : List String} :
    texts? items = some texts ↔ items = texts.map .text := by
  refine ⟨fun h => ?_, fun h => h ▸ texts?_map_text texts⟩
  induction items generalizing texts with
  | nil =>
    cases h
    rfl
  | cons v items ih =>
    simp only [texts?, List.mapM_cons, Option.bind_eq_bind, Option.bind_eq_some_iff] at h
    obtain ⟨text, htext, rest, hrest, h⟩ := h
    cases h
    split at htext
    · cases htext
      rw [ih hrest]
      rfl
    · cases htext

/-- Whether a document is that of a grammar. -/
def IsDocument (v : Value) : Prop :=
  ∃ (fields : Fields) (name start : String) (rules : List String), v = .object fields ∧
    fields.get? "name" = some (.text name) ∧ fields.get? "axiom" = some (.text start) ∧
    fields.get? "productions" = some (.list (rules.map .text)) ∧
    Spelled start ∧ ∀ rule ∈ rules, Rule.IsWellFormed rule

theorem exists_ofValue_iff {v : Value} : (∃ g, (ofValue v).result = .ok g) ↔ IsDocument v := by
  constructor
  · rintro ⟨g, hg⟩
    unfold ofValue at hg
    split at hg
    · next fields =>
      unfold ofFields at hg
      split at hg
      · next name start items hname hstart hitems =>
        split at hg
        · next rules hrules =>
          rw [texts?_eq_some_iff.mp hrules] at hitems
          have hparts := exists_ofTexts_iff.mp ⟨g, hg⟩
          exact ⟨fields, name, start, rules, rfl, hname, hstart, hitems, hparts⟩
        · cases hg
      all_goals cases hg
    · cases hg
  · rintro ⟨fields, name, start, rules, rfl, hname, hstart, hitems, hparts⟩
    show ∃ g, (ofFields fields).result = .ok g
    rw [ofFields_of_get? hname hstart hitems (texts?_map_text rules)]
    exact exists_ofTexts_iff.mpr hparts

end LSystem

namespace CommandLine

/-- Whether loading ended in a grammar, or in a complaint by the rules of grammars. -/
def Settles (load : CommandScript LSystem) : Prop :=
  (∃ g, load.result = .ok g) ∨
    ∃ fault, load.result = .error (.grammar fault) ∧ fault.isRefusal = true

theorem settles_loadGrammar_iff {m : Machine} {bytes : List UInt8} {p : Path} :
    Settles (loadGrammar m (fun _ => .ok bytes) p) ↔
      Json.readBytes m.readingDepth bytes ≠ .error .tooDeep ∧
        Json.readBytes m.readingDepth bytes ≠ .error .integerTooLong := by
  rw [loadGrammar]
  dsimp only
  cases hbytes : LSystem.ofBytes m.readingDepth bytes p.text with
  | error limit =>
    obtain ⟨hlimit, hnotText, hmalformed⟩ := LSystem.ofBytes_eq_error_iff.mp hbytes
    refine iff_of_false ?_ ?_
    · rintro (⟨g, hg⟩ | ⟨fault, hfault, -⟩)
      · cases hg
      · cases hfault
    · rintro ⟨hdeep, hlong⟩
      rw [hlimit] at hdeep hlong
      cases limit with
      | notText => exact hnotText rfl
      | malformed => exact hmalformed rfl
      | integerTooLong => exact hlong rfl
      | tooDeep => exact hdeep rfl
  | ok reading =>
    refine iff_of_true ?_ ⟨fun hdeep => ?_, fun hlong => ?_⟩
    · cases hresult : reading.result with
      | ok g =>
        refine .inl ⟨g, ?_⟩
        show reading.result.mapError CommandFault.grammar = _
        rw [hresult]
        rfl
      | error fault =>
        refine .inr ⟨fault, ?_, LSystem.isRefusal_of_ofBytes hbytes hresult⟩
        show reading.result.mapError CommandFault.grammar = _
        rw [hresult]
        rfl
    · cases hbytes.symm.trans (LSystem.ofBytes_eq_error_iff.mpr
        ⟨hdeep, fun e => (nomatch e), fun e => nomatch e⟩)
    · cases hbytes.symm.trans (LSystem.ofBytes_eq_error_iff.mpr
        ⟨hlong, fun e => (nomatch e), fun e => nomatch e⟩)

/-- Whatever bytes are in a file, loading it ends in a grammar or in a complaint by the rules of
grammars, unless the reader of documents meets one of its limits, and it meets none in a text that
opens few lists and objects and has no long run of digits.  And a grammar is read of the documents
that are one, and of no others. -/
theorem loadGrammar_settles_iff (m : Machine) (bytes : List UInt8) (p : Path) :
    (Settles (loadGrammar m (fun _ => .ok bytes) p) ↔
      Json.readBytes m.readingDepth bytes ≠ .error .tooDeep ∧
        Json.readBytes m.readingDepth bytes ≠ .error .integerTooLong) ∧
    ((∀ text, Text.ofUtf8? bytes = some text →
      Json.openings text.toList ≤ m.readingDepth ∧ ¬Json.HasLongRun text.toList) →
        Settles (loadGrammar m (fun _ => .ok bytes) p)) ∧
    ∀ v, (∃ g, (LSystem.ofValue v).result = .ok g) ↔ LSystem.IsDocument v :=
  ⟨settles_loadGrammar_iff, fun h => settles_loadGrammar_iff.mpr (Json.readBytes_ne_limit h),
    fun _ => LSystem.exists_ofValue_iff⟩

/-- An integer of one digit more than is read. -/
def longInteger : List Char :=
  List.replicate (Decimal.maxIntegerDigits + 1) '1'

/-- Nothing that a machine could have makes such an integer readable. -/
theorem not_settles_longInteger :
    ¬∃ m, Settles (loadGrammar m (fun _ => .ok (Text.utf8 (String.ofList longInteger)))
      ⟨.working, ["g.json"]⟩) := by
  intro ⟨m, h⟩
  have hdigits : ∀ c ∈ longInteger, c = '1' := fun c => List.eq_of_mem_replicate
  have hencodable : [String.ofList longInteger].all Text.isEncodable = true := by
    rw [List.all_cons, List.all_nil, Bool.and_true]
    refine Text.isEncodable_of_whole (Text.whole_of_forall fun c hc => ?_)
    rw [String.toList_ofList] at hc
    rw [hdigits c hc]
    decide +kernel
  have htext := Text.ofUtf8?_flatMap_utf8 hencodable
  rw [List.flatMap_singleton, String.join_cons, String.join_nil, String.append_empty] at htext
  have hread : Json.readBytes m.readingDepth (Text.utf8 (String.ofList longInteger)) =
      .error .integerTooLong := by
    rw [Json.readBytes, htext]
    refine Json.read_of_digits _ (List.cons_ne_nil _ _) (by decide) (fun c hc => ?_) ?_
    · rw [hdigits c hc]
      rfl
    · rw [longInteger, List.length_replicate]
      exact Nat.lt_succ_self _
  exact (settles_loadGrammar_iff.mp h).2 hread

end CommandLine
end VoxelCurve
