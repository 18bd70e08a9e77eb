import VoxelCurve.CommandLine.Command
import VoxelCurve.Proofs.Success

/-!
Words that stand by themselves on a command line.

A token remembers the word it was made from, and an option never becomes an operand.  So the word
behind the name of a command is what the command is about exactly when the form of the command
lets it stand by itself (`request_inspect_eq_ok_iff`).  Any word that does not start with a hyphen
does.
-/

namespace VoxelCurve
namespace CommandLine

variable {f : Form}

/-! ## Tokens and their words -/

theorem word_of_tokenOf {word : String} {t : Token} (h : tokenOf f word = .ok t) :
    takeOperand?.word t = word := by
  unfold tokenOf at h
  split at h
  · simp only at h
    split at h
    · cases h
      rfl
    · split at h
      · cases h
        rfl
      · split at h
        · cases h
          rfl
        · cases h
          rfl
      · cases h
  · cases h
    rfl

theorem map_word_of_tokens {words : List String} {ts : List Token} (h : tokens f words = .ok ts) :
    ts.map takeOperand?.word = words := by
  induction words generalizing ts with
  | nil =>
    cases h
    rfl
  | cons word rest ih =>
    rw [tokens] at h
    split at h
    · next hseparator =>
      cases h
      rw [List.map_cons, List.map_map, hseparator]
      exact congrArg _ (List.map_id rest)
    · obtain ⟨t, ht, h⟩ := bind_eq_ok_iff.mp h
      obtain ⟨more, hmore, h⟩ := bind_eq_ok_iff.mp h
      cases h
      rw [List.map_cons, word_of_tokenOf ht, ih hmore]

theorem tokens_singleton_eq_ok_iff {word : String} {ts : List Token} :
    tokens f [word] = .ok ts ↔
      word = "--" ∧ ts = [.separator] ∨
        word ≠ "--" ∧ ∃ t, tokenOf f word = .ok t ∧ ts = [t] := by
  rw [tokens]
  by_cases hseparator : word = "--"
  · rw [if_pos hseparator]
    simp only [hseparator, List.map_nil, Except.ok.injEq, true_and, ne_eq, not_true_eq_false,
      false_and, or_false]
    exact eq_comm
  · rw [if_neg hseparator, bind_eq_ok_iff]
    simp only [hseparator, false_and, false_or, ne_eq, not_false_eq_true, true_and]
    refine exists_congr fun t => and_congr_right fun _ => ?_
    rw [bind_eq_ok_iff]
    simp only [tokens, Except.ok.injEq, exists_eq_left']
    exact eq_comm

/-! ## Options are no operands -/

theorem operand?_of_take {p q : Parsed} {t : Taken} (h : p.take f t = .ok q) :
    q.operand? = p.operand? := by
  unfold Parsed.take at h
  split at h
  · cases h
  · dsimp only at h
    split at h
    · obtain ⟨argument, -, h⟩ := bind_eq_ok_iff.mp h
      split at h
      · cases h
      · cases h
        rfl
    · obtain ⟨argument, -, h⟩ := bind_eq_ok_iff.mp h
      split at h
      · cases h
      · cases h
        rfl

theorem operand?_of_foldlM_take {p q : Parsed} {ts : List Taken}
    (h : ts.foldlM (Parsed.take f) p = .ok q) : q.operand? = p.operand? := by
  induction ts generalizing p with
  | nil =>
    cases h
    rfl
  | cons t ts ih =>
    rw [List.foldlM_cons] at h
    obtain ⟨p', ht, h⟩ := bind_eq_ok_iff.mp h
    rw [ih h, operand?_of_take ht]

/-! ## The operand of a single word -/

theorem read_eq_ok_iff {words : List String} {p : Parsed} :
    read f words = .ok p ↔ ∃ ts q, tokens f words = .ok ts ∧
      readTokens f ts.length ts {} = .ok q ∧ checkComplete f q = .ok p := by
  have hread : read f words = .ok p ↔ (do
      let ts ← (tokens f words).mapError Halt.fault
      let q ← readTokens f ts.length ts {}
      (checkComplete f q).mapError .fault) = .ok p := by
    unfold read
    dsimp only
    split
    · next q hq => rw [hq, Except.ok.injEq, Except.ok.injEq]
    · next hq => rw [hq]; simp only [reduceCtorEq]
    · next fault hq => rw [hq]; simp only [reduceCtorEq]
  rw [hread]
  simp only [bind_eq_ok_iff, mapError_eq_ok_iff]
  constructor
  · intro h
    obtain ⟨ts, hts, q, hq, hp⟩ := h
    exact ⟨ts, q, hts, hq, hp⟩
  · intro h
    obtain ⟨ts, q, hts, hq, hp⟩ := h
    exact ⟨ts, hts, q, hq, hp⟩

section One

variable {name : String} (hf : f.operand = .one name)

include hf

theorem readTokens_plain (word : String) :
    readTokens f 1 [.plain word] {} = .ok { operand? := some [word] } := by
  simp only [readTokens, hf, takeOperand?]

/-- A lone token that is no word by itself leaves a form without its operand. -/
theorem operand?_of_readTokens {t : Token} (ht : ∀ word, t ≠ .plain word) {p : Parsed}
    (h : readTokens f 1 [t] {} = .ok p) : p.operand? = none := by
  cases t with
  | plain word => exact absurd rfl (ht word)
  | separator =>
    simp only [readTokens, hf, takeOperand?] at h
    cases h
    rfl
  | option word found? =>
    cases found? with
    | none =>
      simp only [readTokens] at h
      cases h
      rfl
    | some found =>
      simp only [readTokens] at h
      obtain ⟨b, -, h⟩ := bind_eq_ok_iff.mp h
      obtain ⟨p', htake, h⟩ := bind_eq_ok_iff.mp h
      cases h
      exact operand?_of_foldlM_take htake

variable (hexclusive : f.exclusive = [])

include hexclusive

theorem checkComplete_eq_ok_iff {p q : Parsed} :
    checkComplete f q = .ok p ↔ q.operand? ≠ none ∧ p = q := by
  rw [checkComplete, hf, hexclusive]
  cases q.operand? with
  | none => simp only [reduceCtorEq, ne_eq, not_true_eq_false, false_and]
  | some words =>
    simp only [List.isEmpty_nil, Bool.not_true, Bool.false_and, Bool.false_eq_true, if_false,
      Except.ok.injEq, reduceCtorEq, ne_eq, not_false_eq_true, true_and]
    exact eq_comm

/-- Where a single word has to be there and nothing else, it is read if it stands by itself. -/
theorem read_singleton_eq_ok_iff {word : String} {p : Parsed} :
    read f [word] = .ok p ↔
      word ≠ "--" ∧ tokenOf f word = .ok (.plain word) ∧ p = { operand? := some [word] } := by
  simp only [read_eq_ok_iff, tokens_singleton_eq_ok_iff, checkComplete_eq_ok_iff hf hexclusive]
  constructor
  · intro h
    obtain ⟨ts, q, ⟨-, rfl⟩ | ⟨hne, t, ht, rfl⟩, hq, hsome, rfl⟩ := h
    · exact absurd (operand?_of_readTokens hf (fun _ => Token.noConfusion) hq) hsome
    · by_cases hplain : ∃ word', t = .plain word'
      · obtain ⟨word', rfl⟩ := hplain
        obtain rfl : word' = word := word_of_tokenOf ht
        rw [List.length_singleton, readTokens_plain hf] at hq
        cases hq
        exact ⟨hne, ht, rfl⟩
      · exact absurd (operand?_of_readTokens hf (not_exists.mp hplain) hq) hsome
  · intro h
    obtain ⟨hne, ht, rfl⟩ := h
    exact ⟨_, _, .inr ⟨hne, _, ht, rfl⟩, readTokens_plain hf word, by simp, rfl⟩

end One

/-! ## The word behind a command -/

theorem tokenOf_of_head?_ne (f : Form) {word : String} (h : word.toList.head? ≠ some '-') :
    tokenOf f word = .ok (.plain word) := by
  unfold tokenOf
  split
  · next hword =>
    rw [hword] at h
    exact absurd rfl h
  · rfl

/-- The name of a command takes all words behind it, whatever they are. -/
theorem read_main_eq_ok_iff {name : String} (hname : name.toList.head? ≠ some '-')
    {words : List String} {p : Parsed} :
    read Form.main (name :: words) = .ok p ↔
      (∃ ts, tokens Form.main words = .ok ts) ∧ p = { operand? := some (name :: words) } := by
  have hne : name ≠ "--" := by
    intro h
    subst h
    exact hname rfl
  have hread : ∀ ts, tokens Form.main words = .ok ts →
      readTokens Form.main (ts.length + 1) (.plain name :: ts) {} =
        .ok { operand? := some (name :: words) } := by
    intro ts hts
    have hwords := map_word_of_tokens hts
    rw [← hwords]
    simp only [readTokens, Form.main, takeOperand?]
    cases ts.length <;> rfl
  rw [read_eq_ok_iff, tokens, if_neg hne, tokenOf_of_head?_ne _ hname]
  constructor
  · intro h
    obtain ⟨ts, q, hts, hq, hp⟩ := h
    obtain ⟨t, ht, hts⟩ := bind_eq_ok_iff.mp hts
    obtain ⟨more, hmore, hts⟩ := bind_eq_ok_iff.mp hts
    cases ht
    cases hts
    rw [List.length_cons, hread more hmore] at hq
    cases hq
    cases hp
    exact ⟨⟨more, hmore⟩, rfl⟩
  · intro h
    obtain ⟨⟨more, hmore⟩, rfl⟩ := h
    exact ⟨.plain name :: more, _, by rw [hmore]; rfl, hread more hmore, rfl⟩

/-- Whether a word can stand behind the command that summarizes, as the file it is about. -/
structure NamesFile (word : String) : Prop where
  ne_separator : word ≠ "--"
  /-- it is not the beginning of several options of the program -/
  exists_token : ∃ t, tokenOf Form.main word = .ok t
  isPlain : tokenOf Form.inspect word = .ok (.plain word)

theorem namesFile_of_head?_ne {word : String} (h : word.toList.head? ≠ some '-') :
    NamesFile word := by
  refine ⟨?_, ⟨_, tokenOf_of_head?_ne _ h⟩, tokenOf_of_head?_ne _ h⟩
  intro hseparator
  subst hseparator
  exact h rfl

theorem request_inspect_eq_ok_iff {word : String} {r : Request} :
    request ["inspect", word] = .ok r ↔ NamesFile word ∧ r = ⟨0, .inspect word⟩ := by
  have hmain : ∀ {p}, read Form.main ["inspect", word] = .ok p ↔ _ :=
    read_main_eq_ok_iff (show "inspect".toList.head? ≠ some '-' by decide)
  have hinspect : ∀ {p}, read Form.inspect [word] = .ok p ↔ _ :=
    read_singleton_eq_ok_iff (show Form.inspect.operand = .one "path" from rfl) rfl
  have hlookup : Form.commands.lookup "inspect" = some Form.inspect := rfl
  have htokens : (∃ ts, tokens Form.main [word] = .ok ts) ↔
      word = "--" ∨ ∃ t, tokenOf Form.main word = .ok t := by
    simp only [tokens_singleton_eq_ok_iff]
    by_cases hne : word = "--"
    · simp only [hne, true_and, true_or, iff_true]
      exact ⟨_, .inl rfl⟩
    · simp only [hne, false_and, false_or, ne_eq, not_false_eq_true, true_and]
      rw [exists_comm]
      exact exists_congr fun t => exists_and_left.trans (and_iff_left ⟨_, rfl⟩)
  rw [request, bind_eq_ok_iff]
  simp only [hmain, htokens]
  constructor
  · intro h
    obtain ⟨p, ⟨hts, rfl⟩, h⟩ := h
    simp only [Option.getD_some, hlookup, bind_eq_ok_iff, hinspect] at h
    obtain ⟨p, ⟨hne, hplain, rfl⟩, h⟩ := h
    exact ⟨⟨hne, hts.resolve_left hne, hplain⟩, (Except.ok.inj h).symm⟩
  · intro h
    obtain ⟨h, rfl⟩ := h
    refine ⟨_, ⟨.inr h.exists_token, rfl⟩, ?_⟩
    simp only [Option.getD_some, hlookup, bind_eq_ok_iff, hinspect]
    exact ⟨_, ⟨h.ne_separator, h.isPlain, rfl⟩, rfl⟩

end CommandLine
end VoxelCurve
