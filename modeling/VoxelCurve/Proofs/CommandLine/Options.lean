import VoxelCurve.Proofs.CommandLine.Operand

/-!
Options that were given on a command line.

Every option that a word names is one of the form, and so is every option that is noted.  One that
excludes others is only noted while none of them is there, so at any time those that were given
are one and the same, though it may have been given several times.
-/

namespace VoxelCurve
namespace CommandLine

variable {f : Form}

/-! ## Options of the form -/

namespace Form

theorem mem_options_of_mem_byName {name : String} {o : OptionSpec} (h : (name, o) ∈ f.byName) :
    o ∈ f.options := by
  obtain ⟨o', ho', hname⟩ := List.mem_flatMap.mp h
  obtain ⟨name', -, hpair⟩ := List.mem_map.mp hname
  obtain ⟨-, rfl⟩ := Prod.mk.inj hpair
  exact ho'

theorem mem_options_of_find? {name : String} {o : OptionSpec} (h : f.find? name = some o) :
    o ∈ f.options := by
  obtain ⟨before, after, hsplit, -⟩ := List.lookup_eq_some_iff.mp h
  have hmem : (name, o) ∈ f.byName := by
    rw [hsplit]
    exact List.mem_append_right before List.mem_cons_self
  exact mem_options_of_mem_byName hmem

end Form

/-- Whether the option that a token names is one of the form. -/
def Token.IsOf (f : Form) : Token → Prop
  | option _ (some m) => m.option ∈ f.options
  | _ => True

theorem mem_options_of_named? {word : List Char} {m : Match} (h : named? f word = some m) :
    m.option ∈ f.options := by
  unfold named? at h
  dsimp only at h
  split at h
  · next found hfound =>
    obtain rfl := Option.some.inj h
    obtain ⟨o, ho, rfl⟩ := Option.map_eq_some_iff.mp hfound
    exact Form.mem_options_of_find? ho
  · split at h
    · cases h
    · obtain ⟨o, ho, rfl⟩ := Option.map_eq_some_iff.mp h
      exact Form.mem_options_of_find? ho

theorem mem_options_of_mem_candidates {word : List Char} {m : Match} (h : m ∈ candidates f word) :
    m.option ∈ f.options := by
  unfold candidates at h
  split at h
  · dsimp only at h
    obtain ⟨⟨name, o⟩, hmem, hm⟩ := List.mem_filterMap.mp h
    dsimp only at hm
    split at hm
    · obtain rfl := Option.some.inj hm
      exact Form.mem_options_of_mem_byName hmem
    · cases hm
  · obtain ⟨⟨name, o⟩, hmem, hm⟩ := List.mem_filterMap.mp h
    dsimp only at hm
    split at hm
    · obtain rfl := Option.some.inj hm
      exact Form.mem_options_of_mem_byName hmem
    · cases hm
  · exact absurd h List.not_mem_nil

theorem isOf_of_tokenOf {word : String} {t : Token} (h : tokenOf f word = .ok t) : t.IsOf f := by
  unfold tokenOf at h
  split at h
  · dsimp only at h
    split at h
    · next found hfound =>
      obtain rfl := Except.ok.inj h
      exact mem_options_of_named? hfound
    · split at h
      · next found hfound =>
        obtain rfl := Except.ok.inj h
        exact mem_options_of_mem_candidates (hfound ▸ List.mem_cons_self)
      · split at h <;> cases h <;> trivial
      · cases h
  · cases h
    trivial

theorem isOf_of_tokens {words : List String} {ts : List Token} (h : tokens f words = .ok ts) :
    ∀ t ∈ ts, t.IsOf f := by
  induction words generalizing ts with
  | nil =>
    cases h
    exact List.forall_mem_nil _
  | cons word rest ih =>
    rw [tokens] at h
    split at h
    · obtain rfl := Except.ok.inj h
      refine List.forall_mem_cons.mpr ⟨trivial, fun t ht => ?_⟩
      obtain ⟨w, -, rfl⟩ := List.mem_map.mp ht
      trivial
    · obtain ⟨t, ht, h⟩ := bind_eq_ok_iff.mp h
      obtain ⟨more, hmore, h⟩ := bind_eq_ok_iff.mp h
      obtain rfl := Except.ok.inj h
      exact List.forall_mem_cons.mpr ⟨isOf_of_tokenOf ht, ih hmore⟩

/-- What is taken from a word is of the form, and what is left was there before. -/
structure Bundle.IsOf (f : Form) (rest : List Token) (b : Bundle) : Prop where
  taken : ∀ t ∈ b.taken, t.option ∈ f.options
  rest : ∀ t ∈ b.rest, t ∈ rest

theorem isOf_of_bundleBare {o : OptionSpec} {name : String} {rest : List Token} {b : Bundle}
    (ho : o ∈ f.options) (h : bundleBare o name rest = .ok b) : b.IsOf f rest := by
  unfold bundleBare at h
  split at h
  · obtain rfl := Except.ok.inj h
    exact ⟨List.forall_mem_singleton.mpr ho, fun t ht => ht⟩
  · obtain rfl := Except.ok.inj h
    exact ⟨List.forall_mem_singleton.mpr ho, fun t ht => List.mem_cons_of_mem _ ht⟩
  · cases h

theorem isOf_of_bundleAttached {rest : List Token} {o : OptionSpec} {name : String}
    {value : List Char} {b : Bundle} (ho : o ∈ f.options)
    (h : bundleAttached f rest o name value = .ok b) : b.IsOf f rest := by
  induction value generalizing o name b with
  | nil =>
    unfold bundleAttached at h
    dsimp only at h
    split at h
    · obtain rfl := Except.ok.inj h
      exact ⟨List.forall_mem_singleton.mpr ho, fun t ht => ht⟩
    · split at h <;> cases h
  | cons c more ih =>
    unfold bundleAttached at h
    dsimp only at h
    split at h
    · obtain rfl := Except.ok.inj h
      exact ⟨List.forall_mem_singleton.mpr ho, fun t ht => ht⟩
    · split at h
      · split at h
        · cases h
        · next next hnext =>
          have hmem := Form.mem_options_of_find? hnext
          obtain ⟨others, hothers, rfl⟩ := map_eq_ok_iff.mp h
          have hisOf : others.IsOf f rest := by
            cases more with
            | nil => exact isOf_of_bundleBare hmem hothers
            | cons d value => exact ih hmem hothers
          exact ⟨List.forall_mem_cons.mpr ⟨ho, hisOf.taken⟩, hisOf.rest⟩
      · cases h

theorem isOf_of_bundle {m : Match} {rest : List Token} {b : Bundle} (hm : m.option ∈ f.options)
    (h : bundle f m rest = .ok b) : b.IsOf f rest := by
  unfold bundle at h
  split at h
  · exact isOf_of_bundleBare hm h
  · exact isOf_of_bundleAttached hm h

theorem mem_of_takeOperand? {operand : Operand} {ts rest : List Token} {words : List String}
    (h : takeOperand? operand ts = some (words, rest)) : ∀ t ∈ rest, t ∈ ts := by
  unfold takeOperand? at h
  split at h
  · cases h
    exact fun t ht => List.mem_cons_of_mem _ (List.mem_cons_of_mem _ ht)
  · cases h
    exact fun t ht => List.mem_cons_of_mem _ (List.mem_cons_of_mem _ ht)
  · cases h
    exact fun t ht => List.mem_cons_of_mem _ ht
  · cases h
    exact List.forall_mem_nil _
  · cases h
    exact List.forall_mem_nil _
  · cases h

/-! ## Options that exclude each other -/

namespace Parsed

/-- The options that were given are of the form, and those of them that exclude others are all the
same. -/
structure IsApart (f : Form) (p : Parsed) : Prop where
  options : ∀ g ∈ p.given, g.option ∈ f.options
  same : ∀ g ∈ p.given, ∀ h ∈ p.given, g.option.isExclusive = true → h.option.isExclusive = true →
    g.option = h.option

theorem IsApart.of_given_eq {p q : Parsed} (hp : p.IsApart f) (h : q.given = p.given) :
    q.IsApart f := by
  constructor
  · rw [h]
    exact hp.options
  · rw [h]
    exact hp.same

theorem isApart_empty : ({} : Parsed).IsApart f :=
  ⟨List.forall_mem_nil _, fun _ hg => absurd hg List.not_mem_nil⟩

/-- An option is noted behind the others if none of them excludes it. -/
theorem exists_of_take {p q : Parsed} {t : Taken} (h : p.take f t = .ok q) :
    ∃ argument, q = { p with given := p.given ++ [⟨t.option, t.name, argument⟩] } ∧
      p.conflict? f t.option = none := by
  unfold take at h
  split at h
  · cases h
  · dsimp only at h
    split at h
    all_goals
      obtain ⟨argument, -, h⟩ := bind_eq_ok_iff.mp h
      split at h
      · cases h
      · next hconflict =>
        cases h
        exact ⟨argument, rfl, hconflict⟩

theorem option_eq_of_conflict? {p : Parsed} (hp : p.IsApart f) {o : OptionSpec}
    (h : p.conflict? f o = none) {g : Given} (hg : g ∈ p.given) (ho : o.isExclusive = true)
    (hexclusive : g.option.isExclusive = true) : g.option = o := by
  rw [conflict?, if_pos ho, List.find?_eq_none] at h
  have hmem : g.option ∈ f.exclusive := List.mem_filter.mpr ⟨hp.options g hg, hexclusive⟩
  by_contra hne
  refine h g.option hmem ?_
  rw [Bool.and_eq_true, bne_iff_ne, List.any_eq_true]
  exact ⟨hne, g, hg, beq_self_eq_true g.option⟩

/-- One more option leaves them apart. -/
theorem IsApart.take {p q : Parsed} (hp : p.IsApart f) {t : Taken} (ht : t.option ∈ f.options)
    (h : p.take f t = .ok q) : q.IsApart f := by
  obtain ⟨argument, rfl, hconflict⟩ := exists_of_take h
  constructor
  case options =>
    intro g hg
    obtain hg | hg := List.mem_append.mp hg
    · exact hp.options g hg
    · obtain rfl := List.mem_singleton.mp hg
      exact ht
  case same =>
    intro g hg g' hg' hexclusive hexclusive'
    obtain hg | hg := List.mem_append.mp hg <;> obtain hg' | hg' := List.mem_append.mp hg'
    · exact hp.same g hg g' hg' hexclusive hexclusive'
    · obtain rfl := List.mem_singleton.mp hg'
      exact option_eq_of_conflict? hp hconflict hg hexclusive' hexclusive
    · obtain rfl := List.mem_singleton.mp hg
      exact (option_eq_of_conflict? hp hconflict hg' hexclusive hexclusive').symm
    · rw [List.mem_singleton.mp hg, List.mem_singleton.mp hg']

theorem IsApart.foldlM_take {p q : Parsed} (hp : p.IsApart f) {ts : List Taken}
    (hts : ∀ t ∈ ts, t.option ∈ f.options) (h : ts.foldlM (Parsed.take f) p = .ok q) :
    q.IsApart f := by
  induction ts generalizing p with
  | nil =>
    cases h
    exact hp
  | cons t ts ih =>
    obtain ⟨ht, hrest⟩ := List.forall_mem_cons.mp hts
    rw [List.foldlM_cons] at h
    obtain ⟨p', hp', h⟩ := bind_eq_ok_iff.mp h
    exact ih (hp.take ht hp') hrest h

/-- Reading tokens to the end leaves the options apart. -/
theorem IsApart.readTokens {p q : Parsed} (hp : p.IsApart f) {fuel : Nat} {ts : List Token}
    (hts : ∀ t ∈ ts, t.IsOf f) (h : CommandLine.readTokens f fuel ts p = .ok q) : q.IsApart f := by
  induction fuel generalizing ts p with
  | zero =>
    cases h
    exact hp
  | succ fuel ih =>
    cases ts with
    | nil =>
      cases h
      exact hp
    | cons t rest =>
      obtain ⟨ht, hrest⟩ := List.forall_mem_cons.mp hts
      cases t with
      | option word found? =>
        cases found? with
        | none =>
          simp only [CommandLine.readTokens] at h
          refine ih ?_ hrest h
          exact hp.of_given_eq rfl
        | some m =>
          obtain ⟨b, hb, h⟩ := bind_eq_ok_iff.mp h
          obtain ⟨p', hp', h⟩ := bind_eq_ok_iff.mp h
          have hisOf := isOf_of_bundle ht (mapError_eq_ok_iff.mp hb)
          exact ih (hp.foldlM_take hisOf.taken hp') (fun t ht => hrest t (hisOf.rest t ht)) h
      | plain _ | separator =>
        simp only [CommandLine.readTokens] at h
        split at h
        · next hoperand =>
          refine ih ?_ (fun t ht => hts t (mem_of_takeOperand? hoperand t ht)) h
          exact hp.of_given_eq rfl
        · refine ih ?_ hrest h
          exact hp.of_given_eq rfl

theorem eq_of_checkComplete {p q : Parsed} (h : checkComplete f q = .ok p) : p = q := by
  unfold checkComplete at h
  split at h
  · cases h
  · cases h
  · split at h
    · cases h
    · exact (Except.ok.inj h).symm

theorem isApart_of_read {words : List String} {p : Parsed} (h : read f words = .ok p) :
    p.IsApart f := by
  obtain ⟨ts, q, hts, hq, hp⟩ := read_eq_ok_iff.mp h
  obtain rfl := eq_of_checkComplete hp
  exact isApart_empty.readTokens (isOf_of_tokens hts) hq

theorem exists_given_of_value? {p : Parsed} {name : String} {a : Argument}
    (h : p.value? name = some a) : ∃ g ∈ p.given, g.option.names.contains name = true := by
  obtain ⟨g, hg, -⟩ := List.mem_map.mp (List.mem_of_getLast? h)
  exact ⟨g, List.mem_filter.mp hg⟩

/-- Only one of the options that exclude each other has a value. -/
theorem IsApart.option_eq {p : Parsed} (hp : p.IsApart f) {name name' : String}
    (hname : ∀ o ∈ f.options, o.names.contains name = true → o.isExclusive = true)
    (hname' : ∀ o ∈ f.options, o.names.contains name' = true → o.isExclusive = true)
    {a a' : Argument} (h : p.value? name = some a) (h' : p.value? name' = some a') :
    ∃ o ∈ f.options, o.names.contains name = true ∧ o.names.contains name' = true := by
  obtain ⟨g, hg, hgname⟩ := exists_given_of_value? h
  obtain ⟨g', hg', hgname'⟩ := exists_given_of_value? h'
  have hoption := hp.options g hg
  have hsame := hp.same g hg g' hg' (hname _ hoption hgname)
    (hname' _ (hp.options g' hg') hgname')
  exact ⟨g.option, hoption, hgname, hsame ▸ hgname'⟩

end Parsed

end CommandLine
end VoxelCurve
