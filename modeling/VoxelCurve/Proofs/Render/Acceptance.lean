import VoxelCurve.Proofs.Render.Validation

/-!
Which values settings may have.

A setting may be given any value.  Those that are wanted are kept, and of the others most are
refused by the rules of settings.  A check breaks off without either where it cannot even look at a
value: a measure that is no number or is beyond all floats, a directory that is no path, and a count
with an integer in it that a complaint cannot show.
-/

namespace VoxelCurve

open CommandLine (isRefusedSetting)
open Rounding

namespace Setting

/-- Whether a value is of the kind. -/
def Kind.Accepts (v : Value) : Kind → Prop
  | path => ∃ text, v = .text text
  | switch => True
  | k => ∃ n : Number, v = n.toValue ∧ k.Admits n

/-- Whether the check of the kind breaks off at a value. -/
def Kind.BreaksOffAt (v : Value) : Kind → Prop
  | length => ¬length.Accepts v ∧ v.isShowable = false
  | side => ¬side.Accepts v ∧ v.isShowable = false
  | measure => v.number? = none ∨ ∃ i, v = .int i ∧ overflow ≤ i.natAbs
  | path => ∀ text, v ≠ .text text
  | switch => False

/-- What becomes of a value that is given for a setting. -/
inductive Ruling (s : Setting) (v : Value) : Prop where
  | kept (haccepts : s.kind.Accepts v) (hsafe : ¬s.kind.BreaksOffAt v) (w : Value)
      (h : s.check v = .ok w) (hsame : s.kind ≠ .path → w = v)
  | refused (hrejects : ¬s.kind.Accepts v) (hsafe : ¬s.kind.BreaksOffAt v) (fault : SettingsFault)
      (h : s.check v = .error fault) (hrefused : isRefusedSetting fault = true)
  | broken (hbreaks : s.kind.BreaksOffAt v) (fault : SettingsFault)
      (h : s.check v = .error fault) (hrefused : isRefusedSetting fault = false)

variable {s : Setting} {v : Value}

theorem kind_of_mem_numeric (hs : s ∈ numeric) :
    s.kind = .length ∨ s.kind = .side ∨ s.kind = .measure := by
  revert s
  decide

/-! ## Numbers -/

theorem accepts_toValue_iff (hs : s ∈ numeric) {n : Number} :
    s.kind.Accepts n.toValue ↔ s.kind.Admits n := by
  have hsame : ∀ {p : Number → Prop}, (∃ m : Number, n.toValue = m.toValue ∧ p m) ↔ p n := by
    intro p
    refine ⟨?_, fun h => ⟨n, rfl, h⟩⟩
    rintro ⟨m, hm, h⟩
    exact Settings.toValue_injective hm ▸ h
  rcases kind_of_mem_numeric hs with hkind | hkind | hkind <;>
    (rw [hkind]; exact hsame)

theorem breaksOffAt_toValue_iff (hs : s ∈ numeric) {n : Number} :
    s.kind.BreaksOffAt n.toValue ↔ s.kind.StumblesOver n := by
  have haccepts : s.kind.Accepts n.toValue ↔ s.kind.Admits n := accepts_toValue_iff hs
  rcases kind_of_mem_numeric hs with hkind | hkind | hkind
  all_goals
    rw [hkind] at haccepts ⊢
    simp only [Kind.BreaksOffAt, haccepts]
    cases n <;>
      simp [Kind.StumblesOver, Kind.Admits, Number.toValue, Value.isShowable, Value.number?]

theorem ruling_toValue (hs : s ∈ numeric) (n : Number) : s.Ruling n.toValue := by
  cases verdict hs n with
  | kept hadmits hsafe h =>
    exact .kept ((accepts_toValue_iff hs).mpr hadmits)
      (fun hbreaks => hsafe ((breaksOffAt_toValue_iff hs).mp hbreaks)) _ h fun _ => rfl
  | refused hadmits hsafe fault h hnames =>
    exact .refused (fun haccepts => hadmits ((accepts_toValue_iff hs).mp haccepts))
      (fun hbreaks => hsafe ((breaksOffAt_toValue_iff hs).mp hbreaks)) fault h hnames.1
  | broken hstumbles reason h =>
    exact .broken ((breaksOffAt_toValue_iff hs).mpr hstumbles) _ h rfl

/-! ## Other values -/

theorem exists_number_of_accepts (hs : s ∈ numeric) (h : s.kind.Accepts v) :
    ∃ n : Number, v = n.toValue := by
  rcases kind_of_mem_numeric hs with hkind | hkind | hkind <;>
  · rw [hkind] at h
    obtain ⟨n, hn, -⟩ := h
    exact ⟨n, hn⟩

theorem not_accepts_of_number? (hs : s ∈ numeric) (h : v.number? = none) :
    ¬s.kind.Accepts v := by
  intro haccepts
  obtain ⟨n, rfl⟩ := exists_number_of_accepts hs haccepts
  cases n <;> cases h

/-- What is refused is complained about if it can be shown. -/
theorem ruling_of_refuse {α : Type} {f : α → Value} {name : String} {fault : SettingsFault}
    (hrejects : ¬s.kind.Accepts v) (hbreaks : s.kind.BreaksOffAt v ↔ v.isShowable = false)
    (h : s.check v = f <$> Settings.refuse name v fault)
    (hrefused : isRefusedSetting fault = true) : s.Ruling v := by
  rw [Settings.refuse] at h
  cases hshowable : v.isShowable with
  | true =>
    rw [hshowable] at h hbreaks
    exact .refused hrejects (fun hb => nomatch hbreaks.mp hb) fault h hrefused
  | false =>
    rw [hshowable] at h hbreaks
    exact .broken (hbreaks.mpr rfl) _ h rfl

theorem ruling_of_number? (hs : s ∈ numeric) (h : v.number? = none) : s.Ruling v := by
  have hrejects := not_accepts_of_number? hs h
  rcases kind_of_mem_numeric hs with hkind | hkind | hkind
  · have hbreaks : s.kind.BreaksOffAt v ↔ v.isShowable = false := by
      rw [hkind] at hrejects ⊢
      exact and_iff_right hrejects
    have hcheck : s.check v = (fun n : Nat => Value.int n) <$> Settings.checkLength v := by
      rw [check, hkind, Kind.check]
    cases v with
    | bool | int | float => cases h
    | null | text | list | object => exact ruling_of_refuse hrejects hbreaks hcheck rfl
  · have hbreaks : s.kind.BreaksOffAt v ↔ v.isShowable = false := by
      rw [hkind] at hrejects ⊢
      exact and_iff_right hrejects
    have hcheck :
        s.check v = (fun n : Side => Value.int n.val) <$> Settings.checkSide s.name v := by
      rw [check, hkind, Kind.check]
    cases v with
    | bool | int | float => cases h
    | null | text | list | object => exact ruling_of_refuse hrejects hbreaks hcheck rfl
  · refine .broken ?_ (.number s.name .notNumber) ?_ rfl
    · rw [hkind]
      exact .inl h
    · rw [check, hkind, Kind.check, Settings.checkMeasure, h]
      rfl

theorem ruling_of_path (hkind : s.kind = .path) (v : Value) : s.Ruling v := by
  have hcheck : s.check v = (fun p : Path => Value.text p.text) <$> Settings.checkPath v := by
    rw [check, hkind, Kind.check]
  cases v with
  | text text =>
    refine .kept ?_ ?_ _ hcheck fun hne => absurd hkind hne
    · rw [hkind]
      exact ⟨text, rfl⟩
    · rw [hkind]
      exact fun h => h text rfl
  | _ =>
    refine .broken ?_ _ hcheck rfl
    rw [hkind]
    rintro text ⟨⟩

theorem ruling_of_switch (hkind : s.kind = .switch) (v : Value) : s.Ruling v := by
  refine .kept ?_ ?_ v ?_ fun _ => rfl
  · rw [hkind]
    trivial
  · rw [hkind]
    exact id
  · rw [check, hkind, Kind.check]

theorem ruling (s : Setting) (v : Value) : s.Ruling v := by
  by_cases hs : s ∈ numeric
  · cases hnumber : v.number? with
    | none => exact ruling_of_number? hs hnumber
    | some n =>
      have hv : v = n.toValue := by
        cases v <;> cases hnumber <;> rfl
      rw [hv]
      exact ruling_toValue hs n
  · have hrest : ∀ s ∉ numeric, s.kind = .path ∨ s.kind = .switch := by
      intro s
      cases s <;> decide
    rcases hrest s hs with hkind | hkind
    · exact ruling_of_path hkind v
    · exact ruling_of_switch hkind v

theorem exists_check_iff :
    (∃ w, s.check v = .ok w) ↔ s.kind.Accepts v ∧ ¬s.kind.BreaksOffAt v := by
  cases s.ruling v with
  | kept haccepts hsafe w h _ => exact iff_of_true ⟨w, h⟩ ⟨haccepts, hsafe⟩
  | refused hrejects _ fault h _ =>
    refine iff_of_false ?_ fun hboth => hrejects hboth.1
    rintro ⟨w, hw⟩
    cases hw.symm.trans h
  | broken hbreaks fault h _ =>
    refine iff_of_false ?_ fun hboth => hboth.2 hbreaks
    rintro ⟨w, hw⟩
    cases hw.symm.trans h

theorem eq_of_check {w : Value} (h : s.check v = .ok w) (hkind : s.kind ≠ .path) : w = v := by
  cases s.ruling v with
  | kept _ _ w' h' hsame =>
    obtain rfl := Except.ok.inj (h'.symm.trans h)
    exact hsame hkind
  | refused _ _ fault h' _ => cases h'.symm.trans h
  | broken _ fault h' _ => cases h'.symm.trans h

/-- A check that does not break off at a value refuses it by the rules of settings. -/
theorem breaksOffAt_iff_of_check {fault : SettingsFault} (h : s.check v = .error fault) :
    s.kind.BreaksOffAt v ↔ isRefusedSetting fault = false := by
  cases s.ruling v with
  | kept _ _ w h' _ => cases h'.symm.trans h
  | refused _ hsafe fault' h' hrefused =>
    obtain rfl := Except.error.inj (h'.symm.trans h)
    rw [hrefused]
    exact iff_of_false hsafe Bool.noConfusion
  | broken hbreaks fault' h' hrefused =>
    obtain rfl := Except.error.inj (h'.symm.trans h)
    exact iff_of_true hbreaks hrefused

theorem not_accepts_of_check {fault : SettingsFault} (h : s.check v = .error fault)
    (hrefused : isRefusedSetting fault = true) : ¬s.kind.Accepts v := by
  have hsafe : ¬s.kind.BreaksOffAt v := by
    rw [breaksOffAt_iff_of_check h, hrefused]
    exact Bool.noConfusion
  intro haccepts
  obtain ⟨w, hw⟩ := exists_check_iff.mpr ⟨haccepts, hsafe⟩
  cases hw.symm.trans h

end Setting

namespace Settings

/-- Whether a check breaks off among values that are looked at in their order, all before it being
kept. -/
def BreaksOff (value : Setting → Value) : Prop :=
  ∃ before s after, Setting.all = before ++ s :: after ∧
    (∀ r ∈ before, r.kind.Accepts (value r) ∧ ¬r.kind.BreaksOffAt (value r)) ∧
      s.kind.BreaksOffAt (value s)

theorem not_breaksOff_of_check {value : Setting → Value}
    (h : ∀ s : Setting, ∃ w, s.check (value s) = .ok w) : ¬BreaksOff value := by
  rintro ⟨-, s, -, -, -, hbreaks⟩
  exact (Setting.exists_check_iff.mp (h s)).2 hbreaks

variable {fields : Fields}

theorem breaksOff_iff :
    BreaksOff (fun s => s.valueIn fields) ↔
      ∃ fault, ofEntries fields = .error fault ∧ isRefusedSetting fault = false := by
  constructor
  · rintro ⟨before, s, after, hall, hbefore, hbreaks⟩
    cases hcheck : s.check (s.valueIn fields) with
    | ok w => exact absurd hbreaks (Setting.exists_check_iff.mp ⟨w, hcheck⟩).2
    | error fault =>
      refine ⟨fault, ofEntries_eq_error_iff.mpr ⟨before, s, after, hall, fun r hr => ?_, hcheck⟩,
        (Setting.breaksOffAt_iff_of_check hcheck).mp hbreaks⟩
      exact Setting.exists_check_iff.mpr (hbefore r hr)
  · rintro ⟨fault, hfault, hrefused⟩
    obtain ⟨before, s, after, hall, hbefore, hcheck⟩ := ofEntries_eq_error_iff.mp hfault
    exact ⟨before, s, after, hall, fun r hr => Setting.exists_check_iff.mp (hbefore r hr),
      (Setting.breaksOffAt_iff_of_check hcheck).mpr hrefused⟩

/-- Settings are there with the values that they are read from, if all are of their kinds, and
otherwise refused by their own rules. -/
def AreExact (value : Setting → Value) (outcome : Except SettingsFault Settings) : Prop :=
  ((∀ s : Setting, s.kind.Accepts (value s)) ∧ ∃ c, outcome = .ok c ∧
    (∀ s, s ≠ .outputDir → c.value s = value s) ∧
      ∀ text, value .outputDir = .text text → c.outputDir = Path.ofText text) ∨
  ((∃ s : Setting, ¬s.kind.Accepts (value s)) ∧
    ∃ fault, outcome = .error fault ∧ isRefusedSetting fault = true)

/-- The checks are exact unless one of them breaks off. -/
theorem areExact_ofEntries_iff :
    AreExact (fun s => s.valueIn fields) (ofEntries fields) ↔
      ¬BreaksOff fun s => s.valueIn fields := by
  rw [breaksOff_iff]
  cases houtcome : ofEntries fields with
  | ok c =>
    refine iff_of_true (.inl ⟨fun s => ?_, c, rfl, fun s hs => ?_, fun text htext => ?_⟩) ?_
    · exact (Setting.exists_check_iff.mp ⟨_, check_of_ofEntries houtcome s⟩).1
    · refine Setting.eq_of_check (check_of_ofEntries houtcome s) fun hkind => hs ?_
      revert hkind
      cases s <;> decide
    · have hdirectory : Setting.outputDir.valueIn fields = .text text := htext
      have hpath := checkPath_of_ofEntries houtcome
      rw [hdirectory] at hpath
      exact (Except.ok.inj hpath).symm
    · rintro ⟨fault, hfault, -⟩
      cases hfault
  | error fault =>
    obtain ⟨before, s, after, -, -, hcheck⟩ := ofEntries_eq_error_iff.mp houtcome
    cases hrefused : isRefusedSetting fault with
    | true =>
      refine iff_of_true (.inr ⟨⟨s, Setting.not_accepts_of_check hcheck hrefused⟩, fault, rfl,
        hrefused⟩) ?_
      rintro ⟨fault', hfault, hbroken⟩
      obtain rfl := Except.error.inj hfault
      exact Bool.noConfusion (hrefused.symm.trans hbroken)
    | false =>
      refine iff_of_false ?_ fun h => h ⟨fault, rfl, hrefused⟩
      rintro (⟨-, c, hc, -⟩ | ⟨-, fault', hfault, hrefused'⟩)
      · cases hc
      · obtain rfl := Except.error.inj hfault
        exact Bool.noConfusion (hrefused.symm.trans hrefused')

end Settings
end VoxelCurve
