import VoxelCurve.Proofs.Render.Overrides
import VoxelCurve.Proofs.Value.Finite

/-!
Which numbers settings may have.

The number of generations is an integer that is not negative, a side is a positive integer, and a
measure is any integer, truth value or finite float.  New settings are refused with the name of
the first one whose number is not of this kind.  There are two integers that the checks stumble
over before they can say so: a measure beyond all floats, and a refused integer with more digits
than a complaint can show.  Without them the checks are exact, and one of them that is met spoils
the outcome.
-/

namespace VoxelCurve

open Rounding

namespace SettingsFault

/-- A complaint about a setting, with its name in front. -/
def Names (fault : SettingsFault) (name : String) : Prop :=
  CommandLine.isRefusedSetting fault = true ∧ ∃ rest, fault.message = name ++ " must be " ++ rest

theorem not_names_number (name : String) (reason : NumberFault) (other : String) :
    ¬(number name reason).Names other :=
  fun h => Bool.false_ne_true h.1

theorem names_lengthNotInteger (shown : String) :
    (lengthNotInteger shown).Names "derivation_length" := by
  have hwords : "derivation_length must be an integer, got " =
      "derivation_length" ++ " must be " ++ "an integer, got " := by decide
  refine ⟨rfl, "an integer, got " ++ shown, ?_⟩
  show "derivation_length must be an integer, got " ++ shown = _
  rw [hwords, String.append_assoc]

theorem names_negativeLength (n : Int) : (negativeLength n).Names "derivation_length" := by
  have hwords : "derivation_length must be non-negative, got " =
      "derivation_length" ++ " must be " ++ "non-negative, got " := by decide
  refine ⟨rfl, "non-negative, got " ++ toString n, ?_⟩
  show "derivation_length must be non-negative, got " ++ toString n = _
  rw [hwords, String.append_assoc]

theorem names_sizeNotPositive (name shown : String) : (sizeNotPositive name shown).Names name := by
  have hwords : " must be a positive integer, got " =
      " must be " ++ "a positive integer, got " := by decide
  refine ⟨rfl, "a positive integer, got " ++ shown, ?_⟩
  show name ++ " must be a positive integer, got " ++ shown = _
  rw [hwords, ← String.append_assoc, String.append_assoc]

theorem names_notFinite (name shown : String) : (notFinite name shown).Names name := by
  have hwords : " must be finite, got " = " must be " ++ "finite, got " := by decide
  refine ⟨rfl, "finite, got " ++ shown, ?_⟩
  show name ++ " must be finite, got " ++ shown = _
  rw [hwords, ← String.append_assoc, String.append_assoc]

end SettingsFault

namespace Setting

/-- The settings that numbers are given for, in the order in which they are checked. -/
def numeric : List Setting :=
  [derivationLength, sizeX, sizeY, sizeZ, stepSize, angleIncrement, offsetX, offsetY]

/-- The other settings, which are checked after them. -/
def numberless : List Setting :=
  [outputDir, rainbow, writeMetadata, showProgress]

theorem all_eq : all = numeric ++ numberless :=
  rfl

/-- Whether a number is of the kind. -/
def Kind.Admits (n : Number) : Kind → Prop
  | length => ∃ i, n = .int i ∧ 0 ≤ i
  | side => ∃ i, n = .int i ∧ 0 < i
  | measure => ∀ x, n = .float x → x.isFinite = true
  | path | switch => True

/-- Whether the check of the kind breaks off at a number: at an integer that is no float where a
measure is wanted, and at one that is refused but has too many digits for a complaint. -/
def Kind.StumblesOver (n : Number) : Kind → Prop
  | length => ∃ i, n = .int i ∧ i < 0 ∧ Value.isWritable i = false
  | side => ∃ i, n = .int i ∧ i ≤ 0 ∧ Value.isWritable i = false
  | measure => ∃ i, n = .int i ∧ overflow ≤ i.natAbs
  | path | switch => False

/-- A number is counted in integers. -/
theorem Kind.exists_int_of_admits {k : Kind} (hk : k = .length ∨ k = .side) {n : Number}
    (h : k.Admits n) : ∃ i, n = .int i := by
  obtain rfl | rfl := hk
  all_goals
    obtain ⟨i, hi, -⟩ := h
    exact ⟨i, hi⟩

theorem Kind.exists_int_of_stumblesOver {k : Kind} {n : Number} (h : k.StumblesOver n) :
    ∃ i, n = .int i := by
  cases k with
  | length | side | measure =>
    obtain ⟨i, hi, -⟩ := h
    exact ⟨i, hi⟩
  | path | switch => exact h.elim

/-- What becomes of a number that is given for a setting. -/
inductive Verdict (s : Setting) (n : Number) : Prop where
  | kept (hadmits : s.kind.Admits n) (hsafe : ¬s.kind.StumblesOver n)
      (h : s.check n.toValue = .ok n.toValue)
  | refused (hadmits : ¬s.kind.Admits n) (hsafe : ¬s.kind.StumblesOver n) (fault : SettingsFault)
      (h : s.check n.toValue = .error fault) (hnames : fault.Names s.name)
  | broken (hstumbles : s.kind.StumblesOver n) (reason : NumberFault)
      (h : s.check n.toValue = .error (.number s.name reason))

section Verdict

variable {s : Setting}

/-- What is no integer is refused as a count. -/
theorem verdict_of_notInt {n : Number} (hn : ∀ i, n ≠ .int i)
    (hs : s.kind = .length ∨ s.kind = .side) {fault : SettingsFault}
    (h : s.check n.toValue = .error fault) (hnames : fault.Names s.name) : s.Verdict n := by
  refine .refused (fun hadmits => ?_) (fun hstumbles => ?_) fault h hnames
  · obtain ⟨i, hi⟩ := Kind.exists_int_of_admits hs hadmits
    exact hn i hi
  · obtain ⟨i, hi⟩ := Kind.exists_int_of_stumblesOver hstumbles
    exact hn i hi

/-- An integer that is refused is complained about if it can be shown. -/
theorem verdict_of_refuse {α : Type} {f : α → Value} {i : Int} {fault : SettingsFault}
    (hadmits : ¬s.kind.Admits (.int i))
    (hstumbles : s.kind.StumblesOver (.int i) ↔ Value.isWritable i = false)
    (h : s.check (.int i) = f <$> Settings.refuse s.name (.int i) fault)
    (hnames : fault.Names s.name) : s.Verdict (.int i) := by
  cases hwritable : Value.isWritable i with
  | true =>
    refine .refused hadmits ?_ fault ?_ hnames
    · rw [hstumbles, hwritable]
      exact Bool.noConfusion
    · refine h.trans ?_
      rw [map_eq_error_iff]
      exact if_pos hwritable
  | false =>
    refine .broken (hstumbles.mpr hwritable) .unwritable (h.trans ?_)
    rw [map_eq_error_iff]
    exact if_neg (by rw [Value.isShowable, hwritable]; exact Bool.false_ne_true)

theorem verdict_length (n : Number) : derivationLength.Verdict n := by
  cases n with
  | bool b =>
    exact verdict_of_notInt (by rintro i ⟨⟩) (.inl rfl) rfl
      (SettingsFault.names_lengthNotInteger _)
  | float x =>
    exact verdict_of_notInt (by rintro i ⟨⟩) (.inl rfl) rfl
      (SettingsFault.names_lengthNotInteger _)
  | int i =>
    have hcheck : derivationLength.check (.int i) = (fun n : Nat => Value.int n) <$>
        if i < 0 then Settings.refuse derivationLength.name (.int i) (.negativeLength i)
        else .ok i.toNat := rfl
    by_cases hneg : i < 0
    · rw [if_pos hneg] at hcheck
      refine verdict_of_refuse ?_ ⟨?_, fun h => ⟨i, rfl, hneg, h⟩⟩ hcheck
        (SettingsFault.names_negativeLength i)
      · rintro ⟨_, ⟨⟩, hpos⟩
        omega
      · rintro ⟨_, ⟨⟩, -, h⟩
        exact h
    · rw [if_neg hneg] at hcheck
      refine .kept ⟨i, rfl, by omega⟩ ?_ (hcheck.trans ?_)
      · rintro ⟨_, ⟨⟩, hneg', -⟩
        exact hneg hneg'
      · show Except.ok (Value.int i.toNat) = .ok (.int i)
        rw [Int.toNat_of_nonneg (by omega)]

theorem verdict_side (hs : s.kind = .side) (n : Number) : s.Verdict n := by
  have hcheck : s.check n.toValue =
      (fun n : Side => Value.int n.val) <$> Settings.checkSide s.name n.toValue := by
    rw [check, hs, Kind.check]
  cases n with
  | bool b =>
    exact verdict_of_notInt (by rintro i ⟨⟩) (.inr hs) hcheck
      (SettingsFault.names_sizeNotPositive _ _)
  | float x =>
    exact verdict_of_notInt (by rintro i ⟨⟩) (.inr hs) hcheck
      (SettingsFault.names_sizeNotPositive _ _)
  | int i =>
    rw [Number.toValue, Settings.checkSide] at hcheck
    by_cases hpos : 0 < i.toNat
    · rw [dif_pos hpos] at hcheck
      refine .kept ?_ ?_ (hcheck.trans ?_)
      · rw [hs]
        exact ⟨i, rfl, by omega⟩
      · rw [hs]
        rintro ⟨_, ⟨⟩, hneg, -⟩
        omega
      · show Except.ok (Value.int i.toNat) = .ok (.int i)
        rw [Int.toNat_of_nonneg (by omega)]
    · rw [dif_neg hpos] at hcheck
      refine verdict_of_refuse ?_ ?_ hcheck (SettingsFault.names_sizeNotPositive _ _)
      · rw [hs]
        rintro ⟨_, ⟨⟩, hpos'⟩
        omega
      · rw [hs]
        refine ⟨?_, fun h => ⟨i, rfl, by omega, h⟩⟩
        rintro ⟨_, ⟨⟩, -, h⟩
        exact h

theorem verdict_measure (hs : s.kind = .measure) (n : Number) : s.Verdict n := by
  have hnumber : n.toValue.number? = some n := by
    cases n <;> rfl
  have hcheck : s.check n.toValue =
      (fun m : Measure => m.val.toValue) <$> Settings.checkMeasure s.name n.toValue := by
    rw [check, hs, Kind.check]
  rw [Settings.checkMeasure, hnumber] at hcheck
  dsimp only at hcheck
  by_cases hfinite : n.isFinite = true
  · rw [dif_pos hfinite] at hcheck
    refine .kept ?_ ?_ hcheck
    · rw [hs]
      rintro x rfl
      exact hfinite
    · rw [hs]
      rintro ⟨i, rfl, hover⟩
      have hsmall := Number.isFinite_int_iff.mp hfinite
      omega
  · rw [dif_neg hfinite] at hcheck
    cases n with
    | bool b => exact absurd (Number.isFinite_bool b) hfinite
    | int i =>
      have hover : overflow ≤ i.natAbs := by
        rw [Number.isFinite_int_iff] at hfinite
        omega
      rw [Number.toFloat_int, if_pos hover] at hcheck
      refine .broken ?_ _ hcheck
      rw [hs]
      exact ⟨i, rfl, hover⟩
    | float x =>
      refine .refused ?_ ?_ _ hcheck (SettingsFault.names_notFinite _ _)
      · rw [hs]
        exact fun h => hfinite (h x rfl)
      · rw [hs]
        rintro ⟨i, ⟨⟩, -⟩

end Verdict

theorem verdict {s : Setting} (hs : s ∈ numeric) (n : Number) : s.Verdict n := by
  have hkinds : ∀ s ∈ numeric, s.kind ≠ .path ∧ s.kind ≠ .switch := by decide
  cases hkind : s.kind with
  | length =>
    have hlength : s = derivationLength := by
      cases s <;> first | rfl | cases hkind
    rw [hlength]
    exact verdict_length n
  | side => exact verdict_side hkind n
  | measure => exact verdict_measure hkind n
  | path => exact absurd hkind (hkinds s hs).1
  | switch => exact absurd hkind (hkinds s hs).2

end Setting

/-- Numbers for some of the settings that have one. -/
abbrev Assignment :=
  Setting → Option Number

namespace Assignment

open Setting

/-- The numbers as named values. -/
def fields (a : Assignment) : Fields :=
  numeric.filterMap fun s => (a s).map fun n => (s.name, n.toValue)

/-- Whether a setting is given a number that is not of its kind. -/
def Offends (a : Assignment) (s : Setting) : Prop :=
  ∃ n, a s = some n ∧ ¬s.kind.Admits n

def Stumbles (a : Assignment) (s : Setting) : Prop :=
  ∃ n, a s = some n ∧ s.kind.StumblesOver n

theorem clear_of_eq_none {a : Assignment} {s : Setting} (h : a s = none) :
    ¬a.Offends s ∧ ¬a.Stumbles s := by
  constructor
  · rintro ⟨n, hn, -⟩
    cases h.symm.trans hn
  · rintro ⟨n, hn, -⟩
    cases h.symm.trans hn

/-- New settings are there with the numbers that were given, if all are of their kinds, and
otherwise refused with the name of the first one that is not. -/
def IsExact (a : Assignment) (outcome : Except SettingsFault Settings) : Prop :=
  ((∀ s ∈ numeric, ¬a.Offends s) ∧ ∃ c, outcome = .ok c ∧
    ∀ s ∈ numeric, ∀ n, a s = some n → c.value s = n.toValue) ∨
  ∃ before s after, numeric = before ++ s :: after ∧ (∀ r ∈ before, ¬a.Offends r) ∧
    a.Offends s ∧ ∃ fault, outcome = .error fault ∧ fault.Names s.name

theorem fields_eq_chosen (a : Assignment) :
    a.fields = Settings.chosen (fun s => (a s).map Number.toValue) numeric := by
  simp only [fields, Settings.chosen, Option.map_map]
  rfl

theorem nodup_names (a : Assignment) : a.fields.names.Nodup := by
  rw [fields_eq_chosen]
  exact Settings.nodup_chosen (by decide)

/-- New settings are read from these fields. -/
def entries (a : Assignment) : Fields :=
  Settings.defaults.entries.update a.fields

theorem ofFields_fields (a : Assignment) :
    Settings.ofFields a.fields = Settings.ofEntries a.entries := by
  rw [Settings.ofFields, fields_eq_chosen, Settings.unknown_chosen, ← fields_eq_chosen]
  rfl

theorem valueIn_entries (a : Assignment) (s : Setting) :
    s.valueIn a.entries = ((if s ∈ numeric then a s else none).map Number.toValue).getD
      (Settings.defaults.value s) := by
  rw [entries, valueIn_update (nodup_names a), fields_eq_chosen, Settings.get?_chosen]
  split <;> rfl

theorem valueIn_of_eq_some {a : Assignment} {s : Setting} {n : Number} (hs : s ∈ numeric)
    (h : a s = some n) : s.valueIn a.entries = n.toValue := by
  rw [valueIn_entries, if_pos hs, h]
  rfl

/-- A setting without a number has its default, which passes. -/
theorem check_default {a : Assignment} {s : Setting} (h : s ∉ numeric ∨ a s = none) :
    ∃ w, s.check (s.valueIn a.entries) = .ok w := by
  have hnone : (if s ∈ numeric then a s else none) = none := by
    obtain hs | hs := h
    · rw [if_neg hs]
    · rw [hs, ite_self]
  rw [valueIn_entries, hnone]
  exact ⟨_, Settings.check_value_of_isConstructed Settings.isConstructed_defaults s⟩

theorem check_ok_iff {a : Assignment} {s : Setting} (hs : s ∈ numeric) :
    (∃ w, s.check (s.valueIn a.entries) = .ok w) ↔ ¬a.Offends s ∧ ¬a.Stumbles s := by
  cases hn : a s with
  | none => exact iff_of_true (check_default (.inr hn)) (clear_of_eq_none hn)
  | some n =>
    have hsome : ∀ {p : Number → Prop}, (∃ m, a s = some m ∧ p m) ↔ p n := by
      intro p
      simp only [hn, Option.some.injEq, exists_eq_left']
    rw [valueIn_of_eq_some hs hn, Offends, Stumbles, hsome, hsome, not_not]
    cases verdict hs n with
    | kept hadmits hsafe h => exact iff_of_true ⟨_, h⟩ ⟨hadmits, hsafe⟩
    | refused hadmits _ fault h _ =>
      refine iff_of_false ?_ fun hboth => hadmits hboth.1
      rintro ⟨w, hw⟩
      cases hw.symm.trans h
    | broken hstumbles reason h =>
      refine iff_of_false ?_ fun hboth => hboth.2 hstumbles
      rintro ⟨w, hw⟩
      cases hw.symm.trans h

/-- The settings that have no number are not checked before the others. -/
theorem split_numeric {before after : List Setting} {s : Setting} (hs : s ∈ numeric)
    (h : Setting.all = before ++ s :: after) : ∃ after', numeric = before ++ s :: after' := by
  have hapart : ∀ t ∈ numeric, t ∉ numberless := by decide
  rw [all_eq] at h
  obtain ⟨between, -, hrest⟩ | ⟨between, hnumeric, hrest⟩ := List.append_eq_append_iff.mp h
  · refine absurd ?_ (hapart s hs)
    rw [hrest]
    exact List.mem_append_right between List.mem_cons_self
  · cases between with
    | nil =>
      refine absurd ?_ (hapart s hs)
      rw [List.nil_append] at hrest
      rw [← hrest]
      exact List.mem_cons_self
    | cons t between =>
      obtain ⟨rfl, -⟩ := List.cons.inj hrest
      exact ⟨between, hnumeric⟩

section Exact

variable {a : Assignment} {before after : List Setting} {s : Setting}

/-- The first check that breaks off spoils the outcome. -/
theorem not_isExact (hsplit : numeric = before ++ s :: after)
    (hbefore : ∀ r ∈ before, ¬a.Offends r ∧ ¬a.Stumbles r) (hstumbles : a.Stumbles s) :
    ¬a.IsExact (Settings.ofFields a.fields) := by
  have hmem : ∀ r ∈ before ++ [s], r ∈ numeric := by
    intro r hr
    rw [hsplit, List.append_cons]
    exact List.mem_append_left after hr
  have hs := hmem s (List.mem_append_right before List.mem_cons_self)
  obtain ⟨reason, hcheck⟩ : ∃ reason,
      s.check (s.valueIn a.entries) = .error (.number s.name reason) := by
    obtain ⟨n, hn, hover⟩ := hstumbles
    rw [valueIn_of_eq_some hs hn]
    cases verdict hs n with
    | kept _ hsafe _ => exact absurd hover hsafe
    | refused _ hsafe _ _ _ => exact absurd hover hsafe
    | broken _ reason h => exact ⟨reason, h⟩
  have hfault : Settings.ofFields a.fields = .error (.number s.name reason) := by
    rw [ofFields_fields, Settings.ofEntries_eq_error_iff]
    refine ⟨before, s, after ++ numberless, ?_,
      fun r hr => (check_ok_iff (hmem r (List.mem_append_left _ hr))).mpr (hbefore r hr), hcheck⟩
    rw [all_eq, hsplit, List.append_assoc, List.cons_append]
  rw [hfault]
  rintro (⟨-, c, hc, -⟩ | ⟨_, t, _, -, -, -, fault, hfault', hnames⟩)
  · cases hc
  · obtain rfl := Except.error.inj hfault'
    exact SettingsFault.not_names_number s.name reason t.name hnames

/-- Settings that are there have the numbers that were given, all of their kinds. -/
theorem kept_of_ofEntries {c : Settings} (h : Settings.ofEntries a.entries = .ok c)
    (hs : s ∈ numeric) : ¬a.Offends s ∧ ∀ n, a s = some n → c.value s = n.toValue := by
  have hcheck := Settings.check_of_ofEntries h s
  refine ⟨((check_ok_iff hs).mp ⟨_, hcheck⟩).1, fun n hn => ?_⟩
  rw [valueIn_of_eq_some hs hn] at hcheck
  cases verdict hs n with
  | kept _ _ hkept => exact (Except.ok.inj (hkept.symm.trans hcheck)).symm
  | refused _ _ fault hrefused _ => cases hrefused.symm.trans hcheck
  | broken _ reason hbroken => cases hbroken.symm.trans hcheck

/-- A fault comes from the check of a number, before which all numbers have passed. -/
theorem exists_of_ofEntries {fault : SettingsFault}
    (h : Settings.ofEntries a.entries = .error fault) :
    ∃ before s after n, numeric = before ++ s :: after ∧
      (∀ r ∈ before, ¬a.Offends r ∧ ¬a.Stumbles r) ∧ a s = some n ∧
        s.check n.toValue = .error fault := by
  obtain ⟨before, s, after, hall, hbefore, hcheck⟩ := Settings.ofEntries_eq_error_iff.mp h
  have hgiven : ¬(s ∉ numeric ∨ a s = none) := by
    intro h
    obtain ⟨w, hw⟩ := check_default h
    cases hw.symm.trans hcheck
  rw [not_or, not_not] at hgiven
  obtain ⟨hs, hsome⟩ := hgiven
  obtain ⟨n, hn⟩ := Option.ne_none_iff_exists'.mp hsome
  obtain ⟨after', hsplit⟩ := split_numeric hs hall
  rw [valueIn_of_eq_some hs hn] at hcheck
  refine ⟨before, s, after', n, hsplit, fun r hr => ?_, hn, hcheck⟩
  have hnumeric : r ∈ numeric := by
    rw [hsplit]
    exact List.mem_append_left _ hr
  exact (check_ok_iff hnumeric).mp (hbefore r hr)

/-- The checks of numbers are exact up to those that break off.  Every setting may be given a number
or left alone, numbers being truth values, integers of any size and floats of any kind. -/
theorem isExact_iff (a : Assignment) :
    a.IsExact (Settings.ofFields a.fields) ↔
      ∀ before s after, numeric = before ++ s :: after →
        (∀ r ∈ before, ¬a.Offends r ∧ ¬a.Stumbles r) → ¬a.Stumbles s := by
  constructor
  · intro h before s after hsplit hbefore hstumbles
    exact not_isExact hsplit hbefore hstumbles h
  · intro hsafe
    rw [ofFields_fields]
    cases houtcome : Settings.ofEntries a.entries with
    | ok c =>
      exact .inl ⟨fun s hs => (kept_of_ofEntries houtcome hs).1, c, rfl,
        fun s hs => (kept_of_ofEntries houtcome hs).2⟩
    | error fault =>
      obtain ⟨before, s, after, n, hsplit, hbefore, hn, hcheck⟩ := exists_of_ofEntries houtcome
      have hs : s ∈ numeric := by
        rw [hsplit]
        exact List.mem_append_right before List.mem_cons_self
      cases verdict hs n with
      | kept _ _ hkept => cases hkept.symm.trans hcheck
      | refused hadmits _ fault' hrefused hnames =>
        obtain rfl := Except.error.inj (hrefused.symm.trans hcheck)
        exact .inr ⟨before, s, after, hsplit, fun r hr => (hbefore r hr).1, ⟨n, hn, hadmits⟩, _,
          rfl, hnames⟩
      | broken hstumbles _ _ =>
        exact absurd ⟨n, hn, hstumbles⟩ (hsafe before s after hsplit hbefore)

end Exact

/-- A step that is an integer beyond all floats. -/
def hugeStep : Assignment
  | .stepSize => some (.int ((10 ^ 400 : Nat) : Int))
  | _ => none

/-- Such a step is a number, and the check breaks off at it. -/
theorem not_isExact_hugeStep : ¬hugeStep.IsExact (Settings.ofFields hugeStep.fields) := by
  have hsplit : numeric = [derivationLength, sizeX, sizeY, sizeZ] ++
      stepSize :: [angleIncrement, offsetX, offsetY] := rfl
  have hnone : ∀ r ∈ [derivationLength, sizeX, sizeY, sizeZ], hugeStep r = none := by
    simp only [List.forall_mem_cons, hugeStep, true_and]
    exact List.forall_mem_nil _
  have hover : overflow ≤ ((10 ^ 400 : Nat) : Int).natAbs := by decide +kernel
  exact not_isExact hsplit (fun r hr => clear_of_eq_none (hnone r hr)) ⟨_, rfl, _, rfl, hover⟩

end Assignment
end VoxelCurve
