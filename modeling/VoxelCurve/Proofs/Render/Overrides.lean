import Mathlib.Data.List.Infix
import VoxelCurve.CommandLine.Execution
import VoxelCurve.Proofs.Render.Checks
import VoxelCurve.Proofs.Value.Fields

/-!
Overriding settings.

Settings are overridden by reading all their values again, the given ones in place of the old
ones.  The old ones have been kept by their checks, so they pass them as they are, and it makes
no difference whether values are given in one go or in several: what was given last counts, and
the faults are the same.  Names are looked at before values, so one that no setting has is
complained about whatever else is given.
-/

namespace VoxelCurve

namespace Setting

theorem valueIn_update {fields other : Fields} (h : other.names.Nodup) (s : Setting) :
    s.valueIn (fields.update other) = (other.get? s.name).getD (s.valueIn fields) := by
  rw [valueIn, Fields.get?_update h]
  cases other.get? s.name <;> rfl

end Setting

namespace Settings

variable {a b : Fields} {c d : Settings}

theorem valueIn_entries (c : Settings) (s : Setting) : s.valueIn c.entries = c.value s :=
  rfl

/-- An update with known names has the unknown names of what it is updated with. -/
theorem unknown_update (ha : unknown a = []) (hb : b.names.Nodup) :
    unknown (a.update b) = unknown b := by
  have hknown : ∀ name ∈ a.names, names.contains name = true := by
    intro name hname
    have hnot := List.filter_eq_nil_iff.mp ha name hname
    rwa [Bool.not_eq_true', Bool.not_eq_false] at hnot
  rw [unknown, Fields.names_update hb, List.filter_append, List.filter_filter]
  show unknown a ++ _ = _
  rw [ha, List.nil_append]
  refine List.filter_congr fun name _ => ?_
  by_cases hname : name ∈ a.names
  · simp only [hknown name hname, Bool.not_true, Bool.false_and]
  · simp only [hname, not_false_eq_true, decide_true, Bool.and_true]

/-! ## Values for some of the settings -/

/-- The named values for those of the settings that have one. -/
def chosen (value? : Setting → Option Value) (settings : List Setting) : Fields :=
  settings.filterMap fun s => (value? s).map fun v => (s.name, v)

section Chosen

variable {value? : Setting → Option Value} {settings : List Setting} {t : Setting} {v : Value}

theorem chosen_cons_none (h : value? t = none) :
    chosen value? (t :: settings) = chosen value? settings :=
  List.filterMap_cons_none (by rw [h]; rfl)

theorem chosen_cons_some (h : value? t = some v) :
    chosen value? (t :: settings) = (t.name, v) :: chosen value? settings :=
  List.filterMap_cons_some (by rw [h]; rfl)

theorem get?_chosen (value? : Setting → Option Value) (settings : List Setting) (s : Setting) :
    (chosen value? settings).get? s.name = if s ∈ settings then value? s else none := by
  induction settings with
  | nil => rfl
  | cons t settings ih =>
    by_cases hst : s = t
    · subst hst
      rw [if_pos List.mem_cons_self]
      cases hs : value? s with
      | none => rw [chosen_cons_none hs, ih, hs, ite_self]
      | some v => rw [chosen_cons_some hs, Fields.get?_cons, if_pos rfl]
    · have hmem : (s ∈ t :: settings) = (s ∈ settings) := by
        rw [List.mem_cons, eq_false hst, false_or]
      have hname : s.name ≠ t.name := fun h => hst (Setting.name_injective h)
      simp only [hmem]
      cases ht : value? t with
      | none => rw [chosen_cons_none ht, ih]
      | some v => rw [chosen_cons_some ht, Fields.get?_cons, if_neg hname, ih]

theorem names_chosen (value? : Setting → Option Value) (settings : List Setting) :
    (chosen value? settings).names =
      (settings.filter fun s => (value? s).isSome).map Setting.name := by
  induction settings with
  | nil => rfl
  | cons t settings ih =>
    cases ht : value? t with
    | none => rw [chosen_cons_none ht, ih, List.filter_cons_of_neg (by rw [ht]; decide)]
    | some v =>
      rw [chosen_cons_some ht, List.filter_cons_of_pos (by rw [ht]; rfl), List.map_cons, ← ih]
      rfl

theorem nodup_chosen (h : settings.Nodup) : (chosen value? settings).names.Nodup := by
  rw [names_chosen]
  exact (h.filter _).map fun _ _ hname => Setting.name_injective hname

theorem unknown_chosen (value? : Setting → Option Value) (settings : List Setting) :
    unknown (chosen value? settings) = [] := by
  have hknown : ∀ s ∈ Setting.all, names.contains s.name = true := by decide
  rw [unknown, names_chosen, List.filter_eq_nil_iff]
  intro name hname
  obtain ⟨s, -, rfl⟩ := List.mem_map.mp hname
  rw [hknown s s.mem_all]
  exact Bool.false_ne_true

end Chosen

/-! ## Overriding -/

/-- Settings can be made from named values. -/
def IsConstructed (c : Settings) : Prop :=
  ∃ fields, ofFields fields = .ok c

theorem isConstructed_defaults : defaults.IsConstructed :=
  ⟨[], ofEntries_entries (by decide +kernel)⟩

theorem ofFields_eq_ok_iff {fields : Fields} :
    ofFields fields = .ok c ↔
      unknown fields = [] ∧ ofEntries (defaults.entries.update fields) = .ok c := by
  unfold ofFields
  split
  · next hunknown => simp only [hunknown, reduceCtorEq, false_and]
  · next hunknown => simp only [hunknown, true_and]

theorem check_value_of_isConstructed (hc : c.IsConstructed) (s : Setting) :
    s.check (c.value s) = .ok (c.value s) := by
  obtain ⟨fields, hfields⟩ := hc
  exact Setting.check_kept (check_of_ofEntries (ofFields_eq_ok_iff.mp hfields).2 s)

end Settings
end VoxelCurve
