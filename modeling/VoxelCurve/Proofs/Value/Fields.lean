import Mathlib.Data.List.Nodup
import VoxelCurve.Value.Basic

/-!
Named values that override others.

A field that is set keeps its place if its name was there before and comes last otherwise, so
the names of an update are the old ones in their order, followed by the new ones in theirs.
Each name has the newest of its values.
-/

namespace VoxelCurve
namespace Fields

variable {fields other : Fields} {name : String}

theorem get?_cons (field : String × Value) (fields : Fields) (name : String) :
    get? (field :: fields) name = if name = field.1 then some field.2 else fields.get? name := by
  rw [get?, List.lookup_cons]
  by_cases h : name = field.1
  · rw [if_pos h, h, beq_self_eq_true]
  · rw [if_neg h, beq_eq_false_iff_ne.mpr h]
    rfl

theorem get?_set (fields : Fields) (name : String) (v : Value) (m : String) :
    (set fields name v).get? m = if m = name then some v else fields.get? m := by
  induction fields with
  | nil =>
    rw [set, get?, List.lookup_cons, List.lookup_nil, get?, List.lookup_nil]
    by_cases hm : m = name
    · rw [if_pos hm, beq_iff_eq.mpr hm]
    · rw [if_neg hm, beq_eq_false_iff_ne.mpr hm]
  | cons field fields ih =>
    obtain ⟨n, w⟩ := field
    simp only [get?] at ih
    by_cases hn : n = name
    · subst hn
      simp only [set, if_true, get?, List.lookup_cons]
      by_cases hm : m = n
      · simp only [hm, beq_self_eq_true, if_true]
      · simp only [hm, beq_eq_false_iff_ne.mpr hm, if_false]
    · simp only [set, if_neg hn, get?, List.lookup_cons, ih]
      by_cases hm : m = n
      · subst hm
        simp only [beq_self_eq_true, if_neg hn]
      · simp only [beq_eq_false_iff_ne.mpr hm]

theorem names_set (fields : Fields) (name : String) (v : Value) :
    (set fields name v).names =
      if name ∈ fields.names then fields.names else fields.names ++ [name] := by
  induction fields with
  | nil => rfl
  | cons field fields ih =>
    obtain ⟨n, w⟩ := field
    change names (set ((n, w) :: fields) name v) = if name ∈ n :: names fields then
      n :: names fields else n :: (names fields ++ [name])
    by_cases hn : n = name
    · rw [set, if_pos hn, if_pos (List.mem_cons.mpr (.inl hn.symm))]
      rfl
    · have hne : name ≠ n := fun e => hn e.symm
      rw [set, if_neg hn]
      show n :: names (set fields name v) = _
      rw [ih]
      by_cases hmem : name ∈ names fields
      · rw [if_pos hmem, if_pos (List.mem_cons_of_mem n hmem)]
      · rw [if_neg hmem, if_neg (List.not_mem_cons_of_ne_of_not_mem hne hmem)]

theorem forall_mem_set {P : Value → Prop} {v : Value} (h : ∀ f ∈ fields, P f.2) (hv : P v) :
    ∀ f ∈ set fields name v, P f.2 := by
  induction fields with
  | nil => exact List.forall_mem_singleton.mpr hv
  | cons field fields ih =>
    obtain ⟨hfield, hfields⟩ := List.forall_mem_cons.mp h
    rw [set]
    split
    · exact List.forall_mem_cons.mpr ⟨hv, hfields⟩
    · exact List.forall_mem_cons.mpr ⟨hfield, ih hfields⟩

theorem update_cons (fields : Fields) (field : String × Value) (other : Fields) :
    fields.update (field :: other) = (fields.set field.1 field.2).update other :=
  rfl

theorem forall_mem_get? {P : Value → Prop} (h : ∀ f ∈ fields, P f.2) :
    ∀ v ∈ fields.get? name, P v := by
  intro v hv
  obtain ⟨before, after, hsplit, -⟩ := List.lookup_eq_some_iff.mp hv
  exact h (name, v) (hsplit ▸ List.mem_append_right before List.mem_cons_self)

theorem get?_eq_none_iff : fields.get? name = none ↔ name ∉ fields.names := by
  simp only [get?, List.lookup_eq_none_iff, names, List.mem_map, not_exists, not_and, bne_iff_ne]
  exact ⟨fun h f hf e => h f hf e.symm, fun h f hf e => h f hf e.symm⟩

/-- An updated field has the new value if there is one. -/
theorem get?_update (h : other.names.Nodup) :
    (fields.update other).get? name = (other.get? name).or (fields.get? name) := by
  induction other generalizing fields with
  | nil => rfl
  | cons field other ih =>
    obtain ⟨n, v⟩ := field
    obtain ⟨hnew, hrest⟩ := List.nodup_cons.mp h
    rw [update_cons, ih hrest, get?_set]
    by_cases hn : name = n
    · subst hn
      have hnone : get? other name = none := get?_eq_none_iff.mpr hnew
      rw [if_pos rfl, hnone, get?, List.lookup_cons_self]
      rfl
    · have hskip : get? ((n, v) :: other) name = get? other name := by
        rw [get?, List.lookup_cons, beq_eq_false_iff_ne.mpr hn]
        rfl
      rw [if_neg hn, hskip]

/-- The old names stay where they are. -/
theorem names_update (h : other.names.Nodup) :
    (fields.update other).names =
      fields.names ++ other.names.filter fun name => name ∉ fields.names := by
  induction other generalizing fields with
  | nil => exact (List.append_nil _).symm
  | cons field other ih =>
    obtain ⟨n, v⟩ := field
    obtain ⟨hnew, hrest⟩ := List.nodup_cons.mp h
    rw [update_cons, ih hrest, names_set]
    show _ = fields.names ++ (n :: names other).filter _
    by_cases hn : n ∈ fields.names
    · rw [if_pos hn, List.filter_cons_of_neg (by simpa using hn)]
    · have hsame : (names other).filter (fun m => m ∉ fields.names ++ [n]) =
          (names other).filter fun m => m ∉ fields.names := by
        refine List.filter_congr fun m hm => ?_
        have hne : m ≠ n := fun e => hnew (e ▸ hm)
        simp only [List.mem_append, List.mem_singleton, hne, or_false]
      rw [if_neg hn, List.filter_cons_of_pos (by simpa using hn), hsame, List.append_assoc]
      rfl

theorem nodup_update (hfields : fields.names.Nodup) (h : other.names.Nodup) :
    (fields.update other).names.Nodup := by
  rw [names_update h]
  refine List.Nodup.append hfields (h.filter _) fun m hm hfilter => ?_
  have hnot := (List.mem_filter.mp hfilter).2
  simp only [hm, not_true_eq_false, decide_false, Bool.false_eq_true] at hnot

end Fields
end VoxelCurve
