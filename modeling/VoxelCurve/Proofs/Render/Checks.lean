import Mathlib.Data.List.Nodup
import VoxelCurve.Proofs.Files.Path
import VoxelCurve.Proofs.Render.Settings
import VoxelCurve.Proofs.Success

/-!
Checking settings one after the other.

Every setting has a check of its own, and what it keeps of a value passes the check again
unchanged.  Settings are read from named values by checking these in a fixed order, so they are
there if every value passes, and otherwise the fault is that of the first value that does not.
They are known by the values that the checks have kept, and nothing else of the values they were
read from matters.
-/

namespace VoxelCurve

/-- The settings, in the order in which their values are checked.  The switches come last, as any
value passes for them. -/
inductive Setting where
  | derivationLength
  | sizeX
  | sizeY
  | sizeZ
  | stepSize
  | angleIncrement
  | offsetX
  | offsetY
  | outputDir
  | rainbow
  | writeMetadata
  | showProgress
deriving Repr, DecidableEq

namespace Setting

def all : List Setting :=
  [derivationLength, sizeX, sizeY, sizeZ, stepSize, angleIncrement, offsetX, offsetY, outputDir,
    rainbow, writeMetadata, showProgress]

theorem mem_all (s : Setting) : s ∈ all := by
  cases s <;> decide

def name : Setting → String
  | derivationLength => "derivation_length"
  | sizeX => "size_x"
  | sizeY => "size_y"
  | sizeZ => "size_z"
  | stepSize => "step_size"
  | angleIncrement => "angle_increment"
  | offsetX => "offset_x"
  | offsetY => "offset_y"
  | outputDir => "output_dir"
  | rainbow => "rainbow"
  | writeMetadata => "write_metadata"
  | showProgress => "show_progress"

theorem name_injective {s t : Setting} (h : s.name = t.name) : s = t :=
  List.inj_on_of_nodup_map (f := name) (l := all) (by decide) s.mem_all t.mem_all h

/-- The value of a setting among some fields. -/
def valueIn (s : Setting) (fields : Fields) : Value :=
  (fields.get? s.name).getD .null

/-- What a setting is of. -/
inductive Kind where
  | length
  | side
  | measure
  | path
  | switch
deriving Repr, DecidableEq

def kind : Setting → Kind
  | derivationLength => .length
  | sizeX | sizeY | sizeZ => .side
  | stepSize | angleIncrement | offsetX | offsetY => .measure
  | outputDir => .path
  | rainbow | writeMetadata | showProgress => .switch

/-- What settings of a kind keep of a value. -/
def Kind.check (name : String) (v : Value) : Kind → Except SettingsFault Value
  | length => (fun n : Nat => .int n) <$> Settings.checkLength v
  | side => (fun n : Side => .int n.val) <$> Settings.checkSide name v
  | measure => (fun m : Measure => m.val.toValue) <$> Settings.checkMeasure name v
  | path => (fun p : Path => .text p.text) <$> Settings.checkPath v
  | switch => .ok v

/-- What a setting keeps of a value. -/
def check (s : Setting) (v : Value) : Except SettingsFault Value :=
  s.kind.check s.name v

theorem Kind.check_kept {k : Kind} {name : String} {v w : Value} (h : k.check name v = .ok w) :
    k.check name w = .ok w := by
  cases k with
  | length =>
    obtain ⟨n, -, rfl⟩ := map_eq_ok_iff.mp h
    rw [check, Settings.checkLength_natCast]
    rfl
  | side =>
    obtain ⟨n, -, rfl⟩ := map_eq_ok_iff.mp h
    rw [check, Settings.checkSide_natCast]
    rfl
  | measure =>
    obtain ⟨m, -, rfl⟩ := map_eq_ok_iff.mp h
    rw [check, Settings.checkMeasure_toValue]
    rfl
  | path =>
    obtain ⟨p, hp, rfl⟩ := map_eq_ok_iff.mp h
    cases v with
    | text t =>
      obtain rfl := Except.ok.inj hp
      show Except.ok (Value.text (Path.ofText (Path.ofText t).text).text) = _
      rw [Path.ofText_text (Path.isReadable_ofText t)]
    | _ => cases hp
  | switch => rfl

/-- What a setting keeps, it keeps as it is. -/
theorem check_kept {s : Setting} {v w : Value} (h : s.check v = .ok w) : s.check w = .ok w :=
  Kind.check_kept h

end Setting

namespace Settings

variable {fields fields' : Fields} {c d : Settings} {fault : SettingsFault}

/-- The value that a setting has. -/
def value (c : Settings) (s : Setting) : Value :=
  s.valueIn c.entries

/-- Settings are read by checking the values in their order. -/
theorem ofEntries_eq_mapM (fields : Fields) :
    (fun c => Setting.all.map c.value) <$> ofEntries fields =
      Setting.all.mapM fun s => s.check (s.valueIn fields) := by
  simp only [ofEntries, Setting.all, List.mapM_cons, List.mapM_nil, Setting.check, Setting.kind,
    Setting.Kind.check, map_bind, bind_map_left, bind_assoc, pure_bind]
  rfl

theorem check_of_ofEntries (h : ofEntries fields = .ok c) (s : Setting) :
    s.check (s.valueIn fields) = .ok (c.value s) := by
  have hall := ofEntries_eq_mapM fields
  rw [h] at hall
  have hforall := mapM_eq_ok_iff.mp hall.symm
  rw [List.forall₂_map_right_iff, List.forall₂_same] at hforall
  exact hforall s s.mem_all

/-- The fault is that of the first value that does not pass. -/
theorem ofEntries_eq_error_iff :
    ofEntries fields = .error fault ↔ ∃ before s after, Setting.all = before ++ s :: after ∧
      (∀ r ∈ before, ∃ w, r.check (r.valueIn fields) = .ok w) ∧
        s.check (s.valueIn fields) = .error fault := by
  rw [← mapM_eq_error_iff, ← ofEntries_eq_mapM, map_eq_error_iff]

theorem checkPath_of_ofEntries (h : ofEntries fields = .ok c) :
    checkPath (Setting.outputDir.valueIn fields) = .ok c.outputDir := by
  simp only [ofEntries, bind_eq_ok_iff] at h
  obtain ⟨_, -, _, -, _, -, _, -, _, -, _, -, _, -, _, -, p, hp, h⟩ := h
  obtain rfl := Except.ok.inj h
  exact hp

theorem toValue_injective {m n : Number} (h : m.toValue = n.toValue) : m = n := by
  cases m <;> cases n <;> cases h <;> rfl

end Settings
end VoxelCurve
