import VoxelCurve.Proofs.Render.Sidecar
import VoxelCurve.Render.Saving

/-!
Settings read from what is recorded of them.

A sidecar records nine of the settings.  The other three are where a drawing goes, whether it has
a sidecar and whether progress is shown, and a drawing looks at none of them: with the defaults in
their place it comes out the same.
-/

namespace VoxelCurve

namespace Settings

/-- The settings that are left of a sidecar: the recorded ones, and defaults for the others. -/
def reproduced (s : Settings) : Settings :=
  { s with
    outputDir := defaults.outputDir
    writeMetadata := defaults.writeMetadata
    showProgress := defaults.showProgress }

/-! ## Reading settings -/

theorem checkLength_natCast (n : Nat) : checkLength (.int n) = .ok n := by
  have hnot : ¬(n : Int) < 0 := by omega
  rw [checkLength, if_neg hnot, Int.toNat_natCast]

theorem checkSide_natCast (name : String) (side : Side) :
    checkSide name (.int side.val) = .ok side := by
  have hpos : 0 < (side.val : Int).toNat := by
    rw [Int.toNat_natCast]
    exact side.property
  rw [checkSide, dif_pos hpos]
  exact congrArg Except.ok (Subtype.ext (Int.toNat_natCast side.val))

theorem checkMeasure_toValue (name : String) (m : Measure) :
    checkMeasure name m.val.toValue = .ok m := by
  have hnumber : m.val.toValue.number? = some m.val := by
    cases m.val <;> rfl
  rw [checkMeasure, hnumber]
  exact dif_pos m.property

/-- Settings are read from their entries, if their directory is read from its text. -/
theorem ofEntries_entries {s : Settings} (h : Path.ofText s.outputDir.text = s.outputDir) :
    ofEntries s.entries = .ok s := by
  have hpath : checkPath (.text s.outputDir.text) = .ok s.outputDir := congrArg Except.ok h
  show (do
    let derivationLength ← checkLength (.int s.derivationLength)
    let sizeX ← checkSide "size_x" (.int s.sizeX.val)
    let sizeY ← checkSide "size_y" (.int s.sizeY.val)
    let sizeZ ← checkSide "size_z" (.int s.sizeZ.val)
    let stepSize ← checkMeasure "step_size" s.stepSize.val.toValue
    let angleIncrement ← checkMeasure "angle_increment" s.angleIncrement.val.toValue
    let offsetX ← checkMeasure "offset_x" s.offsetX.val.toValue
    let offsetY ← checkMeasure "offset_y" s.offsetY.val.toValue
    let outputDir ← checkPath (.text s.outputDir.text)
    .ok
      { derivationLength, stepSize, angleIncrement, sizeX, sizeY, sizeZ, offsetX, offsetY
        rainbow := s.rainbow, outputDir, writeMetadata := s.writeMetadata
        showProgress := s.showProgress } : Except SettingsFault Settings) = .ok s
  simp only [checkLength_natCast, checkSide_natCast, checkMeasure_toValue, hpath]
  rfl

theorem unknown_settings (fields : Fields) : unknown (Sidecar.settings fields) = [] := by
  rw [unknown, Sidecar.names_settings]
  decide

/-- What a sidecar records overrides every default that a drawing depends on. -/
theorem withOverrides_settings (s : Settings) :
    defaults.withOverrides (Sidecar.settings s.entries) = .ok s.reproduced := by
  -- no name is new, so each value goes to its place among the defaults
  have hentries : defaults.entries.update (Sidecar.settings s.entries) = s.reproduced.entries :=
    rfl
  have hdirectory : Path.ofText defaults.outputDir.text = defaults.outputDir := by decide +kernel
  rw [withOverrides, unknown_settings]
  show ofEntries (defaults.entries.update (Sidecar.settings s.entries)) = _
  rw [hentries]
  exact ofEntries_entries hdirectory

/-! ## Drawing with them -/

theorem interpret_reproduced (s : Settings) (c : Symbol) (paint? : Option Paint) (t : Turtle) :
    s.reproduced.interpret c paint? t = s.interpret c paint? t := by
  cases c <;> rfl

theorem interpretAll_reproduced (s : Settings) (ramp? : Option (Array Rgba)) (place : Nat)
    (commands : Sentence) (t : Turtle) :
    s.reproduced.interpretAll ramp? place commands t =
      s.interpretAll ramp? place commands t := by
  induction commands generalizing place t with
  | nil => rfl
  | cons c commands ih =>
    rw [interpretAll, interpretAll, interpret_reproduced]
    simp only [ih]

theorem render_reproduced (g : LSystem) (s : Settings) (compass : Compass) :
    (g.render s.reproduced compass).result = (g.render s compass).result := by
  have hdrawn : ∀ commands t, g.drawn s.reproduced commands t = g.drawn s commands t := by
    intro commands t
    rw [LSystem.drawn, LSystem.drawn, interpretAll_reproduced]
    rfl
  simp only [LSystem.render, Script.result_bind, hdrawn]
  rfl

end Settings
end VoxelCurve
