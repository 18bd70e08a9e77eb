import VoxelCurve.Proofs.CommandLine.Operand
import VoxelCurve.Proofs.Render.Acceptance

/-!
Settings in layers.

A setting has the value of its option on the command line, if it was given, or else the one that
comes with the grammar, or else its default.  What counts is whether an option was given and not its
value, so a zero or a switch that is turned off wins like any other.  Only what is on top is
checked: a value that another one covers is never looked at.
-/

namespace VoxelCurve

namespace CommandLine
namespace RenderArguments

/-- An angle in radians, if it is one in degrees. -/
def inRadians (v : Value) : Value :=
  match v.toFloat with
  | .ok degrees => .float (radians degrees)
  | .error _ => v

/-- The value that the command line has for a setting, if it has one. -/
def flag? (r : RenderArguments) : Setting → Option Value
  | .derivationLength => r.derivationLength?
  | .sizeX => r.sizeX?
  | .sizeY => r.sizeY?
  | .sizeZ => r.sizeZ?
  | .stepSize => r.stepSize?
  | .angleIncrement => r.angle?.map inRadians
  | .offsetX => r.offsetX?
  | .offsetY => r.offsetY?
  | .rainbow => r.rainbow?.map .bool
  | .outputDir => some r.outputDir
  | .writeMetadata => some (.bool !r.noMetadata)
  | .showProgress => some (.bool r.progress)

/-- The value that a setting is to have. -/
def layered (r : RenderArguments) (options : Fields) (s : Setting) : Value :=
  ((r.flag? s).or (options.get? s.name)).getD (Settings.defaults.value s)

/-- Whether the angle, if there is one, is a number of degrees. -/
def HasDegrees (r : RenderArguments) : Prop :=
  ∀ v ∈ r.angle?, ∃ degrees, v.toFloat = .ok degrees

/-- The settings in the order that their values are collected in. -/
def asked : List Setting :=
  [.derivationLength, .stepSize, .sizeX, .sizeY, .sizeZ, .offsetX, .offsetY, .angleIncrement,
    .rainbow, .outputDir, .writeMetadata, .showProgress]

/-- The values on the command line. -/
def flags (r : RenderArguments) : Fields :=
  Settings.chosen r.flag? asked

variable {r : RenderArguments} {options : Fields}

theorem chosen_cons (value? : Setting → Option Value) (s : Setting) (settings : List Setting) :
    Settings.chosen value? (s :: settings) =
      given s.name (value? s) ++ Settings.chosen value? settings := by
  cases h : value? s with
  | none => exact Settings.chosen_cons_none h
  | some v => exact Settings.chosen_cons_some h

theorem fields_of_hasDegrees (h : r.HasDegrees) : r.fields = .ok r.flags := by
  have hangle : angleFields r.angle? = .ok (given "angle_increment" (r.angle?.map inRadians)) := by
    unfold HasDegrees at h
    cases hangle : r.angle? with
    | none => rfl
    | some v =>
      obtain ⟨degrees, hv⟩ := h v hangle
      simp only [angleFields, hv, Option.map_some, inRadians]
      rfl
  simp only [flags, asked, chosen_cons]
  rw [fields, hangle]
  simp only [bind, Except.bind, List.append_assoc]
  rfl

theorem fields_of_not_hasDegrees (h : ¬r.HasDegrees) :
    ∃ reason, r.fields = .error (.number "angle_increment" reason) := by
  simp only [HasDegrees, not_forall] at h
  obtain ⟨v, hv, hnone⟩ := h
  cases hfloat : v.toFloat with
  | ok degrees => exact absurd ⟨degrees, hfloat⟩ hnone
  | error reason =>
    refine ⟨reason, ?_⟩
    rw [fields, Option.mem_def.mp hv, angleFields, hfloat]
    rfl

theorem get?_flags (r : RenderArguments) (s : Setting) : r.flags.get? s.name = r.flag? s := by
  have hasked : s ∈ asked := by
    cases s <;> decide
  rw [flags, Settings.get?_chosen, if_pos hasked]

theorem nodup_flags (r : RenderArguments) : r.flags.names.Nodup :=
  Settings.nodup_chosen (by decide)

/-- The values that are read, the lowest layer being the defaults. -/
def entries (r : RenderArguments) (options : Fields) : Fields :=
  Settings.defaults.entries.update (options.update r.flags)

theorem settings_of_fields {fields : Fields} (h : r.fields = .ok fields) :
    r.settings options = Settings.defaults.withOverrides (options.update fields) := by
  rw [settings, h]
  simp only [bind, Except.bind]

/-- With known names, what is read are the values of the layers. -/
theorem settings_of_hasDegrees (hknown : ∀ name ∈ options.names, name ∈ Settings.names)
    (h : r.HasDegrees) : r.settings options = Settings.ofEntries (r.entries options) := by
  have hunknown : Settings.unknown options = [] := by
    refine List.filter_eq_nil_iff.mpr fun name hname => ?_
    rw [List.contains_iff_mem.mpr (hknown name hname)]
    exact Bool.false_ne_true
  have hoverrides : Settings.unknown (options.update r.flags) = [] := by
    rw [Settings.unknown_update hunknown r.nodup_flags, flags, Settings.unknown_chosen]
  rw [settings_of_fields (fields_of_hasDegrees h), Settings.withOverrides, hoverrides]
  rfl

theorem valueIn_entries (hapart : options.names.Nodup) (s : Setting) :
    s.valueIn (r.entries options) = r.layered options s := by
  rw [entries, Setting.valueIn_update (Fields.nodup_update hapart r.nodup_flags),
    Fields.get?_update r.nodup_flags, get?_flags]
  rfl

/-- The settings of a drawing are those of its layers, the command line before what comes with the
grammar and that before the defaults, if the values on top are of their kinds, and otherwise they
are refused by their own rules: always, unless the angle has no degrees or a check breaks off. -/
theorem settings_layered_iff (r : RenderArguments) {options : Fields}
    (hapart : options.names.Nodup) (hknown : ∀ name ∈ options.names, name ∈ Settings.names) :
    Settings.AreExact (r.layered options) (r.settings options) ↔
      r.HasDegrees ∧ ¬Settings.BreaksOff (r.layered options) := by
  by_cases hdegrees : r.HasDegrees
  · have hvalues : (fun s : Setting => s.valueIn (r.entries options)) = r.layered options :=
      funext (valueIn_entries hapart)
    rw [settings_of_hasDegrees hknown hdegrees, and_iff_right hdegrees, ← hvalues]
    exact Settings.areExact_ofEntries_iff
  · refine iff_of_false ?_ fun h => hdegrees h.1
    obtain ⟨reason, hfields⟩ := fields_of_not_hasDegrees hdegrees
    have hfault : r.settings options = .error (.number "angle_increment" reason) := by
      rw [settings, hfields]
      rfl
    rw [hfault]
    rintro (⟨-, c, hc, -⟩ | ⟨-, fault, hfault, hrefused⟩)
    · cases hc
    · obtain rfl := Except.error.inj hfault
      cases hrefused

/-- The built-in dragon with values that count as nothing. -/
def falsy : RenderArguments where
  grammar := ⟨some "dragon", none, none, [], none⟩
  derivationLength? := some (.int 0)
  stepSize? := none
  angle? := some (.float 0.0)
  sizeX? := none
  sizeY? := none
  sizeZ? := none
  offsetX? := some (.float 0.0)
  offsetY? := none
  rainbow? := some false
  outputDir := .text "volumes"
  output? := none
  noMetadata := false
  progress := false

/-- They win over those of the dragon all the same. -/
theorem settings_layered_falsy :
    request ["render", "--preset", "dragon", "-n", "0", "--angle", "0", "--offset-x", "0",
        "--no-rainbow"] = .ok ⟨0, .render falsy⟩ ∧
      (Preset.dragon.options.names.Nodup ∧
        ∀ name ∈ Preset.dragon.options.names, name ∈ Settings.names) ∧
      Settings.AreExact (falsy.layered Preset.dragon.options)
        (falsy.settings Preset.dragon.options) := by
  have hapart : Preset.dragon.options.names.Nodup := by decide
  have hknown : ∀ name ∈ Preset.dragon.options.names, name ∈ Settings.names := by decide
  have hdegrees : falsy.HasDegrees := by
    rintro v ⟨⟩
    exact ⟨0.0, rfl⟩
  have hsafe : ¬Settings.BreaksOff (falsy.layered Preset.dragon.options) := by
    refine Settings.not_breaksOff_of_check fun s => ?_
    cases s <;> exact ⟨_, rfl⟩
  exact ⟨rfl, ⟨hapart, hknown⟩, (settings_layered_iff falsy hapart hknown).mpr ⟨hdegrees, hsafe⟩⟩

/-- What stands behind an equals sign is the value of an option that takes one. -/
theorem bundle_attached {f : Form} {m : Match} {rest : List Token} {value : List Char}
    (h : m.attached? = some value) (hvalue : m.option.value?.isSome = true) :
    bundle f m rest = .ok ⟨[⟨m.option, m.name, some (String.ofList value)⟩], rest⟩ := by
  rw [bundle, h]
  show bundleAttached f rest m.option m.name value = _
  rw [bundleAttached.eq_def, if_pos hvalue]

/-- A step that is two dashes, of which nothing is left. -/
def dashedStep : RenderArguments where
  grammar := ⟨none, none, some "F", [], none⟩
  derivationLength? := none
  stepSize? := some (.list [])
  angle? := none
  sizeX? := none
  sizeY? := none
  sizeZ? := none
  offsetX? := none
  offsetY? := none
  rainbow? := none
  outputDir := .text "volumes"
  output? := none
  noMetadata := false
  progress := false

theorem request_dashedStep :
    request ["render", "--axiom", "F", "--step-size=--"] = .ok ⟨0, .render dashedStep⟩ := by
  let start : Given := ⟨Form.source "--axiom", "--axiom", .text "F"⟩
  let step : Match := ⟨Form.valued .decimal ["--step-size"], "--step-size", some ['-', '-']⟩
  let parsed : Parsed := { given := [start, ⟨step.option, step.name, .empty⟩] }
  have hbundle : bundle Form.render step [] = .ok ⟨[⟨step.option, step.name, some "--"⟩], []⟩ :=
    bundle_attached rfl rfl
  have hread : read Form.render ["--axiom", "F", "--step-size=--"] = .ok parsed := by
    refine read_eq_ok_iff.mpr ⟨[.option "--axiom" (some ⟨start.option, "--axiom", none⟩),
      .plain "F", .option "--step-size=--" (some step)], parsed, rfl, ?_, rfl⟩
    show (bundle Form.render step []).mapError Halt.fault >>= (fun b =>
      b.taken.foldlM (Parsed.take Form.render) { given := [start] } >>=
        fun p => readTokens Form.render 1 b.rest p) = _
    rw [hbundle]
    rfl
  show (read Form.render ["--axiom", "F", "--step-size=--"] >>= _) = _
  rw [hread]
  rfl

/-- A drawing for which no option is given that would win over those of its grammar. -/
def bare : RenderArguments :=
  { dashedStep with stepSize? := none }

/-- A step beyond all floats, such as a grammar may come with, is a finite number, and the check
breaks off at it.  A step of two dashes is none at all, and the check breaks off before it is
refused. -/
theorem not_areExact_unmeasured :
    (bare.settings [("step_size", .int (10 ^ 400))] = .error (.number "step_size" .tooLarge) ∧
      ¬Settings.AreExact (bare.layered [("step_size", .int (10 ^ 400))])
        (bare.settings [("step_size", .int (10 ^ 400))])) ∧
    request ["render", "--axiom", "F", "--step-size=--"] = .ok ⟨0, .render dashedStep⟩ ∧
      ¬Setting.stepSize.kind.Accepts (dashedStep.layered [] .stepSize) ∧
      ¬Settings.AreExact (dashedStep.layered []) (dashedStep.settings []) := by
  have hbroken : ∀ {value : Setting → Value} {outcome : Except SettingsFault Settings}
      {fault : SettingsFault}, outcome = .error fault → isRefusedSetting fault = false →
        ¬Settings.AreExact value outcome := by
    rintro value outcome fault rfl hfault (⟨-, c, hc, -⟩ | ⟨-, refused, hrefused, hsettled⟩)
    · cases hc
    · obtain rfl := Except.error.inj hrefused
      exact Bool.false_ne_true (hfault.symm.trans hsettled)
  have hhuge : bare.settings [("step_size", .int (10 ^ 400))] =
      .error (.number "step_size" .tooLarge) := by
    have hmap : (bare.settings [("step_size", .int (10 ^ 400))]).map (fun _ => ()) =
        .error (.number "step_size" .tooLarge) := by decide +kernel
    exact map_eq_error_iff.mp hmap
  exact ⟨⟨hhuge, hbroken hhuge rfl⟩, request_dashedStep,
    Setting.not_accepts_of_number? (by decide) rfl,
    hbroken (show dashedStep.settings [] = .error (.number "step_size" .notNumber) from rfl) rfl⟩

end RenderArguments
end CommandLine
end VoxelCurve
