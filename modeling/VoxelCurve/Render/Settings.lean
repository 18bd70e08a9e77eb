import VoxelCurve.Files.Path
import VoxelCurve.Value.Number
import VoxelCurve.Value.Shown

/-!
Settings of a render.

Settings are given as named values and checked in a fixed order: the number of generations,
the sides of the canvas, and then the measures, which have to be finite numbers.  The
switches may be anything; a value that counts as given turns them on.  Settings that have
been checked keep the outcome in their types, so an override is checked by reading all
values again.
-/

namespace VoxelCurve

/-- Why values are no settings. -/
inductive SettingsFault where
  /-- a name that no setting has, among those given from the start -/
  | unknownName (name : String)
  /-- names that no setting has, among those that override others -/
  | unknownOverrides (names : List String)
  | lengthNotInteger (shown : String)
  | negativeLength (n : Int)
  | sizeNotPositive (name shown : String)
  | notFinite (name shown : String)
  | number (name : String) (fault : NumberFault)
  /-- a directory that is no text -/
  | notPath
deriving Repr, DecidableEq

namespace SettingsFault

def message : SettingsFault → String
  | unknownName name => s!"no setting is named {name}"
  | unknownOverrides names => "Unknown config fields: " ++ ", ".intercalate names
  | lengthNotInteger shown => s!"derivation_length must be an integer, got {shown}"
  | negativeLength n => s!"derivation_length must be non-negative, got {n}"
  | sizeNotPositive name shown => s!"{name} must be a positive integer, got {shown}"
  | notFinite name shown => s!"{name} must be finite, got {shown}"
  | number name fault => s!"{name}: {fault.message}"
  | notPath => "the output directory is no path"

end SettingsFault

/-- Whether a number stands for a finite float. -/
def Number.isFinite (n : Number) : Bool :=
  match n.toFloat with
  | .ok x => x.isFinite
  | .error _ => false

/-- A finite number, kept as it was given. -/
abbrev Measure := { n : Number // n.isFinite = true }

/-- A side of the canvas. -/
abbrev Side := { n : Nat // 0 < n }

/-- Checked settings. -/
structure Settings where
  /-- the number of generations -/
  derivationLength : Nat := 2
  /-- how far a drawing command goes -/
  stepSize : Measure := ⟨.float 2.0, by decide⟩
  /-- how far a turning command turns, in radians -/
  angleIncrement : Measure := ⟨.float (3.141592653589793 / 2.0), by decide⟩
  sizeX : Side := ⟨64, by decide⟩
  sizeY : Side := ⟨64, by decide⟩
  sizeZ : Side := ⟨64, by decide⟩
  /-- where the turtle starts, from the middle of the canvas -/
  offsetX : Measure := ⟨.float 0.0, by decide⟩
  offsetY : Measure := ⟨.float 0.0, by decide⟩
  rainbow : Value := .bool false
  outputDir : Path := ⟨.working, ["volumes"]⟩
  writeMetadata : Value := .bool true
  showProgress : Value := .bool false

namespace Settings

/-- The settings by name, in their order. -/
def entries (s : Settings) : Fields :=
  [("derivation_length", .int s.derivationLength),
   ("step_size", s.stepSize.val.toValue),
   ("angle_increment", s.angleIncrement.val.toValue),
   ("size_x", .int s.sizeX.val),
   ("size_y", .int s.sizeY.val),
   ("size_z", .int s.sizeZ.val),
   ("offset_x", s.offsetX.val.toValue),
   ("offset_y", s.offsetY.val.toValue),
   ("rainbow", s.rainbow),
   ("output_dir", .text s.outputDir.text),
   ("write_metadata", s.writeMetadata),
   ("show_progress", s.showProgress)]

/-- The settings that hold unless others are given. -/
def defaults : Settings :=
  {}

/-- The names of the settings. -/
def names : List String :=
  defaults.entries.names

/-- Complains about the value of a setting.  A complaint shows the value, so there is another
one where that cannot be done. -/
def refuse {α : Type} (name : String) (v : Value) (fault : SettingsFault) :
    Except SettingsFault α :=
  if v.isShowable then .error fault else .error (.number name .unwritable)

/-- Checks the number of generations, which no truth value can be. -/
def checkLength : Value → Except SettingsFault Nat
  | .int n =>
    if n < 0 then refuse "derivation_length" (.int n) (.negativeLength n) else .ok n.toNat
  | v => refuse "derivation_length" v (.lengthNotInteger v.shown)

/-- Checks a side of the canvas. -/
def checkSide (name : String) : Value → Except SettingsFault Side
  | .int n =>
    if h : 0 < n.toNat then .ok ⟨n.toNat, h⟩
    else refuse name (.int n) (.sizeNotPositive name (toString n))
  | v => refuse name v (.sizeNotPositive name v.shown)

/-- Checks a measure. -/
def checkMeasure (name : String) (v : Value) : Except SettingsFault Measure :=
  match v.number? with
  | none => .error (.number name .notNumber)
  | some n =>
    if h : n.isFinite = true then .ok ⟨n, h⟩
    else
      match n.toFloat with
      | .error fault => .error (.number name fault)
      | .ok _ => .error (.notFinite name v.printed)

def checkPath : Value → Except SettingsFault Path
  | .text s => .ok (Path.ofText s)
  | _ => .error .notPath

/-- Settings from named values, all of which have to be there. -/
def ofEntries (fields : Fields) : Except SettingsFault Settings := do
  let value := fun name => (fields.get? name).getD .null
  let derivationLength ← checkLength (value "derivation_length")
  let sizeX ← checkSide "size_x" (value "size_x")
  let sizeY ← checkSide "size_y" (value "size_y")
  let sizeZ ← checkSide "size_z" (value "size_z")
  let stepSize ← checkMeasure "step_size" (value "step_size")
  let angleIncrement ← checkMeasure "angle_increment" (value "angle_increment")
  let offsetX ← checkMeasure "offset_x" (value "offset_x")
  let offsetY ← checkMeasure "offset_y" (value "offset_y")
  let outputDir ← checkPath (value "output_dir")
  .ok
    { derivationLength, stepSize, angleIncrement, sizeX, sizeY, sizeZ, offsetX, offsetY
      rainbow := value "rainbow"
      outputDir
      writeMetadata := value "write_metadata"
      showProgress := value "show_progress" }

/-- The names among some fields that no setting has. -/
def unknown (fields : Fields) : List String :=
  fields.names.filter fun name => !names.contains name

/-- Settings from some named values, the others keeping their defaults. -/
def ofFields (fields : Fields) : Except SettingsFault Settings :=
  match unknown fields with
  | name :: _ => .error (.unknownName name)
  | [] => ofEntries (defaults.entries.update fields)

/-- The settings with some of them given other values. -/
def withOverrides (s : Settings) (overrides : Fields) : Except SettingsFault Settings :=
  match unknown overrides with
  | [] => ofEntries (s.entries.update overrides)
  | names => .error (.unknownOverrides (Text.sorted names))

/-- The sides of the canvas. -/
def size (s : Settings) : List Int :=
  [s.sizeX.val, s.sizeY.val, s.sizeZ.val]

/-- The file that a drawing is saved in unless another is named.  Its name holds the number of
generations, which must not have too many digits for that. -/
def outputPath (s : Settings) (name : String) : Except NumberFault Path :=
  if Value.isWritable s.derivationLength then
    .ok (s.outputDir.join s!"{name}_{s.derivationLength}.vox")
  else .error .unwritable

/-- A setting in the words of a log. -/
def shownEntry (s : Settings) (entry : String × Value) : String :=
  let shown :=
    if entry.1 = "output_dir" then s!"PosixPath({Text.quoted s.outputDir.text})"
    else entry.2.shown
  s!"{entry.1}={shown}"

/-- All settings in the words of a log. -/
def shown (s : Settings) : String :=
  "RenderConfig(" ++ ", ".intercalate (s.entries.map s.shownEntry) ++ ")"

end Settings
end VoxelCurve
