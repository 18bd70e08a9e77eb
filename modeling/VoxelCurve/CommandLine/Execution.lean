import VoxelCurve.CommandLine.Command
import VoxelCurve.Grammar.Loose
import VoxelCurve.Grammar.Preset
import VoxelCurve.Render.Saving
import VoxelCurve.Vox.Decoding

/-!
Carrying out commands.

A command becomes a script, made from what the files it reads hold.  A fault of the grammar,
the settings, the drawing or a file's format ends the program with status two, and one of
the files themselves with status one; anything else is not caught, a line that cannot be printed
among it.
-/

namespace VoxelCurve
namespace CommandLine

/-- Why a command failed. -/
inductive CommandFault where
  /-- rules without an axiom to start from -/
  | rulesAlone
  /-- neither a grammar nor an axiom was named -/
  | noStart
  | preset (fault : UnknownPreset)
  | grammar (fault : GrammarFault)
  /-- a document past the limits of its reader -/
  | document (fault : Json.ReadFault)
  | settings (fault : SettingsFault)
  | length (fault : LengthFault)
  | render (fault : RenderFault)
  | format (fault : Vox.FormatFault)
  | file (error : FileError)
  /-- a part of a sidecar that should be an object -/
  | notObject
  /-- a line that the output cannot encode -/
  | output (line : String)
deriving Repr, DecidableEq

namespace CommandFault

def message : CommandFault → String
  | rulesAlone => "--rule can only be used together with --axiom"
  | noStart => "there is no axiom"
  | preset fault => fault.message
  | grammar fault => fault.message
  | document fault => fault.message
  | settings fault => fault.message
  | length fault => fault.message
  | render fault => fault.message
  | format fault => fault.message
  | file error => error.message
  | notObject => "a part of the metadata is no object"
  | output line => "the output cannot encode " ++ Text.quoted line

end CommandFault

/-- Whether settings were refused by their own rules. -/
def isRefusedSetting : SettingsFault → Bool
  | .unknownName _ | .number _ _ | .notPath => false
  | _ => true

/-- Whether a drawing failed by the rules of the canvas or the file format. -/
def isRefusedDrawing : RenderFault → Bool
  | .canvas (.overflow _ _) => true
  | .turtle (.canvas (.address _)) => true
  | .encode (.tooManyVoxels _) | .encode (.tooWide _) | .encode (.tooManyColors _) => true
  | .encode .coordinateTooLarge => true
  | _ => false

/-- The status that a fault ends the program with, if it is caught. -/
def CommandFault.status? : CommandFault → Option Nat
  | rulesAlone | preset _ | format _ => some 2
  | grammar fault => if fault.isRefusal then some 2 else none
  | length (.negative _) => some 2
  | settings fault => if isRefusedSetting fault then some 2 else none
  | render fault => if isRefusedDrawing fault then some 2 else none
  | file error => if error.fault.isOfSystem then some 1 else none
  | noStart | length _ | document _ | notObject | output _ => none

/-- What is read from the files. -/
abbrev Contents := Path → Except FileError (List UInt8)

abbrev CommandScript := Script CommandFault

/-- The source of the lines that commands add to the log. -/
def logSource : String := "voxgen.cli"

/-- Reads the grammar in a file. -/
def loadGrammar (m : Machine) (contents : Contents) (p : Path) : CommandScript LSystem :=
  match contents p with
  | .error e => .fail (.file e)
  | .ok bytes =>
    match LSystem.ofBytes m.readingDepth bytes p.text with
    | .error fault => .fail (.document fault)
    | .ok reading => (Script.ofReading reading).mapError .grammar

namespace GrammarChoice

/-- A text that was given and is not empty. -/
def filled? (text? : Option String) : Option String :=
  text?.filter fun s => !s.isEmpty

/-- The grammar that is meant, with the settings that come with it. -/
def source (c : GrammarChoice) (m : Machine) (contents : Contents) :
    CommandScript (LSystem × Fields) :=
  match filled? c.preset?, c.file?, c.start? with
  | some name, _, _ =>
    match Preset.find name with
    | .ok preset => .done (preset.system, preset.options)
    | .error fault => .fail (.preset fault)
  | none, some file, _ => do
    let g ← loadGrammar m contents (Path.ofText file)
    pure (g, [])
  | none, none, some start => do
    let name := (filled? c.name?).getD "lsystem"
    let g ← (Script.ofReading
      (LSystem.ofValues (.text name) (.text start) (.list c.rules))).mapError .grammar
    pure (g, [])
  | none, none, none => .fail .noStart

/-- The grammar that is meant, under the name it is to have. -/
def resolve (c : GrammarChoice) (m : Machine) (contents : Contents) :
    CommandScript (LSystem × Fields) :=
  if !c.rules.isEmpty && (filled? c.start?).isNone then .fail .rulesAlone
  else do
    let (g, options) ← c.source m contents
    let name := (filled? c.name?).elim g.name Value.text
    pure ({ g with name }, options)

end GrammarChoice

namespace RenderArguments

def radians (degrees : Float) : Float :=
  degrees * (3.141592653589793 / 180.0)

/-- A setting that was given. -/
def given (name : String) (value? : Option Value) : Fields :=
  value?.toList.map fun v => (name, v)

/-- The turning angle that was given. -/
def angleFields (angle? : Option Value) : Except SettingsFault Fields :=
  match angle? with
  | none => .ok []
  | some v =>
    match v.toFloat with
    | .ok degrees => .ok [("angle_increment", .float (radians degrees))]
    | .error fault => .error (.number "angle_increment" fault)

/-- The settings that the options give.  Three of them always come from there. -/
def fields (r : RenderArguments) : Except SettingsFault Fields := do
  let angle ← angleFields r.angle?
  .ok
    (given "derivation_length" r.derivationLength? ++
      given "step_size" r.stepSize? ++
      given "size_x" r.sizeX? ++
      given "size_y" r.sizeY? ++
      given "size_z" r.sizeZ? ++
      given "offset_x" r.offsetX? ++
      given "offset_y" r.offsetY? ++
      angle ++
      given "rainbow" (r.rainbow?.map .bool) ++
      [("output_dir", r.outputDir), ("write_metadata", .bool !r.noMetadata),
       ("show_progress", .bool r.progress)])

/-- The settings of a drawing: those of the options win over those that come with the
grammar. -/
def settings (r : RenderArguments) (options : Fields) : Except SettingsFault Settings := do
  let fields ← r.fields
  Settings.defaults.withOverrides (options.update fields)

end RenderArguments

def percent (x : Float) : String :=
  Decimal.fixed 2 (x * 100.0) ++ "%"

/-- Tells what was saved. -/
def sayAll : List String → CommandScript Unit
  | [] => pure ()
  | line :: rest => do
    Script.say line
    sayAll rest

def savedLines (saved : Saved) : List String :=
  let r := saved.rendering
  let metadata := saved.metadataPath?.toList.map fun p => "  Metadata: " ++ p.text
  ["Wrote " ++ saved.voxPath.text,
   "  Commands: " ++ Decimal.grouped r.numCommands,
   "  Voxels: " ++ Decimal.grouped r.numVoxels ++ " (" ++ percent r.occupancyRatio ++
     " occupancy)",
   "  Colors: " ++ toString r.numColors] ++ metadata

/-- Renders a grammar to a file. -/
def render (m : Machine) (contents : Contents) (r : RenderArguments) : CommandScript Unit := do
  let (g, options) ← r.grammar.resolve m contents
  let s ← Script.of ((r.settings options).mapError .settings)
  Script.log .debug logSource ("Render config: " ++ s.shown)
  let saved ← (g.renderToFile s (r.output?.map Path.ofText) m).mapError .render
  sayAll (savedLines saved)

/-- Prints the sentence of a generation. -/
def derive (m : Machine) (contents : Contents) (c : GrammarChoice) (length : Value) :
    CommandScript Unit := do
  let (g, _) ← c.resolve m contents
  let n ← Script.of (length.toLength.mapError .length)
  Script.say (g.productions.walk n g.start).text

def presetLines (p : Preset) : List String :=
  [p.name ++ ": " ++ p.description, "  axiom: " ++ p.system.start.text] ++
    p.system.rules.map ("  rule:  " ++ ·)

/-- Lists the built-in grammars. -/
def presets : CommandScript Unit :=
  sayAll (Preset.all.flatMap presetLines)

def modelLines (p : Path) (m : Vox.Model) : List String :=
  [p.text,
   "  Version: " ++ toString m.version.toNat,
   "  Size: " ++ " x ".intercalate (m.sides.map toString),
   "  Voxels: " ++ Decimal.grouped m.numVoxels,
   "  Colors: " ++ toString m.numColors]

/-- A field that has to be an object, and is an empty one when missing. -/
def objectField (fields : Fields) (name : String) : CommandScript Fields :=
  match (fields.get? name).getD (.object []) with
  | .object inner => .done inner
  | _ => .fail .notObject

/-- A field as it is printed. -/
def printedField (fields : Fields) (name : String) : String :=
  ((fields.get? name).getD .null).printed

/-- Tells what a sidecar says of the grammar. -/
def sayMetadata : Value → CommandScript Unit
  | .object metadata => do
    let grammar ← objectField metadata "grammar"
    Script.say ("  Grammar: " ++ printedField grammar "name" ++ " (axiom " ++
      printedField grammar "axiom" ++ ")")
    let settings ← objectField metadata "render"
    Script.say ("  Generations: " ++ printedField settings "derivation_length")
  | _ => .fail .notObject

/-- Tells what is in the sidecar beside a file, if there is one that can be read. -/
def inspectSidecar (m : Machine) (contents : Contents) (p : Path) : CommandScript Unit :=
  match contents p with
  | .error e =>
    match e.fault with
    | .notFound | .notDirectory | .zeroCharacter | .notEncodable => .done ()
    | _ => .fail (.file e)
  | .ok bytes =>
    match Sidecar.read m.readingDepth bytes with
    | .ok v => sayMetadata v
    | .error .tooDeep => .fail (.document .tooDeep)
    | .error _ => Script.log .warning logSource ("Ignoring unreadable metadata " ++ p.text)

/-- Summarizes a file. -/
def inspect (m : Machine) (contents : Contents) (p : Path) : CommandScript Unit := do
  let bytes ← Script.of ((contents p).mapError .file)
  let model ← Script.of ((Vox.decode bytes).mapError .format)
  sayAll (modelLines p model)
  let sidecar ← Script.of (p.sidecar.mapError .render)
  inspectSidecar m contents sidecar

/-- The script of a command. -/
def Command.script (m : Machine) (contents : Contents) : Command → CommandScript Unit
  | .render r => CommandLine.render m contents r
  | .derive c length => CommandLine.derive m contents c length
  | .presets => CommandLine.presets
  | .inspect path => CommandLine.inspect m contents (Path.ofText path)

/-- The files that a command reads. -/
def Command.inputs : Command → List Path
  | .render r => r.grammar.file?.toList.map Path.ofText
  | .derive c _ => c.file?.toList.map Path.ofText
  | .presets => []
  | .inspect path =>
    let p := Path.ofText path
    p :: p.sidecar.toOption.toList

end CommandLine
end VoxelCurve
