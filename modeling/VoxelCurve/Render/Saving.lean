import VoxelCurve.Render.Rendering
import VoxelCurve.Render.Sidecar

/-!
Saving drawings and grammars as files.

A drawing is made before anything is written.  Then the directories are made, the canvas is
scanned, and the file and its sidecar are written, in this order, so that a drawing the
format has no room for leaves no file.
-/

namespace VoxelCurve

/-- A drawing with the files it was saved in. -/
structure Saved where
  rendering : Rendering
  voxPath : Path
  metadataPath? : Option Path

/-- The path of the sidecar beside a file. -/
def Path.sidecar (p : Path) : Except RenderFault Path :=
  match p.withSuffix? ".json" with
  | some sidecar => .ok sidecar
  | none => .error (.noName p.text)

namespace Settings

/-- The path that a drawing is saved at unless another is named.  The directory for drawings
is made. -/
def preparePath (s : Settings) (name : String) : Script RenderFault Path := do
  Script.makeDirectory s.outputDir
  Script.of ((s.outputPath name).mapError .length)

/-- The path of the sidecar of such a drawing. -/
def prepareSidecarPath (s : Settings) (name : String) : Script RenderFault Path := do
  let p ← s.preparePath name
  Script.of p.sidecar

end Settings

namespace LSystem

/-- Writes the document of a grammar, and before it the directory it lies in. -/
def save {ε : Type} (g : LSystem) (p : Path) : Script ε Unit :=
  Sidecar.save p g.toValue

/-- The sidecar of a drawing. -/
def sidecar (g : LSystem) (s : Settings) (r : Rendering) (createdAt : String) (voxPath : Path) :
    Value :=
  Sidecar.document createdAt g.toValue s.entries r.stats (.text (voxPath.name?.getD ""))

/-- Saves the sidecar of a drawing, if that is asked for. -/
def saveSidecar (g : LSystem) (s : Settings) (r : Rendering) (createdAt : String)
    (voxPath : Path) : Script RenderFault (Option Path) :=
  if s.writeMetadata.isGiven then do
    let p ← Script.of voxPath.sidecar
    Sidecar.save p (g.sidecar s r createdAt voxPath)
    pure (some p)
  else pure none

/-- The path to save a drawing at. -/
def choosePath (g : LSystem) (s : Settings) (output? : Option Path) : Script RenderFault Path :=
  match output? with
  | some p => pure p
  | none => s.preparePath g.name.printed

/-- Saves a drawing that is made. -/
def saveRendering (g : LSystem) (s : Settings) (output? : Option Path) (createdAt : String)
    (r : Rendering) : Script RenderFault Saved := do
  let voxPath ← g.choosePath s output?
  Script.makeDirectory voxPath.parent
  let bytes ← Script.of ((r.model.bind Vox.Model.encode).mapError .encode)
  Script.write voxPath bytes
  Script.log .info Rendering.logSource s!"Saved {voxPath.text}"
  let metadataPath? ← g.saveSidecar s r createdAt voxPath
  pure ⟨r, voxPath, metadataPath?⟩

/-- Makes a drawing and saves it. -/
def renderToFile (g : LSystem) (s : Settings) (output? : Option Path) (m : Machine) :
    Script RenderFault Saved := do
  let r ← g.render s m.compass
  g.saveRendering s output? m.time r

end LSystem
end VoxelCurve
