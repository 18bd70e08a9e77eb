import VoxelCurve.Render.Drawing
import VoxelCurve.Run.Script
import VoxelCurve.Vox.Encoding

/-!
Renderings: drawn canvases with their statistics.
-/

namespace VoxelCurve

/-- A drawn canvas. -/
structure Rendering where
  name : Value
  canvas : Canvas
  /-- the length of the sentence that was drawn -/
  numCommands : Nat
  finalPosition : Point

namespace Rendering

/-- The channel that holds the alpha. -/
def alpha : Fin (Kind.size .rgba) := ⟨3, Nat.lt_succ_self 3⟩

def numVoxels (r : Rendering) : Nat :=
  r.canvas.countAt alpha

/-- How many colors the opaque voxels have. -/
def numColors (r : Rendering) : Nat :=
  (Vox.firstSeen (r.canvas.opaqueRecords.map (·.2))).length

/-- The part of the canvas that is opaque. -/
def occupancyRatio (r : Rendering) : Float :=
  let total := r.canvas.extent.count
  if total = 0 then 0.0 else Float.ofNat r.numVoxels / Float.ofNat total

def model (r : Rendering) : Except Vox.EncodeFault Vox.Model :=
  Vox.scanCanvas r.canvas

/-- The statistics by name, in their order. -/
def stats (r : Rendering) : Fields :=
  [("num_commands", .int r.numCommands),
   ("num_voxels", .int r.numVoxels),
   ("num_colors", .int r.numColors),
   ("occupancy_ratio", .float r.occupancyRatio),
   ("final_position", .list [.int r.finalPosition.x, .int r.finalPosition.y])]

/-- The source of the lines that a rendering adds to the log. -/
def logSource : String := "voxgen.pipeline"

end Rendering

namespace LSystem

open Rendering (logSource)

/-- The drawing of a sentence by a turtle that is ready. -/
def drawn (g : LSystem) (s : Settings) (commands : Sentence) (t : Turtle) :
    Except RenderFault Rendering :=
  match s.interpretAll s.ramp? 0 commands t with
  | ⟨some fault, _⟩ => .error (.turtle fault)
  | ⟨none, t⟩ => .ok ⟨g.name, t.canvas, commands.length, t.position⟩

/-- Derives a sentence and draws it. -/
def render (g : LSystem) (s : Settings) (compass : Compass) : Script RenderFault Rendering := do
  let commands := g.generation s.derivationLength
  let length := commands.length
  Script.log .info logSource
    s!"Rendering {g.name.printed}: {length} commands after {s.derivationLength} generations"
  let t ← Script.of (s.turtle compass)
  let position := Value.shownTuple [t.x, t.y]
  Script.log .debug logSource s!"Turtle starts at {position}"
  let r ← Script.of (g.drawn s commands t)
  Script.log .info logSource
    s!"Rendered {g.name.printed}: {r.numVoxels} voxels, {r.numColors} colors"
  pure r

end LSystem
end VoxelCurve
