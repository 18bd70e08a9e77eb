import VoxelCurve.Json.Printer
import VoxelCurve.Json.Reader
import VoxelCurve.Run.Script

/-!
Sidecars: documents beside the files of a drawing that say how it was made.

A sidecar holds the grammar, the settings that a drawing depends on and its statistics.  A
setting that is not given is nothing there, and a statistic that is not given is zero.
-/

namespace VoxelCurve
namespace Sidecar

def generator : String := "voxgen"

def version : String := "0.1.0"

/-- The settings that a drawing depends on. -/
def settingNames : List String :=
  ["derivation_length", "step_size", "angle_increment", "size_x", "size_y", "size_z",
   "offset_x", "offset_y", "rainbow"]

/-- The statistics, with what they are when not given. -/
def statDefaults : Fields :=
  [("num_commands", .int 0), ("num_voxels", .int 0), ("num_colors", .int 0),
   ("occupancy_ratio", .float 0.0), ("final_position", .null)]

/-- The settings among some fields that a drawing depends on. -/
def settings (fields : Fields) : Fields :=
  settingNames.map fun name => (name, (fields.get? name).getD .null)

def stats (fields : Fields) : Fields :=
  statDefaults.map fun d => (d.1, (fields.get? d.1).getD d.2)

/-- The document, which also says when it was made. -/
def document (createdAt : String) (grammar : Value) (config statistics : Fields)
    (voxFile : Value) : Value :=
  .object
    [("generator", .text generator), ("version", .text version),
     ("created_at", .text createdAt), ("vox_file", voxFile), ("grammar", grammar),
     ("render", .object (settings config)), ("stats", .object (stats statistics))]

/-- Writes a document, and before it the directory it lies in. -/
def save {ε : Type} (p : Path) (document : Value) : Script ε Unit := do
  Script.makeDirectory p.parent
  Script.writeText p (Json.pieces 0 document)

/-- Reads a document. -/
def read (depth : Nat) (bytes : List UInt8) : Except Json.ReadFault Value :=
  Json.readBytes depth bytes

end Sidecar
end VoxelCurve
