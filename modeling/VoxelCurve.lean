import VoxelCurve.Color.Ramp
import VoxelCurve.Color.Tensor
import VoxelCurve.Color.Transfer
import VoxelCurve.CommandLine.Command
import VoxelCurve.CommandLine.Execution
import VoxelCurve.CommandLine.Form
import VoxelCurve.CommandLine.Parse
import VoxelCurve.CommandLine.Program
import VoxelCurve.CommandLine.Token
import VoxelCurve.Decimal.Binary
import VoxelCurve.Decimal.Reading
import VoxelCurve.Decimal.Shortest
import VoxelCurve.Decimal.Written
import VoxelCurve.Files.Name
import VoxelCurve.Files.Path
import VoxelCurve.Files.Tree
import VoxelCurve.Grammar.Derivation
import VoxelCurve.Grammar.LSystem
import VoxelCurve.Grammar.Loose
import VoxelCurve.Grammar.Preset
import VoxelCurve.Grammar.Rule
import VoxelCurve.Grammar.Symbol
import VoxelCurve.Json.Printer
import VoxelCurve.Json.Reader
import VoxelCurve.Machine
import VoxelCurve.Main
import VoxelCurve.Proofs.Color.Ramp
import VoxelCurve.Proofs.CommandLine.Inspection
import VoxelCurve.Proofs.CommandLine.Layers
import VoxelCurve.Proofs.CommandLine.Operand
import VoxelCurve.Proofs.CommandLine.Options
import VoxelCurve.Proofs.CommandLine.Refusals
import VoxelCurve.Proofs.CommandLine.Selection
import VoxelCurve.Proofs.CommandLine.Statistics
import VoxelCurve.Proofs.Decimal.Integer
import VoxelCurve.Proofs.Decimal.Written
import VoxelCurve.Proofs.Files.Name
import VoxelCurve.Proofs.Files.Path
import VoxelCurve.Proofs.Files.Tree
import VoxelCurve.Proofs.Grammar.Derivation
import VoxelCurve.Proofs.Grammar.Document
import VoxelCurve.Proofs.Grammar.File
import VoxelCurve.Proofs.Grammar.Growth
import VoxelCurve.Proofs.Grammar.Homomorphism
import VoxelCurve.Proofs.Grammar.Loading
import VoxelCurve.Proofs.Grammar.Refusal
import VoxelCurve.Proofs.Grammar.Rule
import VoxelCurve.Proofs.Grammar.Sentence
import VoxelCurve.Proofs.Grammar.Stack
import VoxelCurve.Proofs.Grammar.Table
import VoxelCurve.Proofs.Grammar.Walk
import VoxelCurve.Proofs.Json.Encodable
import VoxelCurve.Proofs.Json.Limits
import VoxelCurve.Proofs.Json.Number
import VoxelCurve.Proofs.Json.Proper
import VoxelCurve.Proofs.Json.RoundTrip
import VoxelCurve.Proofs.Json.Scalar
import VoxelCurve.Proofs.Json.Text
import VoxelCurve.Proofs.Json.Writing
import VoxelCurve.Proofs.Render.Abbreviation
import VoxelCurve.Proofs.Render.Acceptance
import VoxelCurve.Proofs.Render.Checks
import VoxelCurve.Proofs.Render.Connected
import VoxelCurve.Proofs.Render.Naming
import VoxelCurve.Proofs.Render.Overrides
import VoxelCurve.Proofs.Render.Painted
import VoxelCurve.Proofs.Render.Palette
import VoxelCurve.Proofs.Render.Recoloring
import VoxelCurve.Proofs.Render.Reference
import VoxelCurve.Proofs.Render.Reproduction
import VoxelCurve.Proofs.Render.Saving
import VoxelCurve.Proofs.Render.Settings
import VoxelCurve.Proofs.Render.Sidecar
import VoxelCurve.Proofs.Render.Tour
import VoxelCurve.Proofs.Render.Validation
import VoxelCurve.Proofs.Run.Script
import VoxelCurve.Proofs.Success
import VoxelCurve.Proofs.Text.Surrogate
import VoxelCurve.Proofs.Text.Utf8
import VoxelCurve.Proofs.Text.Whole
import VoxelCurve.Proofs.Turtle.Connected
import VoxelCurve.Proofs.Turtle.Drawing
import VoxelCurve.Proofs.Turtle.Gradient
import VoxelCurve.Proofs.Turtle.Ideal
import VoxelCurve.Proofs.Turtle.Line
import VoxelCurve.Proofs.Value.Fields
import VoxelCurve.Proofs.Value.Finite
import VoxelCurve.Proofs.Volume.Buffer
import VoxelCurve.Proofs.Volume.Contents
import VoxelCurve.Proofs.Volume.Extent
import VoxelCurve.Proofs.Volume.Flat
import VoxelCurve.Proofs.Volume.Numbering
import VoxelCurve.Proofs.Volume.Storage
import VoxelCurve.Proofs.Volume.Window
import VoxelCurve.Proofs.Volume.Writes
import VoxelCurve.Proofs.Vox.Arrangement
import VoxelCurve.Proofs.Vox.Canonical
import VoxelCurve.Proofs.Vox.Canvas
import VoxelCurve.Proofs.Vox.Chunk
import VoxelCurve.Proofs.Vox.Column
import VoxelCurve.Proofs.Vox.Confined
import VoxelCurve.Proofs.Vox.Counts
import VoxelCurve.Proofs.Vox.Distinct
import VoxelCurve.Proofs.Vox.Fields
import VoxelCurve.Proofs.Vox.FirstSeen
import VoxelCurve.Proofs.Vox.Layout
import VoxelCurve.Proofs.Vox.Limits
import VoxelCurve.Proofs.Vox.Places
import VoxelCurve.Proofs.Vox.Placing
import VoxelCurve.Proofs.Vox.Reading
import VoxelCurve.Proofs.Vox.Rebuild
import VoxelCurve.Proofs.Vox.RoundTrip
import VoxelCurve.Proofs.Vox.Scan
import VoxelCurve.Proofs.Vox.Single
import VoxelCurve.Proofs.Vox.Truncation
import VoxelCurve.Proofs.Vox.Unpacking
import VoxelCurve.Render.Drawing
import VoxelCurve.Render.Rendering
import VoxelCurve.Render.Saving
import VoxelCurve.Render.Settings
import VoxelCurve.Render.Sidecar
import VoxelCurve.Run.Script
import VoxelCurve.Text.Blank
import VoxelCurve.Text.DecimalDigit
import VoxelCurve.Text.Printable
import VoxelCurve.Text.Quoted
import VoxelCurve.Text.Surrogate
import VoxelCurve.Turtle.Basic
import VoxelCurve.Turtle.Line
import VoxelCurve.Turtle.Loose
import VoxelCurve.Turtle.Paint
import VoxelCurve.Value.Basic
import VoxelCurve.Value.Equality
import VoxelCurve.Value.Nested
import VoxelCurve.Value.Number
import VoxelCurve.Value.Shown
import VoxelCurve.Volume.Assignment
import VoxelCurve.Volume.Buffer
import VoxelCurve.Volume.Contents
import VoxelCurve.Volume.Extent
import VoxelCurve.Volume.Flat
import VoxelCurve.Volume.Kind
import VoxelCurve.Volume.Selection
import VoxelCurve.Volume.Voxel
import VoxelCurve.Vox.Chunk
import VoxelCurve.Vox.Column
import VoxelCurve.Vox.Decoding
import VoxelCurve.Vox.Encoding
import VoxelCurve.Vox.Model
import VoxelCurve.Vox.Scan
import VoxelCurve.Vox.Table
import VoxelCurve.Vox.Word
