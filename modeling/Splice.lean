import Splice.Color
import Splice.Command.Grammar
import Splice.Command.Request
import Splice.Command.Run
import Splice.Config.Basic
import Splice.Config.File
import Splice.Failure
import Splice.Host.Basic
import Splice.Host.FileTree
import Splice.Host.Memory
import Splice.Host.OsError
import Splice.Job.Arguments
import Splice.Job.Basic
import Splice.Job.Encode
import Splice.Job.Filter
import Splice.Job.Graph
import Splice.Job.Quoting
import Splice.Json.Basic
import Splice.Json.Literal
import Splice.Json.Parse
import Splice.Json.Print
import Splice.Json.Record
import Splice.Json.Token
import Splice.Main
import Splice.Media.Info
import Splice.Media.Report
import Splice.Number.Binary64
import Splice.Number.Decimal
import Splice.Number.Reading
import Splice.Number.Scalar
import Splice.Number.Shortest
import Splice.Number.Word
import Splice.Path
import Splice.Plan.Canvas
import Splice.Plan.ClipView
import Splice.Plan.Composition
import Splice.Plan.Cursor
import Splice.Plan.Encode
import Splice.Plan.Entry
import Splice.Plan.Layers
import Splice.Plan.Transition
import Splice.Proofs.Colors
import Splice.Proofs.Command.Approval
import Splice.Proofs.Config.Defaults
import Splice.Proofs.Diagnostics
import Splice.Proofs.Host.Files
import Splice.Proofs.Job.Escapes
import Splice.Proofs.Job.FileLists
import Splice.Proofs.Job.Options
import Splice.Proofs.Job.Tempo
import Splice.Proofs.Job.WrittenTexts
import Splice.Proofs.Json.Documents
import Splice.Proofs.Json.Literals
import Splice.Proofs.Json.Records
import Splice.Proofs.Json.Strings
import Splice.Proofs.Number.Digits
import Splice.Proofs.Number.Doubles
import Splice.Proofs.Number.Exact
import Splice.Proofs.Number.Finite
import Splice.Proofs.Number.Halving
import Splice.Proofs.Number.Millionths
import Splice.Proofs.Number.Numerals
import Splice.Proofs.Number.Order
import Splice.Proofs.Number.Places
import Splice.Proofs.Number.Rounding
import Splice.Proofs.Number.Separated
import Splice.Proofs.Plan.Acceptance
import Splice.Proofs.Plan.CanvasFields
import Splice.Proofs.Plan.Coverage
import Splice.Proofs.Plan.Insertion
import Splice.Proofs.Plan.Layers
import Splice.Proofs.Plan.PaintOrder
import Splice.Proofs.Plan.Seams
import Splice.Proofs.Plan.StyleNames
import Splice.Proofs.Plan.TrackOrder
import Splice.Proofs.Raster.BoxShapes
import Splice.Proofs.Raster.Rows
import Splice.Proofs.Render.Assembly
import Splice.Proofs.Render.BlendedEdges
import Splice.Proofs.Render.Course
import Splice.Proofs.Render.Decoration
import Splice.Proofs.Render.Delivery
import Splice.Proofs.Render.Duration
import Splice.Proofs.Render.EdgeFades
import Splice.Proofs.Render.Exchanges
import Splice.Proofs.Render.Failures
import Splice.Proofs.Render.FreshFiles
import Splice.Proofs.Render.FreshPaths
import Splice.Proofs.Render.Keyframes
import Splice.Proofs.Render.Likeness
import Splice.Proofs.Render.Lineage
import Splice.Proofs.Render.Logging
import Splice.Proofs.Render.Outcomes
import Splice.Proofs.Render.Progress
import Splice.Proofs.Render.Provenance
import Splice.Proofs.Render.Refusals
import Splice.Proofs.Render.Relocation
import Splice.Proofs.Render.Rotations
import Splice.Proofs.Render.Run
import Splice.Proofs.Render.SegmentLength
import Splice.Proofs.Render.Sparing
import Splice.Proofs.Render.Success
import Splice.Proofs.Render.Supplies
import Splice.Proofs.Render.Tasks
import Splice.Proofs.Render.Threading
import Splice.Proofs.Render.Traces
import Splice.Proofs.Render.WellFormed
import Splice.Proofs.Render.Works
import Splice.Proofs.Samples
import Splice.Proofs.Sorting
import Splice.Proofs.Text.Lowercase
import Splice.Proofs.Text.Trim
import Splice.Proofs.Text.Words
import Splice.Proofs.Timeline.CurveLaw
import Splice.Proofs.Timeline.Durations
import Splice.Proofs.Timeline.Edits
import Splice.Proofs.Timeline.Formulas
import Splice.Proofs.Timeline.KeptSamples
import Splice.Proofs.Timeline.Loaded
import Splice.Proofs.Timeline.PixelBoxes
import Splice.Proofs.Timeline.Ranges
import Splice.Proofs.Timeline.ReadBack
import Splice.Proofs.Timeline.Rearrangement
import Splice.Proofs.Timeline.SavedFiles
import Splice.Proofs.Timeline.SourceWindows
import Splice.Raster.Ellipse
import Splice.Raster.Line
import Splice.Raster.Picture
import Splice.Raster.Png
import Splice.Raster.Polygon
import Splice.Render.Assembly
import Splice.Render.Footage
import Splice.Render.Painting
import Splice.Render.Placement
import Splice.Render.Rehearsal
import Splice.Render.Session
import Splice.Render.Sound
import Splice.Render.Stage
import Splice.Render.Studio
import Splice.Render.Trace
import Splice.Shape
import Splice.Storage.Basic
import Splice.Storage.Manifest
import Splice.Text.Blank
import Splice.Text.Hidden
import Splice.Text.Lowercase
import Splice.Text.Quoted
import Splice.Timeline.Area
import Splice.Timeline.Clip
import Splice.Timeline.Curve
import Splice.Timeline.Decode
import Splice.Timeline.Effects
import Splice.Timeline.Encode
import Splice.Timeline.Expression
import Splice.Timeline.File
import Splice.Timeline.Project
import Splice.Timeline.Settings
import Splice.Timeline.Validation
import Splice.Tool.Engine
