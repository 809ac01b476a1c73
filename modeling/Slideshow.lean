import Slideshow.CommandLine.Basic
import Slideshow.CommandLine.Grammar
import Slideshow.CommandLine.Report
import Slideshow.CommandLine.Run
import Slideshow.CommandLine.Snapshot
import Slideshow.Config
import Slideshow.Config.Document
import Slideshow.Config.File
import Slideshow.Decimal.Binary
import Slideshow.Decimal.Fixed
import Slideshow.Decimal.Reader
import Slideshow.Decimal.Shortest
import Slideshow.Document
import Slideshow.Effect.Catalog
import Slideshow.Effect.Options
import Slideshow.Effect.Spec
import Slideshow.Encode.Arguments
import Slideshow.Encode.Basic
import Slideshow.Encode.Progress
import Slideshow.Error
import Slideshow.Event
import Slideshow.EventBus
import Slideshow.Graph.Basic
import Slideshow.Graph.Camera
import Slideshow.Graph.Compile
import Slideshow.Graph.Expression
import Slideshow.Graph.Layer
import Slideshow.Graph.Timeline
import Slideshow.JobId
import Slideshow.Json.Number
import Slideshow.Json.Parser
import Slideshow.Json.Printer
import Slideshow.Json.Quoted
import Slideshow.Ledger.Entry
import Slideshow.Ledger.Store
import Slideshow.Machine.Basic
import Slideshow.Machine.Change
import Slideshow.Machine.FileTree
import Slideshow.Machine.Workspace
import Slideshow.Main
import Slideshow.Narration.Duration
import Slideshow.Narration.Format
import Slideshow.Narration.Merge
import Slideshow.Narration.Probe
import Slideshow.Path
import Slideshow.Render.Job
import Slideshow.Render.Request
import Slideshow.Render.Service
import Slideshow.Scalar
import Slideshow.Text.Blank
import Slideshow.Text.Escaped
import Slideshow.Text.Unprintable
import Slideshow.Text.Utf8
import Slideshow.Timestamp
import Slideshow.Toml.Parser
import Slideshow.Toml.Quoted
import Slideshow.Toml.Scalar
import Slideshow.Toml.Tree
import Slideshow.Tool.Command
import Slideshow.Tool.Process
import Slideshow.Tool.Registry
import Slideshow.Proofs.Graph.Label
import Slideshow.Proofs.Graph.Stages
import Slideshow.Proofs.Graph.Linear
import Slideshow.Proofs.Graph.Valuation
import Slideshow.Proofs.Graph.Meaning
import Slideshow.Proofs.Exact
import Slideshow.Proofs.Graph.Length
import Slideshow.Proofs.Binary
import Slideshow.Proofs.Graph.Arguments
import Slideshow.Proofs.Graph.Reader
import Slideshow.Proofs.Numeral
import Slideshow.Proofs.Graph.Evaluation
import Slideshow.Proofs.Graph.Camera
import Slideshow.Proofs.Order
import Slideshow.Proofs.Rounding
import Slideshow.Proofs.Division
import Slideshow.Proofs.Shortest
import Slideshow.Proofs.Trial
import Slideshow.Proofs.Narration.Duration
import Slideshow.Proofs.Thread
import Slideshow.Proofs.Text
import Slideshow.Proofs.Json.Quoted
import Slideshow.Proofs.Json.Number
import Slideshow.Proofs.Json.Printed
import Slideshow.Proofs.Json.Rounded
import Slideshow.Proofs.Calendar
import Slideshow.Proofs.Timestamp
import Slideshow.Proofs.JobId
import Slideshow.Proofs.Document
import Slideshow.Proofs.Machine.Place
import Slideshow.Proofs.Machine.Operations
import Slideshow.Proofs.Machine.Above
import Slideshow.Proofs.Machine.Reads
import Slideshow.Proofs.Machine.Steps
import Slideshow.Proofs.Tool.Following
import Slideshow.Proofs.Ledger.Entry
import Slideshow.Proofs.Ledger.Format
import Slideshow.Proofs.Ledger.Steps
import Slideshow.Proofs.Ledger.Store
import Slideshow.Proofs.Ledger.Refusal
import Slideshow.Proofs.Ledger.Replacement
import Slideshow.Proofs.Ledger.Aside
import Slideshow.Proofs.Ledger.Failure
import Slideshow.Proofs.Ledger.Shared
import Slideshow.Proofs.Render.Progress
import Slideshow.Proofs.Render.Course
import Slideshow.Proofs.Render.Places
import Slideshow.Proofs.Render.Names
import Slideshow.Proofs.Render.Standing
import Slideshow.Proofs.Render.Cleanup
import Slideshow.Proofs.Render.Agreement
import Slideshow.Proofs.Render.Validation
import Slideshow.Proofs.Tool.Calls
import Slideshow.Proofs.Render.Order
import Slideshow.Proofs.Machine.Scratch
import Slideshow.Proofs.Render.Scratch
import Slideshow.Proofs.Tool.Ways
import Slideshow.Proofs.Render.Ending
import Slideshow.Proofs.Ledger.Crowd
import Slideshow.Proofs.Effect.Options
import Slideshow.Proofs.Config
import Slideshow.Proofs.Arithmetic
import Slideshow.Proofs.Graph.Fit
import Slideshow.Proofs.Graph.Words
import Slideshow.Proofs.Graph.Template
import Slideshow.Proofs.Graph.Definite
import Slideshow.Proofs.Graph.Numbers
import Slideshow.Proofs.Graph.Geometry
import Slideshow.Proofs.Graph.Pads
import Slideshow.Proofs.Encode.Invocation
import Slideshow.Proofs.Graph.Window
import Slideshow.Proofs.Graph.Ramp
import Slideshow.Proofs.Graph.Shake
import Slideshow.Proofs.Monotone
import Slideshow.Proofs.Narration.Estimate
import Slideshow.Proofs.Render.Job
import Slideshow.Proofs.Encode.Progress
import Slideshow.Proofs.Narration.Record
import Slideshow.Proofs.Narration.Manifest
import Slideshow.Proofs.Narration.Requests
import Slideshow.Proofs.Narration.Joining
import Slideshow.Proofs.Narration.Stopping
import Slideshow.Proofs.EventBus
import Slideshow.Proofs.Render.Request
import Slideshow.Proofs.Graph.Rendered
import Slideshow.Proofs.Encode.Lengths
import Slideshow.Proofs.Tool.Description
import Slideshow.Proofs.Tool.Tail
import Slideshow.Proofs.Message
import Slideshow.Proofs.Narration.Timecode
import Slideshow.Proofs.Spelling
import Slideshow.Proofs.CommandLine.Failure
