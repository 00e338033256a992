import HotLoop.Analysis.Complexity
import HotLoop.Analysis.Roles
import HotLoop.Cli.Command
import HotLoop.Cli.Flags
import HotLoop.Compile.Artifact
import HotLoop.Compile.Cache
import HotLoop.Compile.Code
import HotLoop.Compile.Listing
import HotLoop.Compile.Run
import HotLoop.Config.Basic
import HotLoop.Config.Decode
import HotLoop.Dispatch.Core
import HotLoop.Dispatch.Monitor
import HotLoop.Dispatch.Profile
import HotLoop.Dispatch.State
import HotLoop.Error
import HotLoop.Eval.Builtin
import HotLoop.Eval.Exec
import HotLoop.Eval.Pass
import HotLoop.Eval.Program
import HotLoop.Float.Binary
import HotLoop.Float.Double
import HotLoop.Float.Log
import HotLoop.Float.Shortest
import HotLoop.Float.Text
import HotLoop.Memory.Arena
import HotLoop.Memory.Command
import HotLoop.Memory.Frame
import HotLoop.Memory.Manager
import HotLoop.Memory.Table
import HotLoop.Op
import HotLoop.Plan.Select
import HotLoop.Plan.Strategy
import HotLoop.Report
import HotLoop.Shape.Basic
import HotLoop.Shape.Hash
import HotLoop.Syntax.Basic
import HotLoop.Syntax.Walk
import HotLoop.Text.Duration
import HotLoop.Text.Lower
import HotLoop.Text.Magnitude
import HotLoop.Text.Printable
import HotLoop.Text.Quote
import HotLoop.Text.Raw
import HotLoop.Value.Arith
import HotLoop.Value.Basic
import HotLoop.Workload.Build
import HotLoop.Workload.Catalog
import HotLoop.Yaml.Decode
import HotLoop.Yaml.Event
import HotLoop.Yaml.Node
import HotLoop.Yaml.Scalar
import HotLoop.Yaml.Token
import HotLoop.Yaml.Token.Lexer
import HotLoop.Yaml.Value
import HotLoop.Main
import HotLoop.Proofs.Syntax.Rename
import HotLoop.Proofs.Memory.Word
import HotLoop.Proofs.Shape.Encoding
import HotLoop.Proofs.Shape.Renaming
import HotLoop.Proofs.Plan.Renaming
import HotLoop.Proofs.Shape.Exact
import HotLoop.Proofs.Memory.Arena
import HotLoop.Proofs.Memory.Store
import HotLoop.Proofs.Shape.Slots
import HotLoop.Proofs.Memory.FrameScope
import HotLoop.Proofs.Memory.Lineage
import HotLoop.Proofs.Memory.Frames
import HotLoop.Proofs.Memory.Allocator
import HotLoop.Proofs.Memory.Slots
import HotLoop.Proofs.Memory.Isolation
import HotLoop.Proofs.Eval.LoopFrame
import HotLoop.Proofs.Dispatch.Effects
import HotLoop.Proofs.Compile.Defect
import HotLoop.Proofs.Dispatch.Steps
import HotLoop.Proofs.Dispatch.Lifecycle
import HotLoop.Proofs.Dispatch.Layout
import HotLoop.Proofs.Compile.Cache
import HotLoop.Proofs.Dispatch.Counters
import HotLoop.Proofs.Dispatch.Gating
import HotLoop.Proofs.Plan.Profile
import HotLoop.Proofs.Dispatch.Hotness
import HotLoop.Proofs.Eval.Balance
import HotLoop.Proofs.Compile.Lanes
import HotLoop.Proofs.Compile.LaneRun
import HotLoop.Proofs.Shape.Assigned
import HotLoop.Proofs.Plan.Reductions
import HotLoop.Proofs.Compile.Vectorize
import HotLoop.Proofs.Eval.Counted
import HotLoop.Proofs.Compile.Unroll
import HotLoop.Proofs.Compile.Strength
import HotLoop.Proofs.Eval.LoopStack
import HotLoop.Proofs.Float.Ratio
import HotLoop.Proofs.Compile.Eviction
import HotLoop.Proofs.Compile.CacheRuns
import HotLoop.Proofs.Eval.Scoped
import HotLoop.Proofs.Workload.Sums
import HotLoop.Proofs.Workload.Nested
import HotLoop.Proofs.Workload.Search
import HotLoop.Proofs.Workload.Answers
