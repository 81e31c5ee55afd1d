import TraceTimeline.FileSystem.Tree
import TraceTimeline.Main
import TraceTimeline.Proofs.Json.Record
import TraceTimeline.Proofs.Json.Reading
import TraceTimeline.Proofs.Json.Writing
import TraceTimeline.Proofs.Json.Alike
import TraceTimeline.Proofs.Json.Nesting
import TraceTimeline.Proofs.Json.Numbers
import TraceTimeline.Proofs.Json.Parts
import TraceTimeline.Proofs.Text.Blank
import TraceTimeline.Proofs.Step.Record
import TraceTimeline.Proofs.Step.Spelling
import TraceTimeline.Proofs.Step.ReadBack
import TraceTimeline.Proofs.Diff.Encoding
import TraceTimeline.Proofs.Frame.Decoding
import TraceTimeline.Proofs.Step.Wire
import TraceTimeline.Proofs.Request.Wire
import TraceTimeline.Proofs.Step.Alike
import TraceTimeline.Proofs.Json.Exchange
import TraceTimeline.Proofs.Sync.Wire
import TraceTimeline.Proofs.Sync.NormalForm
import TraceTimeline.Proofs.Timeline.Chronicle
import TraceTimeline.Proofs.Timeline.LineIndex
import TraceTimeline.Proofs.Timeline.Search
import TraceTimeline.Proofs.Timeline.View
import TraceTimeline.Proofs.Timeline.Arrival
import TraceTimeline.Proofs.Timeline.Reconstruction
import TraceTimeline.Proofs.Timeline.WellFormed
import TraceTimeline.Proofs.Engine.Reachable
import TraceTimeline.Proofs.Timeline.Retained
import TraceTimeline.Proofs.Timeline.Bounded
import TraceTimeline.Proofs.Timeline.Redelivery
import TraceTimeline.Proofs.Timeline.Replacement
import TraceTimeline.Proofs.Engine.SyncBarrier
import TraceTimeline.Proofs.Engine.Visible
import TraceTimeline.Proofs.Engine.Annotations
import TraceTimeline.Proofs.Engine.Highlight
import TraceTimeline.Proofs.Timeline.Newest
import TraceTimeline.Proofs.Timeline.Lookup
import TraceTimeline.Proofs.Timeline.Position
import TraceTimeline.Proofs.Timeline.CarryOver
import TraceTimeline.Proofs.Timeline.LastWriter
import TraceTimeline.Proofs.Engine.Cursor
import TraceTimeline.Proofs.Engine.Following
import TraceTimeline.Proofs.Engine.Nodes
import TraceTimeline.Proofs.Engine.Generations
import TraceTimeline.Proofs.Engine.Resuming
import TraceTimeline.Proofs.Engine.Restart
import TraceTimeline.Proofs.Engine.Feed
import TraceTimeline.Proofs.CommandLine.Inspection
import TraceTimeline.Proofs.Output.Entries
import TraceTimeline.Proofs.Output.Sealing
import TraceTimeline.Proofs.Output.Identity
import TraceTimeline.Proofs.Engine.Output
import TraceTimeline.Proofs.Engine.Epoch
import TraceTimeline.Proofs.Terminal.View
import TraceTimeline.Proofs.Terminal.Log
import TraceTimeline.Proofs.Terminal.Screen
import TraceTimeline.Proofs.Session.SealedOutput
import TraceTimeline.Proofs.Terminal.Cursor
import TraceTimeline.Proofs.Text.Numeral
import TraceTimeline.Proofs.Operator.Command
