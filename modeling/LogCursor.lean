import LogCursor.Allocation
import LogCursor.Assoc
import LogCursor.Binary64
import LogCursor.Binary64.Fixed
import LogCursor.Binary64.Shortest
import LogCursor.Broker
import LogCursor.Checkpoint
import LogCursor.Client
import LogCursor.CommandLine
import LogCursor.Cycle
import LogCursor.Demonstration
import LogCursor.Drain
import LogCursor.Edge
import LogCursor.Fault
import LogCursor.Json
import LogCursor.Key
import LogCursor.Knot
import LogCursor.Log
import LogCursor.Log.Statement
import LogCursor.Main
import LogCursor.Moment
import LogCursor.Notice
import LogCursor.Numeral
import LogCursor.OffsetMap
import LogCursor.Outcome
import LogCursor.Partition
import LogCursor.Partition.Checked
import LogCursor.Planner
import LogCursor.Planner.Command
import LogCursor.Proofs.Offsets
import LogCursor.Proofs.PartitionOrder
import LogCursor.Proofs.Rounds
import LogCursor.Proofs.Traversal
import LogCursor.Rehearsal
import LogCursor.Reset
import LogCursor.Retention
import LogCursor.Session
import LogCursor.Setting
import LogCursor.Setting.Shown
import LogCursor.Setting.Laying
import LogCursor.Setting.Unfolding
import LogCursor.Settings
import LogCursor.Settings.File
import LogCursor.Settings.Layers
import LogCursor.Source
import LogCursor.Summary
import LogCursor.Template
import LogCursor.Text.Base64
import LogCursor.Text.Blank
import LogCursor.Text.Case
import LogCursor.Text.Digit
import LogCursor.Text.Printable
import LogCursor.Text.Quoted
import LogCursor.Text.Surrogate
import LogCursor.Text.Utf8
import LogCursor.Title
import LogCursor.Yaml.Cursor
import LogCursor.Yaml.Document
import LogCursor.Yaml.Graph
import LogCursor.Yaml.Graph.Cells
import LogCursor.Yaml.Graph.Merge
import LogCursor.Yaml.Graph.Reader
import LogCursor.Yaml.Scalar
import LogCursor.Yaml.Token
import LogCursor.Yaml.Token.Scalar
import LogCursor.Yaml.Token.Stream
import LogCursor.Proofs.ExactAllocation
import LogCursor.Proofs.Answers
import LogCursor.Proofs.CheckpointText
import LogCursor.Proofs.Advance
import LogCursor.Proofs.Planning
import LogCursor.Proofs.Polling
import LogCursor.Proofs.Resumption
import LogCursor.Proofs.StableCycle
import LogCursor.Proofs.Interference
import LogCursor.Proofs.Batches
import LogCursor.Proofs.Delivery
import LogCursor.Proofs.RoundTrip
import LogCursor.Proofs.CheckpointReading
import LogCursor.Proofs.Draining
import LogCursor.Proofs.Agreement
import LogCursor.Proofs.AppendHistory
import LogCursor.Proofs.Fairness
import LogCursor.Proofs.CheckpointGrammar
import LogCursor.Proofs.FirstFailure
import LogCursor.Proofs.ExitStatus
import LogCursor.Proofs.Settling
import LogCursor.Proofs.EvenShare
import LogCursor.Proofs.WrittenCheckpoints
import LogCursor.Proofs.ForeignCheckpoint
import LogCursor.Proofs.EqualBacklogs
import LogCursor.Proofs.Positions
import LogCursor.Proofs.PollLoop
import LogCursor.Proofs.LeadingZeros
import LogCursor.Proofs.SourceFaults
import LogCursor.Proofs.Filing
import LogCursor.Proofs.DistinctKeys
import LogCursor.Proofs.Overlaying
import LogCursor.Proofs.Layering
import LogCursor.Proofs.RetentionClosure
