import LogCursor.Title
/-!
Notices by what they report. Every notice has a level, an event, named fields in order, and the component
that gives it; how a notice becomes a line of a log is decided elsewhere.
-/
namespace LogCursor

/-- The levels of a log, in ascending order of weight. -/
inductive Level where
  | debug
  | info
  | warning
  | error
  | critical
deriving DecidableEq

def Level.name : Level → String
  | .debug => "debug"
  | .info => "info"
  | .warning => "warning"
  | .error => "error"
  | .critical => "critical"

/-- A log entry before it is rendered. What is told as an exception ends with a line about the exception. -/
structure Entry where
  origin : String
  level : Level
  event : String
  fields : List (String × Setting)
  isException : Bool := false

inductive Notice where
  | createdTopic (topic : String) (partitions : Int)
  | addedPartitions (topic : String) (added : Int) (total : Nat)
  | truncated (topic : String) (partition : Nat) (start : Nat)
  | fetched (ranges records : Nat)
  | behindEarliest (partition : Partition) (start earliest : Int)
  | aheadOfHead (partition : Partition) (start head : Int)
  | newPartitions (partitions : List Partition)
  | allocated (partitions : Nat) (budget : Int) (total : Nat)
  | resetResolved (edge : Edge) (partitions : Nat)
  | sourceReady (topic : Title) (edge : Edge) (cap : Nat)
  | noNewData (topic : Title)
  | reading (topic : Title) (total partitions : Nat)
  | planningFailed (reason : String)
deriving DecidableEq

namespace Notice

def level : Notice → Level
  | truncated .. | fetched .. | allocated .. => .debug
  | behindEarliest .. | aheadOfHead .. => .warning
  | planningFailed _ => .error
  | _ => .info

def origin : Notice → String
  | createdTopic .. | addedPartitions .. | truncated .. | fetched .. => "logingest.source.broker"
  | behindEarliest .. | aheadOfHead .. | newPartitions _ | allocated .. => "logingest.offset.allocator"
  | resetResolved .. => "logingest.offset.reset_strategy"
  | sourceReady .. | noNewData _ | reading .. => "logingest.source.incremental"
  | planningFailed _ => "logingest.cli"

def event : Notice → String
  | createdTopic .. => "Created topic"
  | addedPartitions .. => "Added partitions"
  | truncated .. => "Truncated partition"
  | fetched .. => "Fetched records"
  | behindEarliest .. => "Checkpoint behind earliest retained offset, skipping ahead"
  | aheadOfHead .. => "Checkpoint ahead of head offset, clamping"
  | newPartitions _ => "Reading new partitions from offset 0"
  | allocated .. => "Allocated offset ranges"
  | resetResolved .. => "Reset offsets resolved"
  | sourceReady .. => "IncrementalLogSource initialized"
  | noNewData _ => "No new data"
  | reading .. => "About to read events"
  | planningFailed _ => "Planning failed"

def skipped : Notice → Int
  | behindEarliest _ start earliest => earliest - start
  | aheadOfHead _ start head => start - head
  | _ => 0

def fields (n : Notice) : List (String × Setting) :=
  match n with
  | createdTopic t k => [("topic", .text t), ("partitions", .int k)]
  | addedPartitions t a k => [("topic", .text t), ("added", .int a), ("total", .int k)]
  | truncated t p s => [("topic", .text t), ("partition", .int p), ("start_offset", .int s)]
  | fetched r k => [("ranges", .int r), ("records", .int k)]
  | behindEarliest p s e => [("partition", .text p.name), ("checkpoint_offset", .int s),
      ("earliest_offset", .int e), ("skipped", .int n.skipped)]
  | aheadOfHead p s h => [("partition", .text p.name), ("checkpoint_offset", .int s),
      ("head_offset", .int h), ("skipped", .int n.skipped)]
  | newPartitions ps => [("partitions", .texts (ps.map Partition.name))]
  | allocated k b t => [("partitions", .int k), ("event_budget", .int b), ("total_events", .int t)]
  | resetResolved e k => [("strategy", .text e.name), ("partitions", .int k)]
  | sourceReady t e c => [("topic", t.toSetting), ("auto_offset_reset", .text e.name),
      ("max_events_per_cycle", .int c)]
  | noNewData t => [("topic", t.toSetting)]
  | reading t k p => [("topic", t.toSetting), ("total_events", .int k), ("partitions", .int p)]
  | planningFailed r => [("error", .text r)]

def named : Notice → List Partition
  | behindEarliest p _ _ | aheadOfHead p _ _ => [p]
  | newPartitions ps => ps
  | _ => []

/-- A notice as it is shown where a topic has a title. -/
def titled (t : Title) : Notice → Notice
  | behindEarliest p s e => behindEarliest (t.partition p) s e
  | aheadOfHead p s h => aheadOfHead (t.partition p) s h
  | newPartitions ps => newPartitions (ps.map t.partition)
  | n => n

def entry (n : Notice) : Entry where
  origin := n.origin
  level := n.level
  event := n.event
  fields := n.fields

end Notice
end LogCursor
