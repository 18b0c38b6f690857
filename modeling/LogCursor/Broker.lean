import LogCursor.Fault
import LogCursor.Notice
import LogCursor.OffsetMap
/-!
A broker that keeps its topics in memory. A partition log is append-only with a movable start: retention
drops records from the front, and the offsets of the rest stay. An operation either gives the next broker
or a fault, and then nothing has changed.
-/
namespace LogCursor

abbrev Bytes := List UInt8

structure Record where
  topic : String
  partition : Int
  offset : Int
  timestamp : Int
  key : Option Bytes
  value : Bytes
deriving DecidableEq

/-- The retained records of a partition, the first of them at the start. -/
structure PartitionLog where
  start : Nat
  records : Array Record
deriving DecidableEq

namespace PartitionLog

def empty : PartitionLog := ⟨0, #[]⟩

/-- The head: the offset after the last record. -/
def stop (l : PartitionLog) : Nat := l.start + l.records.size

/-- The offset at an end of the log. -/
def edge (l : PartitionLog) : Edge → Nat
  | .earliest => l.start
  | .latest => l.stop

def append (l : PartitionLog) (r : Record) : PartitionLog := { l with records := l.records.push r }

def truncate (l : PartitionLog) (before : Nat) : PartitionLog :=
  ⟨before, l.records.extract (before - l.start) l.records.size⟩

def slice (l : PartitionLog) (start stop : Nat) : List Record :=
  (l.records.extract (start - l.start) (stop - l.start)).toList

end PartitionLog

/-- Topics by name, each with its partition logs in order of index. -/
structure Broker where
  topics : List (String × Array PartitionLog)

namespace Broker

def empty : Broker := ⟨[]⟩

instance : EmptyCollection Broker := ⟨empty⟩

def logs? (b : Broker) (topic : String) : Option (Array PartitionLog) := Assoc.get? topic b.topics

def logs (b : Broker) (topic : String) : Except Fault (Array PartitionLog) :=
  match b.logs? topic with
  | some ls => .ok ls
  | none => .error (.unknownTopic topic)

def log (b : Broker) (topic : String) (index : Int) : Except Fault PartitionLog := do
  let ls ← b.logs topic
  if index < 0 then throw (Fault.unknownPartition topic index).worded
  match ls[index.toNat]? with
  | some l => return l
  | none => throw (Fault.unknownPartition topic index).worded

def withLogs (b : Broker) (topic : String) (ls : Array PartitionLog) : Broker :=
  ⟨Assoc.put topic ls b.topics⟩

def withLog (b : Broker) (topic : String) (index : Nat) (l : PartitionLog) : Broker :=
  match b.logs? topic with
  | some ls => b.withLogs topic (ls.setIfInBounds index l)
  | none => b

def createTopic (b : Broker) (topic : String) (count : Int) : Except Fault (Broker × Notice) := do
  if count < 1 then throw (Fault.noPartitionsWanted count).worded
  if (b.logs? topic).isSome then throw (.topicExists topic)
  return (b.withLogs topic (Array.replicate count.toNat .empty), .createdTopic topic count)

/-- Adds empty partitions to a topic, none when the count is not positive. -/
def addPartitions (b : Broker) (topic : String) (count : Int) : Except Fault (Broker × Notice) := do
  let ls ← b.logs topic
  let more := ls ++ Array.replicate count.toNat .empty
  return (b.withLogs topic more, .addedPartitions topic count more.size)

def append (b : Broker) (topic : String) (index : Int) (value : Bytes) (key : Option Bytes)
    (timestamp : Int) : Except Fault (Broker × Nat) := do
  let l ← b.log topic index
  let r : Record := ⟨topic, index, l.stop, timestamp, key, value⟩
  return (b.withLog topic index.toNat (l.append r), l.stop)

/-- Drops the records of a partition below an offset, as retention does; it never goes past the head or
back. -/
def truncate (b : Broker) (topic : String) (index before : Int) :
    Except Fault (Broker × Option Notice) := do
  let l ← b.log topic index
  let start := min before l.stop
  if start ≤ l.start then return (b, none)
  return (b.withLog topic index.toNat (l.truncate start.toNat),
    some (.truncated topic index.toNat start.toNat))

def listPartitions (b : Broker) (topic : String) : Except Fault (List Partition) := do
  let ls ← b.logs topic
  return (List.range ls.size).map fun i => ⟨topic, i⟩

/-- The offset of each partition at an end of its log; the first unknown one is the fault. -/
def offsets (b : Broker) (edge : Edge) (ps : List Partition) : Except Fault OffsetMap := do
  let pairs ← ps.mapM fun p => do return (p, ((← b.log p.topic p.index).edge edge : Int))
  return OffsetMap.ofList pairs

def fetchRange (b : Broker) (r : Range) : Except Fault (List Record) :=
  match b.log r.partition.topic r.partition.index with
  | .error e => .error (if e.kind = .metadata then .unfetchable e else e)
  | .ok l =>
    if r.count = 0 then .ok []
    else if r.start < l.start ∨ l.stop < r.stop then .error (Fault.outsideRetained r l.start l.stop).worded
    else .ok (l.slice r.start r.stop)

def fetch (b : Broker) (ranges : List Range) : Except Fault (List Record × Notice) := do
  let parts ← ranges.mapM b.fetchRange
  let records := parts.flatten
  return (records, .fetched ranges.length records.length)

end Broker
end LogCursor
