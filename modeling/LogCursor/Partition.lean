/-!
Partitions of a topic and slices of their offsets. A range reads from its start up to its stop, which it
leaves out; a range that stops before it starts cannot be built.
-/
namespace LogCursor

structure Partition where
  topic : String
  index : Nat
deriving DecidableEq

namespace Partition

/-- The short name: topic and index joined by a hyphen. -/
def name (p : Partition) : String := p.topic ++ "-" ++ toString p.index

/-- The long description; the topic stands in it unescaped. -/
def describe (p : Partition) : String :=
  "PartitionKey(topic='" ++ p.topic ++ "', partition=" ++ toString p.index ++ ")"

def precedes (p q : Partition) : Bool :=
  p.index < q.index || (p.index == q.index && !(q.topic < p.topic : Bool))

def precedesByTopic (p q : Partition) : Bool :=
  p.topic < q.topic || (p.topic == q.topic && p.index ≤ q.index)

def precedesByName (p q : Partition) : Bool := !(q.name < p.name : Bool)

end Partition

structure Range where
  partition : Partition
  start : Nat
  stop : Nat
  start_le_stop : start ≤ stop
deriving DecidableEq

namespace Range

def count (r : Range) : Nat := r.stop - r.start

/-- The short name: the partition with the half-open interval. -/
def name (r : Range) : String :=
  r.partition.name ++ ":[" ++ toString r.start ++ "," ++ toString r.stop ++ ")"

def describe (r : Range) : String :=
  "OffsetRange(partition=" ++ r.partition.describe ++ ", from_offset=" ++ toString r.start ++
    ", until_offset=" ++ toString r.stop ++ ")"

def total (ranges : List Range) : Nat := ranges.foldr (fun r n => r.count + n) 0

end Range
end LogCursor
