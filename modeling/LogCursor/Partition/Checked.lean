import LogCursor.Fault
import LogCursor.OffsetMap
/-!
Partitions and ranges from unchecked numbers. An index and a start must not be negative, and a stop must
not lie before its start; the first of these that fails is the fault.
-/
namespace LogCursor

/-- The partition of an index that is not negative. -/
def Partition.of (topic : String) (index : Int) : Except Fault Partition :=
  if index < 0 then .error (Fault.negativePartition index).worded else .ok ⟨topic, index.toNat⟩

/-- The range between two offsets in order. -/
def Range.of (partition : Partition) (start stop : Int) : Except Fault Range :=
  if start < 0 then .error (Fault.negativeStart start).worded
  else if h : stop < start then .error (Fault.inverted partition start stop).worded
  else .ok ⟨partition, start.toNat, stop.toNat, by omega⟩

end LogCursor
