import LogCursor.Assoc
import LogCursor.Partition
/-!
Offsets by partition, in the order of insertion. Checkpoints, retention limits and heads all have this
form; each partition occurs at most once.
-/
namespace LogCursor

/-- A finite map from partitions to offsets. -/
structure OffsetMap where
  entries : List (Partition × Int)
  distinct : (entries.map Prod.fst).Nodup

namespace OffsetMap

def empty : OffsetMap := ⟨[], by simp⟩

instance : EmptyCollection OffsetMap := ⟨empty⟩

def get? (m : OffsetMap) (p : Partition) : Option Int := Assoc.get? p m.entries

/-- The offset of a partition, zero when it has none. -/
def offset (m : OffsetMap) (p : Partition) : Int := (m.get? p).getD 0

def partitions (m : OffsetMap) : List Partition := m.entries.map Prod.fst

def contains (m : OffsetMap) (p : Partition) : Bool := (m.get? p).isSome

def isEmpty (m : OffsetMap) : Bool := m.entries.isEmpty

/-- Sets the offset of a partition, which keeps its place or comes last. -/
def put (m : OffsetMap) (p : Partition) (o : Int) : OffsetMap :=
  ⟨Assoc.put p o m.entries, Assoc.nodup_keys_put p o m.entries m.distinct⟩

/-- Enters pairs in their order; a later offset of one partition replaces the earlier one. -/
def ofList (pairs : List (Partition × Int)) : OffsetMap :=
  pairs.foldl (fun m pair => m.put pair.1 pair.2) empty

/-- The entries in ascending order of topic and index. -/
def sorted (m : OffsetMap) : List (Partition × Int) :=
  m.entries.mergeSort fun a b => a.1.precedesByTopic b.1

theorem get?_put_self (m : OffsetMap) (p : Partition) (o : Int) : (m.put p o).get? p = some o :=
  Assoc.get?_put_self (by simp) o m.entries

theorem get?_put_of_ne (m : OffsetMap) {p q : Partition} (apart : p ≠ q) (o : Int) :
    (m.put p o).get? q = m.get? q :=
  Assoc.get?_put_other (by simpa using apart) (by rintro j same; simp_all) o m.entries

end OffsetMap
end LogCursor
