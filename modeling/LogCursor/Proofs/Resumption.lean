import LogCursor.Proofs.Planning
/-!
What the next cycle makes of a checkpoint. The text behind planned ranges is never empty, and whoever reads it
finds where the ranges stop (`entries_of_read`); it is read whenever no index and no offset passes the limit
of numerals (`decode_checkpointOf`).
-/
namespace LogCursor.Resumption
open LogCursor.PartitionOrder LogCursor.Planning LogCursor.CheckpointText LogCursor.RoundTrip

/-- Where ranges stop, by partition. -/
def stops (rs : List Range) : List (Partition × Int) := rs.map fun r => (r.partition, (r.stop : Int))

variable {topic : String} {rs : List Range} {n : Nat}

theorem topic_ne_empty (isTopic : IsTopic topic) : topic ≠ "" := by
  rintro rfl
  exact isTopic.1 fun c member => by cases member

/-- A checkpoint that is read at all says where its ranges stop. -/
theorem entries_of_read (isTopic : IsTopic topic)
    (partitions : rs.map Range.partition = listing topic n) {m : OffsetMap}
    (read : Checkpoint.decode (checkpointOf topic rs) = .ok m) : m.entries = stops rs :=
  entries_of_decode (shared_of_listing partitions) (topic_ne_empty isTopic) isTopic.2 read

/-- A checkpoint within the limit is read. -/
theorem decode_checkpointOf (isTopic : IsTopic topic) (partitions : rs.map Range.partition = listing topic n)
    (few : Writable n) (short : ∀ r ∈ rs, Writable r.stop) :
    ∃ m, Checkpoint.decode (checkpointOf topic rs) = .ok m ∧ m.entries = stops rs := by
  refine decode_pairs (shared_of_listing partitions) ?_ (topic_ne_empty isTopic) isTopic.2
  intro r member
  exact ⟨Nat.lt_trans (mem_of_partitions partitions member).2 few, short r member⟩

/-- Within the limit, the next cycle can go on from a checkpoint. -/
theorem reads_checkpointOf (isTopic : IsTopic topic) (partitions : rs.map Range.partition = listing topic n)
    (few : Writable n) (short : ∀ r ∈ rs, Writable r.stop) :
    ∃ m, Reads topic (some (checkpointOf topic rs)) (some m) ∧ m.entries = stops rs := by
  obtain ⟨m, read, entries⟩ := decode_checkpointOf isTopic partitions few short
  refine ⟨m, ⟨write_ne_empty (topic_ne_empty isTopic) _, read, fun p member => ?_⟩, entries⟩
  obtain ⟨entry, inside, rfl⟩ := List.mem_map.mp member
  exact topic_of_mem (shared_of_listing partitions) entries inside

/-- A cycle that goes on from such a checkpoint finds where the ranges stop. -/
theorem position_of_reads (isTopic : IsTopic topic)
    (partitions : rs.map Range.partition = listing topic n)
    {position : Option OffsetMap}
    (reads : Reads topic (some (checkpointOf topic rs)) position) :
    ∃ m, position = some m ∧ m.entries = stops rs := by
  cases position with
  | none => exact absurd reads (write_ne_empty (topic_ne_empty isTopic) _)
  | some m => exact ⟨m, rfl, entries_of_read isTopic partitions reads.2.1⟩

end LogCursor.Resumption
