import LogCursor.Client
import LogCursor.Proofs.History
import LogCursor.Proofs.Offsets
import LogCursor.Proofs.PartitionOrder
import LogCursor.Proofs.Traversal
/-!
What a broker answers. It lists the partitions of a topic by index (`listPartitions_eq`), and looks up the
ends of the logs of known partitions (`offsets_eq`). Ranges that are empty or retained are fetched from the
history as it was appended (`fetch_eq`); of known partitions, a fetch can only fail at a range that is not
empty and leaves what is retained (`fetch_fault`).
-/
namespace LogCursor.Answers
open LogCursor.History LogCursor.PartitionOrder LogCursor.CheckpointText

/-- The offset at an end of a partition, zero when there is no such partition. -/
def edgeOf (b : Broker) (edge : Edge) (p : Partition) : Nat :=
  ((log? b p.topic p.index).map (·.edge edge)).getD 0

/-- The ends of some partitions, by partition. -/
def edges (b : Broker) (edge : Edge) (ps : List Partition) : List (Partition × Int) :=
  ps.map fun p => (p, (edgeOf b edge p : Int))

theorem partitions_edges (b : Broker) (edge : Edge) (ps : List Partition) :
    (edges b edge ps).map Prod.fst = ps := by
  simp [edges, Function.comp_def]

theorem entries_edges (b : Broker) (edge : Edge) {ps : List Partition} (distinct : ps.Nodup) :
    (OffsetMap.ofList (edges b edge ps)).entries = edges b edge ps :=
  OffsetMap.entries_ofList ((partitions_edges b edge ps).symm ▸ distinct)

theorem edges_nonneg (b : Broker) (edge : Edge) {ps : List Partition} (distinct : ps.Nodup) :
    ∀ entry ∈ (OffsetMap.ofList (edges b edge ps)).entries, 0 ≤ entry.2 := by
  intro entry member
  rw [entries_edges b edge distinct] at member
  obtain ⟨p, _, rfl⟩ := List.mem_map.mp member
  exact Int.natCast_nonneg _

/-- The records that were appended at the offsets of a range. -/
def slice (h : Annals) (r : Range) : List Record :=
  ((h r.partition.topic r.partition.index).drop r.start).take r.count

/-- The broker can give out the records of a range: it is empty, or the log retains all of it. -/
def Available (b : Broker) (r : Range) : Prop :=
  ∃ l, log? b r.partition.topic r.partition.index = some l ∧
    (r.count = 0 ∨ (l.start ≤ r.start ∧ r.stop ≤ l.stop))

theorem edgeOf_eq {b : Broker} {p : Partition} {l : PartitionLog} (present : log? b p.topic p.index = some l)
    (edge : Edge) : edgeOf b edge p = l.edge edge := by
  simp [edgeOf, present]

theorem edgeOf_le_latest (b : Broker) (edge : Edge) (p : Partition) : edgeOf b edge p ≤ edgeOf b .latest p := by
  unfold edgeOf
  cases log? b p.topic p.index with
  | none => exact Nat.le_refl _
  | some l =>
    cases edge with
    | earliest => exact Nat.le_add_right l.start l.records.size
    | latest => exact Nat.le_refl _

/-- The ends of a log that can be counted have numerals. -/
theorem writable_edge {b : Broker} (numbered : Numbered b) (edge : Edge) (p : Partition) :
    Writable (edgeOf b edge p) := by
  refine writable_of_le ?_ (edgeOf_le_latest b edge p)
  unfold edgeOf
  cases present : log? b p.topic p.index with
  | none => exact writable_of_lt (by decide : 0 < 10 ^ 0) (Nat.zero_le _)
  | some l => exact writable_stop numbered present

/-- The head of a partition is the length of its history. -/
theorem latest_eq_length {b : Broker} {h : Annals} (keeps : Keeps b h) {p : Partition}
    (known : p.index < count b p.topic) : edgeOf b .latest p = (h p.topic p.index).length := by
  obtain ⟨l, present⟩ := log?_isSome_iff.mpr known
  rw [edgeOf_eq present]
  exact retains_stop (keeps.retained _ _ l present)

/-- The head of a partition does not go back. -/
theorem latest_grows {c c' : Chronicle} (grows : Grows c c') (keeps : Keeps c.broker c.annals)
    (keeps' : Keeps c'.broker c'.annals) {p : Partition} (known : p.index < count c.broker p.topic) :
    edgeOf c.broker .latest p ≤ edgeOf c'.broker .latest p := by
  have known' := Nat.lt_of_lt_of_le known (grows.count p.topic)
  rw [latest_eq_length keeps known, latest_eq_length keeps' known']
  exact (grows.annals p.topic p.index).length_le

theorem offset_edges (b : Broker) (edge : Edge) {ps : List Partition} (distinct : ps.Nodup) {p : Partition}
    (member : p ∈ ps) : (OffsetMap.ofList (edges b edge ps)).offset p = edgeOf b edge p := by
  refine OffsetMap.offset_of_mem ?_
  rw [entries_edges b edge distinct]
  exact List.mem_map_of_mem member

private theorem logs?_of_count {b : Broker} {topic : String} (some : 0 < count b topic) :
    ∃ ls, b.logs? topic = .some ls ∧ ls.size = count b topic := by
  cases found : b.logs? topic with
  | none => simp [count, found] at some
  | some ls => exact ⟨ls, rfl, by simp [count, found]⟩

theorem listPartitions_eq {b : Broker} {topic : String} (some : 0 < count b topic) :
    b.listPartitions topic = .ok (listing topic (count b topic)) := by
  obtain ⟨ls, found, size⟩ := logs?_of_count some
  simp only [Broker.listPartitions, Broker.logs, found, ← size]
  rfl

theorem offsets_eq {b : Broker} {ps : List Partition} (known : ∀ p ∈ ps, p.index < count b p.topic)
    (edge : Edge) : b.offsets edge ps = .ok (OffsetMap.ofList (edges b edge ps)) := by
  have each : ∀ p ∈ ps, (do return (p, ((← b.log p.topic p.index).edge edge : Int)) : Except Fault _) =
      .ok (p, (edgeOf b edge p : Int)) := by
    intro p member
    obtain ⟨l, present⟩ := log?_isSome_iff.mpr (known p member)
    rw [log_of_log? present, edgeOf_eq present]
    rfl
  simp only [Broker.offsets, Traversal.mapM_map each]
  rfl

theorem slice_of_empty (h : Annals) {r : Range} (empty : r.count = 0) : slice h r = [] := by
  simp [slice, empty]

private theorem slice_eq {l : PartitionLog} {h : Annals} {r : Range}
    (retains : Retains l (h r.partition.topic r.partition.index)) (low : l.start ≤ r.start) :
    l.slice r.start r.stop = slice h r := by
  have := r.start_le_stop
  unfold PartitionLog.slice slice Range.count
  rw [Array.toList_extract, List.extract_eq_take_drop, retains.2, List.drop_drop]
  congr 1
  · omega
  · congr 1
    omega

theorem fetchRange_eq {b : Broker} {h : Annals} (keeps : Keeps b h) {r : Range} (available : Available b r) :
    b.fetchRange r = .ok (slice h r) := by
  obtain ⟨l, present, state⟩ := available
  have retains := keeps.retained _ _ l present
  simp only [Broker.fetchRange, log_of_log? present]
  by_cases empty : r.count = 0
  · simp [empty, slice_of_empty h empty]
  · obtain ⟨low, high⟩ := state.resolve_left empty
    have inside : ¬ (r.start < l.start ∨ l.stop < r.stop) := by omega
    simp [empty, inside, slice_eq retains low]

/-- Ranges that are empty or retained are fetched from the history. -/
theorem fetch_eq {b : Broker} {h : Annals} (keeps : Keeps b h) {ranges : List Range}
    (available : ∀ r ∈ ranges, Available b r) :
    b.fetch ranges =
      .ok (ranges.flatMap (slice h), .fetched ranges.length (ranges.flatMap (slice h)).length) := by
  have parts := Traversal.mapM_map fun r member => fetchRange_eq keeps (available r member)
  simp only [Broker.fetch, parts, List.flatMap]
  rfl

private theorem fetch_range_fault {b : Broker} {ranges : List Range} {e : Fault} (failed : b.fetch ranges = .error e) :
    ∃ r ∈ ranges, b.fetchRange r = .error e := by
  unfold Broker.fetch at failed
  cases run : ranges.mapM b.fetchRange with
  | ok parts => simp only [run] at failed; cases failed
  | error e' =>
    simp only [run] at failed
    cases failed
    exact Traversal.mapM_fault run

/-- A fetch fails at a range that is not empty and leaves what its log retains. -/
theorem fetch_fault {b : Broker} {ranges : List Range} {e : Fault}
    (known : ∀ r ∈ ranges, ∃ l, log? b r.partition.topic r.partition.index = some l)
    (failed : b.fetch ranges = .error e) :
    ∃ r ∈ ranges, ∃ l, log? b r.partition.topic r.partition.index = some l ∧ r.count ≠ 0 ∧
      (r.start < l.start ∨ l.stop < r.stop) ∧ e = (Fault.outsideRetained r l.start l.stop).worded := by
  obtain ⟨r, member, fault⟩ := fetch_range_fault failed
  obtain ⟨l, present⟩ := known r member
  simp only [Broker.fetchRange, log_of_log? present] at fault
  split at fault
  · cases fault
  · rename_i nonempty
    split at fault
    · rename_i outside
      cases fault
      exact ⟨r, member, l, present, nonempty, outside, rfl⟩
    · cases fault

/-- The first range that fails decides how a fetch does. -/
theorem fetch_first {b : Broker} {front back : List Range} {r : Range} {e : Fault}
    (served : ∀ q ∈ front, ∃ records, b.fetchRange q = .ok records) (failed : b.fetchRange r = .error e) :
    b.fetch (front ++ r :: back) = .error e := by
  obtain ⟨parts, run, _⟩ := Traversal.mapM_related (R := fun _ _ => True) fun q member =>
    (served q member).imp fun _ done => ⟨done, trivial⟩
  rw [Broker.fetch, List.mapM_append, run, List.mapM_cons, failed]
  rfl

/-- A fetch that succeeds had every range at hand. -/
theorem fetch_available {b : Broker} {ranges : List Range} {answer : List Record × Notice}
    (done : b.fetch ranges = .ok answer) : ∀ r ∈ ranges, Available b r := by
  unfold Broker.fetch at done
  cases run : ranges.mapM b.fetchRange with
  | error e => simp only [run] at done; cases done
  | ok parts =>
    intro r member
    obtain ⟨records, fetched⟩ := Traversal.mapM_each run r member
    unfold Broker.fetchRange at fetched
    split at fetched
    · cases fetched
    · rename_i l known
      obtain ⟨i, same, present⟩ := log_eq_ok known
      cases Int.ofNat.inj same
      refine ⟨l, present, ?_⟩
      split at fetched
      · rename_i empty
        exact .inl empty
      · split at fetched
        · cases fetched
        · rename_i inside
          exact .inr (by omega)

end LogCursor.Answers
