import LogCursor.Proofs.Polling
import LogCursor.Proofs.Resumption
/-!
Cycles over a broker that nobody else changes. Whatever happened to the broker before, a poll of a topic that
exists, from a checkpoint that its source can go on from, is served with exactly the records that the budget
allows, and the checkpoint it returns says where they stop (`poll_exact`).
-/
namespace LogCursor.StableCycle
open LogCursor.Cycle LogCursor.History LogCursor.Answers LogCursor.PartitionOrder LogCursor.Planning
open LogCursor.Polling LogCursor.Resumption LogCursor.CheckpointText

/-- Where a partition is read from: the offset of the checkpoint, but within what is retained, or else an end
    of the log. -/
def start (b : Broker) (edge : Edge) (position : Option OffsetMap) (p : Partition) : Int :=
  match position with
  | some m => min (max (m.offset p) (edgeOf b .earliest p)) (edgeOf b .latest p)
  | none => edgeOf b edge p

/-- How many records a cycle reads: all that are unread, or as many as cap and limit allow. -/
def amount (b : Broker) (source : Source) (position : Option OffsetMap) (limit : Int) : Int :=
  min (max 0 (min source.cap limit))
    ((listing source.topic (count b source.topic)).map fun p =>
      edgeOf b .latest p - start b source.edge position p).sum

theorem firstOffset_eq (b : Broker) (edge : Edge) (position : Option OffsetMap) (p : Partition) :
    firstOffset edge position b b p = start b edge position p := by
  cases position with
  | some m => rfl
  | none =>
    show min (edgeOf b edge p : Int) (edgeOf b .latest p) = edgeOf b edge p
    refine Int.min_eq_left ?_
    exact_mod_cast edgeOf_le_latest b edge p

theorem earliest_le_start (b : Broker) (edge : Edge) (position : Option OffsetMap) (p : Partition) :
    (edgeOf b .earliest p : Int) ≤ start b edge position p := by
  have within := edgeOf_le_latest b .earliest p
  have low := earliest_le_startAt edge position b p
  rw [← firstOffset_eq, firstOffset]
  omega

theorem start_le_latest (b : Broker) (edge : Edge) (position : Option OffsetMap) (p : Partition) :
    start b edge position p ≤ edgeOf b .latest p := by
  rw [← firstOffset_eq]
  exact Int.min_le_right _ _

/-- A poll of a broker that stays as it is returns exactly the unread records, up to the budget, and a
    checkpoint that says of every partition where they stop. -/
theorem poll_exact (ops : List Operation) (source : Source) (checkpoint : Option String)
    (position : Option OffsetMap) (limit : Int)
    (known : ((Chronicle.empty.run ops).broker.logs? source.topic).isSome)
    (few : Writable (count (Chronicle.empty.run ops).broker source.topic))
    (short : ∀ p ∈ listing source.topic (count (Chronicle.empty.run ops).broker source.topic),
      Writable (edgeOf (Chronicle.empty.run ops).broker .latest p))
    (reads : Reads source.topic checkpoint position) :
    let c := Chronicle.empty.run ops
    ∃ rs text,
      (plan Broker.client source checkpoint limit c.broker).outcome.result = .ok (rs, ⟨Range.total rs, text⟩) ∧
      rs.map Range.partition = listing source.topic (count c.broker source.topic) ∧
      (∀ r ∈ rs, (r.start : Int) = start c.broker source.edge position r.partition ∧
        r.stop ≤ edgeOf c.broker .latest r.partition ∧
        (slice c.annals r).map Record.offset = (List.range' r.start r.count).map Int.ofNat) ∧
      ((rs.flatMap (slice c.annals)).length : Int) = amount c.broker source position limit ∧
      (poll Broker.client source checkpoint limit c.broker).outcome.result =
        .ok (if amount c.broker source position limit = 0 then none else some (rs.flatMap (slice c.annals)),
          text) ∧
      ∃ m, Checkpoint.decode text = .ok m ∧ m.entries = rs.map fun r => (r.partition, (r.stop : Int)) := by
  intro c
  have keeps : Keeps c.broker c.annals := run_keeps empty_keeps ops
  obtain ⟨ns, cs, rs, run, planned, polled⟩ := poll_settled keeps (count_pos keeps known) few short reads limit
  have total : (Range.total rs : Int) = amount c.broker source position limit := by
    rw [planned.total]
    unfold unread amount budget
    simp only [firstOffset_eq]
  have within : ∀ r ∈ rs, r.stop ≤ (c.annals r.partition.topic r.partition.index).length := by
    intro r member
    obtain ⟨own, inside⟩ := known_of_planned planned member
    rw [← latest_eq_length keeps (own ▸ inside)]
    exact planned.stop r member
  have isTopic : IsTopic source.topic := source.isTopic
  obtain ⟨m, read, entries⟩ := decode_checkpointOf isTopic planned.partitions few fun r member => by
    have listed : r.partition ∈ listing source.topic (count c.broker source.topic) :=
      planned.partitions ▸ List.mem_map_of_mem member
    exact writable_of_le (short r.partition listed) (planned.stop r member)
  refine ⟨rs, _, by rw [run], planned.partitions, ?_, ?_, ?_, m, read, entries⟩
  · intro r member
    refine ⟨?_, planned.stop r member, offsets_slice keeps (within r member)⟩
    rw [planned.start r member, firstOffset_eq]
  · rw [length_flatMap_slice within, total]
  · rw [polled, ← total]
    simp only [Int.natCast_eq_zero]

/-- A topic with two partitions, one of which has lost its first record. -/
def clicked : List Operation := [
  .createTopic "clicks" 2, .append "clicks" 0 [7] none 1, .append "clicks" 0 [8] none 2,
  .append "clicks" 1 [9] (some [1]) 3, .truncate "clicks" 0 1]

theorem poll_exact_clicks :
    let b := (Chronicle.empty.run clicked).broker
    (b.logs? clicks.topic).isSome ∧ Writable (count b clicks.topic) ∧
    (∀ p ∈ listing clicks.topic (count b clicks.topic), Writable (edgeOf b .latest p)) ∧
    ∃ position, Reads clicks.topic (some (Checkpoint.write "clicks" [(0, 0)])) position ∧
      ∃ records text, records.length = 2 ∧
        (poll Broker.client clicks (some (Checkpoint.write "clicks" [(0, 0)])) 10 b).outcome.result =
          .ok (some records, text) := by
  intro b
  have known : (b.logs? clicks.topic).isSome := by decide
  have digit : Writable 9 :=
    Nat.lt_of_lt_of_le (by decide : 9 < 10 ^ 1) (Nat.pow_le_pow_right (by decide) (by decide))
  have small : ∀ n ≤ 2, Writable n := fun n less => writable_of_le digit (by omega)
  have few : Writable (count b clicks.topic) := small _ (by decide)
  have short : ∀ p ∈ listing clicks.topic (count b clicks.topic), Writable (edgeOf b .latest p) :=
    fun p member => small _ ((by decide : ∀ p ∈ listing clicks.topic (count b clicks.topic),
      edgeOf b .latest p ≤ 2) p member)
  have read := decode_write (topic_ne_empty clicks.isTopic) clicks.isTopic.2 [(0, 0)] (by decide) (by simp [small])
  have reads : Reads clicks.topic (some (Checkpoint.write "clicks" [(0, 0)]))
      (some (OffsetMap.ofList (entries "clicks" [(0, 0)]))) :=
    ⟨write_ne_empty (topic_ne_empty clicks.isTopic) _, read, by decide⟩
  have two : amount b clicks (some (OffsetMap.ofList (entries "clicks" [(0, 0)]))) 10 = 2 := by decide
  obtain ⟨rs, text, _, _, _, length, served, _⟩ := poll_exact clicked clicks _ _ 10 known few short reads
  rw [two] at length served
  exact ⟨known, few, short, _, reads, _, text, by exact_mod_cast length, served⟩

end LogCursor.StableCycle
