import LogCursor.Proofs.Batches
/-!
Delivery. A reader polls one topic of a broker that changes in any way between the polls, each time from the
checkpoint it committed last, and commits what it gets or leaves it. The batches it commits follow one another
(`run_sound`), so that over all of them nothing is delivered twice, nothing is made up, and nothing between
origin and committed offset is missing but what retention had dropped by then (`committed_delivery`).
-/
namespace LogCursor.Delivery
open LogCursor.Cycle LogCursor.History LogCursor.Answers LogCursor.PartitionOrder LogCursor.Planning
open LogCursor.Polling LogCursor.Resumption LogCursor.Batches

/-- What happens to a reader: its broker changes, or it polls, with any reset strategy, cap and limit, and
    commits the checkpoint if the poll succeeds, or not. -/
inductive Event (topic : String) where
  | change (op : Operation)
  | poll (source : Source) (own : source.topic = topic) (limit : Int) (commit : Bool)

/-- The broker, the checkpoint that was committed last, and the committed batches in their order. -/
structure Reader where
  chronicle : Chronicle
  committed : Option String
  batches : List Batch

/-- A reader before anything has happened, with any checkpoint. -/
def Reader.fresh (checkpoint : Option String) : Reader := ⟨.empty, checkpoint, []⟩

/-- The ranges that a poll is going to read. -/
def plannedRanges (source : Source) (checkpoint : Option String) (limit : Int) (b : Broker) : List Range :=
  match (plan Broker.client source checkpoint limit b).outcome.result with
  | .ok (ranges, _) => ranges
  | .error _ => []

variable {topic : String}

namespace Reader

/-- One event. A poll that fails, and one that is not committed, leave the checkpoint alone. -/
def step (s : Reader) : Event topic → Reader
  | .change op => { s with chronicle := s.chronicle.attempt op }
  | .poll source _ limit commit =>
    let polled := Cycle.poll Broker.client source s.committed limit s.chronicle.broker
    let chronicle : Chronicle := ⟨polled.state, s.chronicle.annals⟩
    match commit, polled.outcome.result with
    | true, .ok (records, checkpoint) =>
      let ranges := plannedRanges source s.committed limit s.chronicle.broker
      ⟨chronicle, some checkpoint, s.batches ++ [⟨s.chronicle, ranges, records.getD []⟩]⟩
    | _, _ => { s with chronicle := chronicle }

/-- Events in their order. -/
def run (s : Reader) (events : List (Event topic)) : Reader := events.foldl step s

end Reader

/-- The committed batches follow one another, and the committed checkpoint is that of the last. -/
structure Sound (topic : String) (s : Reader) : Prop where
  keeps : Keeps s.chronicle.broker s.chronicle.annals
  numbered : Numbered s.chronicle.broker
  chain : Chain topic s.batches
  grows : ∀ last, s.batches.getLast? = some last → Grows last.chronicle s.chronicle
  committed : ∀ last, s.batches.getLast? = some last →
    IsTopic topic ∧ s.committed = some (checkpointOf topic last.ranges)

private theorem fresh_sound (checkpoint : Option String) : Sound topic (.fresh checkpoint) := by
  refine ⟨empty_keeps, empty_numbered, .nil, ?_, ?_⟩
  · intro last ends; cases ends
  · intro last ends; cases ends

private theorem offset_of_stops {bs : List Batch} {last : Batch} (ends : bs.getLast? = some last) {m : OffsetMap}
    (entries : m.entries = stops last.ranges) (p : Partition) : m.offset p = reached bs p := by
  unfold reached
  rw [ends]
  cases found : last.range? p with
  | some r =>
    obtain ⟨member, rfl⟩ := range?_some found
    simpa [found] using RoundTrip.offset_stop entries member
  | none =>
    have absent : p ∉ m.partitions := by
      intro present
      unfold OffsetMap.partitions at present
      rw [entries] at present
      simp only [stops, List.map_map, List.mem_map, Function.comp_apply] at present
      obtain ⟨r, member, own⟩ := present
      simpa [own] using List.find?_eq_none.mp found r member
    simpa [found] using OffsetMap.offset_of_not_mem absent

/-- A poll that succeeds reads a whole batch, which follows the committed ones. -/
theorem polled_follows {s : Reader} {source : Source} (sound : Sound source.topic s) {limit : Int}
    {records : Option (List Record)} {checkpoint : String}
    (polled : (poll Broker.client source s.committed limit s.chronicle.broker).outcome.result =
      .ok (records, checkpoint)) :
    let next : Batch :=
      ⟨s.chronicle, plannedRanges source s.committed limit s.chronicle.broker, records.getD []⟩
    Whole source.topic next ∧ Follows s.batches next ∧ checkpoint = checkpointOf source.topic next.ranges := by
  obtain ⟨known, position, reads⟩ := reads_of_poll (client_mirrors s.chronicle.broker) polled
  obtain ⟨ns, cs, rs, run, planned, served⟩ := poll_settled sound.keeps known
    (writable_count sound.numbered source.topic) (fun p _ => writable_edge sound.numbered .latest p) reads limit
  have ranges : plannedRanges source s.committed limit s.chronicle.broker = rs := by
    simp only [plannedRanges, run]
  rw [served] at polled
  cases polled
  rw [ranges]
  refine ⟨⟨sound.keeps, planned.partitions, planned.stop, ?_⟩, ⟨sound.grows, ?_⟩, rfl⟩
  · show Option.getD (if Range.total rs = 0 then none else some (rs.flatMap (slice s.chronicle.annals))) [] = _
    by_cases empty : Range.total rs = 0
    · rw [if_pos empty]
      refine (List.flatMap_eq_nil_iff.mpr fun r member => ?_).symm
      exact slice_of_empty _ (ExactAllocation.total_eq_zero.mp empty r member)
    · rw [if_neg empty]
      rfl
  · intro some r member
    obtain ⟨last, ends⟩ := exists_last some
    rw [(sound.committed last ends).2] at reads
    obtain ⟨m, rfl, entries⟩ := position_of_reads source.isTopic (chain_last sound.chain ends).partitions reads
    have start := planned.start r member
    have come := offset_of_stops ends entries r.partition
    simp only [firstOffset, startAt, come] at start
    show r.start = min (max (reached s.batches r.partition) (edgeOf s.chronicle.broker .earliest r.partition))
      (edgeOf s.chronicle.broker .latest r.partition)
    omega

/-- No event breaks the bond between the committed batches and the committed checkpoint. -/
theorem step_sound {s : Reader} (sound : Sound topic s) (event : Event topic) : Sound topic (s.step event) := by
  cases event with
  | change op =>
    refine ⟨attempt_keeps sound.keeps op, attempt_numbered sound.numbered op, sound.chain, fun last ends => ?_,
      sound.committed⟩
    exact (sound.grows last ends).trans (attempt_grows s.chronicle op)
  | poll source own limit commit =>
    cases own
    have same : (⟨(poll Broker.client source s.committed limit s.chronicle.broker).state,
        s.chronicle.annals⟩ : Chronicle) = s.chronicle := by rw [still_poll]
    simp only [Reader.step, same]
    split
    · rename_i records checkpoint polled
      obtain ⟨whole, follows, rfl⟩ := polled_follows sound polled
      refine ⟨sound.keeps, sound.numbered, .snoc sound.chain whole follows, fun last ends => ?_, fun last ends => ?_⟩
      · rw [List.getLast?_concat] at ends
        cases ends
        exact .refl _
      · rw [List.getLast?_concat] at ends
        cases ends
        exact ⟨source.isTopic, rfl⟩
    · exact ⟨sound.keeps, sound.numbered, sound.chain, sound.grows, sound.committed⟩

/-- Whatever happens, the committed batches follow one another. -/
theorem run_sound {s : Reader} (sound : Sound topic s) (events : List (Event topic)) :
    Sound topic (s.run events) := by
  induction events generalizing s with
  | nil => exact sound
  | cons event rest ih => exact ih (step_sound sound event)

/-- Over any run, the committed batches of a partition give out each record at most once and in order of
    offset, each as it was appended; up to the committed offset, they leave out only what had been dropped
    when they passed it. The committed checkpoint is that of the last batch, and whoever reads it finds that
    offset. -/
theorem committed_delivery (topic : String) (checkpoint : Option String) (events : List (Event topic))
    (index : Nat) :
    let s := (Reader.fresh checkpoint).run events
    let p : Partition := ⟨topic, index⟩
    (delivered s.batches p).Pairwise (fun x y => x.offset < y.offset) ∧
      (∀ x ∈ delivered s.batches p, ∃ o : Nat, x.offset = o ∧ (s.chronicle.annals topic index)[o]? = some x) ∧
      (∀ o, origin s.batches p ≤ o → o < reached s.batches p →
        (∃ x ∈ delivered s.batches p, x.offset = o) ∨ PassedOver s.batches p o) ∧
      ∀ last, s.batches.getLast? = some last → s.committed = some (checkpointOf topic last.ranges) ∧
        ∀ m, Checkpoint.decode (checkpointOf topic last.ranges) = .ok m → m.offset p = reached s.batches p := by
  intro s p
  have sound : Sound topic s := run_sound (fresh_sound checkpoint) events
  refine ⟨chain_increasing sound.chain p, ?_, fun o low high => chain_complete sound.chain low high, ?_⟩
  · intro x member
    obtain ⟨last, ends⟩ := exists_last (ne_nil_of_delivered member)
    obtain ⟨o, offset, _, kept⟩ := chain_recorded sound.chain ends member
    exact ⟨o, offset, (sound.grows last ends).kept kept⟩
  · intro last ends
    obtain ⟨isTopic, committed⟩ := sound.committed last ends
    refine ⟨committed, fun m read => ?_⟩
    have entries := entries_of_read isTopic (chain_last sound.chain ends).partitions read
    exact offset_of_stops ends entries p

/-- A poll that comes too early, one that is cut short by its limit, one that is not committed, and one that
    finds the second record gone. -/
def interrupted : List (Event "clicks") := [
  .poll clicks rfl 10 true, .change (.createTopic "clicks" 1), .change (.append "clicks" 0 [7] none 1),
  .change (.append "clicks" 0 [8] none 2), .poll clicks rfl 1 true, .poll clicks rfl 10 false,
  .change (.append "clicks" 0 [9] none 3), .change (.truncate "clicks" 0 2), .poll clicks rfl 10 true]

theorem committed_delivery_interrupted :
    let s := (Reader.fresh none).run interrupted
    (delivered s.batches ⟨"clicks", 0⟩).map Record.offset = [0, 2] ∧ PassedOver s.batches ⟨"clicks", 0⟩ 1 := by
  intro s
  obtain ⟨_, _, complete, _⟩ := committed_delivery "clicks" none interrupted 0
  have offsets : (delivered s.batches ⟨"clicks", 0⟩).map Record.offset = [0, 2] := by decide +kernel
  have low : origin s.batches ⟨"clicks", 0⟩ ≤ 1 := by decide +kernel
  have high : 1 < reached s.batches ⟨"clicks", 0⟩ := by decide +kernel
  refine ⟨offsets, ?_⟩
  rcases complete 1 low high with ⟨x, member, offset⟩ | passed
  · have present := List.mem_map_of_mem (f := Record.offset) member
    rw [offsets, offset] at present
    simp at present
  · exact passed

end LogCursor.Delivery
