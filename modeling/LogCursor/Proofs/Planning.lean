import LogCursor.Cycle
import LogCursor.Proofs.Advance
import LogCursor.Proofs.Answers
import LogCursor.Proofs.ExactAllocation
import LogCursor.Proofs.RoundTrip
/-!
The stages of a plan, one call after the other. The client may stand for another broker at every call
(`Mirrors`). A source that knows its topic and can go on from its checkpoint always comes to a plan
(`plan_eq`), as long as its partitions and their heads have numerals: one range for each partition it was
listed, from where the checkpoint or the reset strategy says and never past the head, with the budget shared
exactly.
-/
namespace LogCursor.Planning
open LogCursor.Cycle LogCursor.History LogCursor.Answers LogCursor.PartitionOrder LogCursor.CheckpointText
open LogCursor.Advance
variable {σ α β : Type}

private theorem bind_ok {x : Cycle σ α} {f : α → Cycle σ β} {s s' s'' : σ} {m n : List Notice} {a : α}
    {c d : List Call} {r : Except Fault β} (first : x s = ⟨⟨m, .ok a⟩, c, s'⟩)
    (second : f a s' = ⟨⟨n, r⟩, d, s''⟩) : (x >>= f) s = ⟨⟨m ++ n, r⟩, c ++ d, s''⟩ := by
  show andThen x f s = _
  simp [andThen, first, second]

theorem pure_eq (a : α) (s : σ) : (pure a : Cycle σ α) s = ⟨⟨[], .ok a⟩, [], s⟩ := rfl

private theorem call_ok {c : Call} {answer : σ → Outcome α × σ} {kind : Kind} {wrap : Fault → Fault} {s s' : σ}
    {ns : List Notice} {a : α} (answered : answer s = (⟨ns, .ok a⟩, s')) :
    call c answer kind wrap s = ⟨⟨ns, .ok a⟩, [c], s'⟩ := by
  simp [call, answered]

/-- What a source makes of its checkpoint: nothing when there is none, else the offsets that the text gives
    for its own topic. -/
def Reads (topic : String) (checkpoint : Option String) : Option OffsetMap → Prop
  | none => checkpoint.getD "" = ""
  | some m => checkpoint.getD "" ≠ "" ∧ Checkpoint.decode (checkpoint.getD "") = .ok m ∧
      ∀ p ∈ m.partitions, p.topic = topic

/-- Where a partition is read from: the offset of the checkpoint, but not before what is retained, or else an
    end of the log. -/
def startAt (edge : Edge) (position : Option OffsetMap) (b : Broker) (p : Partition) : Int :=
  match position with
  | some m => max (m.offset p) (edgeOf b .earliest p)
  | none => edgeOf b edge p

/-- The end that is looked up before the heads. -/
def firstEdge (edge : Edge) : Option OffsetMap → Edge
  | some _ => .earliest
  | none => edge

private theorem startAt_nonneg (edge : Edge) (position : Option OffsetMap) (b : Broker) (p : Partition) :
    0 ≤ startAt edge position b p := by
  cases position with
  | none => exact Int.natCast_nonneg _
  | some m => exact Int.le_trans (Int.natCast_nonneg _) (Int.le_max_right _ _)

theorem offset_retained (m : OffsetMap) (b : Broker) {ps : List Partition} (distinct : ps.Nodup) {p : Partition}
    (member : p ∈ ps) : (advance m (OffsetMap.ofList (edges b .earliest ps))).offset p =
      max (m.offset p) (edgeOf b .earliest p) := by
  refine offset_advance ?_ m
  rw [entries_edges b .earliest distinct]
  exact List.mem_map_of_mem member

/-- In one state the client answers as the broker does, and goes on to another state. -/
structure Mirrors (client : Client σ) (s : σ) (b : Broker) (s' : σ) : Prop where
  listPartitions : ∀ topic, client.listPartitions topic s = (.ofExcept (b.listPartitions topic), s')
  offsets : ∀ edge ps, client.offsets edge ps s = (.ofExcept (b.offsets edge ps), s')
  fetch : ∀ ranges, client.fetch ranges s = (b.fetchReported ranges, s')

theorem client_mirrors (b : Broker) : Mirrors Broker.client b b b :=
  ⟨fun _ => rfl, fun _ _ => rfl, fun _ => rfl⟩

variable {client : Client σ} {s s' : σ} {b : Broker}

theorem list_eq (mirrors : Mirrors client s b s') {topic : Title} (known : 0 < count b topic.name) :
    list client topic s =
      ⟨⟨[], .ok (listing topic.name (count b topic.name))⟩, [.listPartitions topic.name], s'⟩ := by
  have answered : client.listPartitions topic.name s = (⟨[], .ok (listing topic.name (count b topic.name))⟩, s') := by
    rw [mirrors.listPartitions, listPartitions_eq known]
    rfl
  have some : (listing topic.name (count b topic.name)).isEmpty = false := by
    rw [List.isEmpty_eq_false_iff, ← List.length_pos_iff, listing, List.length_map, List.length_range]
    exact known
  refine bind_ok (n := []) (d := []) (call_ok answered) ?_
  simp only [some, Bool.false_eq_true, if_false, sort_listing]
  rfl

/-- An answer that leaves out none of the partitions is cut down to them. -/
theorem select_found {m : OffsetMap} {ps : List Partition} {offset : Partition → Int}
    (found : ∀ p ∈ ps, m.get? p = some (offset p)) :
    omitted m ps = [] ∧ select m ps = OffsetMap.ofList (ps.map fun p => (p, offset p)) := by
  constructor
  · refine List.filter_eq_nil_iff.mpr fun p member => ?_
    simp [OffsetMap.contains, found p member]
  · have picked : ps.filterMap (fun p => (m.get? p).map fun o => (p, o)) = ps.map fun p => (p, offset p) := by
      rw [← List.filterMap_eq_map]
      refine List.filterMap_congr fun p member => ?_
      simp [found p member]
    exact congrArg OffsetMap.ofList picked

private theorem select_edges (b : Broker) (edge : Edge) {ps : List Partition} (distinct : ps.Nodup) :
    omitted (OffsetMap.ofList (edges b edge ps)) ps = [] ∧
      select (OffsetMap.ofList (edges b edge ps)) ps = OffsetMap.ofList (edges b edge ps) := by
  refine select_found fun p member => ?_
  rw [OffsetMap.get?_eq_some_iff, entries_edges b edge distinct]
  exact List.mem_map_of_mem (f := fun p => (p, (edgeOf b edge p : Int))) member

private theorem lookup_eq (mirrors : Mirrors client s b s') (topic : Title) (edge : Edge) {ps : List Partition}
    (distinct : ps.Nodup) (known : ∀ p ∈ ps, p.index < count b p.topic) :
    lookup client topic edge ps s =
      ⟨⟨[], .ok (OffsetMap.ofList (edges b edge ps))⟩, [.offsets edge ps], s'⟩ := by
  have answered : client.offsets edge ps s = (⟨[], .ok (OffsetMap.ofList (edges b edge ps))⟩, s') := by
    rw [mirrors.offsets, offsets_eq known]
    rfl
  obtain ⟨none, whole⟩ := select_edges b edge distinct
  refine bind_ok (n := []) (d := []) (call_ok answered) ?_
  simp only [none, List.isEmpty_nil, if_true, whole]
  rfl

private theorem resolve_eq (mirrors : Mirrors client s b s') (edge : Edge) {ps : List Partition}
    (distinct : ps.Nodup) (known : ∀ p ∈ ps, p.index < count b p.topic) :
    resolve client edge ps s =
      ⟨⟨[.resetResolved edge ps.length], .ok (OffsetMap.ofList (edges b edge ps))⟩, [.offsets edge ps], s'⟩ := by
  have answered : client.offsets edge ps s = (⟨[], .ok (OffsetMap.ofList (edges b edge ps))⟩, s') := by
    rw [mirrors.offsets, offsets_eq known]
    rfl
  obtain ⟨none, whole⟩ := select_edges b edge distinct
  unfold resolve
  rw [eraseDups_of_nodup distinct]
  refine bind_ok (n := [.resetResolved edge ps.length]) (d := []) (call_ok answered) ?_
  simp only [none, List.mergeSort_nil, List.isEmpty_nil, if_true, whole]
  rfl

theorem resume_eq {topic : Title} {checkpoint : String} {m : OffsetMap}
    (decoded : Checkpoint.decode checkpoint = .ok m) (own : ∀ p ∈ m.partitions, p.topic = topic.name) :
    resume topic checkpoint = .ok m := by
  have foreign : (m.partitions.map (·.topic)).filter (· ≠ topic.name) = [] := by
    refine List.filter_eq_nil_iff.mpr fun t member => ?_
    obtain ⟨p, inside, rfl⟩ := List.mem_map.mp member
    simpa using own p inside
  simp only [resume, decoded, bind, Except.bind, foreign, List.isEmpty_nil, if_true]
  rfl

/-- A checkpoint with an offset of another topic is refused. -/
theorem resume_foreign {topic : Title} {checkpoint : String} {m : OffsetMap} {p : Partition}
    (decoded : Checkpoint.decode checkpoint = .ok m) (member : p ∈ m.partitions) (foreign : p.topic ≠ topic.name) :
    ∃ topics, resume topic checkpoint = .error (.foreignTopics topics topic.shown) := by
  have some : ((m.partitions.map (·.topic)).filter (· ≠ topic.name)).isEmpty = false := by
    rw [List.isEmpty_eq_false_iff]
    exact List.ne_nil_of_mem (List.mem_filter.mpr ⟨List.mem_map_of_mem member, by simpa using foreign⟩)
  simp only [resume, decoded, bind, Except.bind, some]
  exact ⟨_, rfl⟩

/-- Without a checkpoint every partition starts at an end of its log. -/
theorem starts_reset (mirrors : Mirrors client s b s') {source : Source} {checkpoint : Option String}
    (reads : Reads source.topic checkpoint none) {ps : List Partition} (distinct : ps.Nodup)
    (known : ∀ p ∈ ps, p.index < count b p.topic) :
    starts client source checkpoint ps s =
      ⟨⟨[.resetResolved source.edge ps.length], .ok (OffsetMap.ofList (edges b source.edge ps))⟩,
        [.offsets source.edge ps], s'⟩ := by
  have due : Reset.IsDue checkpoint := reads
  simp only [starts, due, if_true]
  exact resolve_eq mirrors source.edge distinct known

/-- Offsets are looked up for partitions that have names. -/
theorem named_edges {ps : List Partition} (distinct : ps.Nodup) (named : ∀ p ∈ ps, Writable p.index) (b : Broker)
    (edge : Edge) : ∀ p ∈ (OffsetMap.ofList (edges b edge ps)).partitions, ¬ Numeral.Overlong p.index := by
  rw [OffsetMap.partitions, entries_edges b edge distinct, partitions_edges]
  exact fun p listed => not_overlong_iff.mpr (named p listed)

/-- A checkpoint is moved past what is no longer retained, and the moves are reported. -/
theorem starts_resumed (mirrors : Mirrors client s b s') {source : Source} {checkpoint : Option String}
    {m : OffsetMap} (reads : Reads source.topic checkpoint (some m)) {ps : List Partition} (distinct : ps.Nodup)
    (named : ∀ p ∈ ps, Writable p.index) (known : ∀ p ∈ ps, p.index < count b p.topic) :
    starts client source checkpoint ps s =
      ⟨⟨warnings m (OffsetMap.ofList (edges b .earliest ps)), .ok (advance m (OffsetMap.ofList (edges b .earliest ps)))⟩,
        [.offsets .earliest ps], s'⟩ := by
  obtain ⟨given, decoded, own⟩ := reads
  have notDue : ¬ Reset.IsDue checkpoint := given
  have resumed : lift (.ofExcept (resume source.title (checkpoint.getD ""))) s = ⟨⟨[], .ok m⟩, [], s⟩ := by
    rw [resume_eq decoded own]
    rfl
  have moved : Retention.advanceReported m (OffsetMap.ofList (edges b .earliest ps)) =
      ⟨warnings m (OffsetMap.ofList (edges b .earliest ps)), .ok (advance m (OffsetMap.ofList (edges b .earliest ps)))⟩ :=
    advanceReported_eq fun entry member untold =>
      named_edges distinct named b .earliest entry.1 (List.mem_map_of_mem member) untold.2
  simp only [starts, notDue, if_false]
  refine bind_ok resumed (bind_ok (d := []) (lookup_eq mirrors source.title .earliest distinct known) ?_)
  rw [moved]
  rfl

/-- The starts are found by one look-up, whether there is a checkpoint or not. -/
theorem starts_eq (mirrors : Mirrors client s b s') {source : Source} {checkpoint : Option String}
    {position : Option OffsetMap} (reads : Reads source.topic checkpoint position) {ps : List Partition}
    (distinct : ps.Nodup) (named : ∀ p ∈ ps, Writable p.index) (known : ∀ p ∈ ps, p.index < count b p.topic) :
    ∃ ns m, starts client source checkpoint ps s =
        ⟨⟨ns, .ok m⟩, [.offsets (firstEdge source.edge position) ps], s'⟩ ∧
      ∀ p ∈ ps, m.offset p = startAt source.edge position b p := by
  cases position with
  | none => exact ⟨_, _, starts_reset mirrors reads distinct known, fun p member => offset_edges b _ distinct member⟩
  | some m =>
    exact ⟨_, _, starts_resumed mirrors reads distinct named known, fun p => offset_retained m b distinct⟩

/-- Where a planned range starts: where reading starts, but not past the head. -/
def firstOffset (edge : Edge) (position : Option OffsetMap) (before after : Broker) (p : Partition) : Int :=
  min (startAt edge position before p) (edgeOf after .latest p)

/-- The unread records of the first partitions of a topic. -/
def unread (edge : Edge) (position : Option OffsetMap) (before after : Broker) (ps : List Partition) : Int :=
  (ps.map fun p => edgeOf after .latest p - firstOffset edge position before after p).sum

/-- The checkpoint text behind planned ranges. -/
def checkpointOf (topic : String) (ranges : List Range) : String :=
  Checkpoint.write topic (ranges.map fun r => (r.partition.index, r.stop))

/-- A plan for the first partitions of a topic, with the starts looked up in one broker and the heads in
    another. -/
structure Planned (source : Source) (position : Option OffsetMap) (limit : Int) (count : Nat)
    (before after : Broker) (ranges : List Range) : Prop where
  partitions : ranges.map Range.partition = listing source.topic count
  start : ∀ r ∈ ranges, (r.start : Int) = firstOffset source.edge position before after r.partition
  stop : ∀ r ∈ ranges, r.stop ≤ edgeOf after .latest r.partition
  total : (Range.total ranges : Int) =
    min (budget source limit) (unread source.edge position before after (listing source.topic count))

/-- Ranges over a listing belong to its topic, and no two of them to one partition. -/
theorem shared_of_listing {topic : String} {ranges : List Range} {count : Nat}
    (partitions : ranges.map Range.partition = listing topic count) : RoundTrip.SharedTopic topic ranges := by
  refine RoundTrip.shared_of_nodup (fun r member => (mem_of_partitions partitions member).1) ?_
  rw [partitions]
  exact listing_nodup topic count

private theorem encode_planned {topic : String} (nameable : Checkpoint.Nameable topic) {ranges : List Range}
    {count : Nat} (some : 0 < count) (partitions : ranges.map Range.partition = listing topic count)
    (short : RoundTrip.Short ranges) : Checkpoint.encode ranges = .ok (checkpointOf topic ranges) := by
  refine RoundTrip.encode_shared (shared_of_listing partitions) ?_ nameable short
  rintro rfl
  have := congrArg List.length partitions
  simp [listing] at this
  omega

/-- The partitions of a listing that can be counted have names. -/
theorem named_listing {topic : String} {count : Nat} (few : Writable count) :
    ∀ p ∈ listing topic count, Writable p.index :=
  fun _ member => writable_of_le few (Nat.le_of_lt (mem_listing.mp member).2)

/-- The ranges of a plan, from starts and heads that were looked up. -/
theorem ranges_planned {source : Source} (position : Option OffsetMap) {count : Nat} {before : Broker}
    {starts : OffsetMap} (limit : Int) (after : Broker) (few : Writable count)
    (started : ∀ p ∈ listing source.topic count, starts.offset p = startAt source.edge position before p) :
    ∃ rs, (Allocation.compute starts (OffsetMap.ofList (edges after .latest (listing source.topic count)))
        (budget source limit)).result = .ok rs ∧ Planned source position limit count before after rs := by
  have distinct := listing_nodup source.topic count
  have entries := entries_edges after .latest distinct
  have accepted : ExactAllocation.Accepted starts
      (OffsetMap.ofList (edges after .latest (listing source.topic count))) (budget source limit) := by
    refine ⟨budget_nonneg source limit, edges_nonneg after .latest distinct, fun entry member => ?_,
      fun entry member unnamed => named_edges distinct (named_listing few) after .latest entry.1
        (List.mem_map_of_mem member) unnamed.2⟩
    rw [entries] at member
    obtain ⟨p, listed, rfl⟩ := List.mem_map.mp member
    rw [started p listed]
    exact startAt_nonneg _ _ _ _
  obtain ⟨rs, run, allotted⟩ := ExactAllocation.compute_allotted accepted
  have order : rs.map Range.partition = listing source.topic count := by
    have sorted : Allocation.inOrder (OffsetMap.ofList (edges after .latest (listing source.topic count))) =
        edges after .latest (listing source.topic count) := by
      unfold Allocation.inOrder
      rw [entries]
      refine List.mergeSort_of_pairwise ?_
      exact List.pairwise_map.mpr (listing_sorted source.topic count)
    rw [allotted.order, sorted, partitions_edges]
  have listed : ∀ r ∈ rs, r.partition ∈ listing source.topic count := fun _ => listed_of_partitions order
  -- The heads that the ranges keep within are the ends of the logs.
  have within : ∀ r ∈ rs, (r.start : Int) = Allocation.startOf starts r.partition (edgeOf after .latest r.partition) ∧
      (r.stop : Int) ≤ edgeOf after .latest r.partition := by
    intro r member
    obtain ⟨head, found, start, stop⟩ := allotted.within r member
    have head_eq := OffsetMap.offset_of_mem (OffsetMap.get?_eq_some_iff.mp found)
    rw [offset_edges after _ distinct (listed r member)] at head_eq
    rw [head_eq]
    exact ⟨start, stop⟩
  refine ⟨rs, run, order, ?_, ?_, ?_⟩
  · intro r member
    rw [(within r member).1, Allocation.startOf, started _ (listed r member)]
    rfl
  · intro r member
    have stop := (within r member).2
    omega
  · rw [allotted.total]
    unfold ExactAllocation.backlog unread
    rw [entries, edges, List.map_map]
    congr 2
    refine List.map_congr_left fun p member => ?_
    show (edgeOf after .latest p : Int) - min (starts.offset p) (edgeOf after .latest p) = _
    rw [started p member]
    rfl

variable {s₁ s₂ s₃ s₄ s₅ : σ} {b₁ b₂ b₃ b₄ : Broker}

theorem known_of_listing {topic : String} {n : Nat} (stays : n ≤ count b topic) :
    ∀ p ∈ listing topic n, p.index < count b p.topic := by
  intro p member
  obtain ⟨own, inside⟩ := mem_listing.mp member
  rw [own]
  exact Nat.lt_of_lt_of_le inside stays

theorem short_planned {source : Source} {position : Option OffsetMap} {limit : Int} {n : Nat} {before after : Broker}
    {rs : List Range} (planned : Planned source position limit n before after rs) (few : Writable n)
    (short : ∀ p ∈ listing source.topic n, Writable (edgeOf after .latest p)) : RoundTrip.Short rs := by
  intro r member
  have listed := listed_of_partitions planned.partitions member
  exact ⟨named_listing few _ listed, writable_of_le (short _ listed) (planned.stop r member)⟩

/-- Once the starts are found, what is left of a plan cannot fail, and the notices of its stages stand in a row. -/
theorem plan_of_starts (first : Mirrors client s₁ b₁ s₂) (third : Mirrors client s₃ b₃ s₄) {source : Source}
    (exists₁ : 0 < count b₁ source.topic) (stays₃ : count b₁ source.topic ≤ count b₃ source.topic)
    (few : Writable (count b₁ source.topic)) {checkpoint : Option String} {limit : Int}
    {ns : List Notice} {ds : List Call} {m : OffsetMap} {rs : List Range}
    (started : starts client source checkpoint (listing source.topic (count b₁ source.topic)) s₂ =
      ⟨⟨ns, .ok m⟩, ds, s₃⟩)
    (run : (Allocation.compute m (OffsetMap.ofList (edges b₃ .latest
      (listing source.topic (count b₁ source.topic)))) (budget source limit)).result = .ok rs)
    (partitions : rs.map Range.partition = listing source.topic (count b₁ source.topic))
    (short : RoundTrip.Short rs) :
    plan client source checkpoint limit s₁ =
      ⟨⟨ns ++ (Allocation.allocate m (OffsetMap.ofList (edges b₃ .latest
            (listing source.topic (count b₁ source.topic)))) (budget source limit)).notices,
          .ok (rs, ⟨Range.total rs, checkpointOf source.topic rs⟩)⟩,
        [.listPartitions source.topic] ++ ds ++ [.offsets .latest (listing source.topic (count b₁ source.topic))],
        s₄⟩ := by
  have listed : list client source.title s₁ = ⟨⟨[], .ok (listing source.topic (count b₁ source.topic))⟩,
      [.listPartitions source.topic], s₂⟩ := list_eq first exists₁
  have headed := lookup_eq third source.title .latest (listing_nodup _ _) (known_of_listing stays₃)
  have allocated : (Allocation.allocate m (OffsetMap.ofList (edges b₃ .latest
      (listing source.topic (count b₁ source.topic)))) (budget source limit)).result = .ok rs := by
    rwa [ExactAllocation.allocate_result (named_edges (listing_nodup _ _) (named_listing few) b₃ .latest)]
  have summed : Summary.ofRanges rs = .ok ⟨Range.total rs, checkpointOf source.topic rs⟩ := by
    simp only [Summary.ofRanges, encode_planned source.isTopic.2 exists₁ partitions short]
    rfl
  have allocating : ∀ x : Outcome (List Range), x.result = .ok rs → lift x s₄ = ⟨⟨x.notices, .ok rs⟩, [], s₄⟩ := by
    intro x done
    rw [← done]
    rfl
  have closing : (do
      let summary ← lift (.ofExcept (Summary.ofRanges rs))
      return (rs, summary) : Cycle σ (List Range × Summary)) s₄ =
        ⟨⟨[], .ok (rs, ⟨Range.total rs, checkpointOf source.topic rs⟩)⟩, [], s₄⟩ := by
    rw [summed]
    rfl
  refine (bind_ok listed (bind_ok started (bind_ok headed (bind_ok (allocating _ allocated) closing)))).trans ?_
  simp only [List.nil_append, List.append_nil, List.append_assoc]

/-- A source that knows its topic and can go on from its checkpoint comes to a plan, in three calls. -/
theorem plan_eq (first : Mirrors client s₁ b₁ s₂) (second : Mirrors client s₂ b₂ s₃)
    (third : Mirrors client s₃ b₃ s₄) {source : Source} (exists₁ : 0 < count b₁ source.topic)
    (stays₂ : count b₁ source.topic ≤ count b₂ source.topic)
    (stays₃ : count b₁ source.topic ≤ count b₃ source.topic) (few : Writable (count b₁ source.topic))
    (short : ∀ p ∈ listing source.topic (count b₁ source.topic), Writable (edgeOf b₃ .latest p))
    {checkpoint : Option String} {position : Option OffsetMap} (reads : Reads source.topic checkpoint position)
    (limit : Int) :
    ∃ ns rs, plan client source checkpoint limit s₁ =
        ⟨⟨ns, .ok (rs, ⟨Range.total rs, checkpointOf source.topic rs⟩)⟩,
          [.listPartitions source.topic,
            .offsets (firstEdge source.edge position) (listing source.topic (count b₁ source.topic)),
            .offsets .latest (listing source.topic (count b₁ source.topic))], s₄⟩ ∧
      Planned source position limit (count b₁ source.topic) b₂ b₃ rs := by
  obtain ⟨ns, m, started, at'⟩ := starts_eq second reads (listing_nodup source.topic (count b₁ source.topic))
    (named_listing few) (known_of_listing stays₂)
  obtain ⟨rs, run, planned⟩ := ranges_planned position limit b₃ few at'
  have shortened := short_planned planned few short
  exact ⟨_, rs, plan_of_starts first third exists₁ stays₃ few started run planned.partitions shortened, planned⟩

end LogCursor.Planning
