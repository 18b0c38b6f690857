import LogCursor.Proofs.Resumption
import LogCursor.Proofs.Polling
/-!
Batches that follow one another. Each of them was read from a broker at some time and goes on from where the
one before it stopped (`Chain`). What such batches give out of a partition is in order of offset and never the
same twice (`chain_increasing`), it is what was appended (`chain_recorded`), and between the origin and the
offset that was reached nothing is missing but what retention had dropped by then (`chain_complete`).
-/
namespace LogCursor.Batches
open LogCursor.History LogCursor.Answers LogCursor.PartitionOrder LogCursor.Polling LogCursor.Resumption

/-- The ranges that were read at one time, with their records. -/
structure Batch where
  chronicle : Chronicle
  ranges : List Range
  records : List Record

/-- The range of a partition in a batch. -/
def Batch.range? (b : Batch) (p : Partition) : Option Range := b.ranges.find? fun r => r.partition = p

/-- The records of one partition. -/
def ofPartition (p : Partition) (records : List Record) : List Record :=
  records.filter fun x => x.topic = p.topic ∧ x.partition = p.index

/-- The records of a partition that batches give out, in their order. -/
def delivered (bs : List Batch) (p : Partition) : List Record := ofPartition p (bs.flatMap Batch.records)

/-- Where batches begin with a partition: where the first of them starts it, or at zero when it was not there
    yet. -/
def origin (bs : List Batch) (p : Partition) : Nat :=
  ((bs.head?.bind fun b => b.range? p).map Range.start).getD 0

/-- How far batches have come with a partition: to where the last of them stops it. -/
def reached (bs : List Batch) (p : Partition) : Nat :=
  ((bs.getLast?.bind fun b => b.range? p).map Range.stop).getD 0

/-- An offset that one of the batches left out, since it was no longer retained. -/
def PassedOver (bs : List Batch) (p : Partition) (o : Nat) : Prop :=
  ∃ before next after r, bs = before ++ next :: after ∧ next.range? p = some r ∧
    reached before p ≤ o ∧ o < r.start ∧ o < edgeOf next.chronicle.broker .earliest p

/-- A batch over all partitions of a topic. -/
structure Whole (topic : String) (b : Batch) : Prop where
  keeps : Keeps b.chronicle.broker b.chronicle.annals
  partitions : b.ranges.map Range.partition = listing topic (count b.chronicle.broker topic)
  within : ∀ r ∈ b.ranges, r.stop ≤ edgeOf b.chronicle.broker .latest r.partition
  records : b.records = b.ranges.flatMap (slice b.chronicle.annals)

/-- A later batch, which starts each partition where earlier ones have come to, within what is retained. -/
structure Follows (bs : List Batch) (next : Batch) : Prop where
  grows : ∀ last, bs.getLast? = some last → Grows last.chronicle next.chronicle
  resumed : bs ≠ [] → ∀ r ∈ next.ranges, r.start =
    min (max (reached bs r.partition) (edgeOf next.chronicle.broker .earliest r.partition))
      (edgeOf next.chronicle.broker .latest r.partition)

/-- Batches of a topic that follow one another. -/
inductive Chain (topic : String) : List Batch → Prop where
  | nil : Chain topic []
  | snoc {bs : List Batch} {next : Batch} (earlier : Chain topic bs) (whole : Whole topic next)
      (follows : Follows bs next) : Chain topic (bs ++ [next])

variable {topic : String} {bs : List Batch} {b next last : Batch} {p : Partition} {r : Range}

theorem range?_some (found : b.range? p = some r) : r ∈ b.ranges ∧ r.partition = p :=
  ⟨List.mem_of_find?_eq_some found, by simpa using List.find?_some found⟩

private theorem range?_isSome_iff (whole : Whole topic b) :
    (∃ r, b.range? p = some r) ↔ p.topic = topic ∧ p.index < count b.chronicle.broker topic := by
  rw [← mem_listing, ← whole.partitions, List.mem_map]
  constructor
  · rintro ⟨r, found⟩
    exact ⟨r, range?_some found⟩
  · rintro ⟨r, member, own⟩
    exact Option.isSome_iff_exists.mp (List.find?_isSome.mpr ⟨r, member, by simpa using own⟩)

private theorem within_annals (whole : Whole topic b) {r : Range} (member : r ∈ b.ranges) :
    r.stop ≤ (b.chronicle.annals r.partition.topic r.partition.index).length := by
  obtain ⟨own, inside⟩ := mem_of_partitions whole.partitions member
  rw [← latest_eq_length whole.keeps (own ▸ inside)]
  exact whole.within r member

private theorem ofPartition_slice {b : Broker} {h : Annals} (keeps : Keeps b h) (p : Partition) (r : Range) :
    ofPartition p (slice h r) = if r.partition = p then slice h r else [] := by
  unfold ofPartition
  split
  · rename_i same
    subst same
    refine List.filter_eq_self.mpr fun x member => ?_
    obtain ⟨own, index, _⟩ := mem_slice keeps member
    simp [own, index]
  · rename_i apart
    refine List.filter_eq_nil_iff.mpr fun x member => ?_
    obtain ⟨own, index, _⟩ := mem_slice keeps member
    have other : ¬ (r.partition.topic = p.topic ∧ r.partition.index = p.index) := fun same => apart (by
      cases equal : r.partition
      cases p
      simp_all)
    simp only [own, index, Int.natCast_inj, other, decide_false, Bool.false_eq_true, not_false_eq_true]

/-- The records of a partition are those of its range. -/
theorem ofPartition_ranges {b : Broker} {h : Annals} (keeps : Keeps b h) {rs : List Range}
    (distinct : (rs.map Range.partition).Nodup) (p : Partition) :
    ofPartition p (rs.flatMap (slice h)) =
      ((rs.find? fun r => r.partition = p).map (slice h)).getD [] := by
  induction rs with
  | nil => rfl
  | cons r rest ih =>
    obtain ⟨fresh, others⟩ := List.nodup_cons.mp distinct
    have split : ofPartition p ((r :: rest).flatMap (slice h)) =
        ofPartition p (slice h r) ++ ofPartition p (rest.flatMap (slice h)) := by
      simp [ofPartition]
    rw [split, ofPartition_slice keeps, ih others]
    by_cases same : r.partition = p
    · have none : rest.find? (fun r => r.partition = p) = none := by
        refine List.find?_eq_none.mpr fun other member => ?_
        have apart : other.partition ≠ p := fun equal =>
          fresh (same.trans equal.symm ▸ List.mem_map_of_mem member)
        simpa using apart
      simp [same, none]
    · simp [same]

private theorem records_of_partition (whole : Whole topic b) (p : Partition) :
    ofPartition p b.records = ((b.range? p).map (slice b.chronicle.annals)).getD [] := by
  rw [whole.records]
  exact ofPartition_ranges whole.keeps (whole.partitions ▸ listing_nodup _ _) p

theorem exists_last (some : bs ≠ []) : ∃ last, bs.getLast? = .some last :=
  ⟨bs.getLast some, List.getLast?_eq_some_getLast some⟩

theorem ne_nil_of_delivered {x : Record} (member : x ∈ delivered bs p) : bs ≠ [] := by
  rintro rfl
  simp [delivered, ofPartition] at member

private theorem reached_snoc (bs : List Batch) (next : Batch) (p : Partition) :
    reached (bs ++ [next]) p = ((next.range? p).map Range.stop).getD 0 := by
  simp [reached]

private theorem origin_snoc (some : bs ≠ []) (next : Batch) (p : Partition) : origin (bs ++ [next]) p = origin bs p := by
  simp [origin, List.head?_append_of_ne_nil _ some]

private theorem delivered_snoc (whole : Whole topic next) (bs : List Batch) (p : Partition) :
    delivered (bs ++ [next]) p =
      delivered bs p ++ ((next.range? p).map (slice next.chronicle.annals)).getD [] := by
  rw [← records_of_partition whole]
  simp [delivered, ofPartition]

private theorem passedOver_snoc {o : Nat} (passed : PassedOver bs p o) (next : Batch) : PassedOver (bs ++ [next]) p o := by
  obtain ⟨before, passing, after, r, rfl, found, low, high, dropped⟩ := passed
  exact ⟨before, passing, after ++ [next], r, by simp, found, low, high, dropped⟩

theorem chain_last (chain : Chain topic bs) (ends : bs.getLast? = some last) : Whole topic last := by
  cases chain with
  | nil => cases ends
  | snoc earlier whole follows =>
    rw [List.getLast?_concat] at ends
    cases ends
    exact whole

/-- What was reached is within the history, then and later. -/
theorem reached_le_annals (chain : Chain topic bs) (ends : bs.getLast? = some last) (p : Partition) :
    reached bs p ≤ (last.chronicle.annals p.topic p.index).length := by
  unfold reached
  rw [ends]
  cases found : last.range? p with
  | none => simp [found]
  | some r =>
    obtain ⟨member, rfl⟩ := range?_some found
    simpa [found] using within_annals (chain_last chain ends) member

/-- No batch goes back: it starts a partition where earlier ones have come to, or where retention does. -/
theorem start_of_follows (chain : Chain topic bs) (some : bs ≠ []) (whole : Whole topic next)
    (follows : Follows bs next) (found : next.range? p = .some r) :
    reached bs p ≤ r.start ∧ r.start ≤ max (reached bs p) (edgeOf next.chronicle.broker .earliest p) := by
  obtain ⟨last, ends⟩ := exists_last some
  obtain ⟨member, own⟩ := range?_some found
  have start := follows.resumed some r member
  rw [own] at start
  have inside := (range?_isSome_iff whole).mp ⟨r, found⟩
  have head := latest_eq_length whole.keeps (inside.1.symm ▸ inside.2)
  have come := reached_le_annals chain ends p
  have grown := ((follows.grows last ends).annals p.topic p.index).length_le
  omega

private theorem reached_mono (chain : Chain topic bs) (whole : Whole topic next) (follows : Follows bs next)
    (p : Partition) : reached bs p ≤ reached (bs ++ [next]) p := by
  by_cases some : bs = []
  · subst some
    exact Nat.zero_le _
  rw [reached_snoc]
  cases found : next.range? p with
  | some r =>
    have start := (start_of_follows chain some whole follows found).1
    exact Nat.le_trans start r.start_le_stop
  | none =>
    obtain ⟨last, ends⟩ := exists_last some
    have absent : last.range? p = none := by
      by_contra present
      obtain ⟨r, present⟩ := Option.ne_none_iff_exists'.mp present
      obtain ⟨own, inside⟩ := (range?_isSome_iff (chain_last chain ends)).mp ⟨r, present⟩
      have inside' := Nat.lt_of_lt_of_le inside ((follows.grows last ends).count topic)
      obtain ⟨r', present'⟩ := (range?_isSome_iff whole).mpr ⟨own, inside'⟩
      rw [found] at present'
      cases present'
    simp [reached, ends, absent]

/-- Every record is the one that was appended at its offset, and it comes before the offset that was reached. -/
theorem chain_recorded (chain : Chain topic bs) (ends : bs.getLast? = some last) {x : Record}
    (member : x ∈ delivered bs p) : ∃ o : Nat, x.offset = o ∧ o < reached bs p ∧
      (last.chronicle.annals p.topic p.index)[o]? = some x := by
  induction chain generalizing last with
  | nil => cases ends
  | @snoc bs next earlier whole follows ih =>
    rw [List.getLast?_concat] at ends
    cases ends
    rw [delivered_snoc whole, List.mem_append] at member
    rcases member with before | now
    · obtain ⟨previous, ended⟩ := exists_last (ne_nil_of_delivered before)
      obtain ⟨o, offset, below, kept⟩ := ih ended before
      have above := reached_mono earlier whole follows p
      exact ⟨o, offset, Nat.lt_of_lt_of_le below above, (follows.grows previous ended).kept kept⟩
    · cases found : next.range? p with
      | none => simp [found] at now
      | some r =>
        obtain ⟨_, rfl⟩ := range?_some found
        obtain ⟨_, _, o, offset, _, high, kept⟩ := mem_slice whole.keeps (by simpa [found] using now)
        exact ⟨o, offset, by simpa [reached_snoc, found] using high, kept⟩

/-- No offset is given out twice, and none after a later one. -/
theorem chain_increasing (chain : Chain topic bs) (p : Partition) :
    (delivered bs p).Pairwise fun x y => x.offset < y.offset := by
  induction chain with
  | nil => exact .nil
  | @snoc bs next earlier whole follows ih =>
    rw [delivered_snoc whole, List.pairwise_append]
    cases found : next.range? p with
    | none => exact ⟨ih, .nil, by simp⟩
    | some r =>
      obtain ⟨inside, rfl⟩ := range?_some found
      refine ⟨ih, ?_, ?_⟩
      · have offsets := offsets_slice whole.keeps (within_annals whole inside)
        have sorted : ((slice next.chronicle.annals r).map Record.offset).Pairwise (· < ·) := by
          rw [offsets]
          exact List.pairwise_map.mpr ((List.pairwise_lt_range').imp fun less => Int.ofNat_lt.mpr less)
        exact List.pairwise_map.mp sorted
      · intro x before y now
        have some := ne_nil_of_delivered before
        obtain ⟨previous, ended⟩ := exists_last some
        obtain ⟨o, offset, below, _⟩ := chain_recorded earlier ended before
        obtain ⟨_, _, o', offset', low, _⟩ := mem_slice whole.keeps now
        have start := (start_of_follows earlier some whole follows found).1
        omega

/-- From the origin up to the offset that was reached, nothing is missing but what was passed over. -/
theorem chain_complete (chain : Chain topic bs) {o : Nat} (low : origin bs p ≤ o) (high : o < reached bs p) :
    (∃ x ∈ delivered bs p, x.offset = o) ∨ PassedOver bs p o := by
  induction chain with
  | nil => cases high
  | @snoc bs next earlier whole follows ih =>
    rw [delivered_snoc whole]
    by_cases before : bs ≠ [] ∧ o < reached bs p
    · rw [origin_snoc before.1] at low
      rcases ih low before.2 with ⟨x, member, offset⟩ | passed
      · exact .inl ⟨x, List.mem_append_left _ member, offset⟩
      · exact .inr (passedOver_snoc passed next)
    · rw [reached_snoc] at high
      cases found : next.range? p with
      | none => simp [found] at high
      | some r =>
        have stop : o < r.stop := by simpa [found] using high
        obtain ⟨inside, _⟩ := range?_some found
        rcases Nat.lt_or_ge o r.start with early | late
        · right
          have some : bs ≠ [] := by
            rintro rfl
            have start : r.start ≤ o := by simpa [origin, found] using low
            omega
          have come : reached bs p ≤ o := Nat.le_of_not_lt fun less => before ⟨some, less⟩
          have start := (start_of_follows earlier some whole follows found).2
          exact ⟨bs, next, [], r, rfl, found, come, early, by omega⟩
        · left
          obtain ⟨x, member, offset⟩ := exists_mem_slice whole.keeps (within_annals whole inside) late stop
          exact ⟨x, List.mem_append_right _ (by simpa using member), offset⟩

end LogCursor.Batches
