import LogCursor.Partition
import Mathlib.Data.List.Nodup
/-!
The order of partitions: by index, then by topic. It is total, and partitions that differ are strictly one
before the other (`before_of_precedes`). The partitions of one topic, listed by index, are in order and
distinct, so sorting and clearing of repetitions leave them alone (`sort_listing`).
-/
namespace LogCursor.PartitionOrder

/-- Strictly earlier: a smaller index, or the same index and a smaller topic. -/
def Before (p q : Partition) : Prop := p.index < q.index ∨ (p.index = q.index ∧ p.topic < q.topic)

/-- The first partitions of a topic, ascending. -/
def listing (topic : String) (count : Nat) : List Partition :=
  (List.range count).map fun i => ⟨topic, i⟩

theorem precedes_iff (p q : Partition) :
    p.precedes q = true ↔ p.index < q.index ∨ (p.index = q.index ∧ p.topic ≤ q.topic) := by
  simp only [Partition.precedes, Bool.or_eq_true, Bool.and_eq_true, decide_eq_true_eq, beq_iff_eq,
    Bool.not_eq_true', decide_eq_false_iff_not, String.not_lt]

theorem precedes_trans (p q r : Partition) (pq : p.precedes q = true) (qr : q.precedes r = true) :
    p.precedes r = true := by
  rw [precedes_iff] at *
  rcases pq with less | ⟨same, below⟩
  · rcases qr with less' | ⟨same', _⟩
    · exact .inl (Nat.lt_trans less less')
    · exact .inl (same' ▸ less)
  · rcases qr with less' | ⟨same', below'⟩
    · exact .inl (same ▸ less')
    · exact .inr ⟨same.trans same', String.le_trans below below'⟩

theorem precedes_total (p q : Partition) : (p.precedes q || q.precedes p) = true := by
  rw [Bool.or_eq_true, precedes_iff, precedes_iff]
  rcases Nat.lt_trichotomy p.index q.index with less | same | more
  · exact .inl (.inl less)
  · rcases String.le_total p.topic q.topic with below | above
    · exact .inl (.inr ⟨same, below⟩)
    · exact .inr (.inr ⟨same.symm, above⟩)
  · exact .inr (.inl more)

theorem before_of_precedes {p q : Partition} (precedes : p.precedes q = true) (apart : p ≠ q) : Before p q := by
  rcases (precedes_iff p q).mp precedes with less | ⟨same, below⟩
  · exact .inl less
  · refine .inr ⟨same, String.not_le.mp fun above => apart ?_⟩
    cases p; cases q
    simp only at same below above
    rw [same, String.le_antisymm below above]

theorem before_asymm {p q : Partition} (pq : Before p q) : ¬ Before q p := by
  rintro (less | ⟨same, below⟩)
  · rcases pq with less' | ⟨same', _⟩ <;> omega
  · rcases pq with less' | ⟨_, below'⟩
    · omega
    · exact String.lt_asymm below below'

theorem listing_nodup (topic : String) (count : Nat) : (listing topic count).Nodup :=
  List.nodup_range.map fun i j same => by simpa using same

theorem mem_listing {topic : String} {count : Nat} {p : Partition} :
    p ∈ listing topic count ↔ p.topic = topic ∧ p.index < count := by
  unfold listing
  rw [List.mem_map]
  constructor
  · rintro ⟨i, inside, rfl⟩; exact ⟨rfl, List.mem_range.mp inside⟩
  · rintro ⟨rfl, inside⟩; exact ⟨p.index, List.mem_range.mpr inside, rfl⟩

/-- Ranges over a listing belong to the topic, and their indices are below the count. -/
theorem listed_of_partitions {topic : String} {count : Nat} {rs : List Range}
    (partitions : rs.map Range.partition = listing topic count) {r : Range} (member : r ∈ rs) :
    r.partition ∈ listing topic count := partitions ▸ List.mem_map_of_mem member

theorem mem_of_partitions {topic : String} {count : Nat} {rs : List Range}
    (partitions : rs.map Range.partition = listing topic count) {r : Range} (member : r ∈ rs) :
    r.partition.topic = topic ∧ r.partition.index < count :=
  mem_listing.mp (listed_of_partitions partitions member)

theorem listing_sorted (topic : String) (count : Nat) :
    (listing topic count).Pairwise fun p q => p.precedes q = true := by
  refine List.pairwise_map.mpr (List.pairwise_lt_range.imp ?_)
  intro i j less
  exact (precedes_iff _ _).mpr (.inl less)

theorem eraseDups_of_nodup {α : Type} [BEq α] [LawfulBEq α] {xs : List α} (distinct : xs.Nodup) :
    xs.eraseDups = xs := by
  induction xs with
  | nil => rfl
  | cons x xs ih =>
    obtain ⟨fresh, others⟩ := List.nodup_cons.mp distinct
    have kept : (xs.filter fun y => !y == x) = xs := by
      refine List.filter_eq_self.mpr fun y member => ?_
      simpa using fun same : y = x => fresh (same ▸ member)
    rw [List.eraseDups_cons, kept, ih others]

theorem nodup_eraseDups {α : Type} [BEq α] [LawfulBEq α] : ∀ xs : List α, xs.eraseDups.Nodup
  | [] => List.nodup_nil
  | x :: xs => by
    rw [List.eraseDups_cons, List.nodup_cons, List.mem_eraseDups]
    exact ⟨by simp, nodup_eraseDups _⟩
termination_by xs => xs.length
decreasing_by exact Nat.lt_succ_of_le (List.length_filter_le _ xs)

theorem sort_listing (topic : String) (count : Nat) :
    (listing topic count).eraseDups.mergeSort Partition.precedes = listing topic count := by
  rw [eraseDups_of_nodup (listing_nodup topic count)]
  exact List.mergeSort_of_pairwise (listing_sorted topic count)

end LogCursor.PartitionOrder
