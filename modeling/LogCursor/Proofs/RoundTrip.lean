import LogCursor.Proofs.CheckpointReading
import LogCursor.Proofs.ExactAllocation
import LogCursor.Summary
/-!
Checkpoints of ranges. Ranges of one topic over distinct partitions are written as one text
(`encode_shared`), and the text is read back, if it is read at all, as where each of them stops
(`entries_of_decode`). Within the limit of numerals it is read; so it tells such ranges apart by their topic,
their partitions and their stops (`decode_encode`).
-/
namespace LogCursor.RoundTrip
open LogCursor.Allocation LogCursor.Checkpoint LogCursor.CheckpointText LogCursor.ExactAllocation

/-- Ranges of one topic, no two of them over the same partition. -/
structure SharedTopic (topic : String) (rs : List Range) : Prop where
  own : ∀ r ∈ rs, r.partition.topic = topic
  distinct : (rs.map fun r => r.partition.index).Nodup

/-- Ranges whose indices and stops have numerals within the limit. -/
def Short (rs : List Range) : Prop := ∀ r ∈ rs, Writable r.partition.index ∧ Writable r.stop

/-- The index and the stop of each range. -/
def pairs (rs : List Range) : List (Nat × Nat) := rs.map fun r => (r.partition.index, r.stop)

variable {topic : String} {rs : List Range}

private theorem unwritable_any_iff : rs.any (Unwritable ·) = false ↔ Short rs := by
  rw [List.any_eq_false]
  refine forall₂_congr fun r _ => ?_
  rw [decide_eq_true_eq, Unwritable, not_or, not_overlong_iff, not_overlong_iff]

/-- Ranges of one topic that can be stored are written unless a number has no numeral. -/
private theorem encode_cases (own : ∀ r ∈ rs, r.partition.topic = topic) (some : rs ≠ []) (nameable : Nameable topic) :
    encode rs = if rs.any (Unwritable ·) then .error .overlongNumber else .ok (write topic (pairs rs)) := by
  cases rs with
  | nil => exact absurd rfl some
  | cons first rest =>
    have same : (first :: rest).any (fun r => decide (r.partition.topic ≠ first.partition.topic)) = false := by
      refine List.any_eq_false.mpr fun r member => ?_
      simp [own r member, own first (by simp)]
    simp only [encode, same, Bool.false_eq_true, if_false]
    rw [own first (by simp), if_pos nameable]
    rfl

theorem encode_own (own : ∀ r ∈ rs, r.partition.topic = topic) (some : rs ≠ []) (nameable : Nameable topic)
    (short : Short rs) : encode rs = .ok (write topic (pairs rs)) := by
  rw [encode_cases own some nameable, unwritable_any_iff.mpr short, if_neg Bool.false_ne_true]

theorem encode_overlong (own : ∀ r ∈ rs, r.partition.topic = topic) (some : rs ≠ []) (nameable : Nameable topic)
    (long : ¬ Short rs) : encode rs = .error .overlongNumber := by
  rw [encode_cases own some nameable, if_pos (Bool.not_eq_false _ ▸ mt unwritable_any_iff.mp long)]

/-- What is written is written for a topic that all ranges share. -/
theorem encode_ok_iff {text : String} : encode rs = .ok text ↔ rs ≠ [] ∧ Short rs ∧
    ∃ topic, (∀ r ∈ rs, r.partition.topic = topic) ∧ Nameable topic ∧ text = write topic (pairs rs) := by
  constructor
  · intro written
    cases rs with
    | nil => cases written
    | cons first rest =>
      have own : ∀ r ∈ first :: rest, r.partition.topic = first.partition.topic := by
        by_contra mixed
        have several : (first :: rest).any (fun r => decide (r.partition.topic ≠ first.partition.topic)) = true := by
          simpa using mixed
        rw [encode, if_pos several] at written
        cases written
      have nameable : Nameable first.partition.topic := by
        by_contra unstorable
        unfold encode at written
        simp only [if_neg unstorable] at written
        split at written <;> cases written
      have short : Short (first :: rest) := by
        by_contra long
        rw [encode_overlong own (by simp) nameable long] at written
        cases written
      rw [encode_own own (by simp) nameable short] at written
      cases written
      exact ⟨by simp, short, _, own, nameable, rfl⟩
  · rintro ⟨some, short, topic, own, nameable, rfl⟩
    exact encode_own own some nameable short

/-- Ranges are refused for what they are, or for the form of their topic. -/
theorem encode_fault {e : Fault} (refused : encode rs = .error e) : e.kind = .value ∨ e.kind = .format := by
  unfold encode at refused
  split at refused
  · cases refused
    exact .inl rfl
  · simp only at refused
    split at refused
    · cases refused
      exact .inl rfl
    · split at refused
      · split at refused <;> cases refused
        exact .inl rfl
      · cases refused
        exact .inr rfl

theorem encode_shared (shared : SharedTopic topic rs) (some : rs ≠ []) (nameable : Nameable topic)
    (short : Short rs) : encode rs = .ok (write topic (pairs rs)) := encode_own shared.own some nameable short

theorem entries_pairs (own : ∀ r ∈ rs, r.partition.topic = topic) :
    entries topic (pairs rs) = rs.map fun r => (r.partition, (r.stop : Int)) := by
  rw [entries, pairs, List.map_map]
  refine List.map_congr_left fun r member => ?_
  show ((⟨topic, r.partition.index⟩ : Partition), (r.stop : Int)) = (r.partition, (r.stop : Int))
  rw [← own r member]

private theorem nodup_pairs (shared : SharedTopic topic rs) : ((pairs rs).map Prod.fst).Nodup := by
  rw [pairs, List.map_map]
  exact shared.distinct

/-- A text behind ranges that is read at all says where they stop. -/
theorem entries_of_decode (shared : SharedTopic topic rs) (named : topic ≠ "") (nameable : Nameable topic)
    {m : OffsetMap} (read : decode (write topic (pairs rs)) = .ok m) :
    m.entries = rs.map fun r => (r.partition, (r.stop : Int)) := by
  have distinct := nodup_entries topic (nodup_pairs shared)
  rw [decode_write_eq named nameable read, OffsetMap.entries_ofList distinct, entries_pairs shared.own]

/-- A text behind ranges is read within the limit. -/
theorem decode_pairs (shared : SharedTopic topic rs) (short : Short rs) (named : topic ≠ "")
    (nameable : Nameable topic) :
    ∃ m, decode (write topic (pairs rs)) = .ok m ∧ m.entries = rs.map fun r => (r.partition, (r.stop : Int)) := by
  have read := decode_write named nameable (pairs rs) (nodup_pairs shared) (by
    intro pair member
    obtain ⟨r, inside, rfl⟩ := List.mem_map.mp member
    exact short r inside)
  exact ⟨_, read, entries_of_decode shared named nameable read⟩

theorem stop_mem {m : OffsetMap} (entries : m.entries = rs.map fun r => (r.partition, (r.stop : Int))) {r : Range}
    (member : r ∈ rs) : (r.partition, (r.stop : Int)) ∈ m.entries := by
  rw [entries]
  exact List.mem_map_of_mem (f := fun r : Range => (r.partition, (r.stop : Int))) member

theorem offset_stop {m : OffsetMap} (entries : m.entries = rs.map fun r => (r.partition, (r.stop : Int)))
    {r : Range} (member : r ∈ rs) : m.offset r.partition = r.stop :=
  OffsetMap.offset_of_mem (stop_mem entries member)

theorem pairs_eq {m : OffsetMap} (entries : m.entries = rs.map fun r => (r.partition, (r.stop : Int))) :
    pairs rs = m.entries.map fun entry => (entry.1.index, entry.2.toNat) := by
  rw [entries, List.map_map]
  rfl

theorem topic_of_mem (shared : SharedTopic topic rs) {m : OffsetMap}
    (entries : m.entries = rs.map fun r => (r.partition, (r.stop : Int))) {entry : Partition × Int}
    (member : entry ∈ m.entries) : entry.1.topic = topic := by
  rw [entries] at member
  obtain ⟨r, inside, rfl⟩ := List.mem_map.mp member
  exact shared.own r inside

/-- Within one topic, partitions that differ have different indices. -/
theorem shared_of_nodup (own : ∀ r ∈ rs, r.partition.topic = topic)
    (distinct : (rs.map Range.partition).Nodup) : SharedTopic topic rs := by
  refine ⟨own, ?_⟩
  have indices : (rs.map fun r => r.partition.index) = (rs.map Range.partition).map Partition.index := by
    rw [List.map_map]
    rfl
  rw [indices]
  refine distinct.map_on fun p listed q listed' same => ?_
  obtain ⟨r, member, rfl⟩ := List.mem_map.mp listed
  obtain ⟨r', member', rfl⟩ := List.mem_map.mp listed'
  calc r.partition = ⟨r.partition.topic, r.partition.index⟩ := rfl
    _ = ⟨r'.partition.topic, r'.partition.index⟩ := by rw [own r member, own r' member', same]
    _ = r'.partition := rfl

variable {heads : OffsetMap}

/-- Heads of one topic that a checkpoint can record: at least one, none negative, and all numerals within the
    limit. -/
structure Recordable (topic : String) (heads : OffsetMap) : Prop where
  some : heads.entries ≠ []
  own : CheckpointReading.Own topic heads
  short : ∀ entry ∈ heads.entries, Writable entry.1.index ∧ Writable entry.2.toNat

theorem named_of_recordable (recordable : Recordable topic heads) :
    ∀ p ∈ heads.partitions, ¬ Numeral.Overlong p.index := by
  intro p member
  obtain ⟨entry, inside, rfl⟩ := List.mem_map.mp member
  exact not_overlong_iff.mpr (recordable.short entry inside).1

theorem shared_of_order (order : rs.map Range.partition = (inOrder heads).map Prod.fst)
    (own : ∀ p ∈ heads.partitions, p.topic = topic) : SharedTopic topic rs := by
  have perm := perm_of_order order
  refine shared_of_nodup (fun r member => ?_) (perm.nodup_iff.mpr heads.distinct)
  exact own r.partition (perm.mem_iff.mp (List.mem_map_of_mem member))

/-- Ranges over heads that have numerals keep within these. -/
theorem short_of_allotted {starts : OffsetMap} {budget : Int} (allotted : Allotted starts heads budget rs)
    (short : ∀ entry ∈ heads.entries, Writable entry.1.index ∧ Writable entry.2.toNat) : Short rs := by
  intro r member
  obtain ⟨head, found, _, stop⟩ := allotted.within r member
  obtain ⟨index, writable⟩ := short _ (OffsetMap.get?_eq_some_iff.mp found)
  exact ⟨index, writable_of_le writable (by omega)⟩

/-- Ranges over heads of one topic can be summed up. -/
theorem summary_of_order (order : rs.map Range.partition = (inOrder heads).map Prod.fst)
    (own : ∀ p ∈ heads.partitions, p.topic = topic) (some : heads.entries ≠ []) (nameable : Nameable topic)
    (short : Short rs) : Summary.ofRanges rs = .ok ⟨Range.total rs, write topic (pairs rs)⟩ := by
  rw [Summary.ofRanges, encode_shared (shared_of_order order own) (nonempty_of_order order some) nameable short]
  rfl

/-- Ranges of one topic over distinct partitions have a checkpoint, which is read back as the stop of each
    range, in their order. No others with another topic, other indices or other stops have the same. -/
theorem decode_encode (topic : String) (rs : List Range) (some : rs ≠ []) (named : topic ≠ "")
    (nameable : Nameable topic) (shared : SharedTopic topic rs) (short : Short rs) :
    ∃ text, encode rs = .ok text ∧
      (∃ m, decode text = .ok m ∧ m.entries = rs.map fun r => (r.partition, (r.stop : Int))) ∧
      ∀ topic' rs', rs' ≠ [] → topic' ≠ "" → Nameable topic' → SharedTopic topic' rs' → Short rs' →
        encode rs' = .ok text →
        topic' = topic ∧
          (rs'.map fun r => (r.partition.index, r.stop)) = rs.map fun r => (r.partition.index, r.stop) := by
  obtain ⟨m, read, entries⟩ := decode_pairs shared short named nameable
  refine ⟨_, encode_shared shared some nameable short, ⟨m, read, entries⟩, ?_⟩
  intro topic' rs' some' named' nameable' shared' short' encoded
  have text : write topic' (pairs rs') = write topic (pairs rs) := by
    rw [encode_shared shared' some' nameable' short'] at encoded
    exact Except.ok.inj encoded
  have entries' := entries_of_decode shared' named' nameable' (text ▸ read)
  constructor
  · obtain ⟨r, member⟩ := List.exists_mem_of_ne_nil rs some
    have entered : (r.partition, (r.stop : Int)) ∈ m.entries := by
      rw [entries]
      exact List.mem_map_of_mem (f := fun r : Range => (r.partition, (r.stop : Int))) member
    exact (topic_of_mem shared' entries' entered).symm.trans (topic_of_mem shared entries entered)
  · exact (pairs_eq entries').trans (pairs_eq entries).symm

/-- Ranges of a topic with a blank and a letter beyond ASCII in its name, the later partition first. -/
def visits : List Range := [⟨⟨"visités 2", 10⟩, 7, 7, by decide⟩, ⟨⟨"visités 2", 9⟩, 0, 4096, by decide⟩]

theorem decode_encode_visits : visits ≠ [] ∧ SharedTopic "visités 2" visits ∧ Short visits ∧
    ∃ m, decode "visités 2,10:7,9:4096" = .ok m ∧
      m.entries = [(⟨"visités 2", 10⟩, 7), (⟨"visités 2", 9⟩, 4096)] := by
  have shared : SharedTopic "visités 2" visits := ⟨by decide, by decide⟩
  have short : Short visits := by
    intro r member
    have within : r.partition.index < 10 ^ 4 ∧ r.stop < 10 ^ 4 :=
      (by decide : ∀ r ∈ visits, r.partition.index < 10 ^ 4 ∧ r.stop < 10 ^ 4) r member
    exact ⟨writable_of_lt within.1 (by decide), writable_of_lt within.2 (by decide)⟩
  obtain ⟨text, encoded, read, _⟩ :=
    decode_encode "visités 2" visits (by decide) (by decide) (by decide) shared short
  have spelled : text = "visités 2,10:7,9:4096" := by
    rw [encode_shared shared (by decide) (by decide) short] at encoded
    rw [← Except.ok.inj encoded]
    decide +kernel
  exact ⟨by decide, shared, short, spelled ▸ read⟩

end LogCursor.RoundTrip
