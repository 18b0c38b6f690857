import LogCursor.Broker
import LogCursor.Proofs.CheckpointText
import Mathlib.Data.List.Basic
/-!
The history of a broker. Operations are carried out one after the other, and one that fails changes nothing;
beside the broker stands everything that was ever appended. Whatever the operations, every log retains its
history from its start on (`run_keeps`), no partition is lost and no start or head goes back (`run_grows`), and
the numbers of partitions and records have numerals (`run_numbered`).
-/
namespace LogCursor.History
open LogCursor.CheckpointText

/-- A change that is asked of a broker. -/
inductive Operation where
  | createTopic (topic : String) (count : Int)
  | addPartitions (topic : String) (count : Int)
  | append (topic : String) (index : Int) (value : Bytes) (key : Option Bytes) (timestamp : Int)
  | truncate (topic : String) (index before : Int)

/-- The broker after an operation. -/
def Operation.apply (b : Broker) : Operation → Except Fault Broker
  | .createTopic topic count => (b.createTopic topic count).map Prod.fst
  | .addPartitions topic count => (b.addPartitions topic count).map Prod.fst
  | .append topic index value key timestamp => (b.append topic index value key timestamp).map Prod.fst
  | .truncate topic index before => (b.truncate topic index before).map Prod.fst

/-- Everything ever appended, by topic and partition index, in the order of appending. -/
abbrev Annals := String → Nat → List Record

/-- What an operation that succeeds adds. -/
def Annals.after (h : Annals) : Operation → Annals
  | .append topic index value key timestamp => fun t i =>
    if t = topic ∧ i = index.toNat then
      h t i ++ [⟨topic, index, (h t i).length, timestamp, key, value⟩]
    else h t i
  | _ => h

/-- A broker with all that was ever appended to it. -/
structure Chronicle where
  broker : Broker
  annals : Annals

namespace Chronicle

/-- The broker without topics, to which nothing was appended. -/
def empty : Chronicle := ⟨∅, fun _ _ => []⟩

/-- Carries out an operation; one that fails changes nothing. -/
def carryOut (c : Chronicle) (op : Operation) : Chronicle :=
  match op.apply c.broker with
  | .ok b => ⟨b, c.annals.after op⟩
  | .error _ => c

end Chronicle

/-- The partitions of every topic, and the records of every partition, can be counted in numerals. -/
def Numbered (b : Broker) : Prop :=
  ∀ entry ∈ b.topics, ¬ Numeral.Overlong entry.2.size ∧ ∀ l ∈ entry.2.toList, ¬ Numeral.Overlong l.stop

instance (b : Broker) : Decidable (Numbered b) := inferInstanceAs (Decidable (∀ entry ∈ b.topics, _ ∧ _))

namespace Chronicle

/-- Carries out an operation on a machine. None comes to a broker that holds more than a numeral can tell, so an
    operation that asks for one is not carried out. -/
def attempt (c : Chronicle) (op : Operation) : Chronicle :=
  if Numbered (c.carryOut op).broker then c.carryOut op else c

/-- Carries out operations in their order. -/
def run (c : Chronicle) (ops : List Operation) : Chronicle := ops.foldl attempt c

end Chronicle

/-! ### Views of a broker -/

/-- The number of partitions of a topic, none when it is unknown. -/
def count (b : Broker) (topic : String) : Nat := ((b.logs? topic).map Array.size).getD 0

/-- The log of a partition, if there is one. -/
def log? (b : Broker) (topic : String) (index : Nat) : Option PartitionLog :=
  (b.logs? topic).bind fun ls => ls[index]?

theorem log?_eq_some_iff {b : Broker} {topic : String} {index : Nat} {l : PartitionLog} :
    log? b topic index = some l ↔ ∃ ls, b.logs? topic = some ls ∧ ls[index]? = some l := by
  simp [log?, Option.bind_eq_some_iff]

theorem log?_isSome_iff {b : Broker} {topic : String} {index : Nat} :
    (∃ l, log? b topic index = some l) ↔ index < count b topic := by
  cases found : b.logs? topic with
  | none => simp [log?, count, found]
  | some ls =>
    simp only [log?, count, found, Option.bind_some, Option.map_some, Option.getD_some]
    constructor
    · rintro ⟨l, inside⟩; exact (Array.getElem?_eq_some_iff.mp inside).1
    · intro inside; exact ⟨ls[index], Array.getElem?_eq_getElem inside⟩

private theorem logs?_withLogs (b : Broker) (topic other : String) (ls : Array PartitionLog) :
    (b.withLogs topic ls).logs? other = if topic = other then some ls else b.logs? other := by
  by_cases same : topic = other
  · subst same
    simpa [Broker.withLogs, Broker.logs?] using Assoc.get?_put_self (by simp) ls b.topics
  · rw [if_neg same]
    exact Assoc.get?_put_other (by simpa using same) (by rintro j equal; simp_all) ls b.topics

theorem log?_withLogs (b : Broker) (topic other : String) (ls : Array PartitionLog) (index : Nat) :
    log? (b.withLogs topic ls) other index = if topic = other then ls[index]? else log? b other index := by
  unfold log?
  rw [logs?_withLogs]
  split <;> rfl

theorem log?_withLog {b : Broker} {topic : String} {index : Nat} {l : PartitionLog}
    (present : log? b topic index = some l) (l' : PartitionLog) (other : String) (j : Nat) :
    log? (b.withLog topic index l') other j =
      if other = topic ∧ j = index then some l' else log? b other j := by
  obtain ⟨ls, found, inside⟩ := log?_eq_some_iff.mp present
  have bound := (Array.getElem?_eq_some_iff.mp inside).1
  simp only [Broker.withLog, found, log?_withLogs, Array.getElem?_setIfInBounds]
  by_cases sameTopic : topic = other
  · subst sameTopic
    by_cases sameIndex : index = j
    · subst sameIndex; simp [bound]
    · simp [sameIndex, Ne.symm sameIndex, log?, found]
  · simp [sameTopic, Ne.symm sameTopic]

theorem log_eq_ok {b : Broker} {topic : String} {index : Int} {l : PartitionLog}
    (known : b.log topic index = .ok l) : ∃ i : Nat, index = i ∧ log? b topic i = some l := by
  unfold Broker.log Broker.logs at known
  cases found : b.logs? topic with
  | none => simp only [found] at known; cases known
  | some ls =>
    simp only [found] at known
    change (if index < 0 then _ else _) = _ at known
    split at known
    · cases known
    · rename_i nonneg
      refine ⟨index.toNat, by omega, log?_eq_some_iff.mpr ⟨ls, found, ?_⟩⟩
      cases inside : ls[index.toNat]? with
      | none => simp only [inside] at known; cases known
      | some l' => simp only [inside] at known; cases known; rfl

theorem log_of_log? {b : Broker} {topic : String} {index : Nat} {l : PartitionLog}
    (present : log? b topic index = some l) : b.log topic index = .ok l := by
  obtain ⟨ls, found, inside⟩ := log?_eq_some_iff.mp present
  have nonneg : ¬ (index : Int) < 0 := by omega
  simp only [Broker.log, Broker.logs, found, nonneg, if_false, Int.toNat_natCast]
  simp only [bind, Except.bind, inside]
  rfl

theorem log_of_absent {b : Broker} {topic : String} {index : Nat} (absent : log? b topic index = none) :
    b.log topic index = .error
      (if (b.logs? topic).isSome then (Fault.unknownPartition topic index).worded else .unknownTopic topic) := by
  have nonneg : ¬ (index : Int) < 0 := by omega
  cases found : b.logs? topic with
  | none =>
    simp only [Broker.log, Broker.logs, found]
    rfl
  | some ls =>
    have outside : ls[index]? = none := by simpa [log?, found] using absent
    simp only [Broker.log, Broker.logs, found, nonneg, if_false, Int.toNat_natCast, bind, Except.bind, outside]
    rfl

/-! ### What an operation does -/

/-- Everything an operation that succeeds can do. -/
theorem apply_cases {b b' : Broker} {op : Operation} (done : op.apply b = .ok b') :
    (∃ topic count, op = .createTopic topic count ∧ 1 ≤ count ∧ b.logs? topic = none ∧
      b' = b.withLogs topic (Array.replicate count.toNat .empty)) ∨
    (∃ topic count ls, op = .addPartitions topic count ∧ b.logs? topic = some ls ∧
      b' = b.withLogs topic (ls ++ Array.replicate count.toNat .empty)) ∨
    (∃ topic, ∃ index : Nat, ∃ value key timestamp l, op = .append topic index value key timestamp ∧
      log? b topic index = some l ∧
      b' = b.withLog topic index (l.append ⟨topic, index, l.stop, timestamp, key, value⟩)) ∨
    (∃ topic, ∃ index : Nat, ∃ before l, op = .truncate topic index before ∧ log? b topic index = some l ∧
      if min before l.stop ≤ l.start then b' = b
      else b' = b.withLog topic index (l.truncate (min before l.stop).toNat)) := by
  cases op with
  | createTopic topic count =>
    left
    simp only [Operation.apply, Broker.createTopic] at done
    by_cases few : count < 1
    · simp only [few, if_true] at done; cases done
    · cases found : b.logs? topic with
      | some ls => simp only [few, found, if_false] at done; cases done
      | none =>
        simp only [few, found, if_false] at done
        cases done
        exact ⟨topic, count, rfl, by omega, found, rfl⟩
  | addPartitions topic count =>
    right; left
    simp only [Operation.apply, Broker.addPartitions, Broker.logs] at done
    cases found : b.logs? topic with
    | none => simp only [found] at done; cases done
    | some ls =>
      simp only [found] at done
      cases done
      exact ⟨topic, count, ls, rfl, found, rfl⟩
  | append topic index value key timestamp =>
    right; right; left
    simp only [Operation.apply, Broker.append] at done
    cases known : b.log topic index with
    | error e => simp only [known] at done; cases done
    | ok l =>
      simp only [known] at done
      cases done
      obtain ⟨i, rfl, present⟩ := log_eq_ok known
      exact ⟨topic, i, value, key, timestamp, l, rfl, present, rfl⟩
  | truncate topic index before =>
    right; right; right
    simp only [Operation.apply, Broker.truncate] at done
    cases known : b.log topic index with
    | error e => simp only [known] at done; cases done
    | ok l =>
      obtain ⟨i, rfl, present⟩ := log_eq_ok known
      refine ⟨topic, i, before, l, rfl, present, ?_⟩
      simp only [known, bind, Except.bind] at done
      by_cases back : min before (l.stop : Int) ≤ l.start
      · simp only [back, if_true] at done ⊢
        cases done
        rfl
      · simp only [back, if_false] at done ⊢
        cases done
        rfl

/-- The log of a partition after an operation that succeeds. -/
def Operation.logAfter (op : Operation) (topic : String) (index : Nat) (l : PartitionLog) : PartitionLog :=
  match op with
  | .append t i value key timestamp =>
    if topic = t ∧ (index : Int) = i then l.append ⟨t, i, l.stop, timestamp, key, value⟩ else l
  | .truncate t i before =>
    if (topic = t ∧ (index : Int) = i) ∧ l.start < min before l.stop then l.truncate (min before l.stop).toNat
    else l
  | _ => l

/-- An operation that succeeds changes the log that it names, and no other. -/
theorem apply_log {b b' : Broker} {op : Operation} (done : op.apply b = .ok b') {t : String} {i : Nat}
    {l : PartitionLog} (known : log? b t i = some l) : log? b' t i = some (op.logAfter t i l) := by
  rcases apply_cases done with ⟨topic, count, rfl, _, fresh, rfl⟩ | ⟨topic, count, ls, rfl, found, rfl⟩ |
    ⟨topic, index, value, key, timestamp, held, rfl, present, rfl⟩ |
    ⟨topic, index, before, held, rfl, present, moved⟩
  · rw [log?_withLogs]
    split
    · rename_i equal
      subst equal
      simp [log?, fresh] at known
    · exact known
  · rw [log?_withLogs]
    split
    · rename_i equal
      subst equal
      simp only [log?, found, Option.bind_some] at known
      rw [Array.getElem?_append_left (Array.getElem?_eq_some_iff.mp known).1, known]
      rfl
    · exact known
  · simp only [log?_withLog present, Operation.logAfter, Int.natCast_inj]
    split
    · rename_i here
      obtain ⟨rfl, rfl⟩ := here
      cases present.symm.trans known
      rfl
    · exact known
  · simp only [Operation.logAfter, Int.natCast_inj]
    by_cases here : t = topic ∧ i = index
    · obtain ⟨rfl, rfl⟩ := here
      cases present.symm.trans known
      split at moved
      · rename_i back
        rw [moved, if_neg (by omega)]
        exact known
      · rename_i ahead
        rw [moved, log?_withLog present, if_pos ⟨rfl, rfl⟩, if_pos ⟨⟨rfl, rfl⟩, by omega⟩]
    · rw [if_neg (fun both => here both.1)]
      split at moved
      · rw [moved]; exact known
      · rw [moved, log?_withLog present, if_neg here]; exact known

theorem logAfter_start (op : Operation) (topic : String) (index : Nat) (l : PartitionLog) :
    l.start ≤ (op.logAfter topic index l).start := by
  cases op with
  | append t i value key timestamp =>
    simp only [Operation.logAfter]
    split <;> exact Nat.le_refl _
  | truncate t i before =>
    simp only [Operation.logAfter]
    split
    · show l.start ≤ (min before (l.stop : Int)).toNat
      omega
    · exact Nat.le_refl _
  | _ => exact Nat.le_refl _

/-- A log retains its history from its start on. -/
def Retains (l : PartitionLog) (records : List Record) : Prop :=
  l.start ≤ records.length ∧ l.records.toList = records.drop l.start

/-- A broker beside everything that was appended to it. -/
structure Keeps (b : Broker) (h : Annals) : Prop where
  peopled : ∀ topic ls, b.logs? topic = some ls → 0 < ls.size
  retained : ∀ topic index l, log? b topic index = some l → Retains l (h topic index)
  unborn : ∀ topic index, log? b topic index = none → h topic index = []
  placed : ∀ topic index (o : Nat) r, (h topic index)[o]? = some r →
    r.topic = topic ∧ r.partition = index ∧ r.offset = o

theorem count_pos {b : Broker} {h : Annals} (keeps : Keeps b h) {topic : String}
    (known : (b.logs? topic).isSome) : 0 < count b topic := by
  obtain ⟨ls, found⟩ := Option.isSome_iff_exists.mp known
  have := keeps.peopled topic ls found
  simpa [count, found] using this

theorem retains_stop {l : PartitionLog} {records : List Record} (retains : Retains l records) :
    l.stop = records.length := by
  have size : l.records.size = records.length - l.start := by
    rw [← Array.length_toList, retains.2, List.length_drop]
  have := retains.1
  unfold PartitionLog.stop
  omega

private theorem retains_empty : Retains .empty [] := ⟨Nat.le_refl _, rfl⟩

private theorem retains_append {l : PartitionLog} {records : List Record} (retains : Retains l records) (r : Record) :
    Retains (l.append r) (records ++ [r]) := by
  refine ⟨?_, ?_⟩
  · have := retains.1
    show l.start ≤ _
    rw [List.length_append]
    omega
  · show (l.records.push r).toList = (records ++ [r]).drop l.start
    rw [Array.toList_push, retains.2, List.drop_append_of_le_length retains.1]

private theorem retains_truncate {l : PartitionLog} {records : List Record} (retains : Retains l records)
    {start : Nat} (forward : l.start ≤ start) (within : start ≤ l.stop) :
    Retains (l.truncate start) records := by
  refine ⟨retains_stop retains ▸ within, ?_⟩
  show (l.records.extract (start - l.start) l.records.size).toList = records.drop start
  rw [Array.toList_extract, List.extract_eq_take_drop, retains.2, List.drop_drop, List.take_of_length_le]
  · congr 1
    omega
  · have size : l.records.size = records.length - l.start := by
      rw [← Array.length_toList, retains.2, List.length_drop]
    rw [List.length_drop]
    omega

/-! ### What operations keep -/

/-- Adding empty partitions, to a new topic or to one that is there. -/
private theorem keeps_grown {b : Broker} {h : Annals} {topic : String} {more : Nat}
    {ls : Array PartitionLog} (keeps : Keeps b h) (peopled : 0 < ls.size + more)
    (same : ∀ i, log? b topic i = ls[i]?) : Keeps (b.withLogs topic (ls ++ Array.replicate more .empty)) h := by
  refine ⟨?_, ?_, ?_, keeps.placed⟩
  · intro t ls' found
    rw [logs?_withLogs] at found
    split at found
    · cases found
      rw [Array.size_append, Array.size_replicate]
      exact peopled
    · exact keeps.peopled t ls' found
  · intro t i l present
    rw [log?_withLogs] at present
    split at present
    · rename_i equal
      subst equal
      rw [Array.getElem?_append] at present
      split at present
      · exact keeps.retained topic i l ((same i).trans present)
      · rename_i outside
        have unborn : log? b topic i = none := by
          rw [same i, Array.getElem?_eq_none (Nat.le_of_not_lt outside)]
        rw [Array.getElem?_replicate] at present
        split at present
        · cases present
          rw [keeps.unborn topic i unborn]
          exact retains_empty
        · cases present
    · exact keeps.retained t i l present
  · intro t i absent
    rw [log?_withLogs] at absent
    split at absent
    · rename_i equal
      subst equal
      refine keeps.unborn topic i ?_
      rw [same i]
      rw [Array.getElem?_append] at absent
      split at absent
      · exact absent
      · rename_i outside
        exact Array.getElem?_eq_none (Nat.le_of_not_lt outside)
    · exact keeps.unborn t i absent

private theorem logs?_withLog_size {b : Broker} {topic : String} {index : Nat} {l' : PartitionLog} {t : String}
    {ls : Array PartitionLog} (found : (b.withLog topic index l').logs? t = some ls) :
    ∃ before, b.logs? t = some before ∧ before.size = ls.size := by
  unfold Broker.withLog at found
  cases known : b.logs? topic with
  | none => simp only [known] at found; exact ⟨ls, found, rfl⟩
  | some before =>
    simp only [known, logs?_withLogs] at found
    split at found
    · rename_i equal
      subst equal
      cases found
      exact ⟨before, known, by simp⟩
    · exact ⟨ls, found, rfl⟩

/-- Replacing one log by another that retains the new history of its partition. -/
private theorem keeps_replaced {b : Broker} {h h' : Annals} {topic : String} {index : Nat}
    {l l' : PartitionLog} (keeps : Keeps b h) (present : log? b topic index = some l)
    (others : ∀ t i, ¬ (t = topic ∧ i = index) → h' t i = h t i) (retains : Retains l' (h' topic index))
    (placed : ∀ (o : Nat) r, (h' topic index)[o]? = some r →
      r.topic = topic ∧ r.partition = index ∧ r.offset = o) :
    Keeps (b.withLog topic index l') h' := by
  refine ⟨?_, ?_, ?_, ?_⟩
  · intro t ls found
    obtain ⟨before, known, size⟩ := logs?_withLog_size found
    exact size ▸ keeps.peopled t before known
  · intro t i found inside
    rw [log?_withLog present] at inside
    split at inside
    · rename_i here
      obtain ⟨rfl, rfl⟩ := here
      cases inside
      exact retains
    · rename_i elsewhere
      rw [others t i elsewhere]
      exact keeps.retained t i found inside
  · intro t i absent
    rw [log?_withLog present] at absent
    split at absent
    · cases absent
    · rename_i elsewhere
      rw [others t i elsewhere]
      exact keeps.unborn t i absent
  · intro t i o r found
    by_cases here : t = topic ∧ i = index
    · obtain ⟨rfl, rfl⟩ := here
      exact placed o r found
    · rw [others t i here] at found
      exact keeps.placed t i o r found

/-- No operation breaks the bond between the logs and the history. -/
theorem apply_keeps {b b' : Broker} {h : Annals} {op : Operation} (keeps : Keeps b h)
    (done : op.apply b = .ok b') : Keeps b' (h.after op) := by
  rcases apply_cases done with ⟨topic, count, rfl, some, fresh, rfl⟩ | ⟨topic, count, ls, rfl, found, rfl⟩ |
    ⟨topic, index, value, key, timestamp, l, rfl, present, rfl⟩ | ⟨topic, index, before, l, rfl, present, moved⟩
  · have added : Keeps (b.withLogs topic (#[] ++ Array.replicate count.toNat .empty)) h :=
      keeps_grown keeps (by simp; omega) (by simp [log?, fresh])
    rw [Array.empty_append] at added
    exact added
  · refine keeps_grown keeps ?_ (by simp [log?, found])
    have := keeps.peopled topic ls found
    omega
  · have retains := keeps.retained topic index l present
    have here : h.after (.append topic index value key timestamp) topic index =
        h topic index ++ [⟨topic, index, l.stop, timestamp, key, value⟩] := by
      simp [Annals.after, retains_stop retains]
    refine keeps_replaced keeps present ?_ (here ▸ retains_append retains _) ?_
    · intro t i elsewhere
      simp only [Annals.after, Int.toNat_natCast, elsewhere, if_false]
    · intro o r found
      rw [here, List.getElem?_append] at found
      split at found
      · exact keeps.placed topic index o r found
      · have last : o = (h topic index).length := by
          have := (List.getElem?_eq_some_iff.mp found).1
          simp only [List.length_singleton] at this
          omega
        subst last
        simp only [Nat.sub_self, List.getElem?_cons_zero, Option.some.injEq] at found
        subst found
        exact ⟨rfl, rfl, by rw [retains_stop retains]⟩
  · have retains := keeps.retained topic index l present
    split at moved
    · rw [moved]; exact keeps
    · rw [moved]
      exact keeps_replaced keeps present (fun _ _ _ => rfl)
        (retains_truncate retains (by omega) (by omega)) (keeps.placed topic index)

theorem carryOut_keeps {c : Chronicle} (keeps : Keeps c.broker c.annals) (op : Operation) :
    Keeps (c.carryOut op).broker (c.carryOut op).annals := by
  unfold Chronicle.carryOut
  cases done : op.apply c.broker with
  | error e => exact keeps
  | ok b => exact apply_keeps keeps done

theorem attempt_keeps {c : Chronicle} (keeps : Keeps c.broker c.annals) (op : Operation) :
    Keeps (c.attempt op).broker (c.attempt op).annals := by
  unfold Chronicle.attempt
  split
  · exact carryOut_keeps keeps op
  · exact keeps

/-- Whatever is asked of a broker, its logs retain the history. -/
theorem run_keeps {c : Chronicle} (keeps : Keeps c.broker c.annals) (ops : List Operation) :
    Keeps (c.run ops).broker (c.run ops).annals := by
  induction ops generalizing c with
  | nil => exact keeps
  | cons op ops ih => exact ih (attempt_keeps keeps op)

theorem empty_keeps : Keeps Chronicle.empty.broker Chronicle.empty.annals := by
  refine ⟨?_, ?_, fun _ _ _ => rfl, ?_⟩
  · intro topic ls found; cases found
  · intro topic index l present; cases present
  · intro topic index o r found; simp [Chronicle.empty] at found

/-! ### What never goes back -/

/-- Later: every partition is still there, its start has not gone back, and its history goes on from what it
    was. -/
structure Grows (c c' : Chronicle) : Prop where
  started : ∀ topic index l, log? c.broker topic index = some l →
    ∃ l', log? c'.broker topic index = some l' ∧ l.start ≤ l'.start
  annals : ∀ topic index, c.annals topic index <+: c'.annals topic index

theorem Grows.refl (c : Chronicle) : Grows c c :=
  ⟨fun _ _ l present => ⟨l, present, Nat.le_refl _⟩, fun _ _ => List.prefix_rfl⟩

theorem Grows.trans {c c' c'' : Chronicle} (first : Grows c c') (second : Grows c' c'') : Grows c c'' := by
  refine ⟨?_, fun topic index => (first.annals topic index).trans (second.annals topic index)⟩
  intro topic index l present
  obtain ⟨l', present', forward⟩ := first.started topic index l present
  obtain ⟨l'', present'', onward⟩ := second.started topic index l' present'
  exact ⟨l'', present'', Nat.le_trans forward onward⟩

theorem Grows.count {c c' : Chronicle} (grows : Grows c c') (topic : String) :
    count c.broker topic ≤ count c'.broker topic := by
  refine Nat.le_of_not_lt fun fewer => ?_
  obtain ⟨l, present⟩ := log?_isSome_iff.mpr fewer
  obtain ⟨l', present', _⟩ := grows.started topic _ l present
  exact absurd (log?_isSome_iff.mp ⟨l', present'⟩) (Nat.lt_irrefl _)

/-- What was appended at an offset stays there. -/
theorem Grows.kept {c c' : Chronicle} (grows : Grows c c') {topic : String} {index o : Nat} {r : Record}
    (found : (c.annals topic index)[o]? = some r) : (c'.annals topic index)[o]? = some r := by
  obtain ⟨more, appended⟩ := grows.annals topic index
  rw [← appended, List.getElem?_append_left (List.getElem?_eq_some_iff.mp found).1, found]

theorem annals_after (h : Annals) (op : Operation) (topic : String) (index : Nat) :
    h topic index <+: h.after op topic index := by
  cases op with
  | append t i value key timestamp =>
    simp only [Annals.after]
    split
    · exact List.prefix_append _ _
    · exact List.prefix_rfl
  | _ => exact List.prefix_rfl

private theorem apply_started {b b' : Broker} {op : Operation} (done : op.apply b = .ok b') (t : String) (i : Nat)
    (l : PartitionLog) (known : log? b t i = some l) :
    ∃ l', log? b' t i = some l' ∧ l.start ≤ l'.start :=
  ⟨_, apply_log done known, logAfter_start op t i l⟩

private theorem carryOut_grows (c : Chronicle) (op : Operation) : Grows c (c.carryOut op) := by
  unfold Chronicle.carryOut
  cases done : op.apply c.broker with
  | error e => exact .refl c
  | ok b => exact ⟨apply_started done, annals_after c.annals op⟩

theorem attempt_grows (c : Chronicle) (op : Operation) : Grows c (c.attempt op) := by
  unfold Chronicle.attempt
  split
  · exact carryOut_grows c op
  · exact .refl c

/-- Whatever is asked of a broker, nothing goes back. -/
theorem run_grows (c : Chronicle) (ops : List Operation) : Grows c (c.run ops) := by
  induction ops generalizing c with
  | nil => exact .refl c
  | cons op ops ih => exact (attempt_grows c op).trans (ih _)

/-! ### Numbers -/

theorem attempt_numbered {c : Chronicle} (numbered : Numbered c.broker) (op : Operation) :
    Numbered (c.attempt op).broker := by
  unfold Chronicle.attempt
  split
  · assumption
  · exact numbered

/-- Whatever is asked of a broker, its partitions and records can be counted. -/
theorem run_numbered {c : Chronicle} (numbered : Numbered c.broker) (ops : List Operation) :
    Numbered (c.run ops).broker := by
  induction ops generalizing c with
  | nil => exact numbered
  | cons op ops ih => exact ih (attempt_numbered numbered op)

theorem empty_numbered : Numbered Chronicle.empty.broker := fun _ member => nomatch member

theorem writable_count {b : Broker} (numbered : Numbered b) (topic : String) : Writable (count b topic) := by
  cases found : b.logs? topic with
  | none => simpa [count, found] using writable_of_lt (by decide : 0 < 10 ^ 0) (Nat.zero_le _)
  | some ls =>
    simpa [count, found] using not_overlong_iff.mp (numbered _ (Assoc.mem_of_get? found)).1

/-- The head of a log that is there has a numeral. -/
theorem writable_stop {b : Broker} (numbered : Numbered b) {topic : String} {index : Nat} {l : PartitionLog}
    (present : log? b topic index = some l) : Writable l.stop := by
  obtain ⟨ls, found, inside⟩ := log?_eq_some_iff.mp present
  exact not_overlong_iff.mp
    ((numbered _ (Assoc.mem_of_get? found)).2 l (Array.mem_toList_iff.mpr (Array.mem_of_getElem? inside)))

end LogCursor.History
