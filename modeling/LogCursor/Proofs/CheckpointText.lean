import LogCursor.Checkpoint
import LogCursor.Proofs.Offsets
import Mathlib.Algebra.Group.Nat.Defs
import Mathlib.Data.List.Nodup
/-!
Reading back what was written. The text for a topic and its pairs splits into the very pieces it was joined
from, and a numeral denotes the number it was written for; so decoding it enters the pairs in their order
(`decode_write`). Only numerals beyond the limit are refused, and what is read in spite of them is still
what was written (`decode_write_eq`).
-/
namespace LogCursor.CheckpointText
open LogCursor.Checkpoint

/-- A number whose numeral keeps within the limit. -/
def Writable (n : Nat) : Prop := n < 10 ^ Numeral.limit

theorem overlong_iff (n : Int) : Numeral.Overlong n ↔ ¬ Writable n.natAbs := by
  unfold Numeral.Overlong Writable
  rw [Nat.not_lt]
  generalize Numeral.limit = digits
  exact Iff.rfl

theorem not_overlong_iff {n : Nat} : ¬ Numeral.Overlong n ↔ Writable n := by
  rw [overlong_iff, Int.natAbs_natCast, not_not]

/-- The least number without a numeral. -/
def beyond : Nat := 10 ^ Numeral.limit

theorem overlong_beyond : Numeral.Overlong beyond := by
  rw [overlong_iff, Int.natAbs_natCast]
  exact Nat.lt_irrefl beyond

/-- A partition without a name, at an offset. -/
def remote (offset : Int) : OffsetMap := ⟨[(⟨"clicks", beyond⟩, offset)], List.nodup_singleton _⟩

theorem writable_of_le {m n : Nat} (writable : Writable n) (le : m ≤ n) : Writable m :=
  Nat.lt_of_le_of_lt le writable

theorem writable_of_lt {n digits : Nat} (less : n < 10 ^ digits) (few : digits ≤ Numeral.limit) : Writable n :=
  Nat.lt_of_lt_of_le less (Nat.pow_le_pow_right (by decide) few)

/-- The entries that a topic and its pairs stand for. -/
def entries (topic : String) (pairs : List (Nat × Nat)) : List (Partition × Int) :=
  pairs.map fun pair => (⟨topic, pair.1⟩, (pair.2 : Int))

theorem isDigit_of_mem_digits {n : Nat} {c : Char} (member : c ∈ Numeral.digits n) :
    Numeral.isDigit c = true := by
  have digit : c.isDigit = true := Nat.isDigit_of_mem_toDigits (by decide) (by decide) member
  simp only [Char.isDigit, Bool.and_eq_true, decide_eq_true_eq] at digit
  simp only [Numeral.isDigit, Bool.and_eq_true, decide_eq_true_eq]
  exact digit

private theorem separator_not_mem_digits (n : Nat) : separator ∉ Numeral.digits n := fun member =>
  absurd (isDigit_of_mem_digits member) (by decide)

private theorem pairSeparator_not_mem_digits (n : Nat) : pairSeparator ∉ Numeral.digits n := fun member =>
  absurd (isDigit_of_mem_digits member) (by decide)

theorem value_digits (n : Nat) : Numeral.value (Numeral.digits n) = n := Nat.ofDigitChars_ten_toDigits

theorem length_digits_le_iff (n : Nat) : (Numeral.digits n).length ≤ Numeral.limit ↔ Writable n :=
  Nat.length_toDigits_le_iff (by decide) (by decide)

private theorem number_digits {n : Nat} (writable : Writable n) : number (Numeral.digits n) = .ok n := by
  have within := (length_digits_le_iff n).mpr writable
  rw [number, if_neg (Nat.not_lt.mpr within), value_digits]

private theorem number_digits_eq {n k : Nat} (read : number (Numeral.digits n) = .ok k) : k = n := by
  unfold number at read
  split at read
  · cases read
  · cases read; exact value_digits n

theorem numerals?_writePair (index offset : Nat) :
    numerals? (writePair index offset) = some (Numeral.digits index, Numeral.digits offset) := by
  have split : (writePair index offset).splitOn pairSeparator =
      [Numeral.digits index, Numeral.digits offset] := by
    unfold writePair
    rw [List.splitOn_append_cons_self_of_not_mem (pairSeparator_not_mem_digits index),
      List.splitOn_eq_singleton (pairSeparator_not_mem_digits offset)]
  have nonempty : ∀ n, Numeral.digits n ≠ [] := fun _ => Nat.toDigits_ne_nil
  have digits : ∀ n, (Numeral.digits n).all Numeral.isDigit = true := fun n =>
    List.all_eq_true.mpr fun _ => isDigit_of_mem_digits
  simp only [numerals?, split, nonempty, digits, ne_eq, not_false_eq_true, and_self, if_true]

private theorem separator_not_mem_writePair (index offset : Nat) : separator ∉ writePair index offset := by
  unfold writePair
  rw [List.mem_append, List.mem_cons, not_or, not_or]
  exact ⟨separator_not_mem_digits index, by decide, separator_not_mem_digits offset⟩

/-- No piece of a text that is written holds a separator. -/
theorem separator_not_mem_piece {topic : String} (nameable : Nameable topic) (pairs : List (Nat × Nat)) :
    ∀ piece ∈ topic.toList :: pairs.map fun pair => writePair pair.1 pair.2, separator ∉ piece := by
  intro piece member
  rcases List.mem_cons.mp member with rfl | later
  · exact nameable.1
  · obtain ⟨pair, _, rfl⟩ := List.mem_map.mp later
    exact separator_not_mem_writePair pair.1 pair.2

private theorem addPair_writePair {text topic : String} {m : OffsetMap} {index offset : Nat}
    (fresh : (⟨topic, index⟩ : Partition) ∉ m.partitions) (indexWritable : Writable index)
    (offsetWritable : Writable offset) :
    addPair text topic m (writePair index offset) = .ok (m.put ⟨topic, index⟩ offset) := by
  have absent : m.contains ⟨topic, index⟩ = false :=
    Bool.eq_false_iff.mpr fun contains => fresh (OffsetMap.contains_iff.mp contains)
  rw [addPair, numerals?_writePair]
  simp only [number_digits indexWritable, number_digits offsetWritable]
  change (if m.contains ⟨topic, index⟩ = true then _ else _) = _
  rw [absent]
  rfl

private theorem addPair_writePair_eq {text topic : String} {m m' : OffsetMap} {index offset : Nat}
    (read : addPair text topic m (writePair index offset) = .ok m') :
    m' = m.put ⟨topic, index⟩ offset := by
  rw [addPair, numerals?_writePair] at read
  cases first : number (Numeral.digits index) with
  | error e => simp only [first] at read; cases read
  | ok i =>
    cases number_digits_eq first
    simp only [first] at read
    cases second : number (Numeral.digits offset) with
    | error e =>
      simp only [second] at read
      change (if _ then _ else _) = _ at read
      split at read <;> cases read
    | ok o =>
      cases number_digits_eq second
      simp only [second] at read
      change (if _ then _ else _) = _ at read
      split at read
      · cases read
      · cases read; rfl

theorem toList_write (topic : String) (pairs : List (Nat × Nat)) : (write topic pairs).toList =
    [separator].intercalate (topic.toList :: pairs.map fun pair => writePair pair.1 pair.2) := by
  simp [write]

theorem write_ne_empty {topic : String} (nonempty : topic ≠ "") (pairs : List (Nat × Nat)) :
    write topic pairs ≠ "" := by
  intro none
  have chars := toList_write topic pairs
  rw [none] at chars
  cases pairs with
  | nil => exact nonempty (String.toList_eq_nil_iff.mp (by simpa using chars.symm))
  | cons pair rest => simp [List.intercalate_cons_cons] at chars

/-- Decoding what was written goes through the pairs that were written. -/
theorem decode_write_fold {topic : String} (nonempty : topic ≠ "") (nameable : Nameable topic)
    (pairs : List (Nat × Nat)) :
    decode (write topic pairs) =
      (pairs.map fun pair => writePair pair.1 pair.2).foldlM (addPair (write topic pairs) topic) ∅ := by
  have topicChars : topic.toList ≠ [] := fun none => nonempty (String.toList_eq_nil_iff.mp none)
  have written := write_ne_empty nonempty pairs
  have split : (write topic pairs).toList.splitOn separator =
      topic.toList :: pairs.map fun pair => writePair pair.1 pair.2 := by
    rw [toList_write]
    exact List.splitOn_intercalate separator (separator_not_mem_piece nameable pairs) (by simp)
  simp only [decode, written, if_false, split, topicChars, and_false, nameable.2, String.ofList_toList]

private theorem fold_write {text topic : String} (pairs : List (Nat × Nat)) (m : OffsetMap)
    (distinct : (m.partitions ++ pairs.map fun pair => (⟨topic, pair.1⟩ : Partition)).Nodup)
    (writable : ∀ pair ∈ pairs, Writable pair.1 ∧ Writable pair.2) :
    (pairs.map fun pair => writePair pair.1 pair.2).foldlM (addPair text topic) m =
      .ok ((entries topic pairs).foldl (fun m pair => m.put pair.1 pair.2) m) := by
  induction pairs generalizing m with
  | nil => rfl
  | cons pair rest ih =>
    have fresh : (⟨topic, pair.1⟩ : Partition) ∉ m.partitions := fun member =>
      (List.nodup_append.mp distinct).2.2 _ member _ (by simp) rfl
    obtain ⟨index, offset⟩ := writable pair (by simp)
    rw [List.map_cons, List.foldlM_cons, addPair_writePair fresh index offset]
    refine ih _ ?_ fun pair member => writable pair (by simp [member])
    simpa [OffsetMap.partitions, OffsetMap.entries_put_of_fresh fresh] using distinct

private theorem fold_write_eq {text topic : String} (pairs : List (Nat × Nat)) (m m' : OffsetMap)
    (read : (pairs.map fun pair => writePair pair.1 pair.2).foldlM (addPair text topic) m = .ok m') :
    m' = (entries topic pairs).foldl (fun m pair => m.put pair.1 pair.2) m := by
  induction pairs generalizing m with
  | nil => cases read; rfl
  | cons pair rest ih =>
    rw [List.map_cons, List.foldlM_cons] at read
    cases first : addPair text topic m (writePair pair.1 pair.2) with
    | error e => rw [first] at read; cases read
    | ok next =>
      rw [first] at read
      cases addPair_writePair_eq first
      exact ih _ read

theorem nodup_entries (topic : String) {pairs : List (Nat × Nat)} (distinct : (pairs.map Prod.fst).Nodup) :
    ((entries topic pairs).map Prod.fst).Nodup := by
  have keys : (entries topic pairs).map Prod.fst = (pairs.map Prod.fst).map fun i => ⟨topic, i⟩ := by
    simp [entries, List.map_map, Function.comp_def]
  rw [keys]
  exact distinct.map fun i j same => by simpa using same

/-- What was written within the limit is read back. -/
theorem decode_write {topic : String} (nonempty : topic ≠ "") (nameable : Nameable topic)
    (pairs : List (Nat × Nat)) (distinct : (pairs.map Prod.fst).Nodup)
    (writable : ∀ pair ∈ pairs, Writable pair.1 ∧ Writable pair.2) :
    decode (write topic pairs) = .ok (OffsetMap.ofList (entries topic pairs)) := by
  rw [decode_write_fold nonempty nameable]
  refine fold_write pairs ∅ ?_ writable
  have keys := nodup_entries topic distinct
  rw [entries, List.map_map] at keys
  exact keys

/-- Whatever is read back is what was written. -/
theorem decode_write_eq {topic : String} (nonempty : topic ≠ "") (nameable : Nameable topic)
    {pairs : List (Nat × Nat)} {m : OffsetMap} (read : decode (write topic pairs) = .ok m) :
    m = OffsetMap.ofList (entries topic pairs) := by
  rw [decode_write_fold nonempty nameable] at read
  exact fold_write_eq pairs ∅ m read

end LogCursor.CheckpointText
