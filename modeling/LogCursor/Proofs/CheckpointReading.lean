import LogCursor.Proofs.CheckpointText
import LogCursor.Proofs.Traversal
/-!
Reading any text. A text that is read gives offsets of one topic, the one it begins with, and none of them is
negative (`decode_own`). A text that is not read is refused for its form or for a numeral that is too long
(`decode_fault`).
-/
namespace LogCursor.CheckpointReading
open LogCursor.Checkpoint

/-- The faults of a text: its form, or a numeral beyond the limit. -/
def Unreadable (e : Fault) : Prop := e.kind = .format ∨ ∃ count, e = .overlongNumeral count

/-- Offsets of one topic, none of them negative. -/
def Own (topic : String) (m : OffsetMap) : Prop := ∀ entry ∈ m.entries, entry.1.topic = topic ∧ 0 ≤ entry.2

/-- What a text has before its first separator. -/
def topicOf (text : String) : String := String.ofList ((text.toList.splitOn separator).headD [])

variable {text topic : String} {m m' : OffsetMap} {pair : List Char} {e : Fault}

/-- The checks on two numerals: a repeated partition is refused before its offset is looked at. -/
theorem addPair_eq {index offset : List Char} (found : numerals? pair = some (index, offset)) :
    addPair text topic m pair =
      if Numeral.limit < index.length then .error (.overlongNumeral index.length)
      else if (⟨topic, Numeral.value index⟩ : Partition) ∈ m.partitions then
        .error (.repeatedPartition (Numeral.value index) text)
      else if Numeral.limit < offset.length then .error (.overlongNumeral offset.length)
      else .ok (m.put ⟨topic, Numeral.value index⟩ (Numeral.value offset)) := by
  simp only [addPair, found, number, ← OffsetMap.contains_iff]
  by_cases indexLong : Numeral.limit < index.length
  · rw [if_pos indexLong, if_pos indexLong]
    rfl
  · rw [if_neg indexLong, if_neg indexLong]
    show (if m.contains ⟨topic, Numeral.value index⟩ = true then _ else _) = _
    by_cases repeated : m.contains ⟨topic, Numeral.value index⟩ = true
    · rw [if_pos repeated, if_pos repeated]
    · rw [if_neg repeated, if_neg repeated]
      by_cases offsetLong : Numeral.limit < offset.length
      · rw [if_pos offsetLong, if_pos offsetLong]
        rfl
      · rw [if_neg offsetLong, if_neg offsetLong]
        rfl

/-- Everything that reading one pair can do. -/
theorem addPair_cases (text topic : String) (m : OffsetMap) (pair : List Char) :
    (∃ e, addPair text topic m pair = .error e ∧ Unreadable e) ∨
      ∃ index offset : Nat, (⟨topic, index⟩ : Partition) ∉ m.partitions ∧
        addPair text topic m pair = .ok (m.put ⟨topic, index⟩ offset) := by
  cases found : numerals? pair with
  | none => exact .inl ⟨_, by rw [addPair, found], .inl rfl⟩
  | some numerals =>
    rw [addPair_eq found]
    split_ifs with indexLong repeated offsetLong
    · exact .inl ⟨_, rfl, .inr ⟨_, rfl⟩⟩
    · exact .inl ⟨_, rfl, .inl rfl⟩
    · exact .inl ⟨_, rfl, .inr ⟨_, rfl⟩⟩
    · exact .inr ⟨_, _, repeated, rfl⟩

private theorem addPair_own (own : Own topic m) (read : addPair text topic m pair = .ok m') : Own topic m' := by
  rcases addPair_cases text topic m pair with ⟨e, refused, _⟩ | ⟨index, offset, fresh, entered⟩
  · rw [refused] at read; cases read
  · rw [entered] at read
    cases read
    intro entry member
    rw [OffsetMap.entries_put_of_fresh fresh, List.mem_append, List.mem_singleton] at member
    rcases member with before | rfl
    · exact own entry before
    · exact ⟨rfl, Int.natCast_nonneg _⟩

private theorem addPair_fault (refused : addPair text topic m pair = .error e) : Unreadable e := by
  rcases addPair_cases text topic m pair with ⟨e', refused', unreadable⟩ | ⟨_, _, _, entered⟩
  · rw [refused'] at refused; cases refused; exact unreadable
  · rw [entered] at refused; cases refused

/-- Everything that reading a text can do: it is empty, it is refused at once, or its pairs are read. -/
theorem decode_cases (text : String) :
    decode text = .ok ∅ ∨ (∃ e, decode text = .error e ∧ Unreadable e) ∨
      ∃ pairs : List (List Char), decode text = pairs.foldlM (addPair text (topicOf text)) ∅ := by
  unfold decode topicOf
  by_cases none : text = ""
  · rw [if_pos none]; exact .inl rfl
  · rw [if_neg none]
    cases text.toList.splitOn separator with
    | nil => exact .inl rfl
    | cons topicChars pairs =>
      simp only [List.headD_cons]
      split
      · exact .inr (.inl ⟨_, rfl, .inl rfl⟩)
      · split
        · exact .inr (.inl ⟨_, rfl, .inl rfl⟩)
        · exact .inr (.inr ⟨pairs, rfl⟩)

theorem empty_own (topic : String) : Own topic ∅ := fun _ member => by cases member

/-- A text that is read gives offsets of its own topic, none of them negative. -/
theorem decode_own (read : decode text = .ok m) : Own (topicOf text) m := by
  rcases decode_cases text with none | ⟨e, refused, _⟩ | ⟨pairs, entered⟩
  · rw [none] at read; cases read; exact empty_own _
  · rw [refused] at read; cases read
  · rw [entered] at read
    exact Traversal.foldlM_keeps addPair_own (empty_own _) read

/-- A text is refused for its form or for a numeral that is too long. -/
theorem decode_fault (refused : decode text = .error e) : Unreadable e := by
  rcases decode_cases text with none | ⟨e', refused', unreadable⟩ | ⟨pairs, entered⟩
  · rw [none] at refused; cases refused
  · rw [refused'] at refused; cases refused; exact unreadable
  · rw [entered] at refused
    obtain ⟨_, _, fault⟩ := Traversal.foldlM_fault refused
    exact addPair_fault fault

theorem topicOf_join (nameable : separator ∉ topic.toList) (rest : String) :
    topicOf (topic ++ separator.toString ++ rest) = topic := by
  have chars : (topic ++ separator.toString ++ rest).toList = topic.toList ++ separator :: rest.toList := by
    simp [separator]
  rw [topicOf, chars, List.splitOn_append_cons_self_of_not_mem nameable]
  exact String.ofList_toList

theorem topic_of_own (own : Own topic m) : ∀ p ∈ m.partitions, p.topic = topic := by
  intro p member
  obtain ⟨entry, inside, rfl⟩ := List.mem_map.mp member
  exact (own entry inside).1

theorem offset_nonneg (own : Own topic m) (p : Partition) : 0 ≤ m.offset p :=
  OffsetMap.offset_nonneg (fun entry member => (own entry member).2) p

end LogCursor.CheckpointReading
