import LogCursor.Proofs.CheckpointReading
/-!
The grammar of checkpoints. A text spells offsets when it is empty, or when it is a topic without separators,
alone or followed by pairs of numerals within the limit for different partitions (`Spells`). A text overruns
when such a beginning is followed by a pair of numerals of which one is too long, and the partition is not
repeated (`Overruns`). Reading enters one pair after the other (`fold_ok_iff`) and ends at the first one in
error (`fold_overlong_iff`). So it gives what a text spells, refuses a text that overruns for the length of
that numeral, and any other text for its form (`decode_exact`).
-/
namespace LogCursor.CheckpointGrammar
open LogCursor.Checkpoint LogCursor.CheckpointReading

/-! ### The grammar -/

/-- A run of decimal digits, one at least. -/
structure IsNumeral (ds : List Char) : Prop where
  some : ds ≠ []
  digits : ∀ c ∈ ds, '0' ≤ c ∧ c ≤ '9'

/-- A pair of numerals within the limit. -/
structure IsPair (pair : List Char × List Char) : Prop where
  index : IsNumeral pair.1
  offset : IsNumeral pair.2
  indexShort : pair.1.length ≤ Numeral.limit
  offsetShort : pair.2.length ≤ Numeral.limit

/-- The characters of a pair. -/
def joined (pair : List Char × List Char) : List Char := pair.1 ++ pairSeparator :: pair.2

/-- Pieces with a separator before each of them. -/
def body (pieces : List (List Char)) : List Char := pieces.flatMap (separator :: ·)

/-- The indices that numerals denote. -/
def indices (pairs : List (List Char × List Char)) : List Nat := pairs.map fun pair => Numeral.value pair.1

/-- The offsets that numerals denote, for the partitions of a topic. -/
def entriesOf (topic : String) (pairs : List (List Char × List Char)) : List (Partition × Int) :=
  pairs.map fun pair => (⟨topic, Numeral.value pair.1⟩, (Numeral.value pair.2 : Int))

/-- A beginning that can be read: a topic and pairs, no two of them for the same partition. -/
structure Sound (topic : String) (pairs : List (List Char × List Char)) : Prop where
  named : topic ≠ ""
  nameable : Nameable topic
  arePairs : ∀ pair ∈ pairs, IsPair pair
  distinct : (indices pairs).Nodup

/-- The texts that spell offsets. -/
inductive Spells : String → List (Partition × Int) → Prop
  | empty : Spells "" []
  | pairs {topic : String} {pairs : List (List Char × List Char)} (sound : Sound topic pairs) :
      Spells (topic ++ String.ofList (body (pairs.map joined))) (entriesOf topic pairs)

/-- A numeral of the pair is too long; that of the offset counts only where the index is new. -/
def TooLong (known : List Nat) (pair : List Char × List Char) (count : Nat) : Prop :=
  (Numeral.limit < pair.1.length ∧ count = pair.1.length) ∨
    (pair.1.length ≤ Numeral.limit ∧ Numeral.value pair.1 ∉ known ∧
      Numeral.limit < pair.2.length ∧ count = pair.2.length)

/-- The texts whose first pair in error has a numeral that is too long, with the count of its digits. -/
inductive Overruns : String → Nat → Prop
  | pair {topic : String} {pairs : List (List Char × List Char)} {index offset rest : List Char} {count : Nat}
      (sound : Sound topic pairs) (isIndex : IsNumeral index) (isOffset : IsNumeral offset)
      (long : TooLong (indices pairs) (index, offset) count)
      (ends : rest = [] ∨ ∃ more, rest = separator :: more) :
      Overruns (topic ++ String.ofList (body (pairs.map joined) ++ separator :: joined (index, offset) ++ rest))
        count

/-! ### Pieces -/

private theorem exists_pieces (sep : Char) (cs : List Char) : ∃ first others,
    cs = first ++ others.flatMap (sep :: ·) ∧ ∀ piece ∈ first :: others, sep ∉ piece := by
  induction cs with
  | nil => exact ⟨[], [], rfl, by simp⟩
  | cons c cs ih =>
    obtain ⟨first, others, rfl, clean⟩ := ih
    by_cases same : c = sep
    · refine ⟨[], first :: others, by simp [same], ?_⟩
      intro piece member
      rcases List.mem_cons.mp member with rfl | later
      · simp
      · exact clean piece later
    · refine ⟨c :: first, others, rfl, ?_⟩
      intro piece member
      rcases List.mem_cons.mp member with rfl | later
      · simp [Ne.symm same, clean first]
      · exact clean piece (by simp [later])

private theorem splitOn_pieces {sep : Char} {first : List Char} {others : List (List Char)}
    (clean : ∀ piece ∈ first :: others, sep ∉ piece) :
    (first ++ others.flatMap (sep :: ·)).splitOn sep = first :: others := by
  induction others generalizing first with
  | nil => simpa using List.splitOn_eq_singleton (clean first (by simp))
  | cons next others ih =>
    rw [List.flatMap_cons, List.cons_append, List.splitOn_append_cons_self_of_not_mem (clean first (by simp)),
      ih fun piece member => clean piece (by simp [member])]

/-- Splitting gives the pieces without a separator that make up the characters. -/
theorem splitOn_iff {sep : Char} {cs first : List Char} {others : List (List Char)} :
    cs.splitOn sep = first :: others ↔
      cs = first ++ others.flatMap (sep :: ·) ∧ ∀ piece ∈ first :: others, sep ∉ piece := by
  constructor
  · intro split
    obtain ⟨first', others', rfl, clean⟩ := exists_pieces sep cs
    rw [splitOn_pieces clean] at split
    cases split
    exact ⟨rfl, clean⟩
  · rintro ⟨rfl, clean⟩
    exact splitOn_pieces clean

theorem isDigit_iff {c : Char} : Numeral.isDigit c = true ↔ '0' ≤ c ∧ c ≤ '9' := by
  simp [Numeral.isDigit]

theorem numeral_clean {ds : List Char} (numeral : IsNumeral ds) : separator ∉ ds ∧ pairSeparator ∉ ds := by
  constructor
  · intro member
    exact absurd (numeral.digits _ member) (by decide)
  · intro member
    exact absurd (numeral.digits _ member) (by decide)

private theorem separator_not_mem_joined {index offset : List Char} (isIndex : IsNumeral index)
    (isOffset : IsNumeral offset) : separator ∉ joined (index, offset) := by
  unfold joined
  rw [List.mem_append, List.mem_cons, not_or, not_or]
  exact ⟨(numeral_clean isIndex).1, by decide, (numeral_clean isOffset).1⟩

/-- Two numerals are found in exactly the pairs that they make up. -/
theorem numerals?_iff {piece index offset : List Char} : numerals? piece = some (index, offset) ↔
    piece = joined (index, offset) ∧ IsNumeral index ∧ IsNumeral offset := by
  have split : piece.splitOn pairSeparator = [index, offset] ↔
      piece = joined (index, offset) ∧ pairSeparator ∉ index ∧ pairSeparator ∉ offset := by
    rw [splitOn_iff]
    simp [joined]
  constructor
  · intro found
    unfold numerals? at found
    split at found
    · rename_i index' offset' pieces
      split at found
      · rename_i runs
        cases found
        obtain ⟨someIndex, someOffset, indexDigits, offsetDigits⟩ := runs
        simp only [List.all_eq_true, isDigit_iff] at indexDigits offsetDigits
        exact ⟨(split.mp pieces).1, ⟨someIndex, indexDigits⟩, ⟨someOffset, offsetDigits⟩⟩
      · cases found
    · cases found
  · rintro ⟨same, isIndex, isOffset⟩
    have pieces := split.mpr ⟨same, (numeral_clean isIndex).2, (numeral_clean isOffset).2⟩
    have indexDigits : index.all Numeral.isDigit = true := by
      simpa only [List.all_eq_true, isDigit_iff] using isIndex.digits
    have offsetDigits : offset.all Numeral.isDigit = true := by
      simpa only [List.all_eq_true, isDigit_iff] using isOffset.digits
    simp only [numerals?, pieces]
    rw [if_pos ⟨isIndex.some, isOffset.some, indexDigits, offsetDigits⟩]

/-! ### One pair -/

variable {text topic : String} {m m' : OffsetMap} {piece index offset : List Char} {count : Nat}

private theorem addPair_ok_iff : addPair text topic m piece = .ok m' ↔
    ∃ pair, piece = joined pair ∧ IsPair pair ∧ (⟨topic, Numeral.value pair.1⟩ : Partition) ∉ m.partitions ∧
      m' = m.put ⟨topic, Numeral.value pair.1⟩ (Numeral.value pair.2) := by
  constructor
  · intro read
    cases found : numerals? piece with
    | none =>
      rw [addPair, found] at read
      cases read
    | some pair =>
      obtain ⟨same, isIndex, isOffset⟩ := numerals?_iff.mp found
      rw [addPair_eq found] at read
      split_ifs at read with indexLong repeated offsetLong
      · cases read
        exact ⟨pair, same, ⟨isIndex, isOffset, Nat.not_lt.mp indexLong, Nat.not_lt.mp offsetLong⟩,
          repeated, rfl⟩
  · rintro ⟨pair, same, isPair, fresh, rfl⟩
    have found : numerals? piece = some (pair.1, pair.2) := numerals?_iff.mpr ⟨same, isPair.index, isPair.offset⟩
    rw [addPair_eq found, if_neg (Nat.not_lt.mpr isPair.indexShort), if_neg fresh,
      if_neg (Nat.not_lt.mpr isPair.offsetShort)]

private theorem addPair_overlong_iff : addPair text topic m piece = .error (.overlongNumeral count) ↔
    ∃ index offset, piece = joined (index, offset) ∧ IsNumeral index ∧ IsNumeral offset ∧
      ((Numeral.limit < index.length ∧ count = index.length) ∨
        (index.length ≤ Numeral.limit ∧ (⟨topic, Numeral.value index⟩ : Partition) ∉ m.partitions ∧
          Numeral.limit < offset.length ∧ count = offset.length)) := by
  constructor
  · intro refused
    cases found : numerals? piece with
    | none =>
      rw [addPair, found] at refused
      cases refused
    | some pair =>
      obtain ⟨same, isIndex, isOffset⟩ := numerals?_iff.mp found
      refine ⟨pair.1, pair.2, same, isIndex, isOffset, ?_⟩
      rw [addPair_eq found] at refused
      split_ifs at refused with indexLong repeated offsetLong
      · cases refused
        exact .inl ⟨indexLong, rfl⟩
      · cases refused
      · cases refused
        exact .inr ⟨Nat.not_lt.mp indexLong, repeated, offsetLong, rfl⟩
  · rintro ⟨index, offset, same, isIndex, isOffset, ⟨long, rfl⟩ | ⟨short, fresh, long, rfl⟩⟩
    · rw [addPair_eq (numerals?_iff.mpr ⟨same, isIndex, isOffset⟩), if_pos long]
    · rw [addPair_eq (numerals?_iff.mpr ⟨same, isIndex, isOffset⟩), if_neg (Nat.not_lt.mpr short),
        if_neg fresh, if_pos long]

/-! ### All pairs -/

/-- The partitions that numerals denote, for a topic. -/
def keys (topic : String) (pairs : List (List Char × List Char)) : List Partition :=
  pairs.map fun pair => ⟨topic, Numeral.value pair.1⟩

private theorem keys_eq (topic : String) (pairs : List (List Char × List Char)) :
    keys topic pairs = (indices pairs).map fun i => ⟨topic, i⟩ := by
  rw [indices, List.map_map]
  rfl

private theorem mem_keys {pairs : List (List Char × List Char)} {i : Nat} :
    (⟨topic, i⟩ : Partition) ∈ keys topic pairs ↔ i ∈ indices pairs := by
  simp [keys_eq]

private theorem nodup_keys {pairs : List (List Char × List Char)} : (keys topic pairs).Nodup ↔ (indices pairs).Nodup := by
  rw [keys_eq]
  refine List.nodup_map_iff ?_
  intro i j same
  simpa using same

/-- Pieces are read one after the other exactly when they are pairs for partitions that are new. -/
theorem fold_ok_iff {pieces : List (List Char)} : pieces.foldlM (addPair text topic) m = .ok m' ↔
    ∃ pairs, pieces = pairs.map joined ∧ (∀ pair ∈ pairs, IsPair pair) ∧
      (m.partitions ++ keys topic pairs).Nodup ∧ m'.entries = m.entries ++ entriesOf topic pairs := by
  -- The offsets so far vary: a pair that is read stands at their end, and its partition is new to all others.
  induction pieces generalizing m with
  | nil =>
    constructor
    · intro read
      cases read
      refine ⟨[], rfl, by simp, ?_, by simp [entriesOf]⟩
      simpa [keys] using OffsetMap.nodup_partitions _
    · rintro ⟨pairs, none, _, _, entries⟩
      cases List.map_eq_nil_iff.mp none.symm
      rw [OffsetMap.eq_of_entries (entries.trans (List.append_nil _))]
      rfl
  | cons piece pieces ih =>
    rw [List.foldlM_cons]
    constructor
    · intro read
      cases first : addPair text topic m piece with
      | error e =>
        rw [first] at read
        cases read
      | ok next =>
        rw [first] at read
        obtain ⟨pair, same, isPair, fresh, rfl⟩ := addPair_ok_iff.mp first
        obtain ⟨pairs, split, arePairs, distinct, entries⟩ := ih.mp read
        have entered := OffsetMap.entries_put_of_fresh fresh (Numeral.value pair.2 : Int)
        refine ⟨pair :: pairs, ?_, ?_, ?_, ?_⟩
        · rw [same, split, List.map_cons]
        · intro other member
          rcases List.mem_cons.mp member with rfl | later
          · exact isPair
          · exact arePairs other later
        · rw [OffsetMap.partitions, entered] at distinct
          simpa [keys, OffsetMap.partitions] using distinct
        · rw [entries, entered]
          simp [entriesOf]
    · rintro ⟨pairs, split, arePairs, distinct, entries⟩
      cases pairs with
      | nil => cases split
      | cons pair pairs =>
        obtain ⟨same, split⟩ := List.cons.inj split
        have fresh : (⟨topic, Numeral.value pair.1⟩ : Partition) ∉ m.partitions := fun member =>
          (List.nodup_append.mp distinct).2.2 _ member _ (by simp [keys]) rfl
        have entered := OffsetMap.entries_put_of_fresh fresh (Numeral.value pair.2 : Int)
        have first : addPair text topic m piece = .ok (m.put ⟨topic, Numeral.value pair.1⟩ (Numeral.value pair.2)) :=
          addPair_ok_iff.mpr ⟨pair, same, arePairs pair (by simp), fresh, rfl⟩
        rw [first]
        refine ih.mpr ⟨pairs, split, fun other member => arePairs other (by simp [member]), ?_, ?_⟩
        · rw [OffsetMap.partitions, entered]
          simpa [keys, OffsetMap.partitions] using distinct
        · rw [entries, entered]
          simp [entriesOf]

/-- The offsets of pairs for different partitions. -/
def mapOf (topic : String) {pairs : List (List Char × List Char)} (distinct : (indices pairs).Nodup) : OffsetMap :=
  ⟨entriesOf topic pairs, by
    rw [entriesOf, List.map_map]
    exact nodup_keys.mpr distinct⟩

private theorem partitions_of_entries {pairs : List (List Char × List Char)} (entries : m.entries = entriesOf topic pairs) :
    m.partitions = keys topic pairs := by
  rw [OffsetMap.partitions, entries, entriesOf, List.map_map]
  rfl

/-- Reading begins with no offsets. -/
theorem fold_empty_iff {pieces : List (List Char)} : pieces.foldlM (addPair text topic) ∅ = .ok m ↔
    ∃ pairs, pieces = pairs.map joined ∧ (∀ pair ∈ pairs, IsPair pair) ∧ (indices pairs).Nodup ∧
      m.entries = entriesOf topic pairs := by
  have unique : ∀ pairs, (keys topic pairs).Nodup ↔ (indices pairs).Nodup := fun _ => nodup_keys
  simp only [← unique]
  exact fold_ok_iff

/-- A numeral that is too long ends the reading behind pairs that were read. -/
theorem fold_overlong_iff {pieces : List (List Char)} :
    pieces.foldlM (addPair text topic) ∅ = .error (.overlongNumeral count) ↔
      ∃ pairs index offset later, pieces = pairs.map joined ++ joined (index, offset) :: later ∧
        (∀ pair ∈ pairs, IsPair pair) ∧ (indices pairs).Nodup ∧ IsNumeral index ∧ IsNumeral offset ∧
        TooLong (indices pairs) (index, offset) count := by
  rw [Traversal.foldlM_error_iff]
  constructor
  · rintro ⟨front, piece, later, b, split, before, refused⟩
    obtain ⟨pairs, rfl, arePairs, distinct, entries⟩ := fold_empty_iff.mp before
    obtain ⟨index, offset, rfl, isIndex, isOffset, long⟩ := addPair_overlong_iff.mp refused
    rw [partitions_of_entries entries, mem_keys] at long
    exact ⟨pairs, index, offset, later, split, arePairs, distinct, isIndex, isOffset, long⟩
  · rintro ⟨pairs, index, offset, later, split, arePairs, distinct, isIndex, isOffset, long⟩
    have before : (pairs.map joined).foldlM (addPair text topic) ∅ = .ok (mapOf topic distinct) :=
      fold_empty_iff.mpr ⟨pairs, rfl, arePairs, distinct, rfl⟩
    refine ⟨_, _, later, _, split, before, addPair_overlong_iff.mpr ⟨index, offset, rfl, isIndex, isOffset, ?_⟩⟩
    rw [partitions_of_entries rfl, mem_keys]
    exact long

/-! ### Texts -/

/-- Every text begins with a topic, and pieces follow. -/
theorem exists_topic (text : String) : ∃ topic pieces, text = topic ++ String.ofList (body pieces) ∧
    ∀ piece ∈ topic.toList :: pieces, separator ∉ piece := by
  obtain ⟨first, others, made, clean⟩ := exists_pieces separator text.toList
  refine ⟨String.ofList first, others, ?_, by simpa using clean⟩
  rw [← String.toList_inj, made]
  simp [body]

/-- A text that is not empty is read by its pairs, unless its topic is missing or holds a colon. -/
theorem decode_topic {pieces : List (List Char)} (made : text = topic ++ String.ofList (body pieces))
    (clean : ∀ piece ∈ topic.toList :: pieces, separator ∉ piece) (some : text ≠ "") : decode text =
      if topic = "" then .error (.checkpointWithoutTopic text)
      else if pairSeparator ∈ topic.toList then .error (.checkpointTopic topic)
      else pieces.foldlM (addPair text topic) ∅ := by
  have split : text.toList.splitOn separator = topic.toList :: pieces := by
    refine splitOn_iff.mpr ⟨?_, clean⟩
    simp [made, body]
  simp only [decode, some, if_false, split, String.ofList_toList, String.toList_eq_nil_iff]
  by_cases missing : topic = ""
  · have follows : pieces ≠ [] := by
      rintro rfl
      exact some (by simp [made, missing, body])
    rw [if_pos ⟨follows, missing⟩, if_pos missing]
  · rw [if_neg fun both => missing both.2, if_neg missing]

private theorem body_append (pieces later : List (List Char)) : body (pieces ++ later) = body pieces ++ body later :=
  List.flatMap_append

private theorem exists_later {rest : List Char} (ends : rest = [] ∨ ∃ more, rest = separator :: more) :
    ∃ later, rest = body later ∧ ∀ piece ∈ later, separator ∉ piece := by
  rcases ends with rfl | ⟨more, rfl⟩
  · exact ⟨[], rfl, by simp⟩
  · obtain ⟨first, others, rfl, clean⟩ := exists_pieces separator more
    exact ⟨first :: others, rfl, clean⟩

private theorem body_ends (later : List (List Char)) : body later = [] ∨ ∃ more, body later = separator :: more := by
  cases later with
  | nil => exact .inl rfl
  | cons first others => exact .inr ⟨_, rfl⟩

variable {pairs : List (List Char × List Char)}

theorem sound_clean (sound : Sound topic pairs) :
    ∀ piece ∈ topic.toList :: pairs.map joined, separator ∉ piece := by
  intro piece member
  rcases List.mem_cons.mp member with rfl | later
  · exact sound.nameable.1
  · obtain ⟨pair, inside, rfl⟩ := List.mem_map.mp later
    have isPair := sound.arePairs pair inside
    exact separator_not_mem_joined isPair.index isPair.offset

private theorem topic_append_ne_empty (named : topic ≠ "") (more : String) : topic ++ more ≠ "" := by
  intro none
  exact named (String.append_eq_empty_iff.mp none).1

private theorem decode_named {pieces : List (List Char)} (named : topic ≠ "") (nameable : Nameable topic)
    (clean : ∀ piece ∈ topic.toList :: pieces, separator ∉ piece) :
    decode (topic ++ String.ofList (body pieces)) =
      pieces.foldlM (addPair (topic ++ String.ofList (body pieces)) topic) ∅ := by
  rw [decode_topic rfl clean (topic_append_ne_empty named _), if_neg named, if_neg nameable.2]

theorem decode_ok_iff {entries : List (Partition × Int)} :
    (∃ m, decode text = .ok m ∧ m.entries = entries) ↔ Spells text entries := by
  constructor
  · rintro ⟨m, read, rfl⟩
    by_cases none : text = ""
    · subst none
      cases read
      exact .empty
    · obtain ⟨topic, pieces, made, clean⟩ := exists_topic text
      rw [decode_topic made clean none] at read
      split_ifs at read with missing colon
      obtain ⟨pairs, rfl, arePairs, distinct, entries⟩ := fold_empty_iff.mp read
      rw [made, entries]
      exact .pairs ⟨missing, ⟨clean _ (by simp), colon⟩, arePairs, distinct⟩
  · intro spells
    cases spells with
    | empty => exact ⟨∅, rfl, rfl⟩
    | @pairs topic pairs sound =>
      refine ⟨mapOf topic sound.distinct, ?_, rfl⟩
      rw [decode_named sound.named sound.nameable (sound_clean sound)]
      exact fold_empty_iff.mpr ⟨pairs, rfl, sound.arePairs, sound.distinct, rfl⟩

theorem decode_overlong_iff : decode text = .error (.overlongNumeral count) ↔ Overruns text count := by
  constructor
  · intro refused
    by_cases none : text = ""
    · subst none
      cases refused
    · obtain ⟨topic, pieces, made, clean⟩ := exists_topic text
      rw [decode_topic made clean none] at refused
      split_ifs at refused with missing colon
      · cases refused
      · cases refused
      · obtain ⟨pairs, index, offset, later, rfl, arePairs, distinct, isIndex, isOffset, long⟩ :=
          fold_overlong_iff.mp refused
        have sound : Sound topic pairs := ⟨missing, ⟨clean _ (by simp), colon⟩, arePairs, distinct⟩
        rw [made, body_append]
        have overruns := Overruns.pair sound isIndex isOffset long (body_ends later)
        rwa [List.append_assoc] at overruns
  · intro overruns
    cases overruns with
    | @pair topic pairs index offset rest _ sound isIndex isOffset long ends =>
      obtain ⟨later, rfl, laterClean⟩ := exists_later ends
      have made : body (pairs.map joined) ++ separator :: joined (index, offset) ++ body later =
          body (pairs.map joined ++ joined (index, offset) :: later) := by
        rw [body_append, List.append_assoc]
        rfl
      rw [made, decode_named sound.named sound.nameable]
      · exact fold_overlong_iff.mpr ⟨pairs, index, offset, later, rfl, sound.arePairs, sound.distinct,
          isIndex, isOffset, long⟩
      · intro piece member
        rw [← List.cons_append, List.mem_append, List.mem_cons (a := piece) (b := joined (index, offset))] at member
        rcases member with before | rfl | behind
        · exact sound_clean sound piece before
        · exact separator_not_mem_joined isIndex isOffset
        · exact laterClean piece behind

/-- A text is read exactly when it spells offsets, and then as these, in their order. It is refused for the
    length of a numeral exactly when its first pair in error overruns the limit, and for its form in every other
    case. -/
theorem decode_exact (text : String) :
    (∀ entries, (∃ m, decode text = .ok m ∧ m.entries = entries) ↔ Spells text entries) ∧
    (∀ count, decode text = .error (.overlongNumeral count) ↔ Overruns text count) ∧
    ((∃ e, decode text = .error e ∧ e.kind = .format) ↔
      (∀ entries, ¬ Spells text entries) ∧ ∀ count, ¬ Overruns text count) ∧
    (∀ e, decode text = .error e → e.kind = .format ∨ e.kind = .value ∧ ∃ count, e = .overlongNumeral count) := by
  refine ⟨fun entries => decode_ok_iff, fun count => decode_overlong_iff, ?_, ?_⟩
  · simp only [← decode_ok_iff, ← decode_overlong_iff]
    constructor
    · rintro ⟨e, refused, form⟩
      constructor
      · rintro entries ⟨m, read, _⟩
        rw [refused] at read
        cases read
      · intro count overlong
        rw [refused] at overlong
        cases overlong
        cases form
    · rintro ⟨unread, within⟩
      cases result : decode text with
      | ok m => exact absurd ⟨m, result, rfl⟩ (unread m.entries)
      | error e =>
        rcases decode_fault result with form | ⟨count, rfl⟩
        · exact ⟨e, rfl, form⟩
        · exact absurd result (within count)
  · intro e refused
    rcases decode_fault refused with form | ⟨count, rfl⟩
    · exact .inl form
    · exact .inr ⟨rfl, count, rfl⟩

-- Two spellings of one partition clash, and a text with a comma behind it holds an empty pair.
example : decode "clicks,0:1,00:2" = .error (.repeatedPartition 0 "clicks,0:1,00:2") := rfl
example : decode "clicks,0:1," = .error (.malformedPair "" "clicks,0:1,") := rfl

/-! ### Within the limit -/

private theorem value_lt {ds : List Char} (digits : ∀ c ∈ ds, '0' ≤ c ∧ c ≤ '9') :
    Numeral.value ds < 10 ^ ds.length := by
  -- Digits shift the number before them, so the bound is shown behind any number.
  have grows : ∀ (ds : List Char) (n : Nat), (∀ c ∈ ds, '0' ≤ c ∧ c ≤ '9') →
      ds.foldl (fun n c => 10 * n + (c.toNat - '0'.toNat)) n < (n + 1) * 10 ^ ds.length := by
    intro ds
    induction ds with
    | nil =>
      intro n _
      simp
    | cons c ds ih =>
      intro n digits
      have small : c.toNat - '0'.toNat ≤ 9 := by
        have top : c.toNat ≤ '9'.toNat := (digits c (by simp)).2
        have nine : '9'.toNat = '0'.toNat + 9 := rfl
        omega
      have rest := ih (10 * n + (c.toNat - '0'.toNat)) fun d member => digits d (by simp [member])
      have room : 10 * n + (c.toNat - '0'.toNat) + 1 ≤ (n + 1) * 10 := by omega
      calc (c :: ds).foldl (fun n c => 10 * n + (c.toNat - '0'.toNat)) n
          < (10 * n + (c.toNat - '0'.toNat) + 1) * 10 ^ ds.length := rest
        _ ≤ (n + 1) * 10 * 10 ^ ds.length := Nat.mul_le_mul_right _ room
        _ = (n + 1) * 10 ^ (c :: ds).length := by rw [List.length_cons, Nat.pow_succ', Nat.mul_assoc]
  have grown := grows ds 0 digits
  rw [Nat.zero_add, Nat.one_mul] at grown
  exact grown

/-- What is read can be written again. -/
theorem writable_of_read (read : decode text = .ok m) :
    ∀ entry ∈ m.entries, CheckpointText.Writable entry.1.index ∧ CheckpointText.Writable entry.2.toNat := by
  have spells := decode_ok_iff.mp ⟨m, read, rfl⟩
  intro entry member
  generalize m.entries = entries at spells member
  cases spells with
  | empty => cases member
  | pairs sound =>
    obtain ⟨pair, inside, rfl⟩ := List.mem_map.mp member
    obtain ⟨index, offset, indexShort, offsetShort⟩ := sound.arePairs pair inside
    constructor
    · exact CheckpointText.writable_of_lt (value_lt index.digits) indexShort
    · exact CheckpointText.writable_of_lt (value_lt offset.digits) offsetShort

end LogCursor.CheckpointGrammar
