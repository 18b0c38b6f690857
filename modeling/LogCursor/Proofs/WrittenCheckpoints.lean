import LogCursor.Proofs.CheckpointGrammar
import LogCursor.Proofs.RoundTrip
/-!
Whether a checkpoint that is written can be read. What encoding refuses to write and what decoding refuses to
read are not the same: ranges are refused for their number, for several topics and for a separator in their
topic, but not for a topic without a name or for a partition that is repeated. Such ranges are written, and
their text is lost (`Lost`); the text of any others is read as where they stop (`encode_read`).
-/
namespace LogCursor.WrittenCheckpoints
open LogCursor.Checkpoint LogCursor.CheckpointGrammar LogCursor.CheckpointReading LogCursor.CheckpointText
open LogCursor.RoundTrip

/-- Why the text behind ranges is not read: their topic has no name, or a partition occurs again. -/
inductive Lost (rs : List Range) (text : String) : Fault → Prop
  | unnamed (unnamed : ∀ r ∈ rs, r.partition.topic = "") : Lost rs text (.checkpointWithoutTopic text)
  | repeated {front later : List Range} {r : Range} (split : rs = front ++ r :: later)
      (named : r.partition.topic ≠ "") (distinct : (front.map fun r => r.partition.index).Nodup)
      (again : r.partition.index ∈ front.map fun r => r.partition.index) :
      Lost rs text (.repeatedPartition r.partition.index text)

variable {text topic : String} {ps : List (Nat × Nat)} {rs : List Range} {m : OffsetMap} {e : Fault}

/-- The numerals of an index and an offset. -/
def numerals (pair : Nat × Nat) : List Char × List Char := (Numeral.digits pair.1, Numeral.digits pair.2)

private theorem isNumeral_digits (n : Nat) : IsNumeral (Numeral.digits n) :=
  ⟨Nat.toDigits_ne_nil, fun _ member => isDigit_iff.mp (isDigit_of_mem_digits member)⟩

private theorem isPair_numerals {pair : Nat × Nat} (short : Writable pair.1 ∧ Writable pair.2) : IsPair (numerals pair) :=
  ⟨isNumeral_digits _, isNumeral_digits _, (length_digits_le_iff _).mpr short.1, (length_digits_le_iff _).mpr short.2⟩

private theorem joined_inj {p q : List Char × List Char} (isP : IsPair p) (isQ : IsPair q) (same : joined p = joined q) :
    p = q := by
  have found : numerals? (joined p) = some p := numerals?_iff.mpr ⟨rfl, isP.index, isP.offset⟩
  have found' : numerals? (joined p) = some q := numerals?_iff.mpr ⟨same, isQ.index, isQ.offset⟩
  exact Option.some.inj (found.symm.trans found')

private theorem numerals_of_joined {pairs : List (List Char × List Char)} (arePairs : ∀ pair ∈ pairs, IsPair pair)
    (short : ∀ p ∈ ps, Writable p.1 ∧ Writable p.2)
    (same : (ps.map fun p => writePair p.1 p.2) = pairs.map joined) : pairs = ps.map numerals := by
  induction ps generalizing pairs with
  | nil => exact List.map_eq_nil_iff.mp same.symm
  | cons p ps ih =>
    cases pairs with
    | nil => cases same
    | cons pair pairs =>
      obtain ⟨first, rest⟩ := List.cons.inj same
      have here : pair = numerals p :=
        (joined_inj (isPair_numerals (short p (by simp))) (arePairs pair (by simp)) first).symm
      have later := ih (fun other member => arePairs other (by simp [member]))
        (fun other member => short other (by simp [member])) rest
      rw [here, later, List.map_cons]

private theorem indices_numerals (ps : List (Nat × Nat)) : indices (ps.map numerals) = ps.map Prod.fst := by
  simp [indices, numerals, value_digits, Function.comp_def]

private theorem entriesOf_numerals (topic : String) (ps : List (Nat × Nat)) :
    entriesOf topic (ps.map numerals) = entries topic ps := by
  simp [entriesOf, entries, numerals, value_digits, Function.comp_def]

/-- Pairs that were written are read exactly when no index occurs twice. -/
theorem fold_written_iff (short : ∀ p ∈ ps, Writable p.1 ∧ Writable p.2) :
    (ps.map fun p => writePair p.1 p.2).foldlM (addPair text topic) ∅ = .ok m ↔
      (ps.map Prod.fst).Nodup ∧ m.entries = entries topic ps := by
  rw [fold_empty_iff]
  constructor
  · rintro ⟨pairs, same, arePairs, distinct, entered⟩
    -- A number has one numeral here, so the pairs that are found are those that were written.
    cases numerals_of_joined arePairs short same
    rw [indices_numerals] at distinct
    rw [entriesOf_numerals] at entered
    exact ⟨distinct, entered⟩
  · rintro ⟨distinct, entered⟩
    refine ⟨ps.map numerals, ?_, ?_, ?_, ?_⟩
    · rw [List.map_map]
      rfl
    · intro pair member
      obtain ⟨p, inside, rfl⟩ := List.mem_map.mp member
      exact isPair_numerals (short p inside)
    · rwa [indices_numerals]
    · rwa [entriesOf_numerals]

theorem write_eq (topic : String) (ps : List (Nat × Nat)) :
    write topic ps = topic ++ String.ofList (body (ps.map fun p => writePair p.1 p.2)) := by
  have joins : ∀ (first : List Char) (pieces : List (List Char)),
      [separator].intercalate (first :: pieces) = first ++ body pieces := by
    intro first pieces
    induction pieces generalizing first with
    | nil => simp [body]
    | cons next pieces ih => simp [List.intercalate_cons_cons, ih, body]
  rw [← String.toList_inj, toList_write, joins]
  simp

private theorem write_cons_ne_empty (topic : String) (p : Nat × Nat) (ps : List (Nat × Nat)) :
    write topic (p :: ps) ≠ "" := by
  rw [write_eq]
  simp [body, String.append_eq_empty_iff]

private theorem decode_written (nameable : Nameable topic) (some : ps ≠ []) : decode (write topic ps) =
    if topic = "" then .error (.checkpointWithoutTopic (write topic ps))
    else (ps.map fun p => writePair p.1 p.2).foldlM (addPair (write topic ps) topic) ∅ := by
  obtain ⟨p, rest, rfl⟩ := List.exists_cons_of_ne_nil some
  rw [decode_topic (write_eq topic _) (separator_not_mem_piece nameable _) (write_cons_ne_empty topic p rest),
    if_neg nameable.2]

private theorem addPair_written {index offset : Nat} (short : Writable index ∧ Writable offset) :
    addPair text topic m (writePair index offset) =
      if (⟨topic, index⟩ : Partition) ∈ m.partitions then .error (.repeatedPartition index text)
      else .ok (m.put ⟨topic, index⟩ offset) := by
  have indexShort := Nat.not_lt.mpr ((length_digits_le_iff index).mpr short.1)
  have offsetShort := Nat.not_lt.mpr ((length_digits_le_iff offset).mpr short.2)
  rw [addPair_eq (numerals?_writePair index offset), if_neg indexShort, if_neg offsetShort]
  simp only [value_digits]

private theorem mem_partitions_of_entries {index : Nat} (entered : m.entries = entries topic ps) :
    (⟨topic, index⟩ : Partition) ∈ m.partitions ↔ index ∈ ps.map Prod.fst := by
  simp [OffsetMap.partitions, entered, entries]

/-- The first index that occurs again is the only fault of pairs that were written. -/
theorem fold_written_error_iff (short : ∀ p ∈ ps, Writable p.1 ∧ Writable p.2) :
    (ps.map fun p => writePair p.1 p.2).foldlM (addPair text topic) ∅ = .error e ↔
      ∃ front index offset later, ps = front ++ (index, offset) :: later ∧ (front.map Prod.fst).Nodup ∧
        index ∈ front.map Prod.fst ∧ e = .repeatedPartition index text := by
  rw [Traversal.foldlM_error_iff]
  constructor
  · rintro ⟨_, _, _, b, split, before, fault⟩
    obtain ⟨front, rest, rfl, rfl, follows⟩ := List.map_eq_append_iff.mp split
    obtain ⟨⟨index, offset⟩, later, rfl, rfl, rfl⟩ := List.map_eq_cons_iff.mp follows
    obtain ⟨distinct, entered⟩ := (fold_written_iff fun p member => short p (by simp [member])).mp before
    rw [addPair_written (short (index, offset) (by simp))] at fault
    split_ifs at fault with again
    cases fault
    exact ⟨front, index, offset, later, rfl, distinct, (mem_partitions_of_entries entered).mp again, rfl⟩
  · rintro ⟨front, index, offset, later, rfl, distinct, again, rfl⟩
    have read : (front.map fun p => writePair p.1 p.2).foldlM (addPair text topic) ∅ =
        .ok ⟨entries topic front, nodup_entries topic distinct⟩ :=
      (fold_written_iff fun p member => short p (by simp [member])).mpr ⟨distinct, rfl⟩
    refine ⟨_, writePair index offset, _, _, by rw [List.map_append, List.map_cons], read, ?_⟩
    rw [addPair_written (short (index, offset) (by simp)), if_pos ((mem_partitions_of_entries rfl).mpr again)]

private theorem short_pairs (short : Short rs) : ∀ p ∈ pairs rs, Writable p.1 ∧ Writable p.2 := by
  intro p member
  obtain ⟨r, inside, rfl⟩ := List.mem_map.mp member
  exact short r inside

private theorem indices_pairs (rs : List Range) : (pairs rs).map Prod.fst = rs.map fun r => r.partition.index := by
  rw [pairs, List.map_map]
  rfl

/-- The text of ranges is lost exactly when it is refused. -/
theorem decode_error_iff (short : Short rs) (some : rs ≠ []) (own : ∀ r ∈ rs, r.partition.topic = topic)
    (nameable : Nameable topic) :
    decode (write topic (pairs rs)) = .error e ↔ Lost rs (write topic (pairs rs)) e := by
  rw [decode_written nameable (by simpa [pairs] using some)]
  by_cases missing : topic = ""
  · rw [if_pos missing]
    constructor
    · intro refused
      cases refused
      exact .unnamed fun r member => (own r member).trans missing
    · intro lost
      cases lost with
      | unnamed => rfl
      | repeated split named => exact absurd ((own _ (by simp [split])).trans missing) named
  · rw [if_neg missing, fold_written_error_iff (short_pairs short)]
    constructor
    · rintro ⟨_, _, _, _, split, distinct, again, rfl⟩
      obtain ⟨front, rest, rfl, rfl, follows⟩ := List.map_eq_append_iff.mp split
      obtain ⟨r, later, rfl, same, rfl⟩ := List.map_eq_cons_iff.mp follows
      cases same
      rw [← pairs, indices_pairs] at distinct again
      exact .repeated rfl (by rwa [own r (by simp)]) distinct again
    · intro lost
      cases lost with
      | unnamed unnamed =>
        obtain ⟨r, member⟩ := List.exists_mem_of_ne_nil rs some
        exact absurd ((own r member).symm.trans (unnamed r member)) missing
      | @repeated front later r split named distinct again =>
        refine ⟨pairs front, r.partition.index, r.stop, pairs later, ?_, ?_, ?_, rfl⟩
        · simp [pairs, split]
        · rwa [indices_pairs]
        · rwa [indices_pairs]

private theorem decode_ok_iff_distinct (short : Short rs) (some : rs ≠ []) (own : ∀ r ∈ rs, r.partition.topic = topic)
    (nameable : Nameable topic) : decode (write topic (pairs rs)) = .ok m ↔
      topic ≠ "" ∧ (rs.map fun r => r.partition.index).Nodup ∧
        m.entries = rs.map fun r => (r.partition, (r.stop : Int)) := by
  rw [decode_written nameable (by simpa [pairs] using some)]
  by_cases missing : topic = ""
  · simp [missing]
  · rw [if_neg missing, fold_written_iff (short_pairs short), indices_pairs, entries_pairs own]
    simp [missing]

private theorem summary_of_encode (rs : List Range) :
    Summary.ofRanges rs = (encode rs).map fun text => ⟨Range.total rs, text⟩ := by
  unfold Summary.ofRanges
  cases encode rs <;> rfl

/-- Ranges are refused for their values or for the form of their topic, or they are written as a text that is not
    empty, and so is their summary. The text is read, as where the ranges stop, exactly when their topic has a
    name and no partition is repeated. Otherwise it is lost for the one or the other. -/
theorem encode_read (rs : List Range) (short : Short rs) :
    (∀ e, encode rs = .error e → (e.kind = .value ∨ e.kind = .format) ∧ Summary.ofRanges rs = .error e) ∧
    ∀ text, encode rs = .ok text →
      text ≠ "" ∧ Summary.ofRanges rs = .ok ⟨Range.total rs, text⟩ ∧
      ((∃ m, decode text = .ok m) ↔
        (∀ r ∈ rs, r.partition.topic ≠ "") ∧ (rs.map fun r => r.partition.index).Nodup) ∧
      (∀ m, decode text = .ok m → m.entries = rs.map fun r => (r.partition, (r.stop : Int))) ∧
      ∀ e, decode text = .error e ↔ Lost rs text e := by
  rw [summary_of_encode]
  constructor
  · intro e refused
    rw [refused]
    exact ⟨encode_fault refused, rfl⟩
  · intro text written
    rw [written]
    obtain ⟨some, _, topic, own, nameable, rfl⟩ := encode_ok_iff.mp written
    have read := fun m => decode_ok_iff_distinct (m := m) short some own nameable
    refine ⟨?_, rfl, ?_, fun m done => ((read m).mp done).2.2, fun e => decode_error_iff short some own nameable⟩
    · obtain ⟨first, rest, rfl⟩ := List.exists_cons_of_ne_nil some
      exact write_cons_ne_empty topic _ _
    · have named : (∀ r ∈ rs, r.partition.topic ≠ "") ↔ topic ≠ "" := by
        obtain ⟨r, member⟩ := List.exists_mem_of_ne_nil rs some
        constructor
        · intro all
          rw [← own r member]
          exact all r member
        · intro named r member
          rwa [own r member]
      rw [named]
      constructor
      · rintro ⟨m, done⟩
        obtain ⟨named, distinct, _⟩ := (read m).mp done
        exact ⟨named, distinct⟩
      · rintro ⟨named, distinct⟩
        obtain ⟨m, done, _⟩ := decode_pairs ⟨own, distinct⟩ short named nameable
        exact ⟨m, done⟩

/-- Two ranges over one partition, the one behind the other. -/
def twice : List Range := [⟨⟨"clicks", 0⟩, 0, 5, by decide⟩, ⟨⟨"clicks", 0⟩, 5, 9, by decide⟩]

/-- A range of a topic without a name. -/
def nameless : List Range := [⟨⟨"", 3⟩, 0, 7, by decide⟩]

theorem encode_read_twice : Short twice ∧ ∃ text, encode twice = .ok text ∧ text ≠ "" ∧
    decode text = .error (.repeatedPartition 0 text) := by
  have short : Short twice := by
    intro r member
    have within : r.partition.index < 10 ^ 1 ∧ r.stop < 10 ^ 1 :=
      (by decide : ∀ r ∈ twice, r.partition.index < 10 ^ 1 ∧ r.stop < 10 ^ 1) r member
    exact ⟨writable_of_lt within.1 (by decide), writable_of_lt within.2 (by decide)⟩
  have written : encode twice = .ok (write "clicks" (pairs twice)) :=
    encode_own (by decide) (by decide) (by decide) short
  obtain ⟨_, readable⟩ := encode_read twice short
  obtain ⟨some, _, _, _, lost⟩ := readable _ written
  have split : twice = [⟨⟨"clicks", 0⟩, 0, 5, by decide⟩] ++ ⟨⟨"clicks", 0⟩, 5, 9, by decide⟩ :: [] := rfl
  exact ⟨short, _, written, some, (lost _).mpr (.repeated split (by decide) (by decide) (by decide))⟩

/-- Ranges that can be built, and are written, though the text cannot be read. -/
theorem written_unread :
    (encode twice = .ok "clicks,0:5,0:9" ∧
      decode "clicks,0:5,0:9" = .error (.repeatedPartition 0 "clicks,0:5,0:9")) ∧
    encode nameless = .ok ",3:7" ∧ decode ",3:7" = .error (.checkpointWithoutTopic ",3:7") :=
  ⟨⟨rfl, rfl⟩, rfl, rfl⟩

end LogCursor.WrittenCheckpoints
