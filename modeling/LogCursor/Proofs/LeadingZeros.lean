import LogCursor.Proofs.WrittenCheckpoints
/-!
Superfluous zeros. A numeral is written without them and may be read with them, so a text that is read comes
back without them when it is written again. A number has one numeral without superfluous zeros, and any numeral
of it gives this one when they are removed (`digits_value`). So ranges that stop where a text says are written
as this text without the zeros, which is the text itself exactly when it has none, and is read as the same
offsets (`encode_decode`).
-/
namespace LogCursor.LeadingZeros
open LogCursor.Checkpoint LogCursor.CheckpointGrammar LogCursor.CheckpointReading LogCursor.CheckpointText
open LogCursor.RoundTrip LogCursor.WrittenCheckpoints

/-- A numeral with superfluous zeros: a zero stands before another digit. -/
def Padded (ds : List Char) : Prop := ∃ d rest, ds = '0' :: d :: rest

/-- A numeral without its superfluous zeros. -/
def unpadded : List Char → List Char
  | '0' :: d :: rest => unpadded (d :: rest)
  | ds => ds

/-- The pieces of a text behind its topic. -/
def piecesOf (text : String) : List (List Char) := (text.toList.splitOn separator).tail

/-- The numerals of a text: what stands around the colons behind its topic. -/
def numeralsOf (text : String) : List (List Char) := (piecesOf text).flatMap (·.splitOn pairSeparator)

/-- A pair without the superfluous zeros of its numerals. -/
def unpaddedPair (piece : List Char) : List Char :=
  [pairSeparator].intercalate ((piece.splitOn pairSeparator).map unpadded)

/-- A text without the superfluous zeros of its numerals. -/
def unpaddedText (text : String) : String :=
  topicOf text ++ String.ofList (body ((piecesOf text).map unpaddedPair))

variable {ds : List Char} {text topic : String} {pairs : List (List Char × List Char)} {m : OffsetMap}

private theorem unpadded_of_not_padded (plain : ¬ Padded ds) : unpadded ds = ds := by
  unfold unpadded
  split
  · exact absurd ⟨_, _, rfl⟩ plain
  · rfl

private theorem not_padded_unpadded (ds : List Char) : ¬ Padded (unpadded ds) := by
  induction ds using unpadded.induct with
  | case1 d rest ih => exact ih
  | case2 ds other =>
    rw [unpadded_of_not_padded] <;> exact fun ⟨d, rest, same⟩ => other d rest same

private theorem value_unpadded (ds : List Char) : Numeral.value (unpadded ds) = Numeral.value ds := by
  induction ds using unpadded.induct with
  | case1 d rest ih => exact ih
  | case2 ds other => rw [unpadded_of_not_padded fun ⟨d, rest, same⟩ => other d rest same]

private theorem length_unpadded_le (ds : List Char) : (unpadded ds).length ≤ ds.length := by
  induction ds using unpadded.induct with
  | case1 d rest ih => exact Nat.le_succ_of_le ih
  | case2 ds other => rw [unpadded_of_not_padded fun ⟨d, rest, same⟩ => other d rest same]

private theorem isNumeral_unpadded (numeral : IsNumeral ds) : IsNumeral (unpadded ds) := by
  induction ds using unpadded.induct with
  | case1 d rest ih => exact ih ⟨by simp, fun c member => numeral.digits c (by simp [member])⟩
  | case2 ds other => rwa [unpadded_of_not_padded fun ⟨d, rest, same⟩ => other d rest same]

private theorem digit_eq {c : Char} (digit : '0' ≤ c ∧ c ≤ '9') :
    c.toNat - '0'.toNat < 10 ∧ Nat.digitChar (c.toNat - '0'.toNat) = c := by
  have low : 48 ≤ c.toNat := digit.1
  have high : c.toNat ≤ 57 := digit.2
  have small : c.toNat - 48 < 10 := by omega
  refine ⟨small, ?_⟩
  calc Nat.digitChar (c.toNat - 48) = Char.ofNat (48 + (c.toNat - 48)) :=
        (by decide : ∀ k < 10, Nat.digitChar k = Char.ofNat (48 + k)) _ small
    _ = c := by rw [Nat.add_sub_cancel' low, Char.ofNat_toNat]

private theorem digits_foldl {n : Nat} (positive : 0 < n) (digits : ∀ c ∈ ds, '0' ≤ c ∧ c ≤ '9') :
    Numeral.digits (ds.foldl (fun n c => 10 * n + (c.toNat - '0'.toNat)) n) = Numeral.digits n ++ ds := by
  induction ds generalizing n with
  | nil => simp
  | cons c rest ih =>
    obtain ⟨small, char⟩ := digit_eq (digits c (by simp))
    have shifted : Numeral.digits (10 * n + (c.toNat - '0'.toNat)) = Numeral.digits n ++ [c] := by
      rw [Numeral.digits, ← Nat.toDigits_append_toDigits (by decide) positive small, Nat.toDigits_of_lt_base small, char]
      rfl
    rw [List.foldl_cons, ih (by omega) fun d member => digits d (by simp [member]), shifted, List.append_assoc]
    rfl

private theorem digits_of_not_padded (numeral : IsNumeral ds) (plain : ¬ Padded ds) :
    Numeral.digits (Numeral.value ds) = ds := by
  obtain ⟨d, rest, rfl⟩ := List.exists_cons_of_ne_nil numeral.some
  obtain ⟨small, char⟩ := digit_eq (numeral.digits d (by simp))
  have first : Numeral.digits (d.toNat - '0'.toNat) = [d] := by
    rw [Numeral.digits, Nat.toDigits_of_lt_base small, char]
  have value : Numeral.value (d :: rest) =
      rest.foldl (fun n c => 10 * n + (c.toNat - '0'.toNat)) (d.toNat - '0'.toNat) := by
    rw [Numeral.value, List.foldl_cons, Nat.mul_zero, Nat.zero_add]
  rw [value]
  cases rest with
  | nil => exact first
  | cons e rest =>
    have positive : 0 < d.toNat - '0'.toNat := by
      refine Nat.pos_of_ne_zero fun zero => plain ⟨e, rest, ?_⟩
      rw [zero] at char
      rw [← char]
      rfl
    rw [digits_foldl positive fun c member => numeral.digits c (by simp [member]), first]
    rfl

/-- The numeral of what a numeral denotes is that numeral without superfluous zeros. -/
theorem digits_value (numeral : IsNumeral ds) : Numeral.digits (Numeral.value ds) = unpadded ds := by
  rw [← value_unpadded, digits_of_not_padded (isNumeral_unpadded numeral) (not_padded_unpadded ds)]

/-- A pair without superfluous zeros. -/
def trimmed (pair : List Char × List Char) : List Char × List Char := (unpadded pair.1, unpadded pair.2)

private theorem writePair_value {pair : List Char × List Char} (isPair : IsPair pair) :
    writePair (Numeral.value pair.1) (Numeral.value pair.2) = joined (trimmed pair) := by
  rw [writePair, digits_value isPair.index, digits_value isPair.offset]
  rfl

private theorem isPair_trimmed {pair : List Char × List Char} (isPair : IsPair pair) : IsPair (trimmed pair) :=
  ⟨isNumeral_unpadded isPair.index, isNumeral_unpadded isPair.offset,
    (length_unpadded_le _).trans isPair.indexShort, (length_unpadded_le _).trans isPair.offsetShort⟩

private theorem sound_trimmed (sound : Sound topic pairs) : Sound topic (pairs.map trimmed) := by
  refine ⟨sound.named, sound.nameable, ?_, ?_⟩
  · intro pair member
    obtain ⟨other, inside, rfl⟩ := List.mem_map.mp member
    exact isPair_trimmed (sound.arePairs other inside)
  · have same : indices (pairs.map trimmed) = indices pairs := by
      simp [indices, trimmed, value_unpadded]
    rw [same]
    exact sound.distinct

/-- The text of a topic and pairs. -/
def spelled (topic : String) (pairs : List (List Char × List Char)) : String :=
  topic ++ String.ofList (body (pairs.map joined))

private theorem splitOn_spelled (sound : Sound topic pairs) :
    (spelled topic pairs).toList.splitOn separator = topic.toList :: pairs.map joined := by
  refine splitOn_iff.mpr ⟨?_, sound_clean sound⟩
  simp [spelled, body]

private theorem splitOn_joined {pair : List Char × List Char} (isPair : IsPair pair) :
    (joined pair).splitOn pairSeparator = [pair.1, pair.2] := by
  refine splitOn_iff.mpr ⟨by simp [joined], ?_⟩
  intro piece member
  rcases List.mem_cons.mp member with rfl | later
  · exact (numeral_clean isPair.index).2
  · rw [List.mem_singleton.mp later]
    exact (numeral_clean isPair.offset).2

private theorem numeralsOf_spelled (sound : Sound topic pairs) :
    numeralsOf (spelled topic pairs) = pairs.flatMap fun pair => [pair.1, pair.2] := by
  rw [numeralsOf, piecesOf, splitOn_spelled sound, List.tail_cons, List.flatMap_map]
  refine List.flatMap_congr fun pair member => ?_
  exact splitOn_joined (sound.arePairs pair member)

private theorem unpaddedText_spelled (sound : Sound topic pairs) :
    unpaddedText (spelled topic pairs) = spelled topic (pairs.map trimmed) := by
  have named : topicOf (spelled topic pairs) = topic := by
    rw [topicOf, splitOn_spelled sound]
    exact String.ofList_toList
  have pieces : (piecesOf (spelled topic pairs)).map unpaddedPair = (pairs.map trimmed).map joined := by
    rw [piecesOf, splitOn_spelled sound, List.tail_cons, List.map_map, List.map_map]
    refine List.map_congr_left fun pair member => ?_
    rw [Function.comp_apply, unpaddedPair, splitOn_joined (sound.arePairs pair member)]
    simp [trimmed, joined]
  rw [unpaddedText, named, pieces, spelled]

private theorem unpaddedText_eq_iff (sound : Sound topic pairs) :
    unpaddedText (spelled topic pairs) = spelled topic pairs ↔
      ∀ ds ∈ numeralsOf (spelled topic pairs), ¬ Padded ds := by
  constructor
  · intro same
    have numerals := numeralsOf_spelled (sound_trimmed sound)
    rw [← unpaddedText_spelled sound, same] at numerals
    intro ds member
    rw [numerals] at member
    obtain ⟨pair, inside, here⟩ := List.mem_flatMap.mp member
    obtain ⟨other, _, rfl⟩ := List.mem_map.mp inside
    rcases List.mem_pair.mp here with rfl | rfl <;> exact not_padded_unpadded _
  · intro clean
    rw [numeralsOf_spelled sound] at clean
    rw [unpaddedText_spelled sound]
    congr 1
    refine (List.map_congr_left fun pair member => ?_).trans (List.map_id _)
    have index := unpadded_of_not_padded (clean pair.1 (List.mem_flatMap.mpr ⟨pair, member, by simp⟩))
    have offset := unpadded_of_not_padded (clean pair.2 (List.mem_flatMap.mpr ⟨pair, member, by simp⟩))
    rw [trimmed, index, offset]
    rfl

private theorem exists_spelled (read : decode text = .ok m) (paired : separator ∈ text.toList) :
    ∃ topic pairs, Sound topic pairs ∧ pairs ≠ [] ∧ text = spelled topic pairs ∧ m.entries = entriesOf topic pairs := by
  have spells := decode_ok_iff.mp ⟨m, read, rfl⟩
  generalize m.entries = entries at spells ⊢
  cases spells with
  | empty => cases paired
  | @pairs topic pairs sound =>
    refine ⟨topic, pairs, sound, ?_, rfl, rfl⟩
    rintro rfl
    exact sound.nameable.1 (by simpa [body] using paired)

/-- Ranges that stop where a text says are written as this text without superfluous zeros: so they give the text
    back exactly when it has none. The text that is written is read as the same offsets, in the same order. -/
theorem encode_decode (text : String) (m : OffsetMap) (read : decode text = .ok m) (paired : separator ∈ text.toList)
    (rs : List Range) (stops : (rs.map fun r => (r.partition, (r.stop : Int))) = m.entries) :
    encode rs = .ok (unpaddedText text) ∧
      (encode rs = .ok text ↔ ∀ ds ∈ numeralsOf text, ¬ Padded ds) ∧
      decode (unpaddedText text) = .ok m := by
  obtain ⟨topic, pairs, sound, some, rfl, entries⟩ := exists_spelled read paired
  have nonempty : rs ≠ [] := by
    rintro rfl
    rw [entries] at stops
    exact some (List.map_eq_nil_iff.mp stops.symm)
  have own : ∀ r ∈ rs, r.partition.topic = topic := by
    intro r member
    have entered := stop_mem stops.symm member
    rw [entries] at entered
    obtain ⟨pair, _, same⟩ := List.mem_map.mp entered
    exact (congrArg (·.1.topic) same).symm
  have stopped : RoundTrip.pairs rs = pairs.map fun pair => (Numeral.value pair.1, Numeral.value pair.2) := by
    rw [pairs_eq stops.symm, entries, entriesOf, List.map_map]
    rfl
  have text : write topic (RoundTrip.pairs rs) = unpaddedText (spelled topic pairs) := by
    rw [unpaddedText_spelled sound, spelled, write_eq, stopped, List.map_map, List.map_map]
    congr 3
    exact List.map_congr_left fun pair member => writePair_value (sound.arePairs pair member)
  have written : encode rs = .ok (unpaddedText (spelled topic pairs)) := by
    rw [← text]
    exact encode_own own nonempty sound.nameable fun r member => writable_of_read read _ (stop_mem stops.symm member)
  refine ⟨written, ?_, ?_⟩
  · rw [written, Except.ok.injEq]
    exact unpaddedText_eq_iff sound
  · have read' : ∃ m', decode (spelled topic (pairs.map trimmed)) = .ok m' ∧
        m'.entries = entriesOf topic (pairs.map trimmed) := decode_ok_iff.mpr (.pairs (sound_trimmed sound))
    obtain ⟨m', read', entries'⟩ := read'
    have same : m' = m := by
      refine OffsetMap.eq_of_entries ?_
      rw [entries', entries, entriesOf, entriesOf, List.map_map]
      refine List.map_congr_left fun pair _ => ?_
      simp [trimmed, value_unpadded]
    rw [unpaddedText_spelled sound, read', same]

/-- Ranges of two partitions, the later offset far behind its start. -/
def resumed : List Range := [⟨⟨"visités", 7⟩, 0, 0, by decide⟩, ⟨⟨"visités", 10⟩, 3, 4096, by decide⟩]

theorem encode_decode_padded : ∃ m, decode "visités,007:00,10:04096" = .ok m ∧
    separator ∈ "visités,007:00,10:04096".toList ∧
    (resumed.map fun r => (r.partition, (r.stop : Int))) = m.entries ∧
    encode resumed = .ok "visités,7:0,10:4096" ∧ decode "visités,7:0,10:4096" = .ok m ∧
    encode resumed ≠ .ok "visités,007:00,10:04096" := by
  obtain ⟨m, read, entries⟩ : ∃ m, decode "visités,007:00,10:04096" = .ok m ∧
      (resumed.map fun r => (r.partition, (r.stop : Int))) = m.entries := ⟨_, rfl, by decide +kernel⟩
  have paired : separator ∈ "visités,007:00,10:04096".toList := by decide
  obtain ⟨written, same, reread⟩ := encode_decode _ m read paired resumed entries
  have text : unpaddedText "visités,007:00,10:04096" = "visités,7:0,10:4096" := by decide +kernel
  rw [text] at written reread
  refine ⟨m, read, paired, entries, written, reread, fun kept => ?_⟩
  have numeral : ['0', '0', '7'] ∈ numeralsOf "visités,007:00,10:04096" := by decide +kernel
  exact same.mp kept _ numeral ⟨'0', ['7'], rfl⟩

end LogCursor.LeadingZeros
