import LogCursor.OffsetMap
import LogCursor.Fault
import LogCursor.Numeral
/-!
Checkpoints. The text of a checkpoint is a topic, followed by pairs of partition index and offset; a comma
stands before each pair and a colon inside it. The offset says how far the partition has been read. The
empty text is no checkpoint at all and decodes to no offsets.
-/
namespace LogCursor.Checkpoint

/-- Stands before each pair. -/
def separator : Char := ','

/-- Stands between index and offset. -/
def pairSeparator : Char := ':'

/-- Text that can name the topic of a checkpoint. -/
def Nameable (topic : String) : Prop := separator ∉ topic.toList ∧ pairSeparator ∉ topic.toList

instance (topic : String) : Decidable (Nameable topic) :=
  inferInstanceAs (Decidable (_ ∧ _))

/-- The two numerals of a pair: two runs of digits, none of them empty, around a colon. -/
def numerals? (pair : List Char) : Option (List Char × List Char) :=
  match pair.splitOn pairSeparator with
  | [index, offset] =>
    if index ≠ [] ∧ offset ≠ [] ∧ index.all Numeral.isDigit ∧ offset.all Numeral.isDigit then
      some (index, offset)
    else none
  | _ => none

def number (ds : List Char) : Except Fault Nat :=
  if Numeral.limit < ds.length then .error (.overlongNumeral ds.length) else .ok (Numeral.value ds)

def addPair (text topic : String) (m : OffsetMap) (pair : List Char) : Except Fault OffsetMap :=
  match numerals? pair with
  | none => .error (.malformedPair (String.ofList pair) text)
  | some (indexDigits, offsetDigits) => do
    let index ← number indexDigits
    if m.contains ⟨topic, index⟩ then .error (.repeatedPartition index text)
    else
      let offset ← number offsetDigits
      return m.put ⟨topic, index⟩ offset

/-- The offsets of a checkpoint text; the first pair in error is the fault. -/
def decode (text : String) : Except Fault OffsetMap :=
  if text = "" then .ok ∅
  else
    match text.toList.splitOn separator with
    | [] => .ok ∅
    | topicChars :: pairs =>
      let topic := String.ofList topicChars
      if pairs ≠ [] ∧ topicChars = [] then .error (.checkpointWithoutTopic text)
      else if pairSeparator ∈ topicChars then .error (.checkpointTopic topic)
      else pairs.foldlM (addPair text topic) ∅

def writePair (index offset : Nat) : List Char :=
  Numeral.digits index ++ pairSeparator :: Numeral.digits offset

def write (topic : String) (pairs : List (Nat × Nat)) : String :=
  String.ofList ([separator].intercalate (topic.toList :: pairs.map fun p => writePair p.1 p.2))

def topics (ranges : List Range) : List String :=
  (ranges.map (·.partition.topic)).eraseDups.mergeSort fun a b => !(b < a : Bool)

/-- A range whose index or stop has no numeral. -/
def Unwritable (r : Range) : Prop := Numeral.Overlong r.partition.index ∨ Numeral.Overlong r.stop

instance (r : Range) : Decidable (Unwritable r) := inferInstanceAs (Decidable (_ ∨ _))

/-- The checkpoint that stands at the stop of every range. -/
def encode (ranges : List Range) : Except Fault String :=
  match ranges with
  | [] => .error .noRanges
  | first :: _ =>
    let topic := first.partition.topic
    if ranges.any (·.partition.topic ≠ topic) then .error (.mixedTopics (topics ranges))
    else if Nameable topic then
      if ranges.any (Unwritable ·) then .error .overlongNumber
      else .ok (write topic (ranges.map fun r => (r.partition.index, r.stop)))
    else .error (.unstorableTopic topic)

end LogCursor.Checkpoint
