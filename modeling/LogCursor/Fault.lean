import LogCursor.Title
/-!
Faults by their cause. Each cause has a kind, which tells a caller whether the same call can succeed later,
and one wording; where the wording shows a number that has no numeral, there is another fault in its place. A
collaborator may also raise a fault of its own, given by kind and message.
-/
namespace LogCursor

inductive Kind where
  | general
  | retryable
  | permanent
  | configuration
  | format
  | metadata
  | fetch
  | value
  | overflow
  | decoding
  | attribute
  | conversion
  | missingKey
  | outOfBounds
  | memory
  | recursion
  | connection
  | timeout
  | system
  | runtime
deriving DecidableEq

/-- What a caller can expect of a second attempt. -/
inductive Family where
  | retryable
  | permanent
  | general
  | foreign
deriving DecidableEq

/-- Broker and fetch failures may pass; configuration and checkpoint faults stay. -/
def Kind.family : Kind → Family
  | .retryable | .metadata | .fetch => .retryable
  | .permanent | .configuration | .format => .permanent
  | .general => .general
  | _ => .foreign

def Kind.isValue (k : Kind) : Bool := k == .value || k == .decoding

inductive Fault where
  | negativePartition (index : Int)
  | negativeStart (start : Int)
  | inverted (partition : Partition) (start stop : Int)
  | negativeBudget (budget : Int)
  | negativeHead (partition : Partition) (head : Int)
  | noRanges
  | mixedTopics (topics : List String)
  | overlongNumeral (count : Nat)
  | overlongNumber
  | checkpointWithoutTopic (text : String)
  | checkpointTopic (topic : String)
  | malformedPair (pair text : String)
  | repeatedPartition (index : Nat) (text : String)
  | unstorableTopic (topic : String)
  | foreignTopics (topics : List String) (topic : String)
  | foreignCheckpoint (topic : String)
  | missingTopic
  | separatorInTopic (topic : String)
  | unknownReset (value : Setting)
  | notWhole (value : Setting)
  | notPositive (cap : Int)
  | infiniteCap
  | unreadableFile (file reason : String)
  | notMapping (file : String)
  | endlessMerge
  | undecodable (first : UInt8) (start stop : Nat) (reason : String)
  | unknownLevel (value : Setting)
  | unknownFormat (value : Setting)
  | lacking (type member : String)
  | incomparable (left right : String)
  | unhashable (type : String)
  | missingEntry (key : Key)
  | noPartitionsWanted (count : Int)
  | topicExists (topic : String)
  | unknownTopic (topic : String)
  | unknownPartition (topic : String) (index : Int)
  | unfetchable (cause : Fault)
  | outsideRetained (range : Range) (start stop : Nat)
  | listingFailed (topic : String) (cause : Fault)
  | noPartitions (topic : String)
  | lookupFailed (edge : Edge) (topic : String) (cause : Fault)
  | resetFailed (edge : Edge) (cause : Fault)
  | offsetsOmitted (edge : Edge) (partitions : List Partition)
  | fetchFailed (topic : String) (cause : Fault)
  | raised (kind : Kind) (message : String)

namespace Fault

def kind : Fault → Kind
  | negativePartition _ | negativeStart _ | inverted .. | negativeBudget _ | negativeHead .. | noRanges
  | mixedTopics _ | overlongNumeral _ | overlongNumber | unknownLevel _ | unknownFormat _
  | noPartitionsWanted _ | topicExists _ => .value
  | checkpointWithoutTopic _ | checkpointTopic _ | malformedPair .. | repeatedPartition ..
  | unstorableTopic _ | foreignTopics .. | foreignCheckpoint _ => .format
  | missingTopic | separatorInTopic _ | unknownReset _ | notWhole _ | notPositive _ | unreadableFile ..
  | notMapping _ => .configuration
  | infiniteCap => .overflow
  | endlessMerge => .recursion
  | undecodable .. => .decoding
  | lacking .. => .attribute
  | incomparable .. | unhashable _ => .conversion
  | missingEntry _ => .missingKey
  | unknownTopic _ | unknownPartition .. | listingFailed .. | noPartitions _ | lookupFailed ..
  | resetFailed .. | offsetsOmitted .. => .metadata
  | unfetchable _ | outsideRetained .. | fetchFailed .. => .fetch
  | raised k _ => k

/-- The sentence about a numeral that is too long; it tells the count of digits where one was read. -/
def overlongSentence (count : Option Nat) : String :=
  "Exceeds the limit (" ++ toString Numeral.limit ++ " digits) for integer string conversion" ++
    (count.map fun n => ": value has " ++ toString n ++ " digits").getD "" ++
    "; use sys.set_int_max_str_digits() to increase the limit"

def byteText (b : UInt8) : String := "0x" ++ String.ofList (Text.hex 2 b.toNat)

/-- The bytes from a position up to another that are no text. -/
def bytesSentence (first : UInt8) (start stop : Nat) (reason : String) : String :=
  "'utf-8' codec can't decode " ++
    (if stop = start + 1 then "byte " ++ byteText first ++ " in position " ++ toString start
     else "bytes in position " ++ toString start ++ "-" ++ toString (stop - 1)) ++
    ": " ++ reason

def message : Fault → String
  | negativePartition i => "Partition index must be non-negative: " ++ toString i
  | negativeStart o => "from_offset must be non-negative: " ++ toString o
  | inverted p s e => "until_offset " ++ toString e ++ " is before from_offset " ++ toString s ++ " for " ++ p.name
  | negativeBudget b => "Event budget must be non-negative: " ++ toString b
  | negativeHead p h => "Negative head offset " ++ toString h ++ " for " ++ p.name
  | noRanges => "Cannot encode a checkpoint without any partition"
  | mixedTopics ts => "Checkpoint ranges span multiple topics: " ++ Text.quotedList ts
  | overlongNumeral n => overlongSentence (some n)
  | overlongNumber => overlongSentence none
  | checkpointWithoutTopic t => "Checkpoint has no topic name: " ++ Text.quoted t
  | checkpointTopic t => "Checkpoint topic " ++ Text.quoted t ++ " contains ':'"
  | malformedPair p t => "Malformed checkpoint pair " ++ Text.quoted p ++ " in " ++ Text.quoted t
  | repeatedPartition i t => "Partition " ++ toString i ++ " repeated in checkpoint " ++ Text.quoted t
  | unstorableTopic t => "Topic name " ++ Text.quoted t ++ " cannot be stored in a checkpoint"
  | foreignTopics ts t => "Checkpoint for topic " ++ Text.quotedList ts ++ " cannot resume topic " ++ t
  | foreignCheckpoint t => "Checkpoint does not belong to topic " ++ t
  | missingTopic => "Missing required property: source.topic"
  | separatorInTopic t => "source.topic " ++ Text.quoted t ++ " cannot contain ',' or ':'"
  | unknownReset v => "Auto reset value must be one of 'smallest' or 'largest', got " ++ v.literal
  | notWhole v => "source.max_events_per_cycle must be an integer, got " ++ v.literal
  | notPositive n => "source.max_events_per_cycle must be positive, got " ++ toString n
  | infiniteCap => "cannot convert float infinity to integer"
  | unreadableFile f reason => "Cannot load configuration file " ++ f ++ ": " ++ reason
  | notMapping f => "Configuration file " ++ f ++ " must contain a mapping"
  | endlessMerge => "maximum recursion depth exceeded"
  | undecodable b s e reason => bytesSentence b s e reason
  | unknownLevel v => "Unknown log level: " ++ v.plain
  | unknownFormat v => "Unknown log format: " ++ v.plain
  | lacking t a => "'" ++ t ++ "' object has no attribute '" ++ a ++ "'"
  | incomparable l r => "'<' not supported between instances of '" ++ l ++ "' and '" ++ r ++ "'"
  | unhashable t => "unhashable type: '" ++ t ++ "'"
  | missingEntry k => k.literal
  | noPartitionsWanted n => "Topic needs at least one partition: " ++ toString n
  | topicExists t => "Topic already exists: " ++ t
  | unknownTopic t => "Unknown topic: " ++ t
  | unknownPartition t i => "Unknown partition: " ++ t ++ "-" ++ toString i
  | unfetchable c => c.message
  | outsideRetained r s e =>
    "Range " ++ r.name ++ " outside retained offsets [" ++ toString s ++ "," ++ toString e ++ ")"
  | listingFailed t c => "Error obtaining partition metadata for " ++ t ++ ": " ++ c.message
  | noPartitions t => "Topic " ++ t ++ " has no partitions"
  | lookupFailed e t c => "Error fetching " ++ e.name ++ " offsets for " ++ t ++ ": " ++ c.message
  | resetFailed e c => "Error fetching " ++ e.name ++ " offsets: " ++ c.message
  | offsetsOmitted e ps =>
    "Broker returned no " ++ e.name ++ " offset for " ++ Text.quotedList (ps.map Partition.name)
  | fetchFailed t c => "Error fetching records for " ++ t ++ ": " ++ c.message
  | raised .missingKey m => Text.quoted m
  | raised _ m => m

/-- The numbers that the wording of a cause shows, apart from those that were read from a numeral. -/
def numbers : Fault → List Int
  | negativePartition i => [i]
  | negativeStart o => [o]
  | inverted p s e => [e, s, p.index]
  | negativeBudget b => [b]
  | negativeHead p h => [h, p.index]
  | notPositive n => [n]
  | noPartitionsWanted n => [n]
  | unknownPartition _ i => [i]
  | outsideRetained r s e => [r.partition.index, r.start, r.stop, s, e]
  | offsetsOmitted _ ps => ps.map fun p => (p.index : Int)
  | _ => []

/-- The fault that comes of putting a cause into words. -/
def worded (f : Fault) : Fault := if f.numbers.any (Numeral.Overlong ·) then overlongNumber else f

theorem worded_eq {f : Fault} (short : ∀ n ∈ f.numbers, ¬ Numeral.Overlong n) : f.worded = f :=
  if_neg (by simpa using short)

theorem worded_overlong {f : Fault} {n : Int} (member : n ∈ f.numbers) (overlong : Numeral.Overlong n) :
    f.worded = overlongNumber :=
  if_pos (List.any_eq_true.mpr ⟨n, member, decide_eq_true overlong⟩)

/-- A fault as it is shown where a topic has a title. -/
def titled (t : Title) : Fault → Fault
  | negativeHead p h => negativeHead (t.partition p) h
  | unknownTopic name => unknownTopic (t.topic name)
  | unknownPartition name i => unknownPartition (t.topic name) i
  | unfetchable c => unfetchable (titled t c)
  | outsideRetained r s e => outsideRetained (t.range r) s e
  | listingFailed name c => listingFailed name (titled t c)
  | lookupFailed e name c => lookupFailed e name (titled t c)
  | resetFailed e c => resetFailed e (titled t c)
  | offsetsOmitted e ps => offsetsOmitted e (ps.map t.partition)
  | fetchFailed name c => fetchFailed name (titled t c)
  | f => f

end Fault
end LogCursor
