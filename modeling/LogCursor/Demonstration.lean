import LogCursor.Planner.Command
/-!
A demonstration: a topic in memory with one busy and two quieter partitions is read cycle by cycle, and
every checkpoint is committed after its batch, until there is nothing new.
-/
namespace LogCursor

namespace Cycle

/-- Polls from a checkpoint, each time from the one before, until there is nothing new; at most the given
number of times. -/
def pollAll {σ : Type} (client : Client σ) (source : Source) (limit : Int) :
    Nat → Option String → Cycle σ (List (Option (List Record) × String))
  | 0, _ => return []
  | fuel + 1, checkpoint => do
    let batch ← poll client source checkpoint limit
    match batch.1 with
    | none => return [batch]
    | some _ => return batch :: (← pollAll client source limit fuel (some batch.2))

end Cycle

namespace Demonstration
open CommandLine (Interface Reading)

def interface : Interface where
  program := "ingest_example.py"
  flags := [
    CommandLine.helpFlag,
    { names := ["--topic"], operand := .text },
    { names := ["--limit"], operand := .whole }]
  commands := []

def defaultTopic : String := "test-topic"

def defaultLimit : Int := 25

def sizes : List Nat := [60, 15, 3]

/-- More cycles than there are records to read. -/
def enoughCycles : Nat := sizes.foldr (· + ·) 1

def value (partition sequence : Nat) : Bytes :=
  (Json.line (.map [(.text "partition", .int partition), (.text "seq", .int sequence)])).toUTF8.toList

def broker (topic : String) : Except Fault Broker := do
  let (b, _) ← (∅ : Broker).createTopic topic sizes.length
  sizes.zipIdx.foldlM (fun b (size, partition) =>
    (List.range size).foldlM (fun b i => do
      let (b, _) ← b.append topic partition (value partition i) none 0
      return b) b) b

def counts (records : List Record) : List (Int × Nat) :=
  records.foldl (fun m r => Assoc.put r.partition ((Assoc.get? r.partition m).getD 0 + 1) m) []

def cycleLines (number : Nat) (batch : Option (List Record) × String) : List String :=
  let title := "Cycle " ++ toString number ++ ": "
  match batch.1 with
  | none => [title ++ "no new data, checkpoint " ++ batch.2]
  | some records =>
    let shown := (Setting.map ((counts records).map fun entry => (.int entry.1, .int entry.2))).literal
    [title ++ "read " ++ toString records.length ++ " events " ++ shown, "  committed " ++ batch.2]

def lines (batches : List (Option (List Record) × String)) : List String :=
  (batches.zipIdx.map fun (batch, i) => cycleLines (i + 1) batch).flatten

/-- The topic that the arguments name; a list names none. -/
def topicOf (r : Reading) : Except Fault String :=
  match r.value? "--topic" with
  | some (.text s) => .ok s
  | some other => .error (.unhashable other.typeName)
  | none => .ok defaultTopic

/-- How many records a cycle reads at most; a list is not compared with numbers. -/
def limitOf (r : Reading) : Except Fault Int :=
  match r.value? "--limit" with
  | some (.int n) => .ok n
  | some other => .error (.incomparable other.typeName "int")
  | none => .ok defaultLimit

def run (time : String) (arguments : List String) : Except Fault Report :=
  match interface.parse arguments with
  | .error stop => .ok (.ofStop stop)
  | .ok r => do
    let log ← Log.make (.text "WARNING") (.text "console") .null
    let topic ← topicOf r
    let b ← broker topic
    let source ← Source.make (.text topic) (.edge .earliest) (.int Source.defaultCap)
    let limit ← limitOf r
    let t := Cycle.pollAll Broker.client source limit enoughCycles none b
    let batches ← t.outcome.result
    return ⟨0, lines batches, log.lines time (t.outcome.notices.map Notice.entry)⟩

end Demonstration
end LogCursor
