import LogCursor.Cycle
import LogCursor.Rehearsal
/-!
Sessions: one broker, the script it is under, at most one source, and the checkpoint that was committed
last. Each command gives a reply or a fault with what was reported and called on the way; a fault changes
nothing but, for a new source, drops the one before.
-/
namespace LogCursor

inductive Resumption where
  | given (checkpoint : Option String)
  | committed

inductive Command where
  | createTopic (topic : String) (partitions : Int)
  | addPartitions (topic : String) (count : Int)
  | truncate (topic : String) (partition before : Int)
  | append (topic : String) (partition : Int) (value : Bytes) (key : Option Bytes) (timestamp : Int)
  | fill (topic : String) (partition : Int) (count : Nat)
  | listPartitions (topic : String)
  | offsets (edge : Edge) (partitions : List Partition)
  | fetch (ranges : List Range)
  | resolve (partitions : List Partition) (strategy : Setting)
  | prescribe (change : Script → Script)
  | openSource (topic reset cap : Setting)
  | plan (resumption : Resumption) (limit : Int)
  | poll (resumption : Resumption) (limit : Int) (commit : Bool)

inductive Reply where
  | done
  | offset (o : Nat)
  | lastOffset (o : Option Nat)
  | partitions (ps : List Partition)
  | offsets (m : OffsetMap)
  | records (rs : List Record)
  | source (topic : String)
  | plan (ranges : List Range) (summary : Summary)
  | poll (records : Option (List Record)) (checkpoint : String)
  | noSource

structure Session where
  broker : Broker := ∅
  script : Script := {}
  source : Option Source := none
  committed : Option String := none

namespace Session

def checkpoint (s : Session) : Resumption → Option String
  | .given c => c
  | .committed => s.committed

/-- A change of the broker alone. -/
def change (s : Session) (r : Except Fault (Broker × Reply × List Notice)) : Trace Session Reply :=
  match r with
  | .ok (b, reply, notices) => ⟨⟨notices, .ok reply⟩, [], { s with broker := b }⟩
  | .error e => ⟨.fail e, [], s⟩

/-- An answer of the client, which leaves the session as it is. -/
def answer {α : Type} (s : Session) (x : Outcome α) (reply : α → Reply) : Trace Session Reply :=
  ⟨⟨x.notices, x.result.map reply⟩, [], s⟩

def filler (i : Nat) : Bytes := (String.toUTF8 ("e" ++ toString i)).toList

def fill (b : Broker) (topic : String) (partition : Int) (count : Nat) :
    Except Fault (Broker × Option Nat) :=
  (List.range count).foldlM (fun state i => do
    let (b', o) ← state.1.append topic partition (filler i) none i
    return (b', some o)) (b, none)

/-- A cycle of the session's source, if it has one. The partitions that the broker lists go by the title of
the topic. -/
def cycle {α : Type} (s : Session) (run : Source → Cycle Broker α) (reply : α → Reply) :
    Trace Session Reply :=
  match s.source with
  | none => ⟨.ok .noSource, [], s⟩
  | some source =>
    let t := run source s.broker
    let x := if s.script.listPartitions.isNone then t.outcome.titled source.title else t.outcome
    ⟨⟨x.notices, x.result.map reply⟩, t.calls, { s with broker := t.state }⟩

def step (s : Session) : Command → Trace Session Reply
  | .createTopic topic count =>
    s.change ((s.broker.createTopic topic count).map fun (b, n) => (b, .done, [n]))
  | .addPartitions topic count =>
    s.change ((s.broker.addPartitions topic count).map fun (b, n) => (b, .done, [n]))
  | .truncate topic partition before =>
    s.change ((s.broker.truncate topic partition before).map fun (b, n) => (b, .done, n.toList))
  | .append topic partition value key timestamp =>
    s.change ((s.broker.append topic partition value key timestamp).map fun (b, o) => (b, .offset o, []))
  | .fill topic partition count =>
    s.change ((fill s.broker topic partition count).map fun (b, o) => (b, .lastOffset o, []))
  | .listPartitions topic =>
    s.answer (s.script.client.listPartitions topic s.broker).1 fun ps =>
      .partitions (ps.eraseDups.mergeSort Partition.precedesByTopic)
  | .offsets edge ps => s.answer (s.script.client.offsets edge ps s.broker).1 .offsets
  | .fetch ranges => s.answer (s.script.client.fetch ranges s.broker).1 .records
  | .resolve ps strategy =>
    match Reset.parse strategy with
    | .error e => ⟨.fail e, [], s⟩
    | .ok edge =>
      let t := Cycle.resolve s.script.client edge ps s.broker
      ⟨⟨t.outcome.notices, t.outcome.result.map .offsets⟩, t.calls, { s with broker := t.state }⟩
  | .prescribe change => ⟨.ok .done, [], { s with script := change s.script }⟩
  | .openSource topic reset cap =>
    match Source.make topic reset cap with
    | .error e => ⟨.fail e, [], { s with source := none }⟩
    | .ok source =>
      ⟨⟨[.sourceReady source.title source.edge source.cap], .ok (.source source.topic)⟩, [],
        { s with source := some source }⟩
  | .plan resumption limit =>
    s.cycle (fun source => Cycle.plan s.script.client source (s.checkpoint resumption) limit)
      fun (ranges, summary) => .plan ranges summary
  | .poll resumption limit commit =>
    let t := s.cycle (fun source => Cycle.poll s.script.client source (s.checkpoint resumption) limit)
      fun (records, next) => .poll records next
    match commit, t.outcome.result with
    | true, .ok (.poll _ next) => { t with state := { t.state with committed := some next } }
    | _, _ => t

end Session
end LogCursor
