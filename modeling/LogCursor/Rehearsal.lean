import LogCursor.Client
/-!
Rehearsals: a broker some of whose answers are prescribed, to see how a cycle copes. A prescribed operation
neither reads the broker nor reports, except that an answer with omissions is the true answer cut down.
-/
namespace LogCursor

inductive Prescribed (α : Type) where
  | fail (fault : Fault)
  | give (answer : α)
  | leaveOut (partitions : Except Fault (List Partition))

structure Script where
  listPartitions : Option (Prescribed (List Partition)) := none
  earliest : Option (Prescribed OffsetMap) := none
  latest : Option (Prescribed OffsetMap) := none
  fetch : Option (Prescribed (List Record)) := none

namespace Script

def offsets (s : Script) : Edge → Option (Prescribed OffsetMap)
  | .earliest => s.earliest
  | .latest => s.latest

def without (m : OffsetMap) (ps : List Partition) : OffsetMap :=
  .ofList (m.entries.filter fun entry => !ps.contains entry.1)

def answer {α : Type} (prescribed : Option (Prescribed α)) (cut : α → List Partition → α)
    (truth : Outcome α) : Outcome α :=
  match prescribed with
  | none => truth
  | some (.fail f) => .fail f
  | some (.give a) => .ok a
  | some (.leaveOut ps) => ⟨truth.notices, do return cut (← truth.result) (← ps)⟩

def client (s : Script) : Client Broker where
  listPartitions topic b :=
    (answer s.listPartitions (fun ps _ => ps) (.ofExcept (b.listPartitions topic)), b)
  offsets edge ps b := (answer (s.offsets edge) without (.ofExcept (b.offsets edge ps)), b)
  fetch ranges b := (answer s.fetch (fun rs _ => rs) (b.fetchReported ranges), b)

end Script
end LogCursor
