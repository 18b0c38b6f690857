import LogCursor.Broker
import LogCursor.Outcome
/-!
Clients: what a cycle needs of the outside world. A client lists the partitions of a topic, looks up the
offsets at either end of their logs and fetches the records of ranges. Its answers may depend on a state of
its own, so a client can stand for a broker that others change between two calls.
-/
namespace LogCursor

inductive Call where
  | listPartitions (topic : String)
  | offsets (edge : Edge) (partitions : List Partition)
  | fetch (ranges : List Range)
deriving DecidableEq

def Call.operation : Call → String
  | .listPartitions _ => "list_partitions"
  | .offsets .earliest _ => "earliest_offsets"
  | .offsets .latest _ => "latest_offsets"
  | .fetch _ => "fetch"

structure Client (σ : Type) where
  listPartitions : String → σ → Outcome (List Partition) × σ
  offsets : Edge → List Partition → σ → Outcome OffsetMap × σ
  fetch : List Range → σ → Outcome (List Record) × σ

namespace Broker

def fetchReported (b : Broker) (ranges : List Range) : Outcome (List Record) :=
  match b.fetch ranges with
  | .ok (records, notice) => ⟨[notice], .ok records⟩
  | .error e => .fail e

/-- The client of a broker that answers from its current state. -/
def client : Client Broker where
  listPartitions topic b := (.ofExcept (b.listPartitions topic), b)
  offsets edge ps b := (.ofExcept (b.offsets edge ps), b)
  fetch ranges b := (b.fetchReported ranges, b)

end Broker
end LogCursor
