import LogCursor.Allocation
import LogCursor.Client
import LogCursor.Retention
import LogCursor.Source
import LogCursor.Summary
/-!
The polling cycle. A cycle lists the partitions of its topic, finds where each of them starts, looks up the
heads, allocates the budget and sums up; a poll then fetches the records unless there is nothing new. A
fault of the client is passed on when it has the kind of the stage and is wrapped otherwise.
-/
namespace LogCursor

/-- What has happened when a computation over a client ends. -/
structure Trace (σ α : Type) where
  outcome : Outcome α
  calls : List Call
  state : σ

def Cycle (σ α : Type) := σ → Trace σ α

namespace Cycle
variable {σ α β : Type}

def ok (a : α) : Cycle σ α := fun s => ⟨.ok a, [], s⟩

def lift (x : Outcome α) : Cycle σ α := fun s => ⟨x, [], s⟩

/-- Goes on with the value, if there is one. -/
def andThen (x : Cycle σ α) (f : α → Cycle σ β) : Cycle σ β := fun s =>
  let first := x s
  match first.outcome.result with
  | .error e => ⟨⟨first.outcome.notices, .error e⟩, first.calls, first.state⟩
  | .ok a =>
    let second := f a first.state
    ⟨⟨first.outcome.notices ++ second.outcome.notices, second.outcome.result⟩,
      first.calls ++ second.calls, second.state⟩

instance : Monad (Cycle σ) where
  pure := ok
  bind := andThen

/-- Apart from notices and calls, computations follow one another as their results do. -/
theorem result_bind (x : Cycle σ α) (f : α → Cycle σ β) (s : σ) :
    ((x >>= f) s).outcome.result =
      (x s).outcome.result >>= fun a => (f a (x s).state).outcome.result := by
  show (andThen x f s).outcome.result = _
  cases result : (x s).outcome.result <;> simp only [andThen, result] <;> rfl

def say (n : Notice) : Cycle σ Unit := lift (Outcome.say n)

def fail (f : Fault) : Cycle σ α := lift (.fail f)

/-- One call, whose fault is wrapped unless it has the given kind. -/
def call (c : Call) (answer : σ → Outcome α × σ) (kind : Kind) (wrap : Fault → Fault) : Cycle σ α :=
  fun s =>
    let (x, s') := answer s
    let result := match x.result with
      | .ok a => .ok a
      | .error e => .error (if e.kind = kind then e else wrap e)
    ⟨⟨x.notices, result⟩, [c], s'⟩

def list (client : Client σ) (topic : Title) : Cycle σ (List Partition) := do
  let ps ← call (.listPartitions topic.name) (client.listPartitions topic.name) .metadata
    (.listingFailed topic.shown)
  if ps.isEmpty then fail (.noPartitions topic.shown)
  else return ps.eraseDups.mergeSort Partition.precedes

/-- The offsets of exactly the given partitions, taken from a larger answer. -/
def select (m : OffsetMap) (ps : List Partition) : OffsetMap :=
  .ofList (ps.filterMap fun p => (m.get? p).map fun o => (p, o))

def omitted (m : OffsetMap) (ps : List Partition) : List Partition := ps.filter fun p => !m.contains p

def lookup (client : Client σ) (topic : Title) (edge : Edge) (ps : List Partition) :
    Cycle σ OffsetMap := do
  let m ← call (.offsets edge ps) (client.offsets edge ps) .metadata (.lookupFailed edge topic.shown)
  let missing := omitted m ps
  if missing.isEmpty then return select m ps else fail (Fault.offsetsOmitted edge missing).worded

/-- The offset at which each partition starts without a checkpoint. -/
def resolve (client : Client σ) (edge : Edge) (partitions : List Partition) : Cycle σ OffsetMap := do
  let ps := partitions.eraseDups
  let m ← call (.offsets edge ps) (client.offsets edge ps) .metadata (.resetFailed edge)
  let missing := (omitted m ps).mergeSort Partition.precedesByName
  if missing.isEmpty then
    say (.resetResolved edge ps.length)
    return select m ps
  else fail (Fault.offsetsOmitted edge missing).worded

def resume (topic : Title) (checkpoint : String) : Except Fault OffsetMap := do
  let m ← Checkpoint.decode checkpoint
  let foreign := (m.partitions.map (·.topic)).filter (· ≠ topic.name)
  if foreign.isEmpty then return m
  else throw (.foreignTopics (foreign.eraseDups.mergeSort fun a b => !(b < a : Bool)) topic.shown)

/-- The offset at which each partition starts: from the checkpoint, moved past what retention has dropped,
or by the reset strategy. -/
def starts (client : Client σ) (source : Source) (checkpoint : Option String) (ps : List Partition) :
    Cycle σ OffsetMap := do
  if Reset.IsDue checkpoint then resolve client source.edge ps
  else
    let m ← lift (.ofExcept (resume source.title (checkpoint.getD "")))
    let earliest ← lookup client source.title .earliest ps
    lift (Retention.advanceReported m earliest)

/-- The budget of a cycle: the smaller of cap and limit, and never below zero. -/
def budget (source : Source) (limit : Int) : Int := max 0 (min source.cap limit)

theorem budget_nonneg (source : Source) (limit : Int) : 0 ≤ budget source limit := Int.le_max_left _ _

/-- The ranges of the next batch with their summary, without reading them. -/
def plan (client : Client σ) (source : Source) (checkpoint : Option String) (limit : Int) :
    Cycle σ (List Range × Summary) := do
  let ps ← list client source.title
  let starts ← starts client source checkpoint ps
  let heads ← lookup client source.title .latest ps
  let ranges ← lift (Allocation.allocate starts heads (budget source limit))
  let summary ← lift (.ofExcept (Summary.ofRanges ranges))
  return (ranges, summary)

def fetch (client : Client σ) (topic : Title) (ranges : List Range) : Cycle σ (List Record) :=
  call (.fetch ranges) (client.fetch ranges) .fetch (.fetchFailed topic.shown)

/-- One cycle: the new records, if there are any, and the checkpoint to commit after them. -/
def poll (client : Client σ) (source : Source) (checkpoint : Option String) (limit : Int) :
    Cycle σ (Option (List Record) × String) := do
  let (ranges, summary) ← plan client source checkpoint limit
  if summary.hasData then
    say (.reading source.title summary.total ranges.length)
    let records ← fetch client source.title ranges
    return (some records, summary.checkpoint)
  else
    say (.noNewData source.title)
    return (none, summary.checkpoint)

end Cycle
end LogCursor
