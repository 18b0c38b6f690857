import LogCursor.Cycle
import LogCursor.Json
/-!
Planning without a broker. Heads, retained offsets and the checkpoint are given as text, in the form of the
pairs of a checkpoint; the plan is the batch that the next cycle over such a topic would read.
-/
namespace LogCursor

/-- How many records are asked for: as many as the source allows, a number, or a list, which is none. -/
inductive Budget where
  | ofSource
  | count (n : Int)
  | list
deriving DecidableEq

structure Request where
  heads : String
  checkpoint : String := ""
  earliest : String := ""
  budget : Budget := .ofSource

structure Plan where
  topic : String
  budget : Int
  ranges : List Range
  summary : Summary

namespace Planner

def offsets (topic pairs : String) : Except Fault OffsetMap :=
  if pairs = "" then .ok ∅ else Checkpoint.decode (topic ++ Checkpoint.separator.toString ++ pairs)

/-- The earliest retained offset of every partition that has a head, zero where none is given. -/
def retained (heads earliest : OffsetMap) : OffsetMap :=
  .ofList (heads.partitions.map fun p => (p, earliest.offset p))

def resume (topic checkpoint : String) : Except Fault OffsetMap := do
  let m ← Checkpoint.decode checkpoint
  if m.partitions.any (·.topic ≠ topic) then throw (.foreignCheckpoint topic)
  return m

/-- The offset at which each partition starts: from the checkpoint, moved past what retention has dropped,
or by the reset strategy. -/
def starts (source : Source) (checkpoint : String) (heads earliest : OffsetMap) : Outcome OffsetMap := do
  if Reset.IsDue (some checkpoint) then
    match source.edge with
    | .earliest => return retained heads earliest
    | .latest => return heads
  else
    let m ← Outcome.ofExcept (resume source.topic checkpoint)
    Retention.advanceReported m (retained heads earliest)

/-- The budget of a cycle: the smaller of the cap and what is asked for, and never below zero. -/
def budget (source : Source) : Budget → Except Fault Int
  | .ofSource => .ok (Cycle.budget source source.cap)
  | .count n => .ok (Cycle.budget source n)
  | .list => .error (.incomparable "list" "int")

def plan (source : Source) (r : Request) : Outcome Plan := do
  let heads ← Outcome.ofExcept (offsets source.topic r.heads)
  let earliest ← Outcome.ofExcept (offsets source.topic r.earliest)
  let first ← starts source r.checkpoint heads earliest
  let budget ← Outcome.ofExcept (budget source r.budget)
  let ranges ← Allocation.allocate first heads budget
  let summary ← Outcome.ofExcept (Summary.ofRanges ranges)
  return ⟨source.topic, budget, ranges, summary⟩

end Planner

namespace Plan

def ofRange (r : Range) : Setting := .map [
  (.text "partition", .int r.partition.index),
  (.text "from_offset", .int r.start),
  (.text "until_offset", .int r.stop),
  (.text "count", .int r.count)]

def toSetting (p : Plan) : Setting := .map [
  (.text "topic", .text p.topic),
  (.text "event_budget", .int p.budget),
  (.text "ranges", .list (p.ranges.map ofRange)),
  (.text "total_events", .int p.summary.total),
  (.text "has_data", .bool p.summary.hasData),
  (.text "next_checkpoint", .text p.summary.checkpoint)]

/-- The text of a plan, unless one of its numbers has none. -/
def text (p : Plan) : Except Fault String :=
  if p.toSetting.unwritable then .error .overlongNumber else .ok (Json.page 0 p.toSetting)

end Plan
end LogCursor
