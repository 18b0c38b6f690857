import LogCursor.Allocation
import LogCursor.Retention
import LogCursor.Summary
/-!
Draining towards fixed heads. A step goes from one checkpoint to the next without a broker: it moves past
what retention has dropped, allocates a budget and sums up. Steps in a row feed each checkpoint to the next
one and stop at the first fault.
-/
namespace LogCursor.Drain

def step (heads earliest : OffsetMap) (checkpoint : String) (budget : Int) :
    Outcome (List Range × Summary) := do
  let starts ← Outcome.ofExcept (Checkpoint.decode checkpoint)
  let moved ← Retention.advanceReported starts earliest
  let ranges ← Allocation.allocate moved heads budget
  let summary ← Outcome.ofExcept (Summary.ofRanges ranges)
  return (ranges, summary)

def run (heads earliest : OffsetMap) : String → List Int → Outcome (List (List Range × Summary))
  | _, [] => return []
  | checkpoint, budget :: rest => do
    let batch ← step heads earliest checkpoint budget
    let later ← run heads earliest batch.2.checkpoint rest
    return batch :: later

end LogCursor.Drain
