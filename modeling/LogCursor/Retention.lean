import LogCursor.OffsetMap
import LogCursor.Outcome
/-!
Retention. Records below the earliest retained offset are gone, so a start below it moves up to it; a
partition without an offset starts at zero and is entered only when it has to move. Every move is a
warning.
-/
namespace LogCursor.Retention

/-- Moves one partition up to its earliest retained offset and reports the move. -/
def visit (starts : OffsetMap) (p : Partition) (earliest : Int) : Outcome OffsetMap :=
  if starts.offset p < earliest then do
    Outcome.say (.behindEarliest p (starts.offset p) earliest)
    return starts.put p earliest
  else return starts

/-- Moves every partition up to its earliest retained offset and reports the moves. -/
def advanceReported (starts earliest : OffsetMap) : Outcome OffsetMap :=
  earliest.entries.foldlM (fun m entry => visit m entry.1 entry.2) starts

end LogCursor.Retention
