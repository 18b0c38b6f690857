/-!
The two ends of a partition log.
-/
namespace LogCursor

/-- The two ends of a partition log; a reset strategy starts reading at one of them. -/
inductive Edge where
  | earliest
  | latest
deriving DecidableEq

namespace Edge

def name : Edge → String
  | .earliest => "earliest"
  | .latest => "latest"

def literal : Edge → String
  | .earliest => "<OffsetResetStrategy.EARLIEST: 'earliest'>"
  | .latest => "<OffsetResetStrategy.LATEST: 'latest'>"

end Edge
end LogCursor
