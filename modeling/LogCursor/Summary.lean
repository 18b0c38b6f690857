import LogCursor.Checkpoint
/-!
The summary of a batch: how many records its ranges cover and the checkpoint to commit once they are
consumed.
-/
namespace LogCursor

structure Summary where
  total : Nat
  checkpoint : String
deriving DecidableEq

namespace Summary

def hasData (s : Summary) : Bool := 0 < s.total

def ofRanges (ranges : List Range) : Except Fault Summary := do
  return ⟨Range.total ranges, ← Checkpoint.encode ranges⟩

end Summary
end LogCursor
