import LogCursor.Outcome
import LogCursor.Partition.Checked
/-!
Allocation of a budget to the partitions that have unread records. The budget is dealt in rounds: each
round divides what is left by the number of lanes that are not yet closed, rounds the share up, and serves
the lanes in order until nothing is left; a lane closes when it reaches its head. What a closed lane leaves
over goes to the rest in the next round.
-/
namespace LogCursor.Allocation

/-- One partition while the budget is dealt: what it has been given so far, within its backlog. -/
structure Lane where
  partition : Partition
  start : Int
  given : Nat
  head : Int
  closed : Bool
  within : start + given ≤ head

namespace Lane

def backlog (l : Lane) : Nat := (l.head - (l.start + l.given)).toNat

def range (l : Lane) : Except Fault Range := Range.of l.partition l.start (l.start + l.given)

/-- Gives an open lane up to the granted number of records and closes it at its head. -/
def serve (l : Lane) (grant : Nat) : Lane :=
  if l.closed then l
  else
    { l with
      given := l.given + min grant l.backlog
      closed := l.backlog ≤ grant
      within := by have := l.within; unfold backlog; omega }

end Lane

def given (lanes : List Lane) : Nat := lanes.foldr (fun l n => l.given + n) 0

def openCount (lanes : List Lane) : Nat := lanes.countP (!·.closed)

/-- Serves the lanes in order, each up to a share and up to what is left. -/
def serveAll (share : Nat) : Nat → List Lane → List Lane
  | _, [] => []
  | left, l :: rest =>
    let served := l.serve (min share left)
    served :: serveAll share (left - (served.given - l.given)) rest

def share (left lanes : Nat) : Nat := (left + lanes - 1) / lanes

def round (budget : Nat) (lanes : List Lane) : List Lane :=
  let left := budget - given lanes
  serveAll (share left (openCount lanes)) left lanes

/-- The budget is spent or every lane is closed. -/
def Settled (budget : Nat) (lanes : List Lane) : Prop := budget ≤ given lanes ∨ openCount lanes = 0

instance (budget : Nat) (lanes : List Lane) : Decidable (Settled budget lanes) :=
  inferInstanceAs (Decidable (_ ∨ _))

/-- Deals rounds until the lanes are settled, at most the given number of them. -/
def deal (budget : Nat) : Nat → List Lane → List Lane
  | 0, lanes => lanes
  | rounds + 1, lanes => if Settled budget lanes then lanes else deal budget rounds (round budget lanes)

/-- The offset a partition is read from: where it was left off, but not past its head. -/
def startOf (starts : OffsetMap) (p : Partition) (head : Int) : Int := min (starts.offset p) head

def laneOf (starts : OffsetMap) (p : Partition) (head : Int) : Lane :=
  ⟨p, startOf starts p head, 0, head, false, by unfold startOf; omega⟩

def inOrder (heads : OffsetMap) : List (Partition × Int) :=
  heads.entries.mergeSort fun a b => a.1.precedes b.1

def lanesOf (starts heads : OffsetMap) : List Lane :=
  (inOrder heads).map fun entry => laneOf starts entry.1 entry.2

/-- Refuses a head below zero and reports a start ahead of its head. -/
def check (starts : OffsetMap) (p : Partition) (head : Int) : Outcome Unit :=
  if head < 0 then .fail (Fault.negativeHead p head).worded
  else if head < starts.offset p then Outcome.say (.aheadOfHead p (starts.offset p) head)
  else .ok ⟨⟩

/-- The ranges to read, one for each head, with a warning for each start ahead of its head. -/
def compute (starts heads : OffsetMap) (budget : Int) : Outcome (List Range) :=
  if budget < 0 then .fail (Fault.negativeBudget budget).worded
  else do
    heads.entries.forM fun entry => check starts entry.1 entry.2
    let lanes := lanesOf starts heads
    Outcome.ofExcept ((deal budget.toNat lanes.length lanes).mapM Lane.range)

/-- The partitions that have a head but no start, in ascending order of their names. -/
def newPartitions (starts heads : OffsetMap) : List Partition :=
  (heads.partitions.filter fun p => !starts.contains p).mergeSort Partition.precedesByName

def allocate (starts heads : OffsetMap) (budget : Int) : Outcome (List Range) := do
  let ranges ← compute starts heads budget
  let fresh := newPartitions starts heads
  if fresh ≠ [] ∧ starts.isEmpty = false then Outcome.say (.newPartitions fresh)
  Outcome.say (.allocated ranges.length budget (Range.total ranges))
  return ranges

end LogCursor.Allocation
