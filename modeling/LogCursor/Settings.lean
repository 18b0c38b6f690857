import LogCursor.Fault
import LogCursor.Setting.Laying
import LogCursor.Setting.Unfolding
/-!
Nested settings. The settings are a mapping among cells, which may also hold whatever else is at hand. A dotted
path names a value by the keys on the way to it. Setting a path files a value where the path leads, by its
number if it is a collection, and replaces whatever stands in the way by mappings. Merging lays a mapping over
a copy of another one: where both have a mapping these are merged in turn, and elsewhere the upper value wins.
-/
namespace LogCursor

/-- The segments of a dotted path; there is always one at least. -/
def segments (path : String) : List String :=
  (path.toList.splitOn '.').map String.ofList

namespace Cells

/-- The number of a strand that is a mapping. -/
def mapping? (cells : Cells) : Strand → Option Nat
  | .inner n => if (cells.entries? n).isSome then some n else none
  | _ => none

def child? (cells : Cells) (n : Nat) (key : Key) : Option Strand := (cells.entries? n).bind (Assoc.get? key)

def find? (cells : Cells) : List String → Strand → Option Strand
  | [], v => some v
  | x :: rest, v => (cells.mapping? v).bind fun n => (cells.child? n (.text x)).bind (cells.find? rest)

def put (cells : Cells) (n : Nat) (key : Key) (v : Strand) : Cells :=
  match cells.entries? n with
  | some entries => Assoc.put n (.map (Assoc.put key v entries)) cells
  | none => cells

/-- Goes to the mapping under a key of another one; what is no mapping there is replaced by a new one. -/
def enter (cells : Cells) (n : Nat) (key : Key) : Cells × Nat :=
  match (cells.child? n key).bind cells.mapping? with
  | some m => (cells, m)
  | none =>
    let (cells, m) := cells.add (.map [])
    (cells.put n key (.inner m), m)

def file (v : Strand) : List String → Nat → Cells → Cells
  | [], _, cells => cells
  | [x], n, cells => cells.put n (.text x) v
  | x :: rest, n, cells =>
    let (cells, m) := cells.enter n (.text x)
    file v rest m cells

theorem enter_some {cells : Cells} {n m : Nat} {key : Key}
    (mapping : (cells.child? n key).bind cells.mapping? = some m) : cells.enter n key = (cells, m) := by
  rw [enter, mapping]

theorem enter_none {cells : Cells} {n : Nat} {key : Key}
    (mapping : (cells.child? n key).bind cells.mapping? = none) : cells.enter n key =
      (Cells.put (cells ++ [(cells.fresh, .map [])]) n key (.inner cells.fresh), cells.fresh) := by
  rw [enter, mapping]
  rfl

theorem file_one (v : Strand) (x : String) (n : Nat) (cells : Cells) : file v [x] n cells = cells.put n (.text x) v := by
  rw [file]

theorem file_cons (v : Strand) (x y : String) (rest : List String) (n : Nat) (cells : Cells) :
    file v (x :: y :: rest) n cells =
      file v (y :: rest) (cells.enter n (.text x)).2 (cells.enter n (.text x)).1 := by
  rw [file]
  nofun

/-- Lays an entry over those of a mapping: two mappings are merged by the given function. -/
def overlay (merge : Cells → Nat → Nat → Option (Cells × Nat)) (state : Cells × List (Key × Strand))
    (entry : Key × Strand) : Option (Cells × List (Key × Strand)) :=
  let (cells, entries) := state
  match (Assoc.get? entry.1 entries).bind cells.mapping?, cells.mapping? entry.2 with
  | some below, some above => (merge cells below above).map fun (cells, n) => (cells, Assoc.put entry.1 (.inner n) entries)
  | _, _ => some (cells, Assoc.put entry.1 entry.2 entries)

/-- Lays a mapping over a copy of another one, at most so many levels deep. -/
def merge : Nat → Cells → Nat → Nat → Option (Cells × Nat)
  | 0, _, _, _ => none
  | fuel + 1, cells, lower, upper => do
    let (cells, entries) ← ((cells.entries? upper).getD []).foldlM (overlay (merge fuel))
      (cells, (cells.entries? lower).getD [])
    return cells.add (.map entries)

theorem merge_succ (fuel : Nat) (cells : Cells) (lower upper : Nat) : merge (fuel + 1) cells lower upper =
    (((cells.entries? upper).getD []).foldlM (overlay (merge fuel)) (cells, (cells.entries? lower).getD [])).bind
      fun state => some (state.1.add (.map state.2)) := by
  rw [merge]
  rfl

end Cells

/-- Settings: cells, and the number of a mapping among them. -/
structure Settings where
  cells : Cells
  root : Nat

namespace Settings

def empty : Settings := ⟨[(0, .map [])], 0⟩

def find? (s : Settings) (path : String) : Option Strand := s.cells.find? (segments path) (.inner s.root)

/-- The value under a path, or another one where there is none. -/
def get (s : Settings) (path : String) (default : Setting) : Setting :=
  ((s.find? path).map s.cells.value).getD default

/-- Files under a path a value that is at hand. -/
def set (s : Settings) (path : String) (v : Strand) : Settings :=
  { s with cells := s.cells.file v (segments path) s.root }

def lay (s : Settings) (v : Setting) : Settings × Strand :=
  let (cells, strand) := s.cells.lay v
  ({ s with cells := cells }, strand)

/-- Lays a mapping over the settings. Two mappings that are merged are a pair of cells, so a merge that goes
deeper than there are pairs comes back to one, and has no end. -/
def merge (s : Settings) (upper : Nat) : Except Fault Settings :=
  match s.cells.merge (s.cells.length * s.cells.length + 1) s.root upper with
  | some (cells, root) => .ok ⟨cells, root⟩
  | none => .error .endlessMerge

def entries (s : Settings) : Entries :=
  ((s.cells.entries? s.root).getD []).map fun entry => (entry.1, s.cells.value entry.2)

end Settings
end LogCursor
