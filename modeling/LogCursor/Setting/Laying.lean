import LogCursor.Setting
/-!
Laying values into cells. Every collection gets a cell with a number that has not occurred before, so it is
held nowhere else.
-/
namespace LogCursor.Cells

/-- Adds a cell under a number of its own. -/
def add (cells : Cells) (c : Cell) : Cells × Nat := (cells ++ [(cells.fresh, c)], cells.fresh)

def absorb (cells : Cells) (k : Knot) : Cells × Nat :=
  let number (n : Nat) := cells.fresh + n
  (cells ++ k.cells.map fun entry => (number entry.1, entry.2.renumber number), number k.here)

mutual

/-- Adds the cells of a value. -/
def lay (cells : Cells) : Setting → Cells × Strand
  | .null => (cells, .scalar .null)
  | .bool b => (cells, .scalar (.bool b))
  | .int n => (cells, .scalar (.int n))
  | .float x => (cells, .scalar (.float x))
  | .text s => (cells, .scalar (.text s))
  | .day d => (cells, .scalar (.day d))
  | .moment d t => (cells, .scalar (.moment d t))
  | .bytes bs => (cells, .scalar (.bytes bs))
  | .edge e => (cells, .edge e)
  | .list items =>
    let (cells, strands) := layItems cells items
    let (cells, n) := cells.add (.list strands)
    (cells, .inner n)
  | .map entries =>
    let (cells, strands) := layEntries cells entries
    let (cells, n) := cells.add (.map strands)
    (cells, .inner n)
  | .set members =>
    let (cells, n) := cells.add (.set members)
    (cells, .inner n)
  | .pairs entries =>
    let (cells, strands) := layPairs cells entries
    let (cells, n) := cells.add (.pairs strands)
    (cells, .inner n)
  | .knot k =>
    let (cells, n) := cells.absorb k
    (cells, .inner n)

def layItems (cells : Cells) : List Setting → Cells × List Strand
  | [] => (cells, [])
  | v :: rest =>
    let (cells, strand) := lay cells v
    let (cells, strands) := layItems cells rest
    (cells, strand :: strands)

def layEntries (cells : Cells) : List (Key × Setting) → Cells × List (Key × Strand)
  | [] => (cells, [])
  | (k, v) :: rest =>
    let (cells, strand) := lay cells v
    let (cells, strands) := layEntries cells rest
    (cells, (k, strand) :: strands)

def layPairs (cells : Cells) : List (Setting × Setting) → Cells × List (Strand × Strand)
  | [] => (cells, [])
  | (a, b) :: rest =>
    let (cells, first) := lay cells a
    let (cells, second) := lay cells b
    let (cells, strands) := layPairs cells rest
    (cells, (first, second) :: strands)

end

end LogCursor.Cells
