import LogCursor.Knot
import LogCursor.Yaml.Graph.Merge
/-!
The cells of a document. Scalars are valued as soon as they are met; a collection gets its cell and waits
in a row until those before it are filled, so that the first problem in that order is the document's. A node
that is met again stands for what it stood for before.
-/
namespace LogCursor.Yaml.Graph

/-- The name of the document, its nodes, what they have been found to stand for, the cells so far, and the
collections that wait, the last one first. -/
structure Builder where
  document : String
  graph : Graph
  fuel : Nat
  found : Array (Option Strand)
  cells : Cells := []
  waiting : List Nat := []

abbrev Build := StateT Builder (Except Problem)

namespace Build

def fail {α : Type} : Build α := throw .malformed

/-- A scalar of a type. Moments are read from scalars only, and not from default values. -/
def scalar (n : Nat) (tag : Tag) : Build Strand := do
  let g := (← get).graph
  match g.text? n with
  | none => fail
  | some text =>
    if tag == .moment && (g.entries? n).isSome then
      Scalar.refuse .conversion "expected string or bytes-like object, got 'list'"
    else return .scalar (← Scalar.value tag text (← get).document n)

def strand (n : Nat) : Build Strand := do
  if let some (some s) := (← get).found[n]? then return s
  let tag := (← get).graph.tag n
  let s ← match tag with
    | .mapping | .sequence | .set | .pairs => do
      modify fun b => { b with waiting := n :: b.waiting }
      pure (Strand.inner n)
    | _ => scalar n tag
  modify fun b => { b with found := b.found.setIfInBounds n (some s) }
  return s

def key (n : Nat) : Build Key := do
  match ← strand n with
  | .scalar k => return k
  | _ => fail

/-- The entries of a mapping, made up; of two entries with one key the later value stays in the earlier
place. -/
def entries (n : Nat) : Build (List (Key × Strand)) := do
  if ((← get).graph.entries? n).isNone then fail
  let g ← merge (← get).graph (← get).fuel n
  modify fun b => { b with graph := g }
  ((g.entries? n).getD []).foldlM (fun found (k, v) => do
    let k ← key k
    return Assoc.put k (← strand v) found) []

def single (n : Nat) : Build (Strand × Strand) := do
  match (← get).graph.entries? n with
  | some [(k, v)] => return (← strand k, ← strand v)
  | _ => fail

def items (n : Nat) : Build (List Nat) := do
  match (← get).graph.items? n with
  | some items => return items
  | none => fail

def cell (n : Nat) : Build Cell := do
  match (← get).graph.tag n with
  | .mapping => return .map (← entries n)
  | .set => return .set ((← entries n).map (·.1))
  | .pairs => return .pairs (← (← items n).mapM single)
  | _ => return .list (← (← items n).mapM strand)

/-- Fills the cells that wait, and those that come to wait meanwhile, after them; no round is without a new
node. -/
def fill : Nat → Build Unit
  | 0 => return
  | fuel + 1 => do
    let row := (← get).waiting.reverse
    if row.isEmpty then return
    modify fun b => { b with waiting := [] }
    row.forM fun n => do
      let c ← cell n
      modify fun b => { b with cells := (n, c) :: b.cells }
    fill fuel

end Build

/-- What a root stands for in a document of some name, and the cells that it needs. -/
def cells (g : Graph) (document : String) (root : Nat) : Except Problem (Strand × Cells) := do
  let builder : Builder :=
    { document := document, graph := g, fuel := g.mergeCount + 1, found := Array.replicate g.size none }
  let run : Build Strand := do
    let s ← Build.strand root
    Build.fill (g.size + 1)
    return s
  let (s, b) ← run.run builder
  return (s, b.cells)

end LogCursor.Yaml.Graph
