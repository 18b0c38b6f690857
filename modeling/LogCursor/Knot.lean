import LogCursor.Edge
import LogCursor.Key
/-!
Collections in numbered cells. A collection holds others by their numbers, so one collection can be held at
several places, and collections can hold one another in a circle. A knot is such cells, seen from one of them.
Its literal form goes round a circle once: where a collection comes back that is being written, dots stand
for it.
-/
namespace LogCursor

/-- A scalar, or a collection by its number. -/
inductive Strand where
  | scalar (k : Key)
  | edge (e : Edge)
  | inner (n : Nat)
deriving DecidableEq

inductive Cell where
  | list (items : List Strand)
  | map (entries : List (Key × Strand))
  | set (members : List Key)
  | pairs (entries : List (Strand × Strand))
deriving DecidableEq

namespace Cell

def strands : Cell → List Strand
  | .list items => items
  | .map entries => entries.map (·.2)
  | .set _ => []
  | .pairs entries => entries.flatMap fun entry => [entry.1, entry.2]

/-- The collections that a cell holds. -/
def inner (c : Cell) : List Nat :=
  c.strands.filterMap fun strand => match strand with
    | .inner n => some n
    | _ => none

def isEmpty : Cell → Bool
  | .list items => items.isEmpty
  | .map entries => entries.isEmpty
  | .set members => members.isEmpty
  | .pairs entries => entries.isEmpty

/-- The same cell, where the collections in it have other numbers. -/
def renumber (number : Nat → Nat) (c : Cell) : Cell :=
  let strand : Strand → Strand
    | .inner n => .inner (number n)
    | other => other
  match c with
  | .list items => .list (items.map strand)
  | .map entries => .map (entries.map fun entry => (entry.1, strand entry.2))
  | .set members => .set members
  | .pairs entries => .pairs (entries.map fun entry => (strand entry.1, strand entry.2))

/-- The table in which whole numbers are kept has room for twice as many, and for eight at least. -/
def tableSize (count : Nat) : Nat := if count < 5 then 8 else Nat.pow 2 ((2 * count).log2 + 1)

/-- The place of a whole number in a table. -/
def place (size : Nat) (n : Int) : Nat :=
  let bounded := n.natAbs % (Nat.pow 2 61 - 1)
  let code : Int := if n < 0 then -(bounded : Int) else bounded
  ((if code = -1 then -2 else code) % (size : Int)).toNat

/-- The members of a set in the order in which they are listed: whole numbers by their places in a table,
and members of any other kind as they were entered. -/
def listed (members : List Key) : List Key :=
  let size := tableSize members.length
  if members.all fun k => k.whole?.isSome then
    members.mergeSort fun a b => place size (a.whole?.getD 0) ≤ place size (b.whole?.getD 0)
  else members

end Cell

def setLiteral (members : List Key) : String :=
  if members.isEmpty then "set()"
  else "\x7b" ++ ", ".intercalate ((Cell.listed members).map Key.literal) ++ "\x7d"

abbrev Cells := List (Nat × Cell)

namespace Cells

def cell? (cells : Cells) (n : Nat) : Option Cell := Assoc.get? n cells

def numbers (cells : Cells) : List Nat := cells.flatMap fun entry => entry.1 :: entry.2.inner

/-- A number beyond all that occur. -/
def fresh (cells : Cells) : Nat := cells.numbers.foldl (fun bound n => max bound (n + 1)) 0

def entries? (cells : Cells) (n : Nat) : Option (List (Key × Strand)) :=
  match cells.cell? n with
  | some (.map entries) => some entries
  | _ => none

end Cells

structure Knot where
  cells : Cells
  here : Nat
deriving DecidableEq

namespace Knot

def cell? (k : Knot) (n : Nat) : Option Cell := k.cells.cell? n

def seenFrom (k : Knot) (n : Nat) : Knot := { k with here := n }

inductive Piece where
  | mark (s : String)
  | scalar (k : Key)
deriving DecidableEq

namespace Piece

def text : Piece → String
  | .mark s => s
  | .scalar k => k.literal

def unwritable : Piece → Bool
  | .mark _ => false
  | .scalar k => k.unwritable

/-- Parts between two marks, with commas between them. -/
def enclose (opening closing : String) (parts : List (List Piece)) : List Piece :=
  .mark opening :: ((parts.intersperse [.mark ", "]).flatten ++ [.mark closing])

end Piece

/-- The dots that stand for a collection that is being written. -/
def dots : Cell → String
  | .list _ | .pairs _ => "[...]"
  | .map _ | .set _ => "\x7b...\x7d"

/-- The parts of the literal form of a strand, while some collections are being written. -/
def pieces (k : Knot) : Nat → List Nat → Strand → List Piece
  | _, _, .scalar key => [.scalar key]
  | _, _, .edge e => [.mark e.literal]
  | 0, _, .inner _ => []
  | fuel + 1, written, .inner n =>
    match k.cell? n with
    | none => []
    | some c =>
      if written.contains n then [.mark (dots c)]
      else
        let inside := k.pieces fuel (n :: written)
        match c with
        | .list items => Piece.enclose "[" "]" (items.map inside)
        | .map entries =>
          Piece.enclose "\x7b" "\x7d" (entries.map fun entry => .scalar entry.1 :: .mark ": " :: inside entry.2)
        | .set members => [.mark (setLiteral members)]
        | .pairs entries =>
          Piece.enclose "[" "]" (entries.map fun entry => Piece.enclose "(" ")" [inside entry.1, inside entry.2])

/-- The parts of the literal form; a collection is entered once at most on the way to any other. -/
def parts (k : Knot) : List Piece := k.pieces (k.cells.length + 1) [] (.inner k.here)

def literal (k : Knot) : String := String.join (k.parts.map Piece.text)

/-- A knot that holds a whole number beyond the digit limit. -/
def unwritable (k : Knot) : Bool := k.parts.any Piece.unwritable

end Knot
end LogCursor
