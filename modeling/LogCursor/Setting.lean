import LogCursor.Knot
/-!
Settings: loosely typed values, as configuration files, environments and flags give them. A mapping
keeps its keys in the order of insertion, and a key may be any scalar. A value that holds itself is a knot.
-/
namespace LogCursor

/-- A loosely typed value. -/
inductive Setting where
  | null
  | bool (b : Bool)
  | int (n : Int)
  | float (x : Binary64)
  | text (s : String)
  | day (d : Day)
  | moment (d : Day) (t : Clock)
  | bytes (bs : List UInt8)
  | edge (e : Edge)
  | list (items : List Setting)
  | map (entries : List (Key × Setting))
  | set (members : List Key)
  | pairs (entries : List (Setting × Setting))
  | knot (k : Knot)

def Key.toSetting : Key → Setting
  | .text s => .text s
  | .null => .null
  | .bool b => .bool b
  | .int n => .int n
  | .float x => .float x
  | .nan .. => .float .nan
  | .day d => .day d
  | .moment d t => .moment d t
  | .bytes bs => .bytes bs

abbrev Entries := List (Key × Setting)

def Knot.strand (k : Knot) : Strand → Setting
  | .scalar key => key.toSetting
  | .edge e => .edge e
  | .inner n =>
    match k.cell? n with
    | some (.set members) => .set members
    | _ => .knot (k.seenFrom n)

def Knot.entries? (k : Knot) : Option Entries :=
  (k.cells.entries? k.here).map fun entries => entries.map fun entry => (entry.1, k.strand entry.2)

namespace Setting

def entries? : Setting → Option Entries
  | .map m => some m
  | .knot k => k.entries?
  | _ => none

/-- The entries of a mapping; any other value has none. -/
def entries (v : Setting) : Entries := v.entries?.getD []

/-- Null, false, zero, and whatever holds nothing. -/
def isVoid : Setting → Bool
  | .null => true
  | .bool b => !b
  | .int n => n == 0
  | .float x => x.whole? == some 0
  | .text s => s.isEmpty
  | .bytes bs => bs.isEmpty
  | .list items => items.isEmpty
  | .map entries => entries.isEmpty
  | .set members => members.isEmpty
  | .pairs entries => entries.isEmpty
  | .knot k => (k.cell? k.here).any Cell.isEmpty
  | _ => false

def texts (items : List String) : Setting := .list (items.map .text)

end Setting
end LogCursor
