import LogCursor.Yaml.Scalar
/-!
The nodes of a document as a graph. Nodes are numbered, and a collection holds the numbers of its nodes, so
that an alias can stand for any node, even for one around it.
-/
namespace LogCursor.Yaml

inductive Content where
  | scalar (text : String)
  | sequence (items : List Nat)
  | mapping (entries : List (Nat × Nat))

structure Node where
  tag : Tag
  content : Content

abbrev Graph := Array Node

namespace Graph

def tag (g : Graph) (n : Nat) : Tag := ((g[n]?).map Node.tag).getD .unknown

def items? (g : Graph) (n : Nat) : Option (List Nat) :=
  match (g[n]?).map Node.content with
  | some (.sequence items) => some items
  | _ => none

def entries? (g : Graph) (n : Nat) : Option (List (Nat × Nat)) :=
  match (g[n]?).map Node.content with
  | some (.mapping entries) => some entries
  | _ => none

def retag (g : Graph) (n : Nat) (t : Tag) : Graph := g.modify n fun node => { node with tag := t }

def refill (g : Graph) (n : Nat) (c : Content) : Graph := g.modify n fun node => { node with content := c }

/-- The text of a scalar, or that of the default value of a mapping; no path to a text is longer than the
number of nodes. -/
def text? (g : Graph) (n : Nat) : Option String := go (g.size + 1) n
where
  /-- The text, after at most so many default values. -/
  go : Nat → Nat → Option String
    | 0, _ => none
    | fuel + 1, n =>
      match (g[n]?).map Node.content with
      | some (.scalar text) => some text
      | some (.mapping entries) =>
        match entries.find? fun entry => g.tag entry.1 == .value with
        | some (_, v) => go fuel v
        | none => none
      | _ => none

def mergeCount (g : Graph) : Nat :=
  g.foldl (fun n node => match node.content with
    | .mapping entries => n + entries.countP fun entry => g.tag entry.1 == .merge
    | _ => n) 0

end Graph
end LogCursor.Yaml
