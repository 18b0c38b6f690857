import LogCursor.Yaml.Graph
import LogCursor.Yaml.Token.Stream
/-!
Reading a document. Nodes are read from tokens by descent and numbered on the way; an anchor names a node
and an alias stands for the node that was named. A collection has its number before it is read, so that an
alias in it can stand for it. A name is used once only, and a text holds one document.
-/
namespace LogCursor.Yaml

/-- The tokens that are left, the nodes so far, the named ones among them, and what the handles stand for. -/
structure DescentState where
  tokens : List Token
  nodes : Graph := #[]
  anchors : List (String × Nat) := []
  handles : List (String × String) := []

abbrev Descent := StateT DescentState (Except Problem)

namespace Descent

def fail {α : Type} : Descent α := throw .malformed

def peek : Descent Token := do
  match (← get).tokens with
  | .stop p :: _ => throw p
  | t :: _ => return t
  | [] => fail

def advance : Descent Unit := modify fun c => { c with tokens := c.tokens.drop 1 }

/-- What handles stand for unless a directive says otherwise. -/
def handles : List (String × String) := [("!", "!"), ("!!", Tag.standard)]

def tagName (handle : Option String) (suffix : String) : Descent String := do
  match handle with
  | none => return suffix
  | some h =>
    match Assoc.get? h (← get).handles with
    | some stands => return stands ++ suffix
    | none => fail

/-- The anchor and the tag of a node, in either order. -/
def properties : Descent (Option String × Option String) := do
  match ← peek with
  | .anchor a =>
    advance
    match ← peek with
    | .tag h s => advance; return (some a, some (← tagName h s))
    | _ => return (some a, none)
  | .tag h s =>
    advance
    match ← peek with
    | .anchor a => advance; return (some a, some (← tagName h s))
    | _ => return (none, some (← tagName h s))
  | _ => return (none, none)

def checkFresh (anchor : Option String) : Descent Unit := do
  if let some a := anchor then
    if (Assoc.get? a (← get).anchors).isSome then fail

/-- Adds a node, under the name of an anchor if there is one. -/
def add (anchor : Option String) (tag : Tag) (content : Content) : Descent Nat := modifyGet fun c =>
  let n := c.nodes.size
  (n, { c with
    nodes := c.nodes.push ⟨tag, content⟩
    anchors := (anchor.map fun a => (a, n)).toList ++ c.anchors })

/-- The node that is left out. -/
def absent : Descent Nat := add none .null (.scalar "")

/-- Adds a collection and then reads what it holds. -/
def addCollection (anchor : Option String) (tag : Tag) (read : Descent Content) : Descent Nat := do
  let n ← add anchor tag (.sequence [])
  let content ← read
  modify fun c => { c with nodes := c.nodes.refill n content }
  return n

/-- The node that an alias stands for. -/
def named (name : String) : Descent Nat := do
  match Assoc.get? name (← get).anchors with
  | some n => return n
  | none => fail

/-- The tag that leaves the type to the form of the node. -/
def isOpen (tag : Option String) : Bool := tag.isNone || tag == some "!"

def typeOr (tag : Option String) (default : Tag) : Tag :=
  if isOpen tag then default else Tag.ofName (tag.getD "")

/-- The type of a scalar: by its form if it is plain or asked to be, and otherwise text. -/
def scalarType (tag : Option String) (text : String) (plain : Bool) : Tag :=
  if tag == some "!" || (tag.isNone && plain) then Scalar.tagOf text
  else typeOr tag .text

/-- A token that ends an item of an indented sequence without indentation. -/
def endsItem : Token → Bool
  | .item | .key | .value | .blockEnd => true
  | _ => false

/-- A token that ends a key or a value of a block mapping. -/
def endsEntry : Token → Bool
  | .key | .value | .blockEnd => true
  | _ => false

/-- What kind of collection a flow belongs to decides which bracket closes it. -/
def closes (sequence : Bool) : Token → Bool
  | .flowSequenceEnd => sequence
  | .flowMappingEnd => !sequence
  | _ => false

/-- A comma, or the bracket that closes the flow. -/
def endsFlowValue (sequence : Bool) : Token → Bool
  | .separator => true
  | t => closes sequence t

def endsFlowKey (sequence : Bool) : Token → Bool
  | .value => true
  | t => endsFlowValue sequence t

mutual

/-- A node; in a block, or as an entry whose items may stand without indentation. -/
def node : Nat → Bool → Bool → Descent Nat
  | 0, _, _ => fail
  | fuel + 1, block, entry => do
    if let .alias name := ← peek then
      advance
      return ← named name
    let (anchor, tag) ← properties
    let opened (default : Tag) (read : Descent Content) : Descent Nat := do
      checkFresh anchor
      advance
      addCollection anchor (typeOr tag default) read
    match ← peek, block, entry with
    | .item, _, true =>
      checkFresh anchor
      addCollection anchor (typeOr tag .sequence) (.sequence <$> bareItems fuel)
    | .scalar text plain, _, _ =>
      checkFresh anchor
      advance
      add anchor (scalarType tag text plain) (.scalar text)
    | .flowSequenceStart, _, _ => opened .sequence (.sequence <$> flowItems fuel true)
    | .flowMappingStart, _, _ => opened .mapping (.mapping <$> flowEntries fuel true)
    | .sequenceStart, true, _ => opened .sequence (.sequence <$> items fuel)
    | .mappingStart, true, _ => opened .mapping (.mapping <$> entries fuel)
    | _, _, _ =>
      if anchor.isNone && tag.isNone then fail
      checkFresh anchor
      add anchor (if isOpen tag then .null else typeOr tag .text) (.scalar "")

def items : Nat → Descent (List Nat)
  | 0 => fail
  | fuel + 1 => do
    match ← peek with
    | .item =>
      advance
      let n ← match ← peek with
        | .item => absent
        | .blockEnd => absent
        | _ => node fuel true false
      return n :: (← items fuel)
    | .blockEnd => advance; return []
    | _ => fail

def bareItems : Nat → Descent (List Nat)
  | 0 => fail
  | fuel + 1 => do
    match ← peek with
    | .item =>
      advance
      let n ← if endsItem (← peek) then absent else node fuel true false
      return n :: (← bareItems fuel)
    | _ => return []

def entries : Nat → Descent (List (Nat × Nat))
  | 0 => fail
  | fuel + 1 => do
    match ← peek with
    | .blockEnd => advance; return []
    | .key =>
      advance
      let k ← if endsEntry (← peek) then absent else node fuel true true
      let v ← blockValue fuel
      return (k, v) :: (← entries fuel)
    | _ => fail

/-- The value of an entry of a block mapping, if it has one. -/
def blockValue : Nat → Descent Nat
  | 0 => fail
  | fuel + 1 => do
    match ← peek with
    | .value =>
      advance
      if endsEntry (← peek) then absent else node fuel true true
    | _ => absent

/-- The items of a flow sequence; an entry in it makes a mapping of its own. -/
def flowItems : Nat → Bool → Descent (List Nat)
  | 0, _ => fail
  | fuel + 1, first => do
    if closes true (← peek) then
      advance
      return []
    flowComma first
    match ← peek with
    | .flowSequenceEnd => advance; return []
    | .key =>
      advance
      let k ← if endsFlowKey true (← peek) then absent else node fuel false false
      let v ← flowValue fuel true
      let n ← add none .mapping (.mapping [(k, v)])
      return n :: (← flowItems fuel false)
    | _ =>
      let n ← node fuel false false
      return n :: (← flowItems fuel false)

/-- The entries of a flow mapping; a node without a colon is a key without a value. -/
def flowEntries : Nat → Bool → Descent (List (Nat × Nat))
  | 0, _ => fail
  | fuel + 1, first => do
    if closes false (← peek) then
      advance
      return []
    flowComma first
    match ← peek with
    | .flowMappingEnd => advance; return []
    | .key =>
      advance
      let k ← if endsFlowKey false (← peek) then absent else node fuel false false
      let v ← flowValue fuel false
      return (k, v) :: (← flowEntries fuel false)
    | _ =>
      let k ← node fuel false false
      let v ← absent
      return (k, v) :: (← flowEntries fuel false)

/-- The comma before every item of a flow but the first. -/
def flowComma (first : Bool) : Descent Unit := do
  if first then return
  match ← peek with
  | .separator => advance
  | _ => fail

/-- The value of an entry in a flow, if it has one. -/
def flowValue : Nat → Bool → Descent Nat
  | 0, _ => fail
  | fuel + 1, sequence => do
    match ← peek with
    | .value =>
      advance
      if endsFlowValue sequence (← peek) then absent else node fuel false false
    | _ => absent

end

def directives : Nat → Bool → List (String × String) → Descent (List (String × String))
  | 0, _, _ => fail
  | fuel + 1, versioned, known => do
    match ← peek with
    | .directive (.version major) =>
      if versioned || major != 1 then fail
      advance
      directives fuel true known
    | .directive (.handle h stands) =>
      if (Assoc.get? h known).isSome then fail
      advance
      directives fuel versioned (known ++ [(h, stands)])
    | .directive .other =>
      advance
      directives fuel versioned known
    | _ => return known

def skipEnds : Nat → Descent Unit
  | 0 => fail
  | fuel + 1 => do
    match ← peek with
    | .documentEnd => advance; skipEnds fuel
    | _ => return

def content (fuel : Nat) : Descent Nat := do
  match ← peek with
  | .directive _ | .documentStart | .documentEnd | .streamEnd => absent
  | _ => node fuel true false

/-- The end of the only document. -/
def onlyDocument (fuel : Nat) (n : Nat) : Descent (Option Nat) := do
  skipEnds fuel
  match ← peek with
  | .streamEnd => return some n
  | _ => fail

def document (fuel : Nat) : Descent (Option Nat) := do
  match ← peek with
  | .streamEnd => return none
  | .directive _ | .documentStart =>
    let known ← directives fuel false []
    modify fun c => { c with handles := known ++ handles }
    match ← peek with
    | .documentStart =>
      advance
      onlyDocument fuel (← content fuel)
    | _ => fail
  | _ =>
    modify fun c => { c with handles := handles }
    onlyDocument fuel (← node fuel true false)

end Descent

namespace Graph

/-- The nodes of the only document in some tokens, and the number of its root, if there is a document. -/
def ofTokens (tokens : List Token) : Except Problem (Graph × Option Nat) := do
  let (root, c) ← (Descent.document (4 * tokens.length + 4)).run { tokens := tokens }
  return (c.nodes, root)

end Graph
end LogCursor.Yaml
