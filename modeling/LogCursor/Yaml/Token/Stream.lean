import LogCursor.Yaml.Token.Scalar
/-!
The tokens of a text. Indentation opens and closes block collections. A key may stand before its colon
without any sign, so wherever one may begin its place is remembered; the colon, on the same line and at most
1024 characters on, then makes a key of what stands there. Tokens from a remembered place on are held back
until it is settled.
-/
namespace LogCursor.Yaml

/-- A place where a key may have begun, and whether one must have begun there. -/
structure Candidate where
  token : Nat
  required : Bool
  index : Nat
  line : Nat
  column : Nat

/-- The state of reading tokens. The tokens read are kept with the latest first, since most are added there and
a key's sign goes in a few places before it. -/
structure Lexer where
  cursor : Cursor
  latest : List Token := []
  count : Nat := 0
  depth : Nat := 0
  indent : Int := -1
  outer : List Int := []
  keyAllowed : Bool := true
  candidates : List (Nat × Candidate) := []

namespace Lexer

/-- The furthest that a colon may be from the start of its key. -/
def reach : Nat := 1024

/-- A candidate that a colon can still settle. -/
def isOpen (l : Lexer) (c : Candidate) : Bool :=
  c.line == l.cursor.line && l.cursor.index - c.index ≤ reach

def insert (l : Lexer) (place : Nat) (t : Token) : Lexer :=
  let (after, before) := l.latest.splitAt (l.count - place)
  { l with latest := after ++ t :: before, count := l.count + 1 }

def push (l : Lexer) (t : Token) : Lexer :=
  { l with latest := t :: l.latest, count := l.count + 1 }

def tokens (l : Lexer) : List Token := l.latest.reverse

/-- The tokens that no open candidate holds back. -/
def released (l : Lexer) : List Token :=
  let held := (l.candidates.filter fun c => l.isOpen c.2).map fun c => c.2.token
  l.tokens.take (held.foldl min l.count)

end Lexer

abbrev Lex := StateT Lexer (Except Problem)

namespace Lex

def scan {α : Type} (x : Scan α) : Lex α := fun l => do
  let (a, c) ← x l.cursor
  return (a, { l with cursor := c })

def fail {α : Type} : Lex α := throw .malformed

def push (t : Token) : Lex Unit := modify (·.push t)

/-- Says whether a key may begin at the next token. -/
def allowKey (allowed : Bool) : Lex Unit := modify fun l => { l with keyAllowed := allowed }

/-- Outside every flow collection. -/
def inBlock : Lex Bool := do return (← get).depth == 0

/-- Drops the candidates that no colon can settle any more. -/
def dropStale : Lex Unit := do
  let l ← get
  let (fresh, stale) := l.candidates.partition fun c => l.isOpen c.2
  if stale.any (·.2.required) then fail
  set { l with candidates := fresh }

def dropCandidate : Lex Unit := do
  let l ← get
  let (own, others) := l.candidates.partition (·.1 == l.depth)
  if own.any (·.2.required) then fail
  set { l with candidates := others }

/-- Remembers the next token as one where a key may begin. -/
def mark : Lex Unit := do
  if (← get).keyAllowed then
    dropCandidate
    modify fun l =>
      let c := l.cursor
      let required := l.depth == 0 && l.indent == (c.column : Int)
      let candidate : Candidate := ⟨l.count, required, c.index, c.line, c.column⟩
      { l with candidates := (l.depth, candidate) :: l.candidates }

/-- Closes the block collections that lie deeper than a column. -/
def closeBlocks (column : Int) : Lex Unit := modify fun l =>
  if l.depth != 0 then l else go l.outer l
where
  /-- Closes collections as long as they are too deep. -/
  go : List Int → Lexer → Lexer
    | [], l => l
    | below :: outer, l =>
      if column < l.indent then
        go outer { l.push .blockEnd with indent := below, outer := outer }
      else l

/-- Opens a block collection at a column, unless one is open there; the token goes to the given place. -/
def openBlock (column place : Nat) (t : Token) : Lex Unit := modify fun l =>
  if l.indent < (column : Int) then
    { l.insert place t with indent := column, outer := l.indent :: l.outer }
  else l

/-- Skips what stands between tokens; after a line break outside of flow a key may begin. -/
def skipBlank : Lex Unit := do
  if (← get).cursor.index == 0 && (← scan Scan.peek) == some orderMark then scan (Scan.skip 1)
  let crossed ← scan (Scan.loop (fun crossed => do
    Scan.spaces
    Scan.comment
    if (← Scan.lineBreak).isEmpty then return .inr crossed else return .inl true) false)
  if crossed && (← inBlock) then allowKey true

def streamEnd : Lex Unit := do
  closeBlocks (-1)
  dropCandidate
  push .streamEnd

def directive : Lex Unit := do
  closeBlocks (-1)
  dropCandidate
  allowKey false
  push (← scan Scan.directive)

def documentMark (t : Token) : Lex Unit := do
  closeBlocks (-1)
  dropCandidate
  allowKey false
  scan (Scan.skip 3)
  push t

def flowStart (t : Token) : Lex Unit := do
  mark
  allowKey true
  modify fun l => { l with depth := l.depth + 1 }
  scan (Scan.skip 1)
  push t

def flowEnd (t : Token) : Lex Unit := do
  dropCandidate
  allowKey false
  if ← inBlock then fail
  modify fun l => { l with depth := l.depth - 1 }
  scan (Scan.skip 1)
  push t

def separator : Lex Unit := do
  allowKey true
  dropCandidate
  scan (Scan.skip 1)
  push .separator

/-- Opens a block collection here, where a key must be allowed. -/
def openHere (t : Token) : Lex Unit := do
  if ← inBlock then
    if !(← get).keyAllowed then fail
    let l ← get
    openBlock l.cursor.column l.count t

def item : Lex Unit := do
  openHere .sequenceStart
  allowKey true
  dropCandidate
  scan (Scan.skip 1)
  push .item

def key : Lex Unit := do
  openHere .mappingStart
  allowKey (← inBlock)
  dropCandidate
  scan (Scan.skip 1)
  push .key

/-- The colon before a value, which may make a key of what stands before it. -/
def value : Lex Unit := do
  let l ← get
  match l.candidates.find? (·.1 == l.depth) with
  | some (_, c) =>
    set { l.insert c.token .key with
      candidates := l.candidates.filter (·.1 != l.depth)
      keyAllowed := false }
    if ← inBlock then openBlock c.column c.token .mappingStart
  | none =>
    openHere .mappingStart
    allowKey (← inBlock)
    dropCandidate
  scan (Scan.skip 1)
  push .value

/-- A token where a key may begin. -/
def keyed (x : Scan Token) : Lex Unit := do
  mark
  allowKey false
  push (← scan x)

def blockScalar (fold : Bool) : Lex Unit := do
  allowKey true
  dropCandidate
  let indent := (← get).indent
  push (.scalar (← scan (Scan.block fold indent)) false)

def plainScalar : Lex Unit := do
  mark
  let flow := !(← inBlock)
  let (text, broken) ← scan (Scan.plain flow ((← get).indent + 1))
  allowKey broken
  push (.scalar text true)

/-- A character that begins a plain scalar, given the one after it. -/
def beginsPlain (flow : Bool) (c : Char) (after : Option Char) : Bool :=
  let indicator := "-?:,[]\x7b\x7d#&*!|>\"%@`".toList.contains c || c == Text.apostrophe
  !(indicator || endsItem (some c)) ||
    (!endsItem after && (c == '-' || (!flow && (c == '?' || c == ':'))))

def next : Lex Bool := do
  skipBlank
  dropStale
  closeBlocks (← get).cursor.column
  match ← scan Scan.peek with
  | none =>
    streamEnd
    return false
  | some c =>
    let l ← get
    let flow := l.depth != 0
    let first := l.cursor.column == 0
    let after ← scan (Scan.peekAt 1)
    let alone := endsItem after
    if c == '%' && first then directive
    else if first && c == '-' && (← scan (Scan.atMark '-')) then documentMark .documentStart
    else if first && c == '.' && (← scan (Scan.atMark '.')) then documentMark .documentEnd
    else if c == '[' then flowStart .flowSequenceStart
    else if c == '\x7b' then flowStart .flowMappingStart
    else if c == ']' then flowEnd .flowSequenceEnd
    else if c == '\x7d' then flowEnd .flowMappingEnd
    else if c == ',' then separator
    else if c == '-' && alone then item
    else if c == '?' && (flow || alone) then key
    else if c == ':' && (flow || alone) then value
    else if c == '*' then keyed (Token.alias <$> Scan.anchorName)
    else if c == '&' then keyed (Token.anchor <$> Scan.anchorName)
    else if c == '!' then keyed Scan.tag
    else if c == '|' && !flow then blockScalar false
    else if c == '>' && !flow then blockScalar true
    else if c == Text.apostrophe then keyed ((Token.scalar · false) <$> Scan.quoted false)
    else if c == '"' then keyed ((Token.scalar · false) <$> Scan.quoted true)
    else if beginsPlain flow c after then plainScalar
    else fail
    return true

end Lex

namespace Token

/-- Reads tokens until the text ends or is at fault. -/
def readAll : Nat → Lexer → List Token
  | 0, l => l.released ++ [.stop .malformed]
  | fuel + 1, l =>
    match Lex.next l with
    | .error p => l.released ++ [.stop p]
    | .ok (true, l) => readAll fuel l
    | .ok (false, l) => l.tokens

/-- The tokens of a text; the last one ends the stream or tells why reading stopped. -/
def ofSupply (s : Supply) : List Token := readAll (s.chars.length + 1) { cursor := .start s }

end Token
end LogCursor.Yaml
