import LogCursor.Fault
/-!
Reading YAML text character by character. A cursor holds what is left of the text and where that stands; a
scan is a step of reading that may find the text malformed. Lines end with a line feed, the next-line
control, or one of the two Unicode separators. A supply of characters may end in a problem, which a scan
meets when it looks beyond the last of them.
-/
namespace LogCursor.Yaml

/-- Why a text has no value: it is malformed, or a part of it has a fault of its own. -/
inductive Problem where
  | malformed
  | faulty (fault : Fault)

def isBreak (c : Char) : Bool := c == '\n' || c.toNat == 0x85 || c.toNat == 0x2028 || c.toNat == 0x2029

def isAllowed (c : Char) : Bool :=
  let n := c.toNat
  n == 0x9 || n == 0xa || n == 0xd || (0x20 ≤ n && n ≤ 0x7e) || n == 0x85 || (0xa0 ≤ n && n ≤ 0xfffd) ||
    0x10000 ≤ n

/-- The mark of byte order, which takes no column. -/
def orderMark : Char := Char.ofNat 0xfeff

def endsLine : Option Char → Bool
  | none => true
  | some c => isBreak c

def endsWord (c? : Option Char) : Bool := c? == some ' ' || endsLine c?

def endsItem (c? : Option Char) : Bool := c? == some '\t' || endsWord c?

def isNameChar (c : Char) : Bool := c.isAlphanum || c == '-' || c == '_'

def hexValue? (c : Char) : Option Nat :=
  if c.isDigit then some (c.toNat - '0'.toNat)
  else if 'a' ≤ c && c ≤ 'f' then some (c.toNat - 'a'.toNat + 10)
  else if 'A' ≤ c && c ≤ 'F' then some (c.toNat - 'A'.toNat + 10)
  else none

def hexNumber? (cs : List Char) : Option Nat :=
  cs.foldlM (fun n c => (hexValue? c).map fun d => 16 * n + d) 0

/-- The characters of a text, up to its end or to a problem. -/
structure Supply where
  chars : List Char
  ending : Option Problem := none

namespace Supply

/-- How many characters are looked at together. -/
def stretch : Nat := 4096

/-- The start of the stretch in which a place lies; the first two stretches are one. -/
def stretchStart (place : Nat) : Nat := if place < 2 * stretch then 0 else place / stretch * stretch

/-- The supply of characters that may end in a fault. A stretch in which a character is not allowed, or in
which the fault lies, is not supplied at all. -/
def ofChars (chars : List Char) (fault : Option Fault) : Supply :=
  let faultStart := stretchStart chars.length
  let badStart := (chars.findIdx? fun c => !isAllowed c).map stretchStart
  match fault, badStart with
  | none, none => ⟨chars, none⟩
  | none, some n => ⟨chars.take n, some .malformed⟩
  | some f, none => ⟨chars.take faultStart, some (.faulty f)⟩
  | some f, some n =>
    if n < faultStart then ⟨chars.take n, some .malformed⟩ else ⟨chars.take faultStart, some (.faulty f)⟩

end Supply

/-- The text that is left, the problem that it ends in, the length of the whole text, and where the cursor
stands in it. -/
structure Cursor where
  rest : List Char
  ending : Option Problem
  size : Nat
  index : Nat
  line : Nat
  column : Nat

namespace Cursor

def start (s : Supply) : Cursor := ⟨s.chars, s.ending, s.chars.length, 0, 0, 0⟩

def left (c : Cursor) : Nat := c.size - c.index

def next (c : Cursor) : Cursor :=
  match c.rest with
  | [] => c
  | ch :: rest =>
    if isBreak ch then { c with rest := rest, index := c.index + 1, line := c.line + 1, column := 0 }
    else if ch == orderMark then { c with rest := rest, index := c.index + 1 }
    else { c with rest := rest, index := c.index + 1, column := c.column + 1 }

def skip : Nat → Cursor → Cursor
  | 0, c => c
  | n + 1, c => skip n c.next

end Cursor

abbrev Scan := StateT Cursor (Except Problem)

namespace Scan
variable {α β : Type}

def fail : Scan α := throw .malformed

/-- Looks further on than a number of characters: where no more are left, the problem at the end is met. -/
def reach (k : Nat) : Scan Unit := do
  let c ← get
  if let some p := c.ending then
    if (c.rest.drop k).isEmpty then throw p

def peek : Scan (Option Char) := do
  reach 0
  return (← get).rest.head?

def peekAt (k : Nat) : Scan (Option Char) := do
  reach k
  return (← get).rest[k]?

def column : Scan Nat := do return (← get).column

def skip (n : Nat) : Scan Unit := do
  reach n
  modify (Cursor.skip n)

def takeWhile (p : Char → Bool) : Scan (List Char) := do
  let run := (← get).rest.takeWhile p
  skip run.length
  return run

def spaces : Scan Unit := do
  let _ ← takeWhile (· == ' ')

/-- Skips a comment, if one begins here, up to the end of its line. -/
def comment : Scan Unit := do
  if (← peek) == some '#' then
    let _ ← takeWhile fun c => !isBreak c

/-- Takes a line break, if there is one; the separators stand for themselves. -/
def lineBreak : Scan (List Char) := do
  match ← peek with
  | some c =>
    if isBreak c then
      skip 1
      return [if c.toNat == 0x85 then '\n' else c]
    else return []
  | none => return []

/-- Skips the rest of a line, which may hold a comment only. -/
def restOfLine : Scan Unit := do
  spaces
  comment
  if endsLine (← peek) then
    let _ ← lineBreak
  else fail

/-- Three hyphens or three points that stand alone: the mark of a document's start or end. -/
def atMark (c : Char) : Scan Bool := do
  reach 2
  let rest := (← get).rest
  if rest.take 3 == [c, c, c] then return endsItem (← peekAt 3) else return false

def atDocumentMark : Scan Bool := do return (← atMark '-') || (← atMark '.')

/-- Repeats a step up to a number of times. -/
def iterate (step : α → Scan (α ⊕ β)) : Nat → α → Scan β
  | 0, _ => fail
  | fuel + 1, a => do
    match ← step a with
    | .inl a => iterate step fuel a
    | .inr b => return b

/-- Repeats a step, each of which takes a character at least, until one of them ends. -/
def loop (step : α → Scan (α ⊕ β)) (a : α) : Scan β := do
  iterate step ((← get).left + 1) a

end Scan
end LogCursor.Yaml
