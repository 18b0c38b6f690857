import LogCursor.Fault
/-!
Text files: bytes that are UTF-8, with line ends made uniform. Bytes are decoded block by block. What a
block leaves incomplete is carried over to the next one, so a fault tells its position from the start of
the block it is found in, the carried bytes included.
-/
namespace LogCursor.Text

def isContinuation (b : UInt8) : Bool := 0x80 ≤ b && b ≤ 0xbf

/-- How many bytes a first byte announces, and between which bounds the second one lies. -/
def announced (b : UInt8) : Option (Nat × UInt8 × UInt8) :=
  if b ≤ 0x7f then some (1, 0, 0)
  else if b < 0xc2 then none
  else if b ≤ 0xdf then some (2, 0x80, 0xbf)
  else if b = 0xe0 then some (3, 0xa0, 0xbf)
  else if b = 0xed then some (3, 0x80, 0x9f)
  else if b ≤ 0xef then some (3, 0x80, 0xbf)
  else if b = 0xf0 then some (4, 0x90, 0xbf)
  else if b ≤ 0xf3 then some (4, 0x80, 0xbf)
  else if b = 0xf4 then some (4, 0x80, 0x8f)
  else none

def assemble (bytes : List UInt8) : Char :=
  match bytes.map UInt8.toNat with
  | [a] => Char.ofNat a
  | [a, b] => Char.ofNat (a % 0x20 * 0x40 + b % 0x40)
  | [a, b, c] => Char.ofNat (a % 0x10 * 0x1000 + b % 0x40 * 0x40 + c % 0x40)
  | [a, b, c, d] => Char.ofNat (a % 8 * 0x40000 + b % 0x40 * 0x1000 + c % 0x40 * 0x40 + d % 0x40)
  | _ => Char.ofNat 0

/-- What stands at the front of some bytes. -/
inductive Front where
  | character (c : Char) (length : Nat)
  | incomplete
  | invalid (length : Nat) (reason : String)

/-- The first two bytes of a surrogate, which is no character whatever follows. -/
def beginsSurrogate (first : UInt8) (rest : List UInt8) : Bool :=
  first == 0xed && match rest with
    | [second] => 0xa0 ≤ second && second ≤ 0xbf
    | _ => false

/-- The character at the front of bytes that begin with the given one. -/
def front (first : UInt8) (rest : List UInt8) : Front :=
  if beginsSurrogate first rest then .incomplete else
  match announced first with
  | none => .invalid 1 "invalid start byte"
  | some (count, low, high) =>
    let wanted := rest.take (count - 1)
    let good := match wanted with
      | [] => 0
      | second :: others =>
        if low ≤ second && second ≤ high then 1 + (others.takeWhile isContinuation).length else 0
    if good = count - 1 then .character (assemble (first :: wanted)) count
    else if good < wanted.length then .invalid (1 + good) "invalid continuation byte"
    else .incomplete

/-- Decodes the bytes of one block; the bytes of an incomplete last character are left over. -/
def decodeBlock (bytes : List UInt8) : Except Fault (List Char × List UInt8) :=
  go bytes.length 0 bytes []
where
  /-- Decodes from a position on, with the characters so far in reverse. -/
  go : Nat → Nat → List UInt8 → List Char → Except Fault (List Char × List UInt8)
    | _, _, [], done => .ok (done.reverse, [])
    | 0, _, rest, done => .ok (done.reverse, rest)
    | fuel + 1, position, first :: rest, done =>
      match front first rest with
      | .character c length => go fuel (position + length) (rest.drop (length - 1)) (c :: done)
      | .incomplete => .ok (done.reverse, first :: rest)
      | .invalid length reason => .error (.undecodable first position (position + length) reason)

/-- The fault of bytes that are left over at the end. -/
def truncated (first : UInt8) (rest : List UInt8) : Fault :=
  if beginsSurrogate first rest then .undecodable first 0 1 "invalid continuation byte"
  else .undecodable first 0 (rest.length + 1) "unexpected end of data"

/-- Makes a line feed of every carriage return, together with a line feed behind it. -/
def uniformLines : List Char → List Char
  | '\r' :: '\n' :: rest => '\n' :: uniformLines rest
  | '\r' :: rest => '\n' :: uniformLines rest
  | c :: rest => c :: uniformLines rest
  | [] => []

/-- What stands between two blocks: the bytes carried over, a carriage return that waits for the next
character, the size of the last block in bytes and in characters, and the number of characters so far. -/
structure Seam where
  carried : List UInt8 := []
  held : Bool := false
  bytes : Nat := 0
  chars : Nat := 0
  count : Nat := 0

namespace Seam

/-- The least number of bytes that are read at a time. -/
def blockSize : Nat := 8192

/-- How many characters are asked for at a time. -/
def portion : Nat := 4096

/-- The number of bytes to read for what is left of a portion, going by the last block. -/
def nextSize (s : Seam) : Nat :=
  let wanted := portion - s.count % portion
  let guess := (((Binary64.ofRatio false s.bytes s.chars).scale wanted).truncate?.getD 0).toNat
  if s.chars = 0 then blockSize else max blockSize guess

/-- The characters of a block with uniform lines, of which a carriage return at the end is held. -/
def settle (s : Seam) (chars : List Char) : List Char × Bool :=
  let chars := if s.held && !chars.isEmpty then '\r' :: chars else chars
  if chars.getLast? == some '\r' then (uniformLines chars.dropLast, true)
  else (uniformLines chars, s.held && chars.isEmpty)

end Seam

def decodeBlocks : Nat → Seam → List UInt8 → List Char × Option Fault
  | 0, _, _ => ([], none)
  | fuel + 1, s, bytes =>
    let block := bytes.take s.nextSize
    match block, s.carried with
    | [], [] => (if s.held then ['\n'] else [], none)
    | [], first :: rest => ([], some (truncated first rest))
    | _, _ =>
      match decodeBlock (s.carried ++ block) with
      | .error f => ([], some f)
      | .ok (chars, carried) =>
        let (text, held) := s.settle chars
        let next : Seam := ⟨carried, held, block.length, text.length, s.count + text.length⟩
        let (more, fault) := decodeBlocks fuel next (bytes.drop block.length)
        (text ++ more, fault)

def decode (bytes : List UInt8) : List Char × Option Fault := decodeBlocks (bytes.length + 1) {} bytes

end LogCursor.Text
