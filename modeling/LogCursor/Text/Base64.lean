/-!
Bytes as text in base 64. Four letters hold three bytes, and equals signs fill up the last group. What is
no letter is passed over, and so is an equals sign that does not complete its group.
-/
namespace LogCursor.Text

def sextet? (c : Char) : Option Nat :=
  let n := c.toNat
  if 'A' ≤ c && c ≤ 'Z' then some (n - 'A'.toNat)
  else if 'a' ≤ c && c ≤ 'z' then some (n - 'a'.toNat + 26)
  else if '0' ≤ c && c ≤ '9' then some (n - '0'.toNat + 52)
  else if c == '+' then some 62
  else if c == '/' then some 63
  else none

/-- The whole bytes in the sextets of one group. -/
def bytesOfGroup (sextets : List Nat) : List UInt8 :=
  match sextets with
  | [a, b] => [UInt8.ofNat (4 * a + b / 16)]
  | [a, b, c] => [UInt8.ofNat (4 * a + b / 16), UInt8.ofNat (16 * b + c / 4)]
  | [a, b, c, d] =>
    [UInt8.ofNat (4 * a + b / 16), UInt8.ofNat (16 * b + c / 4), UInt8.ofNat (64 * c + d)]
  | _ => []

/-- Reads letters into the group that is open, of which the equals signs directly before are counted. A
group that stays open at the end makes the text malformed. -/
def base64Groups : List Char → List Nat → Nat → Option (List UInt8)
  | [], group, _ => if group.isEmpty then some [] else none
  | c :: rest, group, pads =>
    if c == '=' then
      if 2 ≤ group.length && 4 ≤ group.length + pads + 1 then some (bytesOfGroup group)
      else base64Groups rest group (if 2 ≤ group.length then pads + 1 else pads)
    else match sextet? c with
      | none => base64Groups rest group pads
      | some n =>
        let group := group ++ [n]
        if group.length = 4 then (base64Groups rest [] 0).map (bytesOfGroup group ++ ·)
        else base64Groups rest group 0

/-- The bytes that a text in base 64 holds; only ASCII can hold any. -/
def ofBase64? (s : String) : Option (List UInt8) :=
  if s.toList.all fun c => c.toNat < 0x80 then base64Groups s.toList [] 0 else none

end LogCursor.Text
