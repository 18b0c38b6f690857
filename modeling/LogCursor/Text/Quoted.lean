import LogCursor.Text.Printable
import LogCursor.Text.Surrogate
/-!
Quoted text: the form in which messages show a text. It stands between apostrophes, or between double
quotes when it holds an apostrophe and no double quote; the delimiter and the backslash are escaped,
and every character that is not printable is written by its code.
-/
namespace LogCursor.Text

def apostrophe : Char := Char.ofNat 39

/-- Lower-case hexadecimal digits, padded with zeros to a width. -/
def hex (width n : Nat) : List Char :=
  let ds := Nat.toDigits 16 n
  List.replicate (width - ds.length) '0' ++ ds

/-- A code that is not printable, by the shortest form that fits. -/
def codeEscape (n : Nat) : List Char :=
  if n < 0x100 then '\\' :: 'x' :: hex 2 n
  else if n < 0x10000 then '\\' :: 'u' :: hex 4 n
  else '\\' :: 'U' :: hex 8 n

/-- The delimiter that needs the fewest escapes, the apostrophe when in doubt. -/
def delimiter (cs : List Char) : Char :=
  if cs.contains apostrophe && !cs.contains '"' then '"' else apostrophe

/-- One code between the given delimiters. -/
def escapeIn (mark : Char) (n : Nat) : List Char :=
  let c := Char.ofNat n
  if isHalf n then codeEscape n
  else if c == mark || c == '\\' then ['\\', c]
  else if c == '\t' then ['\\', 't']
  else if c == '\n' then ['\\', 'n']
  else if c == '\r' then ['\\', 'r']
  else if isPrintable c then [c]
  else codeEscape n

def quoted (s : String) : String :=
  let cs := s.toList
  let mark := delimiter cs
  String.ofList (mark :: ((codes cs).flatMap (escapeIn mark) ++ [mark]))

/-- The quoted form of a text, cut off after a number of characters. -/
def clipped (most : Nat) (s : String) : String := String.ofList ((quoted s).toList.take most)

/-- One byte between the given delimiters; a byte beyond ASCII is written by its number. -/
def escapeByte (mark : Char) (b : UInt8) : List Char :=
  if b < 0x7f then escapeIn mark b.toNat else '\\' :: 'x' :: hex 2 b.toNat

/-- The quoted form of bytes, which a small letter announces. -/
def quotedBytes (bs : List UInt8) : String :=
  let mark := delimiter (bs.map fun b => Char.ofNat b.toNat)
  String.ofList ('b' :: mark :: (bs.flatMap (escapeByte mark) ++ [mark]))

def bracketed (items : List String) : String :=
  "[" ++ ", ".intercalate items ++ "]"

def quotedList (items : List String) : String :=
  bracketed (items.map quoted)

end LogCursor.Text
