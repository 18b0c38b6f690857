import LogCursor.Yaml.Cursor
import LogCursor.Text.Utf8
/-!
The tokens of YAML, and how names, tags and directives are read. A tag is a handle with a suffix; a
directive at the start of a document tells the version or what a handle stands for.
-/
namespace LogCursor.Yaml

/-- A line before the start of a document. -/
inductive Directive where
  | version (major : Int)
  | handle (handle stands : String)
  | other
deriving DecidableEq

/-- The units of the text; `stop` stands where reading had to end. -/
inductive Token where
  | directive (d : Directive)
  | documentStart
  | documentEnd
  | sequenceStart
  | mappingStart
  | blockEnd
  | flowSequenceStart
  | flowSequenceEnd
  | flowMappingStart
  | flowMappingEnd
  | item
  | separator
  | key
  | value
  | alias (name : String)
  | anchor (name : String)
  | tag (handle : Option String) (suffix : String)
  | scalar (text : String) (plain : Bool)
  | streamEnd
  | stop (problem : Problem)

namespace Scan

def anchorName : Scan String := do
  skip 1
  let name ← takeWhile isNameChar
  let after ← peek
  let closed := endsItem after || after.any ("?:,]\x7d%@`".toList.contains ·)
  if name.isEmpty || !closed then fail else return String.ofList name

/-- The characters of a tag that stand for themselves; a percent sign begins an escape. -/
def isTagChar (c : Char) : Bool :=
  c.isAlphanum || "-;/?:@&=+$,_.!~*()[]".toList.contains c || c == Text.apostrophe

/-- The bytes of escapes in a row, each a percent sign with two hexadecimal digits. -/
def escapedBytes : Scan (List UInt8) :=
  loop (fun bytes => do
    if (← peek) != some '%' then return .inr bytes
    match ← peekAt 1, ← peekAt 2 with
    | some a, some b =>
      match hexNumber? [a, b] with
      | some n => skip 3; return .inl (bytes ++ [UInt8.ofNat n])
      | none => fail
    | _, _ => fail) []

/-- The text of a tag: plain characters and escapes, at least one of them. -/
def tagText : Scan String := do
  let chars ← loop (fun done => do
    let run ← takeWhile isTagChar
    if (← peek) == some '%' then
      match Text.decodeBlock (← escapedBytes) with
      | .ok (chars, []) => return .inl (done ++ run ++ chars)
      | _ => fail
    else return .inr (done ++ run)) []
  if chars.isEmpty then fail else return String.ofList chars

/-- A handle: one exclamation mark, or a name between two. -/
def handle : Scan String := do
  if (← peek) != some '!' then fail
  if (← peekAt 1) == some ' ' then
    skip 1
    return "!"
  skip 1
  let name ← takeWhile isNameChar
  if (← peek) != some '!' then fail
  skip 1
  return "!" ++ String.ofList name ++ "!"

/-- A handle stands before the end of the word: there is a second exclamation mark in it. -/
def hasHandle : Scan Bool := do
  let word := ((← get).rest.drop 1).takeWhile fun c => !endsWord (some c)
  if word.contains '!' then return true
  reach (word.length + 1)
  return false

def tag : Scan Token := do
  let after ← peekAt 1
  let t ← if after == some '<' then do
      skip 2
      let suffix ← tagText
      if (← peek) != some '>' then fail
      skip 1
      pure (Token.tag none suffix)
    else if endsItem after then do
      skip 1
      pure (Token.tag none "!")
    else if ← hasHandle then do
      let h ← handle
      pure (Token.tag (some h) (← tagText))
    else do
      skip 1
      pure (Token.tag (some "!") (← tagText))
  if endsWord (← peek) then return t else fail

def number : Scan Int := do
  let ds ← takeWhile Char.isDigit
  if ds.isEmpty then fail
  else if ds.length > Numeral.limit then throw (.faulty (.overlongNumeral ds.length))
  else return (Numeral.value ds : Int)

def version : Scan Directive := do
  spaces
  let major ← number
  if (← peek) != some '.' then fail
  skip 1
  let _ ← number
  if endsWord (← peek) then return .version major else fail

def handleMeaning : Scan Directive := do
  spaces
  let h ← handle
  if (← peek) != some ' ' then fail
  spaces
  let stands ← tagText
  if endsWord (← peek) then return .handle h stands else fail

def directive : Scan Token := do
  skip 1
  let name ← takeWhile isNameChar
  if name.isEmpty || !endsWord (← peek) then fail
  let d ← match String.ofList name with
    | "YAML" => version
    | "TAG" => handleMeaning
    | _ => do
      let _ ← takeWhile fun c => !isBreak c
      pure .other
  restOfLine
  return .directive d

end Scan
end LogCursor.Yaml
