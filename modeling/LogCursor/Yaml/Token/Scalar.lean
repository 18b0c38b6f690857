import LogCursor.Yaml.Token
/-!
How scalars are read. A plain scalar ends before a comment, a mapping indicator or, in a flow collection,
an indicator of the flow; a quoted one at its delimiter; a block scalar where the indentation ends. Inside
the first two a single line break becomes a space, and of several the first one is dropped.
-/
namespace LogCursor.Yaml.Scan

/-- Line breaks that are folded: one becomes a space, and of several the first is dropped. A Unicode
separator is never dropped. -/
def folded (first others : List Char) : List Char :=
  if first != ['\n'] then first ++ others
  else if others.isEmpty then [' ']
  else others

def plainRun (flow : Bool) : List Char → List Char
  | [] => []
  | c :: rest =>
    let closes :=
      if c == ':' then
        endsItem rest.head? || (flow && rest.head?.any (",[]\x7b\x7d".toList.contains ·))
      else endsItem (some c) || (flow && ",?[]\x7b\x7d".toList.contains c)
    if closes then [] else c :: plainRun flow rest

/-- Spaces and line breaks, up to a document mark at the start of a line. -/
def breaksToMark : Scan (List Char × Bool) :=
  loop (fun done => do
    match ← peek with
    | some ' ' => skip 1; return .inl done
    | c? =>
      if c?.any isBreak then
        let done := done ++ (← lineBreak)
        if ← atDocumentMark then return .inr (done, true)
        return .inl done
      else return .inr (done, false)) []

/-- The blanks after a run of a plain scalar, folded, and whether they hold a line break. -/
def plainGap : Scan (List Char × Bool) := do
  let run ← takeWhile (· == ' ')
  if (← peek).any isBreak then
    let first ← lineBreak
    if ← atDocumentMark then return ([], true)
    let (others, marked) ← breaksToMark
    return (if marked then [] else folded first others, true)
  else return (run, false)

/-- A plain scalar, and whether a line break follows it. -/
def plain (flow : Bool) (indent : Int) : Scan (String × Bool) :=
  loop (fun (done, gap, broken) => do
    let result := (String.ofList (Text.ofChars done), broken)
    if (← peek) == some '#' then return .inr result
    let run := plainRun flow (← get).rest
    if run.isEmpty then return .inr result
    skip run.length
    let done := done ++ gap ++ run
    let (gap, broken) ← plainGap
    let outside := !flow && ((← column) : Int) < indent
    if gap.isEmpty || (← peek) == some '#' || outside then return .inr (String.ofList (Text.ofChars done), broken)
    return .inl (done, gap, broken)) ([], [], false)

def escaped? (c : Char) : Option Char :=
  match c with
  | '0' => some (Char.ofNat 0)
  | 'a' => some (Char.ofNat 7)
  | 'b' => some (Char.ofNat 8)
  | 't' | '\t' => some '\t'
  | 'n' => some '\n'
  | 'v' => some (Char.ofNat 0xb)
  | 'f' => some (Char.ofNat 0xc)
  | 'r' => some '\r'
  | 'e' => some (Char.ofNat 0x1b)
  | ' ' => some ' '
  | '"' => some '"'
  | '/' => some '/'
  | '\\' => some '\\'
  | 'N' => some (Char.ofNat 0x85)
  | '_' => some (Char.ofNat 0xa0)
  | 'L' => some (Char.ofNat 0x2028)
  | 'P' => some (Char.ofNat 0x2029)
  | _ => none

/-- How many hexadecimal digits follow the letter of an escape. -/
def codeLength? (c : Char) : Option Nat :=
  match c with
  | 'x' => some 2
  | 'u' => some 4
  | 'U' => some 8
  | _ => none

def ofCode (n : Nat) : Scan (List Char) :=
  if n < 0x110000 then return Text.ofCode n
  else if n < 0x80000000 then throw (.faulty (.raised .value "chr() arg not in range(0x110000)"))
  else throw (.faulty (.raised .overflow "Python int too large to convert to C int"))

/-- Blank lines in a quoted scalar, where no document mark may stand. -/
def quotedBreaks : Scan (List Char) :=
  loop (fun done => do
    if ← atDocumentMark then fail
    let _ ← takeWhile fun c => c == ' ' || c == '\t'
    if (← peek).any isBreak then return .inl (done ++ (← lineBreak)) else return .inr done) []

def escape : Scan (List Char) := do
  skip 1
  match ← peek with
  | none => fail
  | some c =>
    if let some e := escaped? c then
      skip 1
      return [e]
    else if let some n := codeLength? c then
      skip 1
      let ds := (← get).rest.take n
      match hexNumber? ds with
      | some code =>
        reach (n - 1)
        if ds.length < n then fail
        let chars ← ofCode code
        skip n
        return chars
      | none => fail
    else if isBreak c then
      let _ ← lineBreak
      quotedBreaks
    else fail

/-- The characters of a quoted scalar up to a blank, a break or the delimiter. -/
def quotedRun (double : Bool) : Scan (List Char) :=
  loop (fun done => do
    let run ← takeWhile fun c =>
      !(c == Text.apostrophe || c == '"' || c == '\\' || endsItem (some c))
    let done := done ++ Text.ofChars run
    match ← peek with
    | none => return .inr done
    | some c =>
      if !double && c == Text.apostrophe && (← peekAt 1) == some c then
        skip 2
        return .inl (done ++ [c])
      else if (double && c == Text.apostrophe) || (!double && (c == '"' || c == '\\')) then
        skip 1
        return .inl (done ++ [c])
      else if double && c == '\\' then return .inl (done ++ (← escape))
      else return .inr done) []

def quotedGap : Scan (List Char) := do
  let run ← takeWhile fun c => c == ' ' || c == '\t'
  match ← peek with
  | none => fail
  | some c =>
    if isBreak c then
      let first ← lineBreak
      return folded first (← quotedBreaks)
    else return run

def quoted (double : Bool) : Scan String := do
  let mark := if double then '"' else Text.apostrophe
  skip 1
  let first ← quotedRun double
  let chars ← loop (fun done => do
    if (← peek) == some mark then return .inr done
    let gap ← quotedGap
    return .inl (done ++ gap ++ (← quotedRun double))) first
  skip 1
  return String.ofList chars

/-- What becomes of the line breaks at the end of a block scalar. -/
inductive Chomping where
  | strip
  | clip
  | keep
deriving DecidableEq

def chomping? : Option Char → Option Chomping
  | some '+' => some .keep
  | some '-' => some .strip
  | _ => none

/-- The digit of an indentation, which is not zero. -/
def indentDigit : Scan (Option Nat) := do
  match ← peek with
  | some c =>
    if !c.isDigit then return none
    else if c == '0' then fail
    else
      skip 1
      return some (c.toNat - '0'.toNat)
  | none => return none

/-- Chomping and indentation, in either order. -/
def blockHeader : Scan (Chomping × Option Nat) := do
  let header ← match chomping? (← peek) with
    | some chomping => do
      skip 1
      pure (chomping, ← indentDigit)
    | none => do
      match ← indentDigit with
      | none => pure (.clip, none)
      | some n =>
        match chomping? (← peek) with
        | some chomping => do
          skip 1
          pure (chomping, some n)
        | none => pure (.clip, some n)
  if endsWord (← peek) then return header else fail

/-- Blank lines at the start of a block scalar, and the deepest column that is reached in them. -/
def leadingLines : Scan (List Char × Nat) :=
  loop (fun (breaks, deepest) => do
    match ← peek with
    | some ' ' =>
      skip 1
      return .inl (breaks, max deepest (← column))
    | c? =>
      if c?.any isBreak then return .inl (breaks ++ (← lineBreak), deepest)
      else return .inr (breaks, deepest)) ([], 0)

def spacesTo (indent : Nat) : Scan Unit := do
  let run := (← get).rest.takeWhile (· == ' ')
  skip (min run.length (indent - (← column)))

/-- Line breaks, each of them followed by spaces up to a column at most. -/
def blockBreaks (indent : Nat) : Scan (List Char) := do
  spacesTo indent
  loop (fun done => do
    if (← peek).any isBreak then
      let done := done ++ (← lineBreak)
      spacesTo indent
      return .inl done
    else return .inr done) []

/-- The lines of a block scalar, with the last break and the breaks after it. -/
def blockLines (fold : Bool) (indent : Nat) (breaks : List Char) :
    Scan (List Char × List Char × List Char) :=
  loop (fun (done, last, breaks) => do
    if (← column) != indent || (← peek).isNone then return .inr (done, last, breaks)
    let isText (c? : Option Char) : Bool := !(c? == some ' ' || c? == some '\t')
    let text := isText (← peek)
    let line ← takeWhile fun c => !isBreak c
    let done := done ++ breaks ++ line
    let last ← lineBreak
    let breaks ← blockBreaks indent
    if (← column) == indent && (← peek).isSome then
      if fold && last == ['\n'] && text && isText (← peek) then
        return .inl (if breaks.isEmpty then done ++ [' '] else done, last, breaks)
      else return .inl (done ++ last, last, breaks)
    else return .inr (done, last, breaks)) ([], [], breaks)

/-- A block scalar; `indent` is that of the collection around it. -/
def block (fold : Bool) (indent : Int) : Scan String := do
  skip 1
  let (chomping, increment) ← blockHeader
  restOfLine
  let least := (max (indent + 1) 1).toNat
  let (breaks, inner) ← match increment with
    | some n => do
      let inner := least + n - 1
      pure (← blockBreaks inner, inner)
    | none => do
      let (breaks, deepest) ← leadingLines
      pure (breaks, max least deepest)
  let (chars, last, trailing) ← blockLines fold inner breaks
  return String.ofList (Text.ofChars (match chomping with
    | .strip => chars
    | .clip => chars ++ last
    | .keep => chars ++ last ++ trailing))

end LogCursor.Yaml.Scan
