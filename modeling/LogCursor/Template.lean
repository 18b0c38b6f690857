import LogCursor.Binary64.Fixed
import LogCursor.Fault
/-!
Templates: text in which percent signs stand for values. A place names a key or takes the next value, and
says how the value is written: flags, width, precision, and a letter for the kind of text. Every value has
to be used, unless a single collection is given, which may hold the values by name.
-/
namespace LogCursor.Template

/-- What a template is filled with: values in a row, or a single one. -/
inductive Filling where
  | several (values : List Setting)
  | single (value : Setting)

namespace Filling

def values : Filling → List Setting
  | several vs => vs
  | single v => [v]

/-- The collection that may hold values by name; a list counts as one, though it holds none by name. -/
def collection? : Filling → Option Setting
  | several _ => none
  | single (.map entries) => some (.map entries)
  | single (.list items) => some (.list items)
  | single _ => none

/-- Values in a row, where a single mapping that is not empty stands for itself. -/
def ofValues : List Setting → Filling
  | [.map (entry :: rest)] => single (.map (entry :: rest))
  | vs => several vs

end Filling

/-- What is left of a template and of its values. -/
structure Feed where
  rest : List Char
  position : Nat := 0
  values : List Setting
  collection : Option Setting

abbrev Fill := StateT Feed (Except Fault)

/-- How a place is written. -/
structure Place where
  left : Bool := false
  sign : Bool := false
  blank : Bool := false
  alternate : Bool := false
  zero : Bool := false
  width : Nat := 0
  precision : Option Nat := none
  conversion : Char := 's'

def unfit {α : Type} (message : String) : Except Fault α := .error (.raised .conversion message)

def malformed {α : Type} (message : String) : Except Fault α := .error (.raised .value message)

namespace Fill

def peek : Fill (Option Char) := do return (← get).rest.head?

def skip (n : Nat) : Fill Unit :=
  modify fun f => { f with rest := f.rest.drop n, position := f.position + n }

def takeWhile (p : Char → Bool) : Fill (List Char) := do
  let run := (← get).rest.takeWhile p
  skip run.length
  return run

def value : Fill Setting := do
  match (← get).values with
  | v :: rest =>
    modify fun f => { f with values := rest }
    return v
  | [] => unfit "not enough arguments for format string"

/-- The length of a key up to the bracket that closes it. -/
def keyLength : Nat → List Char → Option Nat
  | _, [] => none
  | depth, '(' :: rest => (keyLength (depth + 1) rest).map (· + 1)
  | 0, ')' :: _ => some 0
  | depth + 1, ')' :: rest => (keyLength depth rest).map (· + 1)
  | depth, _ :: rest => (keyLength depth rest).map (· + 1)

/-- A key between brackets, whose value becomes the only one. -/
def key : Fill Unit := do
  if (← peek) != some '(' then return
  match (← get).collection with
  | none => unfit "format requires a mapping"
  | some held =>
    skip 1
    let rest := (← get).rest
    match keyLength 0 rest with
    | none => malformed "incomplete format key"
    | some n =>
      let name := String.ofList (rest.take n)
      skip (n + 1)
      match held.entries? with
      | none => unfit "list indices must be integers or slices, not str"
      | some entries =>
        match Assoc.get? (Key.text name) entries with
        | some v => modify fun f => { f with values := [v] }
        | none => (.error (.missingEntry (.text name)) : Except Fault Unit)

/-- A number that a place can tell: its name, its largest value, and the type that holds it. -/
structure Measure where
  name : String
  bound : Nat
  type : String

def width : Measure := ⟨"width", 0x7fffffffffffffff, "C ssize_t"⟩

def precision : Measure := ⟨"precision", 0x7fffffff, "C int"⟩

/-- A number in the template, or one that a star takes from the values. -/
def measure (m : Measure) : Fill Int := do
  if (← peek) == some '*' then
    skip 1
    match ← value with
    | .int n =>
      if n < -(m.bound : Int) - 1 ∨ (m.bound : Int) < n then
        throw (.raised .overflow ("Python int too large to convert to " ++ m.type)) else return n
    | .bool b => return if b then 1 else 0
    | _ => unfit "* wants int"
  else
    let n := Numeral.value (← takeWhile Numeral.isDigit)
    if m.bound < n then malformed (m.name ++ " too big") else return n

def place : Fill Place := do
  let flags ← takeWhile ("-+ #0".toList.contains ·)
  let width ← measure width
  let precision ← if (← peek) == some '.' then do
      skip 1
      pure (some (← measure precision).toNat)
    else pure none
  if (← peek).any ("hlL".toList.contains ·) then skip 1
  match ← peek with
  | none => malformed "incomplete format"
  | some c =>
    skip 1
    return {
      left := flags.contains '-' || width < 0
      sign := flags.contains '+'
      blank := flags.contains ' '
      alternate := flags.contains '#'
      zero := flags.contains '0'
      width := width.natAbs
      precision := precision
      conversion := c }

end Fill

namespace Place

def pad (p : Place) (cs : List Char) : List Char :=
  let fill := List.replicate (p.width - (Text.codes cs).length) ' '
  if p.left then cs ++ fill else fill ++ cs

/-- Digits in their width, behind a sign and the mark of a base. -/
def padNumber (p : Place) (negative : Bool) (base digits : List Char) : List Char :=
  let sign := if negative then ['-'] else if p.sign then ['+'] else if p.blank then [' '] else []
  if p.zero && !p.left then
    let zeros := List.replicate (p.width - (sign.length + base.length + digits.length)) '0'
    sign ++ base ++ zeros ++ digits
  else p.pad (sign ++ base ++ digits)

def text (p : Place) (s : String) : List Char :=
  let cs := s.toList
  p.pad (match p.precision with
    | some n => ((Text.codes cs).take n).flatMap Text.ofCode
    | none => cs)

def baseMark (p : Place) : List Char :=
  if !p.alternate then []
  else match p.conversion with
    | 'x' => ['0', 'x']
    | 'X' => ['0', 'X']
    | 'o' => ['0', 'o']
    | _ => []

def whole (p : Place) (n : Int) : Except Fault (List Char) :=
  let base := match p.conversion with
    | 'x' => 16
    | 'X' => 16
    | 'o' => 8
    | _ => 10
  if base = 10 ∧ Numeral.Overlong n then .error .overlongNumber
  else
    let ds := Nat.toDigits base n.natAbs
    let ds := if p.conversion == 'X' then ds.map Char.toUpper else ds
    let ds := List.replicate (p.precision.getD 0 - ds.length) '0' ++ ds
    .ok (p.padNumber (n < 0) p.baseMark ds)

/-- The whole number of a value, cut off at the point where the conversion is decimal. -/
def wholeValue (p : Place) (v : Setting) : Except Fault Int :=
  let decimal := p.conversion == 'd' || p.conversion == 'i' || p.conversion == 'u'
  let refuse : Except Fault Int :=
    unfit ("%" ++ p.conversion.toString ++ " format: " ++
      (if decimal then "a real number" else "an integer") ++ " is required, not " ++ v.typeName)
  match v with
  | .int n => .ok n
  | .bool b => .ok (if b then 1 else 0)
  | .float x =>
    if !decimal then refuse
    else match x, x.truncate? with
      | _, some n => .ok n
      | .nan, none => malformed "cannot convert float NaN to integer"
      | _, none => .error .infiniteCap
  | _ => refuse

def realValue (v : Setting) : Except Fault Binary64 :=
  let ofInt (n : Int) : Except Fault Binary64 :=
    match Binary64.ofRatio (n < 0) n.natAbs 1 with
    | .infinite _ => .error (.raised .overflow "int too large to convert to float")
    | x => .ok x
  match v with
  | .int n => ofInt n
  | .bool b => ofInt (if b then 1 else 0)
  | .float x => .ok x
  | _ => unfit ("must be real number, not " ++ v.typeName)

def real (p : Place) (x : Binary64) : List Char :=
  let c := p.conversion.toLower
  let places := p.precision.getD 6
  let (negative, cs) := match x with
    | .nan => (false, "nan".toList)
    | .infinite negative => (negative, "inf".toList)
    | .finite negative m q =>
      let (num, den) := Binary64.ratio m q
      (negative,
        if c == 'f' then Binary64.withPlaces num den places p.alternate
        else if c == 'e' then Binary64.withExponent num den places p.alternate
        else Binary64.withDigits num den places p.alternate)
  p.padNumber negative [] (if c == p.conversion then cs else cs.map Char.toUpper)

def character (p : Place) (v : Setting) : Except Fault (List Char) :=
  let ofCode (n : Int) : Except Fault (List Char) :=
    if 0 ≤ n ∧ n < 0x110000 then .ok (p.pad (Text.ofCode n.toNat))
    else .error (.raised .overflow "%c arg not in range(0x110000)")
  match v with
  | .int n => ofCode n
  | .bool b => ofCode (if b then 1 else 0)
  | .text s => match Text.codes s.toList with
    | [n] => .ok (p.pad (Text.ofCode n))
    | _ => unfit "%c requires int or char"
  | _ => unfit "%c requires int or char"

/-- The most characters that a value can be written with. -/
def roomiest : Nat := 1000000000

/-- There is room for a value with a number of digits in its width. -/
def checkRoom (p : Place) (digits : Nat) : Except Fault Unit :=
  if roomiest < max p.width digits then .error (.raised .memory "") else .ok ()

def plainLiteral (s : String) : String :=
  String.ofList ((Text.codes s.toList).flatMap fun n => if n < 0x80 then [Char.ofNat n] else Text.codeEscape n)

/-- A value at a place; `position` is that of the letter. -/
def write (p : Place) (position : Nat) (v : Setting) : Except Fault (List Char) := do
  let c := p.conversion
  if "sra".toList.contains c then
    if v.unwritable then throw .overlongNumber
    p.checkRoom 0
    return p.text (if c == 's' then v.plain else if c == 'r' then v.literal else plainLiteral v.literal)
  else if "diuxXo".toList.contains c then
    let n ← p.wholeValue v
    p.checkRoom (p.precision.getD 0)
    p.whole n
  else if "eEfFgG".toList.contains c then
    let x ← realValue v
    p.checkRoom (p.precision.getD 0)
    return p.real x
  else if c == 'c' then
    p.checkRoom 0
    p.character v
  else
    let shown := if 0x1f < c.toNat && c.toNat < 0x7f then c else '?'
    malformed ("unsupported format character '" ++ shown.toString ++ "' (0x" ++
      String.ofList (Nat.toDigits 16 c.toNat) ++ ") at index " ++ toString position)

end Place

def fill : Nat → List Char → Fill (List Char)
  | 0, done => return done
  | fuel + 1, done => do
    let plain ← Fill.takeWhile (· != '%')
    let done := done ++ plain
    match ← Fill.peek with
    | none => return done
    | some _ =>
      Fill.skip 1
      if (← Fill.peek) == some '%' then
        Fill.skip 1
        fill fuel (done ++ ['%'])
      else
        Fill.key
        let p ← Fill.place
        let v ← Fill.value
        let shown ← p.write ((← get).position - 1) v
        fill fuel (done ++ shown)

def apply (template : String) (filling : Filling) : Except Fault String := do
  let feed : Feed :=
    { rest := template.toList, values := filling.values, collection := filling.collection? }
  let (done, feed) ← (fill (template.length + 1) []).run feed
  if feed.collection.isNone && !feed.values.isEmpty then
    unfit "not all arguments converted during string formatting"
  else return String.ofList done

end LogCursor.Template
