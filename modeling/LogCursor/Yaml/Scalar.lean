import LogCursor.Yaml.Token
import LogCursor.Text.Base64
import LogCursor.Text.Case
/-!
The values of scalars. A plain scalar is null, a truth value, a number or a moment when its text has one of
the forms of that type, and text otherwise; a tag can ask for a type whatever the form.
-/
namespace LogCursor.Yaml

inductive Tag where
  | null
  | bool
  | int
  | float
  | moment
  | text
  | merge
  | value
  | sequence
  | mapping
  | set
  | pairs
  | binary
  | unknown
deriving DecidableEq

namespace Tag

/-- What the tags of the standard types begin with. -/
def standard : String := "tag:yaml.org,2002:"

def ofName (name : String) : Tag :=
  let types := [("null", null), ("bool", bool), ("int", int), ("float", float), ("timestamp", moment),
    ("str", text), ("merge", merge), ("value", value), ("seq", sequence), ("map", mapping), ("set", set),
    ("omap", pairs), ("pairs", pairs), ("binary", binary)]
  ((types.find? fun entry => standard ++ entry.1 == name).map (·.2)).getD unknown

end Tag

namespace Scalar

/-- A digit, or an underscore, which separates digits. -/
def isSpaced (c : Char) : Bool := c.isDigit || c == '_'

/-- A word in small letters, capitalised or in capitals. -/
def isWord (words : List String) (cs : List Char) : Bool :=
  words.any fun w => cs == w.toList || cs == w.toUpper.toList || cs == w.capitalize.toList

def truths : List String := ["yes", "true", "on"]

def falsehoods : List String := ["no", "false", "off"]

def isNull (cs : List Char) : Bool := cs == [] || cs == ['~'] || isWord ["null"] cs

def unsigned (cs : List Char) : List Char :=
  match cs with
  | '+' :: rest => rest
  | '-' :: rest => rest
  | _ => cs

/-- What is left after groups of a colon and at most two digits below sixty, at least one of them. -/
def afterSixties : List Char → Option (List Char)
  | ':' :: a :: b :: rest =>
    if b.isDigit then
      if '0' ≤ a && a ≤ '5' then some ((afterSixties rest).getD rest) else none
    else if a.isDigit then some ((afterSixties (b :: rest)).getD (b :: rest))
    else none
  | [':', a] => if a.isDigit then some [] else none
  | _ => none

/-- The form of a whole number: binary, octal, decimal, hexadecimal or by sixties. -/
def isInt (cs : List Char) : Bool :=
  match unsigned cs with
  | ['0'] => true
  | '0' :: 'b' :: ds => !ds.isEmpty && ds.all fun c => c == '0' || c == '1' || c == '_'
  | '0' :: 'x' :: ds => !ds.isEmpty && ds.all fun c => (hexValue? c).isSome || c == '_'
  | '0' :: ds => ds.all fun c => ('0' ≤ c && c ≤ '7') || c == '_'
  | c :: ds =>
    let rest := ds.dropWhile isSpaced
    c.isDigit && (rest.isEmpty || afterSixties rest == some [])
  | [] => false

def isExponent (cs : List Char) : Bool :=
  match cs with
  | [] => true
  | e :: sign :: ds =>
    (e == 'e' || e == 'E') && (sign == '+' || sign == '-') && !ds.isEmpty && ds.all Char.isDigit
  | _ => false

def isFloat (cs : List Char) : Bool :=
  match cs with
  | '.' :: c :: ds =>
    (c.isDigit && isExponent (ds.dropWhile isSpaced)) || cs == ".nan".toList || cs == ".NaN".toList ||
      cs == ".NAN".toList || isInfinity cs
  | _ =>
    match unsigned cs with
    | c :: ds =>
      let rest := ds.dropWhile isSpaced
      (c.isDigit && match rest with
        | '.' :: tail => isExponent (tail.dropWhile isSpaced)
        | _ => match afterSixties rest with
          | some ('.' :: tail) => tail.all isSpaced
          | _ => false) || isInfinity (c :: ds)
    | [] => false
where
  isInfinity (cs : List Char) : Bool :=
    match cs with
    | '.' :: word => isWord ["inf"] word
    | _ => false

/-- One or two digits at the front, as a number with their count. -/
def shortNumber? : List Char → Option (Nat × Nat × List Char)
  | a :: b :: rest =>
    if !a.isDigit then none
    else if b.isDigit then some (Numeral.value [a, b], 2, rest)
    else some (Numeral.value [a], 1, b :: rest)
  | [a] => if a.isDigit then some (Numeral.value [a], 1, []) else none
  | [] => none

/-- A given count of digits at the front, as a number. -/
def fixedNumber? (count : Nat) (cs : List Char) : Option (Nat × List Char) :=
  let ds := cs.take count
  if ds.length == count && ds.all Char.isDigit then some (Numeral.value ds, cs.drop count) else none

def after? (c : Char) : List Char → Option (List Char)
  | d :: rest => if d == c then some rest else none
  | [] => none

def isGap (c : Char) : Bool := c == ' ' || c == '\t'

/-- The microseconds that digits after the point denote; further digits do not count. -/
def micros (ds : List Char) : Nat :=
  Numeral.value ((ds ++ List.replicate 6 '0').take 6)

/-- The distance of a zone in minutes, none at all for local time. -/
def zone? (cs : List Char) : Option (Option Int) :=
  match cs.dropWhile isGap with
  | [] => if cs.isEmpty then some none else none
  | ['Z'] => some (some 0)
  | sign :: rest => do
    if sign != '+' && sign != '-' then none
    let (hours, _, rest) ← shortNumber? rest
    let minutes ← match rest with
      | [] => some 0
      | _ => do
        let (n, rest) ← fixedNumber? 2 (← after? ':' rest)
        if rest.isEmpty then some n else none
    let total : Int := hours * 60 + minutes
    some (some (if sign == '-' then -total else total))

def clock? (cs : List Char) : Option Clock := do
  let body ← match cs with
    | 'T' :: rest => some rest
    | 't' :: rest => some rest
    | c :: rest => if isGap c then some (rest.dropWhile isGap) else none
    | [] => none
  let (hour, _, rest) ← shortNumber? body
  let (minute, rest) ← fixedNumber? 2 (← after? ':' rest)
  let (second, rest) ← fixedNumber? 2 (← after? ':' rest)
  let (fraction, rest) := match rest with
    | '.' :: tail => (tail.takeWhile Char.isDigit, tail.dropWhile Char.isDigit)
    | _ => ([], rest)
  return ⟨hour, minute, second, micros fraction, ← zone? rest⟩

/-- A date, with a time of day unless nothing follows it, and whether the date alone is in full form. -/
def moment? (cs : List Char) : Option (Day × Option Clock × Bool) := do
  let (year, rest) ← fixedNumber? 4 cs
  let (month, monthCount, rest) ← shortNumber? (← after? '-' rest)
  let (day, dayCount, rest) ← shortNumber? (← after? '-' rest)
  let d : Day := ⟨year, month, day⟩
  if rest.isEmpty then return (d, none, monthCount == 2 && dayCount == 2)
  else return (d, some (← clock? rest), true)

/-- A text without a single line feed at its end, which the forms pass over; a line feed alone stays. -/
def withoutBreak (cs : List Char) : List Char :=
  if 1 < cs.length && cs.getLast? == some '\n' then cs.dropLast else cs

/-- A sign of structure, which stands for no type. -/
def isSign (cs : List Char) : Bool := cs == ['!'] || cs == ['&'] || cs == ['*']

/-- The type that the form of a scalar gives it. -/
def tagOf (text : String) : Tag :=
  let cs := withoutBreak text.toList
  if isNull cs then .null
  else if isWord (truths ++ falsehoods) cs then .bool
  else if isInt cs then .int
  else if isFloat cs then .float
  else if cs == ['<', '<'] then .merge
  else if cs == ['='] then .value
  else if isSign cs then .unknown
  else if (moment? cs).any (·.2.2) then .moment
  else .text

/-- A fault of a scalar that is asked to have a type it cannot have. -/
def refuse {α : Type} (kind : Kind) (message : String) : Except Problem α :=
  .error (.faulty (.raised kind message))

def bool (text : String) : Except Problem Bool :=
  let word := Text.smalls text
  if truths.contains word then .ok true
  else if falsehoods.contains word then .ok false
  else refuse .missingKey word

/-- How much of a text the refusal of a whole number shows. -/
def shownLength : Nat := 200

def based (base : Nat) (cs : List Char) : Except Problem Int :=
  let text := String.ofList cs
  match Numeral.readIn base text with
  | .ok n => .ok n
  | .error (.overlong count) => .error (.faulty (.overlongNumeral count))
  | .error .malformed =>
    refuse .value ("invalid literal for int() with base " ++ toString base ++ ": " ++
      Text.clipped shownLength text)

/-- A number in the reading of sixties: each part counts sixty times the next one. -/
def sixties (parts : List Int) : Int := parts.foldl (fun n d => 60 * n + d) 0

/-- The fault of a number without characters. -/
def emptyNumber {α : Type} : Except Problem α := refuse .outOfBounds "string index out of range"

def int (text : String) : Except Problem Int := do
  let cs := text.toList.filter (· != '_')
  let negative := cs.head? == some '-'
  let n ← match cs, unsigned cs with
    | [], _ => emptyNumber
    | _, [] => emptyNumber
    | _, ['0'] => pure 0
    | _, '0' :: 'b' :: ds => based 2 ds
    | _, '0' :: 'x' :: ds => based 16 ds
    | _, '0' :: ds => based 8 ('0' :: ds)
    | _, ds => if ds.contains ':' then sixties <$> (ds.splitOn ':').mapM (based 10) else based 10 ds
  return if negative then -n else n

/-- A number with a point from its decimal text. -/
def pointed (cs : List Char) : Except Problem Binary64 :=
  match Binary64.read? (String.ofList cs) with
  | some x => .ok x
  | none => refuse .value ("could not convert string to float: " ++ Text.quoted (String.ofList cs))

/-- The rounded sum of parts, the last one first, each scaled by a higher power of sixty; a power that no
double comes near is a fault. -/
def pointedSixties (parts : List Binary64) : Except Problem Binary64 :=
  let sum := parts.foldr (fun x acc => (acc.1.plus (x.scale acc.2), acc.2 * 60)) (Binary64.zero, 1)
  let highest := Nat.pow 60 (parts.length - 1)
  match Binary64.ofRatio false highest 1 with
  | .infinite _ => refuse .overflow "int too large to convert to float"
  | _ => .ok sum.1

def float (text : String) : Except Problem Binary64 := do
  let cs := (Text.smalls (String.ofList (text.toList.filter (· != '_')))).toList
  let negative := cs.head? == some '-'
  let x ← match cs, unsigned cs with
    | [], _ => emptyNumber
    | _, body =>
      if body == ".inf".toList then pure (Binary64.infinite false)
      else if body == ".nan".toList then pure .nan
      else if body.contains ':' then do pointedSixties (← (body.splitOn ':').mapM pointed)
      else pointed body
  return if negative then x.negate else x

/-- The word for the number that is none; wherever it is written, it means the same one. -/
def isNanWord (text : String) : Bool :=
  unsigned (Text.smalls (String.ofList (text.toList.filter (· != '_')))).toList == ".nan".toList

def isLeap (year : Nat) : Bool := year % 4 == 0 && (year % 100 != 0 || year % 400 == 0)

def daysOf (year month : Nat) : Nat :=
  if month == 2 then (if isLeap year then 29 else 28)
  else if month == 4 || month == 6 || month == 9 || month == 11 then 30
  else 31

def checkDay (d : Day) : Except Problem Unit :=
  if d.year = 0 then refuse .value ("year " ++ toString d.year ++ " is out of range")
  else if d.month < 1 || 12 < d.month then refuse .value "month must be in 1..12"
  else if d.day < 1 || daysOf d.year d.month < d.day then refuse .value "day is out of range for month"
  else .ok ()

def checkClock (t : Clock) : Except Problem Unit :=
  if 23 < t.hour then refuse .value "hour must be in 0..23"
  else if 59 < t.minute then refuse .value "minute must be in 0..59"
  else if 59 < t.second then refuse .value "second must be in 0..59"
  else .ok ()

/-- The literal form of a distance in minutes, as days and seconds. -/
def distanceLiteral (minutes : Int) : String :=
  let days := Int.fdiv minutes 1440
  let seconds := Int.fmod minutes 1440 * 60
  "datetime.timedelta(days=" ++ toString days ++
    (if seconds = 0 then "" else ", seconds=" ++ toString seconds) ++ ")"

def checkZone (ahead : Int) : Except Problem Unit :=
  if ahead.natAbs < 1440 then .ok ()
  else refuse .value ("offset must be a timedelta strictly between -timedelta(hours=24) and " ++
    "timedelta(hours=24), not " ++ distanceLiteral ahead ++ ".")

def moment (text : String) : Except Problem Key := do
  match moment? (withoutBreak text.toList) with
  | none => refuse .attribute "'NoneType' object has no attribute 'groupdict'"
  | some (d, none, _) =>
    checkDay d
    return .day d
  | some (d, some t, _) =>
    if let some ahead := t.ahead then checkZone ahead
    checkDay d
    checkClock t
    return .moment d t

def binary (text : String) : Except Problem (List UInt8) :=
  match Text.ofBase64? text with
  | some bs => .ok bs
  | none => .error .malformed

/-- The value of a scalar of a type, at a place of its own in a document. The word for what is no number always
stands for the same. -/
def value (tag : Tag) (text document : String) (place : Nat) : Except Problem Key :=
  match tag with
  | .null => .ok .null
  | .bool => (bool text).map .bool
  | .int => (int text).map .int
  | .float => do
    match ← float text with
    | .nan => return if isNanWord text then .nan "" 0 else .nan document (place + 1)
    | x => return .float x
  | .moment => moment text
  | .text => .ok (.text text)
  | .binary => (binary text).map .bytes
  | _ => .error .malformed

end Scalar
end LogCursor.Yaml
