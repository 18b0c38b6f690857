import LogCursor.Fault
import LogCursor.Json
import LogCursor.Notice
import LogCursor.Text.Case
/-!
The log. An entry becomes one line: a JSON object, or plain columns for a console with the fields in
alphabetical order. Every line names the application, the component, the level and the time; a field of one
of these names is overwritten. On a console the fields for a stack and an exception stand on lines below.
Entries below the level of the log are left out.
-/
namespace LogCursor

def Level.weight : Level → Nat
  | .debug => 10
  | .info => 20
  | .warning => 30
  | .error => 40
  | .critical => 50

namespace Entry

def application : String := "logingest"

def tagged (fields : List (String × Setting)) : List (String × Setting) :=
  Assoc.put "app" (.text application) fields

def parts (e : Entry) (time : String) : List (String × Setting) :=
  let named := Assoc.put "event" (.text e.event) e.fields
  let leveled := Assoc.put "level" (.text e.level.name) named
  let placed := Assoc.put "logger" (.text e.origin) leveled
  Assoc.put "timestamp" (.text time) (tagged placed)

def jsonLine (e : Entry) (time : String) : String :=
  Json.line (.map ((e.parts time).map fun part => (.text part.1, part.2)))

def column (width : Nat) (s : String) : String :=
  s ++ String.ofList (List.replicate (width - s.length) ' ')

def isDelimiting (c : Char) : Bool :=
  " \t=\r\n\"".toList.contains c || c == Text.apostrophe

def pair (field : String × Setting) : String :=
  field.1 ++ "=" ++ match field.2 with
    | .text s => if s.toList.any isDelimiting then Text.quoted s else s
    | v => v.literal

/-- The fields that stand elsewhere than among the named columns. -/
def placed : List String := ["", "timestamp", "level", "event", "logger", "logger_name", "stack", "exception"]

/-- The columns of an entry for a console: a field without a name, the fixed columns, another name of the
component, and the other fields by name. -/
def consoleColumns (e : Entry) (time : String) : List String :=
  let parts := e.parts time
  let unnamed := (Assoc.get? "" parts).map fun v => pair ("", v)
  let other := (Assoc.get? "logger_name" parts).map fun v => "[" ++ v.plain ++ "]"
  let named := (parts.filter fun part => !placed.contains part.1).mergeSort fun a b => !(b.1 < a.1 : Bool)
  unnamed.toList ++ [time, "[" ++ column 9 e.level.name ++ "]", column 30 e.event, "[" ++ e.origin ++ "]"] ++
    other.toList ++ named.map pair

/-- A field that stands on lines below, if it is given. -/
def below? (e : Entry) (name : String) : Option Setting :=
  (Assoc.get? name e.fields).filter fun v => match v with
    | .null => false
    | _ => true

/-- The line between a stack and an exception. -/
def divider : String := "\n\n" ++ String.ofList (List.replicate 79 '=') ++ "\n"

def consoleLine (e : Entry) (time : String) : String :=
  let exception := e.below? "exception"
  let trace := (e.below? "stack").map fun v =>
    "\n" ++ v.plain ++ if exception.isSome then divider else ""
  " ".intercalate (e.consoleColumns time) ++ trace.getD "" ++
    (exception.map fun v => "\n" ++ v.plain).getD ""

def checkBelow (e : Entry) : Except Fault Unit :=
  ["stack", "exception"].forM fun name =>
    match e.below? name with
    | none | some (.text _) => .ok ()
    | some v =>
      .error (.raised .conversion ("can only concatenate str (not \"" ++ v.typeName ++ "\") to str"))

/-- A line with what is known of the exception, which is nothing. -/
def withException (line : String) : String :=
  line ++ (if line.toList.getLast? == some '\n' then "" else "\n") ++ "NoneType: None"

end Entry

inductive LineForm where
  | json
  | console
deriving DecidableEq

/-- A log: what it leaves out, how it writes, and whether to the standard output or to that for errors. -/
structure Log where
  threshold : Nat
  form : LineForm
  toOutput : Bool
deriving DecidableEq

namespace Log

def thresholds : List (String × Nat) := [
  ("CRITICAL", 50), ("FATAL", 50), ("ERROR", 40), ("WARN", 30), ("WARNING", 30), ("INFO", 20),
  ("DEBUG", 10), ("NOTSET", 0)]

def threshold? (level : Setting) : Except Fault Nat :=
  match level with
  | .text name =>
    match Assoc.get? (Text.capitals name) thresholds with
    | some n => .ok n
    | none => .error (.unknownLevel level)
  | .bytes _ => .error (.unknownLevel level)
  | other => .error (.lacking other.typeName "upper")

def form? (format : Setting) : Except Fault LineForm :=
  match format with
  | .text "json" => .ok .json
  | .text "console" => .ok .console
  | other => if other.unwritable then .error .overlongNumber else .error (.unknownFormat other)

/-- A log from settings; the level is checked before the form. -/
def make (level format output : Setting) : Except Fault Log := do
  let threshold ← threshold? level
  let form ← form? format
  return ⟨threshold, form, match output with
    | .text "stdout" => true
    | _ => false⟩

/-- An entry has a line in the form of the log, be it left out or not. -/
def check (log : Log) (e : Entry) : Except Fault Unit :=
  match log.form with
  | .json => .ok ()
  | .console => e.checkBelow

def line? (log : Log) (time : String) (e : Entry) : Option String :=
  if e.level.weight < log.threshold then none
  else
    let line := match log.form with
      | .json => e.jsonLine time
      | .console => e.consoleLine time
    some (if e.isException then Entry.withException line else line)

def lines (log : Log) (time : String) (entries : List Entry) : List String :=
  entries.filterMap (log.line? time)

end Log
end LogCursor
