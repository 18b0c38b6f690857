import LogCursor.Notice
import LogCursor.Template
/-!
Statements: what a component tells its logger, by a method, with an event, values for the event as a
template, and named fields. A few names are kept for the logger itself: the arguments of its methods cannot
be fields, some fields steer how the entry is made, and those do not get into it.
-/
namespace LogCursor

inductive Method where
  | debug
  | info
  | warning
  | error
  | exception
  | critical
deriving DecidableEq

namespace Method

def name : Method → String
  | .debug => "debug"
  | .info => "info"
  | .warning => "warning"
  | .error => "error"
  | .exception => "exception"
  | .critical => "critical"

/-- The level of what is told; an exception is an error. -/
def level : Method → Level
  | .debug => .debug
  | .info => .info
  | .warning => .warning
  | .error => .error
  | .exception => .error
  | .critical => .critical

end Method

structure Statement where
  origin : String
  method : Method
  event : String
  values : List Setting
  fields : List (String × Setting)

namespace Statement

/-- The field that may hold the values of the template. -/
def valuesField : String := "positional_args"

/-- The field that may name the component in place of the logger. -/
def recordField : String := "_record"

/-- The fields that ask for the stack or the exception to be told. -/
def requests : List String := ["exc_info", "stack_info"]

def unfit {α : Type} (message : String) : Except Fault α := .error (.raised .conversion message)

/-- A field of the name of an argument, which has a value already. -/
def repeated {α : Type} (method argument : String) : Except Fault α :=
  unfit ("BoundLogger." ++ method ++ "() got multiple values for argument '" ++ argument ++ "'")

def checkNames (s : Statement) : Except Fault Unit := do
  let names := s.fields.map (·.1)
  if let some name := names.find? (["event", "self"].contains ·) then repeated s.method.name name
  if names.contains "method_name" then repeated "_proxy_to_logger" "method_name"

/-- The name of the component; a component without a name is at the root. -/
def component (s : Statement) : Except Fault String :=
  match (Assoc.get? recordField s.fields).getD .null with
  | .null => .ok (if s.origin = "" then "root" else s.origin)
  | record => .error (.lacking record.typeName "name")

def fieldFilling? (v : Setting) : Except Fault (Option Template.Filling) :=
  if v.isVoid then .ok none
  else match v with
    | .list [.map (entry :: rest)] => .ok (some (.single (.map (entry :: rest))))
    | .map [_] => .error (.missingEntry (.int 0))
    | .text _ | .list _ | .map _ => .ok (some (.single v))
    | other => unfit ("object of type '" ++ other.typeName ++ "' has no len()")

def filling? (s : Statement) : Except Fault (Option Template.Filling) :=
  if s.values.isEmpty then fieldFilling? ((Assoc.get? valuesField s.fields).getD .null)
  else .ok (some (.ofValues s.values))

/-- A field that gets into the entry; only an empty field for values does. -/
def isKept (s : Statement) (field : String × Setting) : Bool :=
  if field.1 = valuesField then
    match field.2 with
    | .null => s.values.isEmpty
    | _ => false
  else !requests.contains field.1

def entry (s : Statement) : Except Fault Entry := do
  s.checkNames
  let origin ← s.component
  let event ← match ← s.filling? with
    | some filling => Template.apply s.event filling
    | none => pure s.event
  return {
    origin := origin
    level := s.method.level
    event := event
    fields := s.fields.filter s.isKept
    isException := s.method == .exception }

end Statement
end LogCursor
