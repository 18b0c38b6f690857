import LogCursor.CommandLine
import LogCursor.Log
import LogCursor.Planner
import LogCursor.Settings.Layers
/-!
The planning command. Settings come from the layers, the log is set up, and the plan is printed. A fault of
the settings or of the request ends the program with a line that tells it; any other fault leaves it.
-/
namespace LogCursor

/-- What a program finds around it: the files, the variables of the environment, and the time. -/
structure Surroundings where
  content : String → Settings.Content
  bundled : Option Settings.File
  environment : List (String × String)
  time : String

/-- How a program ends, and what it has written. -/
structure Report where
  exit : Nat
  output : List String
  errors : List String
deriving DecidableEq

namespace Report

def failed (errors : List String) : Report := ⟨2, [], errors⟩

def errorLine (f : Fault) : String := "error: " ++ f.message

def ofStop : CommandLine.Stop → Report
  | .help => ⟨0, [], []⟩
  | .complaint program c => failed [program ++ ": error: " ++ c.message]

end Report

namespace Planner
open CommandLine (Interface Reading)

def interface : Interface where
  program := "logingest"
  flags := [
    CommandLine.helpFlag,
    { names := ["--config"], operand := .text },
    { names := ["--log-level"], operand := .oneOf ["DEBUG", "INFO", "WARNING", "ERROR"] },
    { names := ["--log-format"], operand := .oneOf ["json", "console"] }]
  commands := [("plan", [
    CommandLine.helpFlag,
    { names := ["--topic"], operand := .text },
    { names := ["--heads"], operand := .text, required := true },
    { names := ["--checkpoint"], operand := .text },
    { names := ["--earliest"], operand := .text },
    { names := ["--reset"], operand := .text },
    { names := ["--budget"], operand := .whole }])]

def budgetOf (r : Reading) : Budget :=
  match r.value? "--budget" with
  | some (.int n) => .count n
  | some _ => .list
  | none => .ofSource

def request (r : Reading) : Request where
  heads := (r.text? "--heads").getD ""
  checkpoint := (r.text? "--checkpoint").getD ""
  earliest := (r.text? "--earliest").getD ""
  budget := budgetOf r

/-- The layers that the arguments choose; an empty path chooses no file. -/
def layers (s : Surroundings) (r : Reading) : Settings.Layers where
  bundled := s.bundled
  chosen := ((r.text? "--config").filter (· ≠ "")).map fun path => ⟨path, s.content path⟩
  environment := s.environment
  topic := r.value? "--topic"
  reset := r.value? "--reset"

def defaultLevel : String := "WARNING"

def defaultForm : String := "console"

/-- A flag if it is given, and otherwise the setting. -/
def flagOr (flag : Option String) (settings : Settings) (path default : String) : Setting :=
  match flag with
  | some s => .text s
  | none => settings.get path (.text default)

def log (r : Reading) (settings : Settings) : Except Fault Log :=
  Log.make (flagOr (r.text? "--log-level") settings Settings.levelKey defaultLevel)
    (flagOr (r.text? "--log-format") settings Settings.formatKey defaultForm) .null

def isSetup (f : Fault) : Bool := f.kind == .configuration || f.kind.isValue

def isPermanent (f : Fault) : Bool := f.kind.family == .permanent || f.kind.isValue

/-- A notice that holds a number without a text. -/
def isUnwritable (n : Notice) : Bool := n.fields.any fun field => field.2.unwritable

/-- An outcome up to the first notice that cannot be written, which is a fault. -/
def written {α : Type} (x : Outcome α) : Outcome α :=
  if x.notices.any isUnwritable then
    ⟨x.notices.takeWhile fun n => !isUnwritable n, .error .overlongNumber⟩
  else x

def planned (r : Reading) (settings : Settings) : Outcome Plan :=
  written do
    let source ← Outcome.ofExcept (Source.ofSettings settings)
    plan source (request r)

def report (s : Surroundings) (log : Log) (x : Outcome Plan) : Except Fault Report := do
  let lines (notices : List Notice) := log.lines s.time (notices.map Notice.entry)
  match x.result with
  | .ok p => return ⟨0, [← p.text], lines x.notices⟩
  | .error f =>
    if isPermanent f then
      return .failed (lines (x.notices ++ [.planningFailed f.message]) ++ [Report.errorLine f])
    else throw f

def run (s : Surroundings) (arguments : List String) : Except Fault Report :=
  match interface.parse arguments with
  | .error stop => .ok (.ofStop stop)
  | .ok r =>
    let setup : Except Fault (Settings × Log) := do
      let settings ← (layers s r).settings
      return (settings, ← log r settings)
    match setup with
    | .error f => if isSetup f then .ok (.failed [Report.errorLine f]) else .error f
    | .ok (settings, log) => report s log (planned r settings)

end Planner
end LogCursor
