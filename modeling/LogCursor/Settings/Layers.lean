import LogCursor.Settings.File
import LogCursor.Source
/-!
Layers of settings. The bundled file lies lowest, the chosen file over it, then the variables of the
environment that are not empty, and the flags on top. Variables and flags set one value each; files are
merged.
-/
namespace LogCursor

namespace Settings

def levelKey : String := "logging.level"

def formatKey : String := "logging.format"

/-- The variables of the environment and the settings they override. -/
def overrides : List (String × String) := [
  ("SOURCE_TOPIC", Source.topicKey),
  ("AUTO_OFFSET_RESET", Source.resetKey),
  ("MAX_EVENTS_PER_CYCLE", Source.capKey),
  ("LOG_LEVEL", levelKey),
  ("LOG_FORMAT", formatKey)]

def bundled : String := "# Default logingest configuration.
# Environment overrides: SOURCE_TOPIC, AUTO_OFFSET_RESET,
# MAX_EVENTS_PER_CYCLE, LOG_LEVEL, LOG_FORMAT

source:
  max_events_per_cycle: 1000000

auto:
  offset:
    reset: largest

logging:
  level: INFO
  format: json
"

structure Layers where
  bundled : Option File := none
  chosen : Option File := none
  environment : List (String × String) := []
  topic : Option Setting := none
  reset : Option Setting := none

/-- What layers hold: the mappings of both files, the variables and the flags, at hand in the same cells. -/
structure Sheets where
  cells : Cells
  lower : Nat
  upper : Nat
  environment : List (String × String)
  topic : Option Strand
  reset : Option Strand

namespace Sheets

/-- The settings of both files, merged. -/
def files (p : Sheets) : Except Fault Settings := do
  let (cells, n) := p.cells.add (.map [])
  merge (← merge ⟨cells, n⟩ p.lower) p.upper

def fromEnvironment (p : Sheets) : List (String × Strand) :=
  overrides.filterMap fun (name, path) =>
    match Assoc.get? name p.environment with
    | some text => if text = "" then none else some (path, .scalar (.text text))
    | none => none

def fromFlags (p : Sheets) : List (String × Strand) :=
  (p.topic.map fun t => (Source.topicKey, t)).toList ++
    (p.reset.map fun r => (Source.resetKey, r)).toList

def override (s : Settings) (values : List (String × Strand)) : Settings :=
  values.foldl (fun s entry => s.set entry.1 entry.2) s

def settings (p : Sheets) : Except Fault Settings := do
  return override (← p.files) (p.fromEnvironment ++ p.fromFlags)

end Sheets

namespace Layers

def optional (f : Option File) : Except Fault Knot :=
  match f with
  | some f => f.mapping
  | none => .ok ⟨[(0, .map [])], 0⟩

def layFlag (cells : Cells) : Option Setting → Cells × Option Strand
  | none => (cells, none)
  | some v =>
    let (cells, strand) := cells.lay v
    (cells, some strand)

def sheets (l : Layers) : Except Fault Sheets := do
  let (cells, lower) := Cells.absorb [] (← optional l.bundled)
  let (cells, upper) := cells.absorb (← optional l.chosen)
  let (cells, topic) := layFlag cells l.topic
  let (cells, reset) := layFlag cells l.reset
  return ⟨cells, lower, upper, l.environment, topic, reset⟩

def settings (l : Layers) : Except Fault Settings := do
  (← l.sheets).settings

end Layers

/-- Lays a value over settings; only a mapping can be. -/
def layer (s : Settings) (v : Setting) : Except Fault Settings :=
  let (s, strand) := s.lay v
  match s.cells.mapping? strand with
  | some n => s.merge n
  | none => .error (.lacking v.typeName "items")

end Settings

/-- The source that settings describe; a setting without a value counts as absent. -/
def Source.ofSettings (s : Settings) : Except Fault Source :=
  Source.ofProperties ([topicKey, resetKey, capKey].filterMap fun path =>
    match s.get path .null with
    | .null => none
    | v => some (.text path, v))

end LogCursor
