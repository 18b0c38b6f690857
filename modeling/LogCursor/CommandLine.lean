import LogCursor.Setting
import LogCursor.Text.Quoted
/-!
Command lines. Arguments are flags, most of them with an operand, and at most one command, which has flags
of its own and takes all arguments after it. A flag may be shortened as long as it stays unambiguous, its
operand may be joined by an equals sign, and the last of repeated flags counts. Negative numbers are no
flags, and after two hyphens nothing is; two hyphens that are joined to a flag give it an empty list.
-/
namespace LogCursor.CommandLine

inductive Operand where
  | help
  | text
  | whole
  | oneOf (choices : List String)
deriving DecidableEq

structure Flag where
  names : List String
  operand : Operand
  required : Bool := false
deriving DecidableEq

def helpFlag : Flag := { names := ["-h", "--help"], operand := .help }

namespace Flag

def title (f : Flag) : String := "/".intercalate f.names

def key (f : Flag) : String := f.names.headD ""

end Flag

inductive Complaint where
  | ambiguous (argument : String) (names : List String)
  | noOperand (title : String)
  | strayOperand (title text : String)
  | notWhole (title text : String)
  | badChoice (title text : String) (choices : List String)
  | missing (titles : List String)
  | unrecognized (arguments : List String)
deriving DecidableEq

def Complaint.message : Complaint → String
  | ambiguous a names => "ambiguous option: " ++ a ++ " could match " ++ ", ".intercalate names
  | noOperand t => "argument " ++ t ++ ": expected one argument"
  | strayOperand t s => "argument " ++ t ++ ": ignored explicit argument " ++ Text.quoted s
  | notWhole t s => "argument " ++ t ++ ": invalid int value: " ++ Text.quoted s
  | badChoice t s choices => "argument " ++ t ++ ": invalid choice: " ++ Text.quoted s ++
      " (choose from " ++ ", ".intercalate (choices.map Text.quoted) ++ ")"
  | missing titles => "the following arguments are required: " ++ ", ".intercalate titles
  | unrecognized arguments => "unrecognized arguments: " ++ " ".intercalate arguments

/-- Why the arguments give no reading: they ask for help, or a program complains about them. -/
inductive Stop where
  | help
  | complaint (program : String) (c : Complaint)
deriving DecidableEq

inductive Piece where
  | flag (f : Flag) (joined : Option String)
  | unknown
  | plain
  | hyphens

/-- A whole or pointed number behind a minus sign. -/
def isNegativeNumber (cs : List Char) : Bool :=
  let isDigit (c : Char) := (Text.digitValue? c).isSome
  match cs with
  | '-' :: body =>
    let body := if body.getLast? == some '\n' then body.dropLast else body
    let front := body.takeWhile isDigit
    match body.dropWhile isDigit with
    | [] => !front.isEmpty
    | '.' :: tail => !tail.isEmpty && tail.all isDigit
    | _ => false
  | _ => false

def splitEquals (cs : List Char) : List Char × Option String :=
  match cs.span (· != '=') with
  | (front, _ :: back) => (front, some (String.ofList back))
  | (front, []) => (front, none)

/-- The flags that an argument can be short for, with their full names. -/
def candidates (flags : List Flag) (cs : List Char) : List (String × Flag × Option String) :=
  let named := flags.flatMap fun f => f.names.map fun n => (n, f)
  if cs.take 2 == ['-', '-'] then
    let (front, joined) := splitEquals cs
    (named.filter fun entry => front.isPrefixOf entry.1.toList).map fun entry => (entry.1, entry.2, joined)
  else
    named.filterMap fun entry =>
      if entry.1.toList == cs.take 2 then
        some (entry.1, entry.2, some (String.ofList (cs.drop 2)))
      else if cs.isPrefixOf entry.1.toList then some (entry.1, entry.2, none)
      else none

def flagOf? (flags : List Flag) (name : String) : Option Flag :=
  flags.find? fun f => f.names.contains name

def classify (flags : List Flag) (argument : String) : Except Complaint Piece :=
  let cs := argument.toList
  let (front, joined) := splitEquals cs
  if cs.head? != some '-' then .ok .plain
  else if let some f := flagOf? flags argument then .ok (.flag f none)
  else if cs.length == 1 then .ok .plain
  else if let (some f, some j) := (flagOf? flags (String.ofList front), joined) then .ok (.flag f (some j))
  else
    match candidates flags cs with
    | [(_, f, j)] => .ok (.flag f j)
    | [] => .ok (if isNegativeNumber cs || cs.contains ' ' then .plain else .unknown)
    | several => .error (.ambiguous argument (several.map (·.1)))

def classifyAll (flags : List Flag) : List String → Except Complaint (List (String × Piece))
  | [] => .ok []
  | argument :: rest =>
    if argument = "--" then .ok ((argument, .hyphens) :: rest.map fun a => (a, .plain))
    else do
      let piece ← classify flags argument
      return (argument, piece) :: (← classifyAll flags rest)

/-- What arguments say: the values of flags, the command, and what nothing takes. -/
structure Reading where
  values : List (String × Setting) := []
  command : Option String := none
  extras : List String := []

namespace Reading

def value? (r : Reading) (name : String) : Option Setting := Assoc.get? name r.values

def text? (r : Reading) (name : String) : Option String :=
  match r.value? name with
  | some (.text s) => some s
  | _ => none

end Reading

def Flag.value (f : Flag) (text : String) : Except Complaint Setting :=
  if text = "--" then .ok (.list []) else
  match f.operand with
  | .help | .text => .ok (.text text)
  | .whole =>
    match Numeral.read text with
    | .ok n => .ok (.int n)
    | .error _ => .error (.notWhole f.title text)
  | .oneOf choices =>
    if choices.contains text then .ok (.text text) else .error (.badChoice f.title text choices)

/-- The letters behind a short flag for help, each of which has to be that flag again. -/
def checkLetters (f : Flag) : List Char → Except Complaint Unit
  | ['h'] => .ok ()
  | 'h' :: c :: rest => checkLetters f (c :: rest)
  | cs => .error (.strayOperand f.title (String.ofList cs))

def Reading.pass (r : Reading) (argument : String) : Reading := { r with extras := r.extras ++ [argument] }

def Reading.file (r : Reading) (f : Flag) (text : String) : Except Complaint Reading := do
  return { r with values := Assoc.put f.key (← f.value text) r.values }

/-- What comes of a flag for help with a joined operand, which it does not take. -/
def helpJoined (f : Flag) (argument joined : String) : Except Complaint Stop := do
  if argument.startsWith "--" then throw (.strayOperand f.title joined)
  checkLetters f joined.toList
  return .help

/-- Reads arguments in their order; `command` takes over at the first one that is no flag. -/
def read (program : String) (command : Option (List String → Except Stop Reading)) :
    List (String × Piece) → Reading → Except Stop Reading
  | [], r => .ok r
  | (argument, .unknown) :: rest, r => read program command rest (r.pass argument)
  | (argument, .flag f (some j)) :: rest, r =>
    if f.operand = .help then
      match helpJoined f argument j with
      | .ok stop => .error stop
      | .error c => .error (.complaint program c)
    else do
      let r ← (r.file f j).mapError (Stop.complaint program)
      read program command rest r
  | (_, .flag f none) :: (text, .plain) :: rest, r =>
    if f.operand = .help then .error .help
    else do
      let r ← (r.file f text).mapError (Stop.complaint program)
      read program command rest r
  | (_, .flag f none) :: _, _ =>
    .error (if f.operand = .help then .help else .complaint program (.noOperand f.title))
  | (argument, piece) :: rest, r =>
    match command, piece, rest with
    | none, _, _ => read program command rest (r.pass argument)
    | some _, .hyphens, [] => .ok (r.pass argument)
    | some run, _, _ => do
      let inner ← run (argument :: rest.map (·.1))
      return ⟨r.values ++ inner.values, inner.command, r.extras ++ inner.extras⟩

def checkRequired (program : String) (flags : List Flag) (r : Reading) : Except Stop Reading :=
  match flags.filter fun f => f.required && (Assoc.get? f.key r.values).isNone with
  | [] => .ok r
  | missing => .error (.complaint program (.missing (missing.map Flag.title)))

def readFlags (program : String) (flags : List Flag) (arguments : List String) : Except Stop Reading := do
  let pieces ← (classifyAll flags arguments).mapError (Stop.complaint program)
  checkRequired program flags (← read program none pieces {})

structure Interface where
  program : String
  flags : List Flag
  commands : List (String × List Flag)

namespace Interface

def readCommand (i : Interface) (arguments : List String) : Except Stop Reading :=
  let name := arguments.headD ""
  match Assoc.get? name i.commands with
  | none => .error (.complaint i.program (.badChoice "command" name (i.commands.map (·.1))))
  | some flags => do
    let r ← readFlags (i.program ++ " " ++ name) flags (arguments.drop 1)
    return { r with command := some name }

/-- Reads arguments; where there are commands, one of them is required. -/
def readAll (i : Interface) (arguments : List String) : Except Stop Reading :=
  if i.commands.isEmpty then readFlags i.program i.flags arguments
  else do
    let pieces ← (classifyAll i.flags arguments).mapError (Stop.complaint i.program)
    let r ← read i.program (some i.readCommand) pieces {}
    if r.command.isNone then throw (.complaint i.program (.missing ["command"]))
    checkRequired i.program i.flags r

/-- Reads arguments, all of which have to be recognized. -/
def parse (i : Interface) (arguments : List String) : Except Stop Reading := do
  let r ← i.readAll arguments
  if r.extras.isEmpty then return r
  else throw (.complaint i.program (.unrecognized r.extras))

end Interface
end LogCursor.CommandLine
