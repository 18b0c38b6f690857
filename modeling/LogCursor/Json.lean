import LogCursor.Setting.Shown
/-!
Settings as JSON text in ASCII. Characters outside printable ASCII are escaped by their UTF-16 units, and
a value that JSON has no form for is given by its literal form, as text. The text is on one line, or it has
a line for every item and entry.
-/
namespace LogCursor.Json

def unitEscape (n : Nat) : List Char := '\\' :: 'u' :: Text.hex 4 n

/-- One code between quotes. -/
def escape (n : Nat) : List Char :=
  let c := Char.ofNat n
  if c == '"' || c == '\\' then ['\\', c]
  else if c == '\n' then ['\\', 'n']
  else if c == '\r' then ['\\', 'r']
  else if c == '\t' then ['\\', 't']
  else if n == 0x8 then ['\\', 'b']
  else if n == 0xc then ['\\', 'f']
  else if 0x20 ≤ n && n ≤ 0x7e then [c]
  else if n < 0x10000 then unitEscape n
  else unitEscape (0xd800 + (n - 0x10000) / 0x400) ++ unitEscape (0xdc00 + (n - 0x10000) % 0x400)

def quoted (s : String) : String :=
  String.ofList ('"' :: ((Text.codes s.toList).flatMap escape ++ ['"']))

def number (x : Binary64) : String :=
  match x with
  | .nan => "NaN"
  | .infinite false => "Infinity"
  | .infinite true => "-Infinity"
  | finite => finite.text

def scalar (v : Setting) : String :=
  match v with
  | .null => "null"
  | .bool b => if b then "true" else "false"
  | .int n => toString n
  | .float x => number x
  | .text s => quoted s
  | other => quoted other.literal

def key (k : Key) : String :=
  match k with
  | .text s => quoted s
  | .null | .bool _ | .int _ | .float _ => quoted (scalar k.toSetting)
  | other => quoted other.literal

mutual

def line : Setting → String
  | .list items => "[" ++ ", ".intercalate (lineItems items) ++ "]"
  | .map entries => "\x7b" ++ ", ".intercalate (lineEntries entries) ++ "\x7d"
  | v => scalar v

def lineItems : List Setting → List String
  | [] => []
  | v :: rest => line v :: lineItems rest

def lineEntries : List (Key × Setting) → List String
  | [] => []
  | (k, v) :: rest => (key k ++ ": " ++ line v) :: lineEntries rest

end

/-- Parts on lines of their own, indented by two spaces for each level, between brackets. -/
def enclose (level : Nat) (opening closing : String) (parts : List String) : String :=
  if parts.isEmpty then opening ++ closing
  else
    let margin (n : Nat) := "\n" ++ String.ofList (List.replicate (2 * n) ' ')
    opening ++ margin (level + 1) ++ ("," ++ margin (level + 1)).intercalate parts ++ margin level ++ closing

mutual

def page (level : Nat) : Setting → String
  | .list items => enclose level "[" "]" (pageItems (level + 1) items)
  | .map entries => enclose level "\x7b" "\x7d" (pageEntries (level + 1) entries)
  | v => scalar v

def pageItems (level : Nat) : List Setting → List String
  | [] => []
  | v :: rest => page level v :: pageItems level rest

def pageEntries (level : Nat) : List (Key × Setting) → List String
  | [] => []
  | (k, v) :: rest => (key k ++ ": " ++ page level v) :: pageEntries level rest

end

end LogCursor.Json
