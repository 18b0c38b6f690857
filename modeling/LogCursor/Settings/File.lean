import LogCursor.Settings
import LogCursor.Text.Utf8
import LogCursor.Yaml.Document
/-!
Settings from files. A file holds a mapping in YAML, or nothing, which counts as a mapping without entries; a
file that cannot be opened or read is a fault that names it.
-/
namespace LogCursor.Settings

/-- Why a path cannot be opened as a file. -/
inductive Obstacle where
  | absent
  | forbidden
  | notDirectory
  | directory
  | longName
deriving DecidableEq

namespace Obstacle

def text : Obstacle → String
  | .absent => "[Errno 2] No such file or directory"
  | .forbidden => "[Errno 13] Permission denied"
  | .notDirectory => "[Errno 20] Not a directory"
  | .directory => "[Errno 21] Is a directory"
  | .longName => "[Errno 36] File name too long"

end Obstacle

/-- What a path leads to. -/
inductive Content where
  | obstacle (o : Obstacle)
  | bytes (bs : List UInt8)

structure File where
  path : String
  content : Content

namespace File

/-- The reason why a file without settings in YAML is unreadable. -/
def malformed : String := "<yaml>"

/-- The bytes of a file that can be opened; no path holds the null character. -/
def bytes (f : File) : Except Fault (List UInt8) :=
  if f.path.toList.contains (Char.ofNat 0) then .error (.raised .value "embedded null byte")
  else match f.content with
    | .bytes bs => .ok bs
    | .obstacle o => .error (.unreadableFile f.path (o.text ++ ": " ++ Text.quoted f.path))

def value (f : File) : Except Fault (Strand × Cells) := do
  let (chars, fault) := Text.decode (← f.bytes)
  match Yaml.read f.path (.ofChars chars fault) with
  | .ok v => return v
  | .error .malformed => throw (.unreadableFile f.path malformed)
  | .error (.faulty fault) => throw fault

def mapping (f : File) : Except Fault Knot := do
  match ← f.value with
  | (.scalar .null, _) => return ⟨[(0, .map [])], 0⟩
  | (v, cells) =>
    match cells.mapping? v with
    | some n => return ⟨cells, n⟩
    | none => throw (.notMapping f.path)

end File
end LogCursor.Settings
