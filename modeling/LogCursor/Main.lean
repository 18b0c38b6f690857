import LogCursor.Planner.Command
import Std.Time
/-!
The program: it reads the chosen file, the variables and the clock, runs the planning command, and prints
what that reports.
-/
namespace LogCursor
open Std.Time (Timestamp PlainDateTime)

/-- What a path leads to in the file system. A directory is opened and cannot be read, so that error names no
file; where the way to the file leads through another file, opening fails, and the error names it. -/
def contentAt (path : String) : IO Settings.Content := do
  try
    return .bytes (← IO.FS.readBinFile path).toList
  catch
    | .noFileOrDirectory .. => return .obstacle .absent
    | .permissionDenied .. => return .obstacle .forbidden
    | .inappropriateType none .. => return .obstacle .directory
    | .inappropriateType (some _) .. => return .obstacle .notDirectory
    | .invalidArgument .. => return .obstacle .longName
    | e => throw e

def presentTime : IO String := do
  let now := PlainDateTime.ofWallTime ((← Timestamp.now).toWallTime .zero)
  let day : Day := ⟨now.year.toInt.toNat, now.month.val.toNat, now.day.val.toNat⟩
  let clock : Clock :=
    ⟨now.hour.val.toNat, now.minute.val.toNat, now.second.val.toNat, now.nanosecond.val.toNat / 1000, none⟩
  return day.text ++ "T" ++ clock.text ++ "Z"

def presentVariables : IO (List (String × String)) := do
  let found ← Settings.overrides.mapM fun (name, _) => do
    return (← IO.getEnv name).map fun value => (name, value)
  return found.filterMap id

def presentSurroundings (arguments : List String) : IO Surroundings := do
  let chosen := match Planner.interface.parse arguments with
    | .ok r => (r.text? "--config").getD ""
    | .error _ => ""
  let content ← contentAt chosen
  return {
    content := fun path => if path = chosen then content else .obstacle .absent
    bundled := some ⟨"default.yaml", .bytes Settings.bundled.toUTF8.toList⟩
    environment := ← presentVariables
    time := ← presentTime }

end LogCursor

open LogCursor in
def main (arguments : List String) : IO UInt32 := do
  match Planner.run (← presentSurroundings arguments) arguments with
  | .error f => throw (IO.userError f.message)
  | .ok report =>
    report.output.forM fun line => IO.println line
    report.errors.forM fun line => IO.eprintln line
    return report.exit.toUInt32
