import LogCursor.Fault
import LogCursor.Text.Blank
import LogCursor.Text.Case
/-!
Reset strategies: where reading starts without a checkpoint. The earliest end replays everything that is
retained, the latest end skips it. A setting names an end by one of two words each, in any case and with
blanks around; no setting at all means the latest end.
-/
namespace LogCursor.Reset

def edge? (word : String) : Option Edge :=
  if word = "smallest" ∨ word = "earliest" then some .earliest
  else if word = "largest" ∨ word = "latest" then some .latest
  else none

def parse (value : Setting) : Except Fault Edge :=
  match value with
  | .null => .ok .latest
  | .edge e => .ok e
  | other =>
    if other.unwritable then .error .overlongNumber
    else match edge? (Text.smalls (Text.strip other.plain)) with
      | some e => .ok e
      | none => .error (.unknownReset other)

/-- A checkpoint that is absent or empty leaves the start to the reset strategy. -/
def IsDue (checkpoint : Option String) : Prop := checkpoint.getD "" = ""

instance (checkpoint : Option String) : Decidable (IsDue checkpoint) :=
  inferInstanceAs (Decidable (_ = _))

end LogCursor.Reset
