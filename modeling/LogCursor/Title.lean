import LogCursor.Partition
import LogCursor.Setting.Shown
/-!
Titles of topics. A topic is named by a text, or by an end of a log, whose word is then its name. Where an
end names the topic, messages show the end in place of the word, also in the names of its partitions.
-/
namespace LogCursor

inductive Title where
  | text (s : String)
  | edge (e : Edge)
deriving DecidableEq

namespace Title

/-- The title that a setting gives, if it can name a topic. -/
def ofSetting? : Setting → Option Title
  | .text s => some (.text s)
  | .edge e => some (.edge e)
  | _ => none

def toSetting : Title → Setting
  | .text s => .text s
  | .edge e => .edge e

def name : Title → String
  | .text s => s
  | .edge e => e.name

def shown (t : Title) : String := t.toSetting.plain

def topic (t : Title) (name : String) : String := if name = t.name then t.shown else name

def partition (t : Title) (p : Partition) : Partition := { p with topic := t.topic p.topic }

def range (t : Title) (r : Range) : Range := { r with partition := t.partition r.partition }

end Title
end LogCursor
