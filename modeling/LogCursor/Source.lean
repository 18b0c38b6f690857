import LogCursor.Reset
import LogCursor.Checkpoint
/-!
Sources: which topic to read, where to start without a checkpoint, and how many records a cycle may read at
most. A source is built from loosely typed settings; its topic is never blank and can name a checkpoint,
and its cap is never zero.
-/
namespace LogCursor

/-- A topic that a source can read. -/
def IsTopic (topic : String) : Prop := ¬ Text.IsBlankText topic ∧ Checkpoint.Nameable topic

instance (topic : String) : Decidable (IsTopic topic) := inferInstanceAs (Decidable (_ ∧ _))

structure Source where
  title : Title
  edge : Edge
  cap : Nat
  isTopic : IsTopic title.name
  cap_pos : 0 < cap

namespace Source

def topic (s : Source) : String := s.title.name

def topicKey : String := "source.topic"

def resetKey : String := "auto.offset.reset"

def capKey : String := "source.max_events_per_cycle"

def defaultCap : Int := 1000000

/-- Refuses a value by showing it, unless it has no text. -/
def refuse {α : Type} (value : Setting) (fault : Setting → Fault) : Except Fault α :=
  if value.unwritable then .error .overlongNumber else .error (fault value)

def wholeOfBytes? (bs : List UInt8) : Option Int :=
  if bs.all (· < 0x80) then
    (Numeral.read (String.ofList (bs.map fun b => Char.ofNat b.toNat))).toOption
  else none

/-- The whole number that a setting gives: numbers are cut off at the point, text and bytes are read. -/
def whole (value : Setting) : Except Fault Int :=
  match value with
  | .int n => .ok n
  | .float x =>
    match x, x.truncate? with
    | _, some n => .ok n
    | .infinite _, none => .error .infiniteCap
    | _, none => .error (.notWhole value)
  | .text s =>
    match Numeral.read s with
    | .ok n => .ok n
    | .error _ => .error (.notWhole value)
  | .bytes bs =>
    match wholeOfBytes? bs with
    | some n => .ok n
    | none => .error (.notWhole value)
  | other => refuse other .notWhole

/-- A cap of at least one. -/
def capOf (n : Int) : Except Fault { cap : Nat // 0 < cap } :=
  if h : 1 ≤ n then .ok ⟨n.toNat, by omega⟩ else .error (Fault.notPositive n).worded

/-- A source from separate settings; the topic is checked first, then the reset strategy, then the cap. -/
def make (topic reset cap : Setting) : Except Fault Source :=
  match Title.ofSetting? topic with
  | none => .error .missingTopic
  | some title =>
    if blank : Text.IsBlankText title.name then .error .missingTopic
    else if nameable : Checkpoint.Nameable title.name then do
      let edge ← Reset.parse reset
      let n ← whole cap
      let c ← capOf n
      return ⟨title, edge, c.1, ⟨blank, nameable⟩, c.2⟩
    else .error (.separatorInTopic title.name)

/-- A source from properties filed by name; any topic is taken by its plain text. -/
def ofProperties (props : Entries) : Except Fault Source := do
  let topic := (Assoc.get? (Key.text topicKey) props).getD .null
  if let .null := topic then throw .missingTopic
  if topic.unwritable then throw .overlongNumber
  let edge ← Reset.parse ((Assoc.get? (Key.text resetKey) props).getD .null)
  let n ← whole ((Assoc.get? (Key.text capKey) props).getD (.int defaultCap))
  make (.text topic.plain) (.edge edge) (.int n)

end Source
end LogCursor
