import LogCursor.Setting
/-!
The text of settings. Messages show a value in its literal form, where text is quoted and items stand
between brackets; as plain text a text stands for itself. A whole number beyond the digit limit has no
text, and neither has a value that holds one.
-/
namespace LogCursor

namespace Setting

mutual

def literal : Setting → String
  | .null => "None"
  | .bool b => if b then "True" else "False"
  | .int n => toString n
  | .float x => x.text
  | .text s => Text.quoted s
  | .day d => d.literal
  | .moment d t => Moment.literal d t
  | .bytes bs => Text.quotedBytes bs
  | .edge e => e.literal
  | .list items => Text.bracketed (literals items)
  | .map entries => "\x7b" ++ ", ".intercalate (entryLiterals entries) ++ "\x7d"
  | .set members => setLiteral members
  | .pairs entries => Text.bracketed (pairLiterals entries)
  | .knot k => k.literal

def literals : List Setting → List String
  | [] => []
  | item :: rest => literal item :: literals rest

def entryLiterals : List (Key × Setting) → List String
  | [] => []
  | (k, v) :: rest => (k.literal ++ ": " ++ literal v) :: entryLiterals rest

def pairLiterals : List (Setting × Setting) → List String
  | [] => []
  | (a, b) :: rest => ("(" ++ literal a ++ ", " ++ literal b ++ ")") :: pairLiterals rest

end

/-- The plain form of a value: a text stands for itself. -/
def plain : Setting → String
  | .text s => s
  | .edge .earliest => "OffsetResetStrategy.EARLIEST"
  | .edge .latest => "OffsetResetStrategy.LATEST"
  | .day d => d.text
  | .moment d t => d.text ++ " " ++ t.text
  | other => other.literal

def typeName : Setting → String
  | .null => "NoneType"
  | .bool _ => "bool"
  | .int _ => "int"
  | .float _ => "float"
  | .text _ => "str"
  | .day _ => "datetime.date"
  | .moment .. => "datetime.datetime"
  | .bytes _ => "bytes"
  | .edge _ => "OffsetResetStrategy"
  | .list _ => "list"
  | .map _ => "dict"
  | .set _ => "set"
  | .pairs _ => "list"
  | .knot k => if k.entries?.isSome then "dict" else "list"

mutual

/-- A value that holds a whole number beyond the digit limit, and so has no text. -/
def unwritable : Setting → Bool
  | .int n => Numeral.Overlong n
  | .list items => anyUnwritable items
  | .map entries => anyEntryUnwritable entries
  | .set members => members.any Key.unwritable
  | .pairs entries => anyPairUnwritable entries
  | .knot k => k.unwritable
  | _ => false

def anyUnwritable : List Setting → Bool
  | [] => false
  | item :: rest => unwritable item || anyUnwritable rest

def anyEntryUnwritable : List (Key × Setting) → Bool
  | [] => false
  | (k, v) :: rest => k.unwritable || unwritable v || anyEntryUnwritable rest

def anyPairUnwritable : List (Setting × Setting) → Bool
  | [] => false
  | (a, b) :: rest => unwritable a || unwritable b || anyPairUnwritable rest

end

@[simp] theorem unwritable_null : Setting.null.unwritable = false := by rw [unwritable] <;> nofun

@[simp] theorem unwritable_bool (b : Bool) : (Setting.bool b).unwritable = false := by rw [unwritable] <;> nofun

theorem unwritable_int (n : Int) : (Setting.int n).unwritable = decide (Numeral.Overlong n) := by rw [unwritable]

@[simp] theorem unwritable_float (x : Binary64) : (Setting.float x).unwritable = false := by rw [unwritable] <;> nofun

@[simp] theorem unwritable_text (s : String) : (Setting.text s).unwritable = false := by rw [unwritable] <;> nofun

@[simp] theorem unwritable_bytes (bs : List UInt8) : (Setting.bytes bs).unwritable = false := by
  rw [unwritable] <;> nofun

@[simp] theorem unwritable_edge (e : Edge) : (Setting.edge e).unwritable = false := by rw [unwritable] <;> nofun

theorem unwritable_list (items : List Setting) : (Setting.list items).unwritable = items.any unwritable := by
  rw [unwritable]
  induction items with
  | nil => rw [anyUnwritable, List.any_nil]
  | cons item rest ih => rw [anyUnwritable, ih, List.any_cons]

theorem unwritable_map (entries : List (Key × Setting)) :
    (Setting.map entries).unwritable = entries.any fun entry => entry.1.unwritable || entry.2.unwritable := by
  rw [unwritable]
  induction entries with
  | nil => rw [anyEntryUnwritable, List.any_nil]
  | cons entry rest ih => rw [anyEntryUnwritable, ih, List.any_cons]

end Setting
end LogCursor
