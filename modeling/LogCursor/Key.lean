import LogCursor.Assoc
import LogCursor.Binary64.Shortest
import LogCursor.Moment
import LogCursor.Text.Quoted
/-!
Keys: the scalars that can stand for a value in a mapping. Keys are compared by value, so that numbers of
different types can be the same key. What is no number equals itself only, so its place of origin is kept: a
document, and a place in it.
-/
namespace LogCursor

/-- A scalar that keys a mapping. -/
inductive Key where
  | text (s : String)
  | null
  | bool (b : Bool)
  | int (n : Int)
  | float (x : Binary64)
  | nan (document : String) (place : Nat)
  | day (d : Day)
  | moment (d : Day) (t : Clock)
  | bytes (bs : List UInt8)
deriving DecidableEq

namespace Key

/-- The whole number that a key equals; the truth values equal zero and one. -/
def whole? : Key → Option Int
  | .bool b => some (if b then 1 else 0)
  | .int n => some n
  | .float x => x.whole?
  | _ => none

/-- What keys are compared by: whole numbers and moments by value, all else by form. -/
inductive Face where
  | whole (n : Int)
  | moment (zoned : Bool) (instant : Int)
  | form (k : Key)
deriving DecidableEq

def face : Key → Face
  | .text s => .form (.text s)
  | .moment d t => .moment t.ahead.isSome (Moment.instant d t)
  | k => match k.whole? with
    | some n => .whole n
    | none => .form k

def same (a b : Key) : Bool := a.face == b.face

def literal : Key → String
  | .text s => Text.quoted s
  | .null => "None"
  | .bool b => if b then "True" else "False"
  | .int n => toString n
  | .float x => x.text
  | .nan .. => Binary64.nan.text
  | .day d => d.literal
  | .moment d t => Moment.literal d t
  | .bytes bs => Text.quotedBytes bs

/-- A whole number beyond the digit limit, which has no text. -/
def unwritable : Key → Bool
  | .int n => Numeral.Overlong n
  | _ => false

end Key

instance (priority := high) : BEq Key := ⟨Key.same⟩

namespace Key

theorem beq_iff {j k : Key} : (j == k) = true ↔ j.face = k.face :=
  show (j.face == k.face) = true ↔ _ from beq_iff_eq

instance : EquivBEq Key where
  rfl := beq_iff.mpr rfl
  symm same := beq_iff.mpr (beq_iff.mp same).symm
  trans first second := beq_iff.mpr ((beq_iff.mp first).trans (beq_iff.mp second))

/-- A text equals no other key. -/
theorem eq_of_beq_text {j : Key} {x : String} (same : j == .text x) : j = .text x := by
  have face : j.face = .form (.text x) := beq_iff.mp same
  unfold Key.face at face
  split at face
  · exact Face.form.inj face
  · cases face
  · split at face
    · cases face
    · exact Face.form.inj face

@[simp] theorem text_beq_text (x y : String) : (Key.text x == Key.text y) = (x == y) := by
  rw [Bool.eq_iff_iff, beq_iff]
  simp [face]

end Key

end LogCursor
