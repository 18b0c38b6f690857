import LogCursor.Text.Digit
/-!
Numerals. Decimal numerals are read and written in ASCII digits up to a limit of 4300; a whole number in
running text may also use the digits of any script, a sign, single underscores between digits, and a base
other than ten.
-/
namespace LogCursor.Numeral

/-- The most digits a numeral may have, leading zeros included. -/
def limit : Nat := 4300

/-- The decimal digits of a number, without superfluous zeros. -/
def digits (n : Nat) : List Char := Nat.toDigits 10 n

def isDigit (c : Char) : Bool := '0' ≤ c && c ≤ '9'

def value (cs : List Char) : Nat :=
  cs.foldl (fun n c => 10 * n + (c.toNat - '0'.toNat)) 0

/-- A number whose numeral would pass the limit. -/
def Overlong (n : Int) : Prop := Nat.pow 10 limit ≤ n.natAbs

theorem not_overlong_of_small {n : Int} (small : n.natAbs < Nat.pow 2 64) : ¬ Overlong n := by
  have below : ∀ k, 64 ≤ k → Nat.pow 2 64 ≤ Nat.pow 10 k := fun _ enough =>
    Nat.le_trans (Nat.pow_le_pow_left (by decide) 64) (Nat.pow_le_pow_right (by decide) enough)
  exact Nat.not_le.mpr (Nat.lt_of_lt_of_le small (below limit (by decide)))

-- A small number is told from its size alone, without the power.
instance (n : Int) : Decidable (Overlong n) :=
  if small : n.natAbs < Nat.pow 2 64 then isFalse (not_overlong_of_small small)
  else inferInstanceAs (Decidable (Nat.pow 10 limit ≤ n.natAbs))

/-- How the text of a whole number is found wanting. -/
inductive Defect where
  | malformed
  | overlong (count : Nat)
deriving DecidableEq

/-- The value of a digit: a decimal digit of any script, or a letter in a base beyond ten. -/
def digitIn? (base : Nat) (c : Char) : Option Nat :=
  let letter? : Option Nat :=
    if 'a' ≤ c && c ≤ 'z' then some (c.toNat - 'a'.toNat + 10)
    else if 'A' ≤ c && c ≤ 'Z' then some (c.toNat - 'A'.toNat + 10)
    else none
  ((Text.digitValue? c).or letter?).filter (· < base)

/-- A digit, or an underscore, which may separate digits. -/
def isRunChar (base : Nat) (c : Char) : Bool := c == '_' || (digitIn? base c).isSome

/-- Every underscore of a run stands between two digits. -/
def isSeparated : List Char → Bool
  | [] => true
  | ['_'] => false
  | '_' :: '_' :: _ => false
  | _ :: rest => isSeparated rest

/-- The letter behind a zero that announces a base. -/
def baseLetter? : Nat → Option Char
  | 2 => some 'b'
  | 8 => some 'o'
  | 16 => some 'x'
  | _ => none

/-- What follows the mark of a base, if it is there; one underscore may follow the mark. -/
def afterMark (base : Nat) (cs : List Char) : List Char :=
  match cs, baseLetter? base with
  | zero :: c :: rest, some letter =>
    if Text.digitValue? zero == some 0 && c.toLower == letter then
      match rest with
      | '_' :: more => more
      | _ => rest
    else cs
  | _, _ => cs

def valueIn (base : Nat) (cs : List Char) : Nat :=
  cs.foldl (fun n c => base * n + (digitIn? base c).getD 0) 0

/-- Reads a whole number in a base: margins, an optional sign, the mark of the base if there is one, then
digits. Only decimal numerals have a limit, and too many digits are told even when something else follows
them. -/
def readIn (base : Nat) (s : String) : Except Defect Int :=
  let body := Text.trimBy Text.isMargin s.toList
  let (negative, marked) := match body with
    | '-' :: rest => (true, rest)
    | '+' :: rest => (false, rest)
    | rest => (false, rest)
  let cs := afterMark base marked
  let run := cs.takeWhile (isRunChar base)
  let ds := run.filter (· != '_')
  if run.head? == some '_' || !isSeparated run then .error .malformed
  else if base = 10 ∧ limit < ds.length then .error (.overlong ds.length)
  else if ds.isEmpty || run.length < cs.length then .error .malformed
  else
    let n : Int := (valueIn base ds : Nat)
    .ok (if negative then -n else n)

def read (s : String) : Except Defect Int := readIn 10 s

end LogCursor.Numeral
