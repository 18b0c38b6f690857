import LogCursor.Binary64
/-!
The shortest decimal text of a double: the fewest digits that read back to the same number, and of
those the nearest. Each count of digits offers two candidates, the neighbours of the exact value on
that decimal grid.
-/
namespace LogCursor.Binary64

/-- The number of digits before the point of a positive ratio; zero or less below one tenth. -/
def decimalExponent (num den : Nat) : Int :=
  if den ≤ num then (Numeral.digits (num / den)).length
  else
    let rec climb : Nat → Nat → Int
      | 0, k => 1 - (k : Int)
      | fuel + 1, k => if den ≤ num * Nat.pow 10 k then 1 - (k : Int) else climb fuel (k + 1)
    climb 400 1

/-- The better of the two neighbours on the grid of a digit count, if one of them reads back. -/
def candidate? (m : Nat) (q : Int) (exponent : Int) (count : Nat) : Option (Nat × Int) :=
  let (num, den) := ratio m q
  let unit := exponent - count
  let p := power 10 (-unit)
  let low := num * p.1 / (den * p.2)
  let readsBack (n : Nat) : Bool := ofDecimal false n unit = .finite false m q
  let twice := 2 * (num * p.1)
  let middle := (2 * low + 1) * (den * p.2)
  match readsBack low, readsBack (low + 1) with
  | true, true =>
    let lowNearer := twice < middle || (twice == middle && low % 2 == 0)
    some (if lowNearer then low else low + 1, unit)
  | true, false => some (low, unit)
  | false, true => some (low + 1, unit)
  | false, false => none

/-- The shortest digits and their power of ten, for a positive finite number. -/
def shortest (m : Nat) (q : Int) : Nat × Int :=
  let (num, den) := ratio m q
  let exponent := decimalExponent num den
  ((List.range' 1 17).findSome? (candidate? m q exponent)).getD (num / den, 0)

/-- Where positional notation ends and how wide an exponent is at least. -/
structure Layout where
  least : Int
  most : Int
  exponentDigits : Nat

/-- The point may stand up to four places before the first digit or sixteen after it, and exponents have
two digits at least. -/
def standard : Layout := ⟨-4, 16, 2⟩

/-- Digits with the point after the given number of places. -/
def positional (ds : List Char) (point : Int) : List Char :=
  if point ≤ 0 then '0' :: '.' :: (List.replicate (-point).toNat '0' ++ ds)
  else
    let places := point.toNat
    let front := ds.take places ++ List.replicate (places - ds.length) '0'
    let back := ds.drop places
    front ++ '.' :: (if back.isEmpty then ['0'] else back)

/-- One digit before the point, and the exponent of ten. -/
def scientific (ds : List Char) (point : Int) (width : Nat) : List Char :=
  let e := point - 1
  let digits := Numeral.digits e.natAbs
  let padded := List.replicate (width - digits.length) '0' ++ digits
  let tail := ds.drop 1
  ds.take 1 ++ (if tail.isEmpty then [] else '.' :: tail) ++
    'e' :: (if e < 0 then '-' else '+') :: padded

def magnitude (m : Nat) (q : Int) : List Char :=
  if m = 0 then ['0', '.', '0']
  else
    let (n, e) := shortest m q
    let all := Numeral.digits n
    let point : Int := all.length + e
    let ds := (all.reverse.dropWhile (· == '0')).reverse
    if standard.least < point && point ≤ standard.most then positional ds point
    else scientific ds point standard.exponentDigits

def text : Binary64 → String
  | .finite negative m q => String.ofList ((if negative then ['-'] else []) ++ magnitude m q)
  | .infinite false => "inf"
  | .infinite true => "-inf"
  | .nan => "nan"

end LogCursor.Binary64
