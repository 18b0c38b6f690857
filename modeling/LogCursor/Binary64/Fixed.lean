import LogCursor.Binary64
/-!
Doubles with a given count of digits: so many places after the point, or so many significant digits with an
exponent of ten. The digits are those of the exact value, rounded to the nearest, a tie going to the even
digit.
-/
namespace LogCursor.Binary64

/-- Digits with a point before the given number of places. -/
def pointed (n places : Nat) (keepPoint : Bool) : List Char :=
  let ds := Numeral.digits n
  let ds := List.replicate (places + 1 - ds.length) '0' ++ ds
  let front := ds.take (ds.length - places)
  if places = 0 then (if keepPoint then front ++ ['.'] else front)
  else front ++ '.' :: ds.drop (ds.length - places)

def withPlaces (num den places : Nat) (keepPoint : Bool) : List Char :=
  pointed (nearest (num * Nat.pow 10 places) den) places keepPoint

/-- The exponent of the largest power of ten not above a positive ratio. -/
def tenExponent (num den : Nat) : Int :=
  if den ≤ num then (Numeral.digits (num / den)).length - 1
  else
    let guess := (Numeral.digits (den / num)).length
    if den ≤ num * Nat.pow 10 (guess - 1) then -((guess : Int) - 1) else -guess

/-- The digits of a ratio, one more than the places, and the exponent of the first of them. -/
def leading (num den places : Nat) : Nat × Int :=
  if num = 0 then (0, 0)
  else
    let e := tenExponent num den
    let p := power 10 (places - e)
    let n := nearest (num * p.1) (den * p.2)
    if n = Nat.pow 10 (places + 1) then (Nat.pow 10 places, e + 1) else (n, e)

/-- An exponent of two digits at least, behind its letter. -/
def exponentText (e : Int) : List Char :=
  let ds := Numeral.digits e.natAbs
  'e' :: (if e < 0 then '-' else '+') :: (List.replicate (2 - ds.length) '0' ++ ds)

/-- A ratio with one digit before the point, so many places after it, and an exponent. -/
def withExponent (num den places : Nat) (keepPoint : Bool) : List Char :=
  let (n, e) := leading num den places
  pointed n places keepPoint ++ exponentText e

/-- The text without the zeros at its end, and without a point that they leave there. -/
def trimZeros (cs : List Char) : List Char :=
  if cs.contains '.' then
    let kept := cs.reverse.dropWhile (· == '0')
    (if kept.head? == some '.' then kept.drop 1 else kept).reverse
  else cs

/-- A ratio with so many significant digits: with an exponent where it is below -4 or not below the count,
and without zeros at the end unless the point is kept. -/
def withDigits (num den count : Nat) (keepPoint : Bool) : List Char :=
  let count := max count 1
  let (n, e) := leading num den (count - 1)
  let trim (cs : List Char) := if keepPoint then cs else trimZeros cs
  if -4 ≤ e ∧ e < count then trim (withPlaces num den (count - 1 - e).toNat keepPoint)
  else trim (pointed n (count - 1) keepPoint) ++ exponentText e

end LogCursor.Binary64
