import LogCursor.Numeral
/-!
Double-precision numbers as exact values. A finite number is a sign, a mantissa below 2^53 and an
exponent of two not below -1074; every result is rounded to the nearest such number, a tie going to
the even mantissa. Nothing here uses machine floats, so each number is open to proof.
-/
namespace LogCursor

/-- A double-precision number; `finite` stands for mantissa times two to the exponent. -/
inductive Binary64 where
  | finite (negative : Bool) (mantissa : Nat) (exponent : Int)
  | infinite (negative : Bool)
  | nan
deriving DecidableEq

namespace Binary64

def lowest : Int := -1074

def highest : Int := 971

def zero : Binary64 := .finite false 0 lowest

/-- Two to an exponent, as numerator and denominator. -/
def power (b : Nat) (e : Int) : Nat × Nat :=
  if 0 ≤ e then (Nat.pow b e.toNat, 1) else (1, Nat.pow b (-e).toNat)

/-- The quotient rounded to the nearest whole number, a tie going to the even one. -/
def nearest (num den : Nat) : Nat :=
  let q := num / den
  let r := num % den
  if 2 * r < den then q
  else if den < 2 * r then q + 1
  else if q % 2 = 0 then q else q + 1

/-- The exponent of the largest power of two not above a positive ratio. -/
def binaryExponent (num den : Nat) : Int :=
  let e : Int := (num.log2 : Int) - den.log2
  let p := power 2 e
  if den * p.1 ≤ num * p.2 then e else e - 1

def ofRatio (negative : Bool) (num den : Nat) : Binary64 :=
  if num = 0 then .finite negative 0 lowest
  else
    let q := max lowest (binaryExponent num den - 52)
    let p := power 2 q
    let m := nearest (num * p.2) (den * p.1)
    let (m, q) := if m = Nat.pow 2 53 then (Nat.pow 2 52, q + 1) else (m, q)
    if highest < q then .infinite negative else .finite negative m q

def ofDecimal (negative : Bool) (n : Nat) (e : Int) : Binary64 :=
  let size : Int := (Numeral.digits n).length + e
  if n = 0 then .finite negative 0 lowest
  else if 310 < size then .infinite negative
  else if size < -330 then .finite negative 0 lowest
  else
    let p := power 10 e
    ofRatio negative (n * p.1) p.2

def ratio (m : Nat) (q : Int) : Nat × Nat :=
  let p := power 2 q
  (m * p.1, p.2)

/-- The whole number nearest towards zero, for a finite number. -/
def truncate? : Binary64 → Option Int
  | .finite negative m q =>
    let (num, den) := ratio m q
    let n : Int := (num / den : Nat)
    some (if negative then -n else n)
  | _ => none

def negate : Binary64 → Binary64
  | .finite negative m q => .finite (!negative) m q
  | .infinite negative => .infinite (!negative)
  | .nan => .nan

/-- The rounded product of a number with a positive whole number that is rounded first. -/
def scale (x : Binary64) (n : Nat) : Binary64 :=
  match x, ofRatio false n 1 with
  | .finite negative a p, .finite _ b q =>
    let (u, v) := ratio a p
    let (s, t) := ratio b q
    ofRatio negative (u * s) (v * t)
  | .nan, _ => .nan
  | .infinite negative, _ => .infinite negative
  | .finite negative .., _ => .infinite negative

def signed (negative : Bool) (n : Nat) : Int := if negative then -n else n

/-- The rounded sum of two numbers; it is negative zero only if both of them are. -/
def plus : Binary64 → Binary64 → Binary64
  | .finite a m p, .finite b n q =>
    let (u, v) := ratio m p
    let (s, t) := ratio n q
    let sum := signed a (u * t) + signed b (s * v)
    if sum = 0 then .finite (a && b) 0 lowest else ofRatio (sum < 0) sum.natAbs (v * t)
  | .infinite a, .infinite b => if a == b then .infinite a else .nan
  | .infinite a, .finite .. => .infinite a
  | .finite .., .infinite b => .infinite b
  | _, _ => .nan

/-- The whole number that a finite number equals, if it is one. -/
def whole? (x : Binary64) : Option Int :=
  match x with
  | .finite _ m q =>
    let (num, den) := ratio m q
    if num % den = 0 then x.truncate? else none
  | _ => none

def cut (p : Char → Bool) (cs : List Char) : List Char × List Char :=
  cs.span fun c => !p c

/-- Reads digits with an optional point and an optional exponent. -/
def readUnsigned? (negative : Bool) (cs : List Char) : Option Binary64 :=
  let (front, back) := cut (fun c => c == 'e' || c == 'E') cs
  let (before, after) := cut (· == '.') front
  let after := after.drop 1
  let ds := before ++ after
  let power? : Option Int := match back with
    | [] => some 0
    | _ :: '-' :: e => if e ≠ [] && e.all Numeral.isDigit then some (-(Numeral.value e : Int)) else none
    | _ :: '+' :: e => if e ≠ [] && e.all Numeral.isDigit then some (Numeral.value e) else none
    | _ :: e => if e ≠ [] && e.all Numeral.isDigit then some (Numeral.value e) else none
  if ds ≠ [] && ds.all Numeral.isDigit then
    power?.map fun e => ofDecimal negative (Numeral.value ds) (e - after.length)
  else none

/-- A digit of any script as an ASCII digit. -/
def plainDigit (c : Char) : Char :=
  match Text.digitValue? c with
  | some d => Char.ofNat ('0'.toNat + d)
  | none => c

/-- Reads a number as it is written: margins, a sign, then digits of any script, or the word for infinity or
for no number in any case. -/
def read? (s : String) : Option Binary64 :=
  let (negative, body) := match Text.trimBy Text.isMargin s.toList with
    | '-' :: rest => (true, rest)
    | '+' :: rest => (false, rest)
    | rest => (false, rest)
  let word := String.ofList (body.map Char.toLower)
  if word = "inf" ∨ word = "infinity" then some (.infinite negative)
  else if word = "nan" then some .nan
  else readUnsigned? negative (body.map plainDigit)

end Binary64
end LogCursor
