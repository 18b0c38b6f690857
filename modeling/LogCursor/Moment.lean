import LogCursor.Numeral
/-!
Days of the calendar and times of day. A time may name its zone; two moments with zones are the same when
they lie at the same distance from a common origin, whatever their zones.
-/
namespace LogCursor

structure Day where
  year : Nat
  month : Nat
  day : Nat
deriving DecidableEq

/-- A time of day with microseconds, and the minutes by which its zone is ahead, if it names one. -/
structure Clock where
  hour : Nat
  minute : Nat
  second : Nat
  micros : Nat
  ahead : Option Int
deriving DecidableEq

def padded (width n : Nat) : String :=
  let ds := Numeral.digits n
  String.ofList (List.replicate (width - ds.length) '0' ++ ds)

def Day.text (d : Day) : String :=
  padded 4 d.year ++ "-" ++ padded 2 d.month ++ "-" ++ padded 2 d.day

/-- The number of days from the first of March of the year zero. -/
def Day.number (d : Day) : Int :=
  let year : Int := if d.month ≤ 2 then (d.year : Int) - 1 else d.year
  let month : Int := (d.month + 9) % 12
  365 * year + Int.fdiv year 4 - Int.fdiv year 100 + Int.fdiv year 400 + (153 * month + 2) / 5 + d.day - 1

def zoneText (ahead : Int) : String :=
  (if ahead < 0 then "-" else "+") ++ padded 2 (ahead.natAbs / 60) ++ ":" ++ padded 2 (ahead.natAbs % 60)

def Clock.text (t : Clock) : String :=
  padded 2 t.hour ++ ":" ++ padded 2 t.minute ++ ":" ++ padded 2 t.second ++
    (if t.micros = 0 then "" else "." ++ padded 6 t.micros) ++ (t.ahead.map zoneText).getD ""

def Day.literal (d : Day) : String :=
  "datetime.date(" ++ ", ".intercalate [toString d.year, toString d.month, toString d.day] ++ ")"

def zoneLiteral (ahead : Int) : String :=
  if ahead = 0 then "datetime.timezone.utc"
  else if 0 < ahead then
    "datetime.timezone(datetime.timedelta(seconds=" ++ toString (ahead * 60) ++ "))"
  else
    "datetime.timezone(datetime.timedelta(days=-1, seconds=" ++ toString (86400 + ahead * 60) ++ "))"

namespace Moment

def literal (d : Day) (t : Clock) : String :=
  let parts := [d.year, d.month, d.day, t.hour, t.minute] ++
    (if t.micros ≠ 0 then [t.second, t.micros] else if t.second ≠ 0 then [t.second] else [])
  "datetime.datetime(" ++ ", ".intercalate (parts.map toString) ++
    (t.ahead.map fun a => ", tzinfo=" ++ zoneLiteral a).getD "" ++ ")"

/-- The distance from a common origin in microseconds; without a zone it is that of local time. -/
def instant (d : Day) (t : Clock) : Int :=
  let minutes := d.number * 1440 + t.hour * 60 + t.minute - t.ahead.getD 0
  (minutes * 60 + t.second) * 1000000 + t.micros

end Moment
end LogCursor
