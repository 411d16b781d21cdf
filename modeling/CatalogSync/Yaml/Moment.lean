import CatalogSync.Number.Binary64
import CatalogSync.Number.Numeral
import CatalogSync.Yaml.Refusal

/-!
Dates, and dates with a time of day. A time may name its zone; then it counts as the moment that it
is everywhere, and otherwise as what it shows. A form is read as far as its digits go, and checked
against calendar and clock after that. The forms are those of the timestamps of YAML 1.1, which the loader
constructs as dates and as dates with a time.
-/

namespace CatalogSync.Yaml

/-- A day of the calendar. -/
structure Day where
  year : Nat
  month : Nat
  day : Nat
deriving DecidableEq, Repr

/-- A time of day on a date, and how many minutes its zone is ahead of universal time. -/
structure Moment where
  date : Day
  hour : Nat
  minute : Nat
  second : Nat
  microsecond : Nat
  zone : Option Int
deriving DecidableEq, Repr

/-! ## Forms -/

/-- So many digits, from the least to the most, and what follows them. -/
def digitRun? (least most : Nat) (s : List Char) : Option (Nat × List Char) :=
  let n := ((s.take most).takeWhile Char.isDigit).length
  if n < least then none else some (digitsValue (s.take n), s.drop n)

namespace Day

/-- A date at the start of a text: four digits for the year, and for month and day two each, or at
least so many. -/
def atStart? (least : Nat) (s : List Char) : Option (Day × List Char) := do
  let (year, s) ← digitRun? 4 4 s
  let s ← Text.after? ['-'] s
  let (month, s) ← digitRun? least 2 s
  let s ← Text.after? ['-'] s
  let (day, s) ← digitRun? least 2 s
  return (⟨year, month, day⟩, s)

/-- A text that is a date. -/
def ofText? (least : Nat) (s : List Char) : Option Day :=
  (atStart? least s).bind fun p => if p.2 = [] then some p.1 else none

end Day

namespace Moment

/-- A space or a tab. -/
def isGap (c : Char) : Bool := c = ' ' || c = '\t'

/-- The millionths of a second that the digits after a point write; further digits are cut off. -/
def microseconds (places : List Char) : Nat :=
  digitsValue (places.take 6) * powerOfTen (6 - places.length)

/-- The zone at the end of a time: nothing, a letter, or a signed number of hours and minutes. -/
def zone? (s : List Char) : Option (Option Int) :=
  match s.dropWhile isGap with
  | [] => if s = [] then some none else none
  | ['Z'] => some (some 0)
  | sign :: rest => do
    if sign ≠ '+' ∧ sign ≠ '-' then none
    let (hours, rest) ← digitRun? 1 2 rest
    let minutes ← match rest with
      | [] => some 0
      | ':' :: rest => (digitRun? 2 2 rest).bind fun p => if p.2 = [] then some p.1 else none
      | _ => none
    let size : Int := hours * 60 + minutes
    return some (if sign = '-' then -size else size)

/-- A text that is a date and a time. -/
def ofText? (s : List Char) : Option Moment := do
  let (date, s) ← Day.atStart? 1 s
  let s ← match s with
    | 'T' :: rest => some rest
    | 't' :: rest => some rest
    | _ => if (s.takeWhile isGap) = [] then none else some (s.dropWhile isGap)
  let (hour, s) ← digitRun? 1 2 s
  let s ← Text.after? [':'] s
  let (minute, s) ← digitRun? 2 2 s
  let s ← Text.after? [':'] s
  let (second, s) ← digitRun? 2 2 s
  let (places, s) := match s with
    | '.' :: rest => (rest.takeWhile Char.isDigit, rest.dropWhile Char.isDigit)
    | _ => ([], s)
  return ⟨date, hour, minute, second, microseconds places, ← zone? s⟩

end Moment

/-! ## Calendar and clock -/

namespace Day

/-- A year with one more day. -/
def isLeap (year : Nat) : Bool := year % 4 = 0 && (year % 100 ≠ 0 || year % 400 = 0)

/-- The number of days of a month. -/
def daysIn (year month : Nat) : Nat :=
  if month = 2 then (if isLeap year then 29 else 28)
  else if [4, 6, 9, 11].contains month then 30 else 31

/-- Refuses days that no calendar has. -/
def check (d : Day) : Except Refusal Unit :=
  if d.year = 0 then .error (.noDate "year 0 is out of range")
  else if d.month = 0 ∨ 12 < d.month then .error (.noDate "month must be in 1..12")
  else if d.day = 0 ∨ daysIn d.year d.month < d.day then
    .error (.noDate "day is out of range for month")
  else .ok ()

/-- The number of days of the first months of a year. -/
def daysOfMonths (year : Nat) : Nat → Nat
  | 0 => 0
  | month + 1 => daysOfMonths year month + daysIn year (month + 1)

/-- The number of days from the start of the calendar to the end of a day. -/
def number (d : Day) : Nat :=
  let past := d.year - 1
  past * 365 + past / 4 - past / 100 + past / 400 + daysOfMonths d.year (d.month - 1) + d.day

end Day

/-- The text of a stretch of minutes, by whole days and the seconds after them. -/
def spanText (minutes : Int) : String :=
  let parts := [("days", minutes / (24 * 60)), ("seconds", minutes % (24 * 60) * 60)]
  let shown := (parts.filter (·.2 ≠ 0)).map fun p => s!"{p.1}={p.2}"
  "datetime.timedelta(" ++ ", ".intercalate shown ++ ")"

namespace Moment

/-- Refuses zones that lie a day or more from universal time. -/
def checkZone (m : Moment) : Except Refusal Unit :=
  match m.zone with
  | some minutes =>
    if minutes.natAbs < 24 * 60 then .ok ()
    else .error (.noDate ("offset must be a timedelta strictly between -timedelta(hours=24) and "
      ++ s!"timedelta(hours=24), not {spanText minutes}."))
  | none => .ok ()

/-- Refuses times that no clock shows. -/
def checkTime (m : Moment) : Except Refusal Unit :=
  if 23 < m.hour then .error (.noDate "hour must be in 0..23")
  else if 59 < m.minute then .error (.noDate "minute must be in 0..59")
  else if 59 < m.second then .error (.noDate "second must be in 0..59")
  else .ok ()

/-- Refuses what no calendar and no clock shows, the zone first. -/
def check (m : Moment) : Except Refusal Unit := do
  m.checkZone
  m.date.check
  m.checkTime

/-- The count of microseconds that a moment shows. -/
def shown (m : Moment) : Int :=
  (((m.date.number * 24 + m.hour) * 60 + m.minute) * 60 + m.second) * 1000000 + m.microsecond

/-- Two moments are one. One with a zone and one without are not. -/
def same (a b : Moment) : Bool :=
  match a.zone, b.zone with
  | none, none => a.shown = b.shown
  | some x, some y => a.shown - x * 60000000 = b.shown - y * 60000000
  | _, _ => false

/-- How messages show a zone. -/
def zoneText : Option Int → String
  | none => ""
  | some 0 => ", tzinfo=datetime.timezone.utc"
  | some minutes => s!", tzinfo=datetime.timezone({spanText minutes})"

/-- How messages show a moment; seconds and their fractions are shown unless there are none. -/
def toText (m : Moment) : String :=
  let fine :=
    if m.microsecond ≠ 0 then [m.second, m.microsecond]
    else if m.second ≠ 0 then [m.second] else []
  let parts := [m.date.year, m.date.month, m.date.day, m.hour, m.minute] ++ fine
  "datetime.datetime(" ++ ", ".intercalate (parts.map toString) ++ zoneText m.zone ++ ")"

end Moment

/-- How messages show a date. -/
def Day.toText (d : Day) : String := s!"datetime.date({d.year}, {d.month}, {d.day})"

end CatalogSync.Yaml
