import Treewalk.Expr.Show

/-!
# Dates and moments

Calendar dates of the years 1 to 9999, and moments: a date with a time of day and, if known, the
offset from universal time. `CalendarDate.check` and `Moment.check` say what is wrong with numbers
that give no date or no time; the first fault counts, from the year down to the second.
-/

namespace Treewalk

/-- A date of the Gregorian calendar. -/
structure CalendarDate where
  year : Nat
  month : Nat
  day : Nat
  deriving DecidableEq

/-- A date with a time of day; the offset from universal time is in seconds. -/
structure Moment where
  date : CalendarDate
  hour : Nat
  minute : Nat
  second : Nat
  microsecond : Nat
  offset : Option Int
  deriving DecidableEq

/-- What can be wrong with the numbers of a date or a moment. -/
inductive CalendarFault where
  | year (given : Nat)
  | month
  | day
  | hour
  | minute
  | second
  /-- The offset, in seconds, is a day or more. -/
  | offset (seconds : Int)
  deriving DecidableEq

/-- A span of time in the form that names its days and seconds. -/
def showSpan (seconds : Int) : String :=
  let days := seconds / 86400
  let rest := seconds % 86400
  let parts := (if days = 0 then [] else ["days=" ++ showInt days]) ++
    (if rest = 0 then [] else ["seconds=" ++ showInt rest])
  "datetime.timedelta(" ++ (if parts.isEmpty then "0" else ", ".intercalate parts) ++ ")"

/-- The wording of a fault. -/
def CalendarFault.message : CalendarFault → String
  | year given => "year " ++ showInt given ++ " is out of range"
  | month => "month must be in 1..12"
  | day => "day is out of range for month"
  | hour => "hour must be in 0..23"
  | minute => "minute must be in 0..59"
  | second => "second must be in 0..59"
  | offset seconds =>
    "offset must be a timedelta strictly between -timedelta(hours=24) and " ++
      "timedelta(hours=24), not " ++
      showSpan seconds ++ "."

namespace CalendarDate

/-- Whether a year of the Gregorian calendar has a leap day. -/
def isLeapYear (year : Nat) : Bool := year % 4 == 0 && (year % 100 != 0 || year % 400 == 0)

/-- The number of days of a month. -/
def daysIn (year month : Nat) : Nat :=
  if month = 2 then (if isLeapYear year then 29 else 28)
  else if month ∈ [4, 6, 9, 11] then 30 else 31

/-- The first fault of a date. -/
def check (d : CalendarDate) : Except CalendarFault Unit :=
  if d.year < 1 ∨ 9999 < d.year then .error (.year d.year)
  else if d.month < 1 ∨ 12 < d.month then .error .month
  else if d.day < 1 ∨ daysIn d.year d.month < d.day then .error .day
  else .ok ()

/-- The number of days before the first of January of a year. -/
def daysBeforeYear (year : Nat) : Nat :=
  let y := year - 1
  y * 365 + y / 4 - y / 100 + y / 400

/-- The number of a day, counted from the first day of the year 1. -/
def ordinal (d : CalendarDate) : Nat :=
  let monthsBefore := List.range' 1 (d.month - 1)
  daysBeforeYear d.year + d.day +
    monthsBefore.foldl (fun days month => days + daysIn d.year month) 0

/-- The shown form of a date. -/
def shown (d : CalendarDate) : String :=
  "datetime.date(" ++
    ", ".intercalate ([d.year, d.month, d.day].map fun n : Nat => showInt n) ++ ")"

end CalendarDate

namespace Moment

/-- The first fault of a moment; a wrong offset counts before all others. -/
def check (m : Moment) : Except CalendarFault Unit := do
  if let some seconds := m.offset then
    if 86400 ≤ seconds.natAbs then throw (.offset seconds)
  m.date.check
  if 23 < m.hour then throw .hour
  if 59 < m.minute then throw .minute
  if 59 < m.second then throw .second

/-- The time since the start of the year 1 in microseconds, in universal time if it is known. -/
def instant (m : Moment) : Int :=
  let seconds : Int := m.date.ordinal * 86400 + m.hour * 3600 + m.minute * 60 + m.second
  (seconds - m.offset.getD 0) * 1000000 + m.microsecond

/-- Whether two moments are the same point in time; one with a known offset never equals one
without. -/
def sameInstant (a b : Moment) : Bool :=
  a.offset.isSome == b.offset.isSome && a.instant == b.instant

/-- The shown form of a moment; seconds and microseconds are left out where they are zero. -/
def shown (m : Moment) : String :=
  let tail := if m.microsecond ≠ 0 then [m.second, m.microsecond]
    else if m.second ≠ 0 then [m.second] else []
  let numbers := [m.date.year, m.date.month, m.date.day, m.hour, m.minute] ++ tail
  let zone := match m.offset with
    | none => []
    | some 0 => ["tzinfo=datetime.timezone.utc"]
    | some seconds => ["tzinfo=datetime.timezone(" ++ showSpan seconds ++ ")"]
  "datetime.datetime(" ++ ", ".intercalate (numbers.map (fun n : Nat => showInt n) ++ zone) ++ ")"

end Moment

end Treewalk
