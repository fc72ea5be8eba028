/-!
# Days and times

A timestamp is a day of the calendar, alone or with a time of day. Where the distance of the clock from
Greenwich is known, the timestamp is a moment, and two of them can be the same moment in different words.

* `Timestamp.check`: which timestamps there are;
* `Timestamp.dayNumber`: the days up to a day, counted from the first year on;
* `Timestamp.same`: two timestamps are the same day, the same time, or the same moment.
-/

namespace ApiDocs.Calendar

/-- A time of day. -/
structure Clock where
  hour : Nat
  minute : Nat
  second : Nat
  microsecond : Nat := 0
  /-- How many minutes the clock is ahead of Greenwich, if that is known. -/
  zone : Option Int := none
deriving DecidableEq, Repr, Inhabited

/-- A day, alone or with a time of day. -/
structure Timestamp where
  year : Nat
  month : Nat
  day : Nat
  clock : Option Clock := none
deriving DecidableEq, Repr, Inhabited

/-! ## The calendar -/

/-- Every fourth year is a leap year, but of the years that end a century only every fourth. -/
def isLeapYear (year : Nat) : Bool := year % 4 == 0 && (year % 100 != 0 || year % 400 == 0)

/-- How many days a month has. -/
def daysInMonth (year month : Nat) : Nat :=
  if month == 2 then if isLeapYear year then 29 else 28
  else if month ∈ [4, 6, 9, 11] then 30
  else 31

/-- How many days the months before a month have. -/
def daysBeforeMonth (year : Nat) : Nat → Nat
  | 0 | 1 => 0
  | month + 1 => daysBeforeMonth year month + daysInMonth year month

/-- How many days the years before a year have. -/
def daysBeforeYear (year : Nat) : Nat :=
  let y := year - 1
  365 * y + y / 4 - y / 100 + y / 400

/-- How many minutes a day has. -/
def minutesPerDay : Nat := 24 * 60

/-! ## What there is -/

/-- Why there is no such timestamp. -/
inductive Fault
  | year (year : Nat)
  | month
  | day
  | hour
  | minute
  | second
  /-- A clock is never a whole day ahead of Greenwich or behind it. -/
  | zone (minutes : Int)
deriving DecidableEq, Repr

namespace Timestamp

/-- The first part of a timestamp that does not exist, a zone before all others. -/
def fault? (t : Timestamp) : Option Fault :=
  match t.clock.bind (·.zone) with
  | some zone => if minutesPerDay ≤ zone.natAbs then some (.zone zone) else ofDay
  | none => ofDay
where
  ofDay : Option Fault :=
    if t.year < 1 || 9999 < t.year then some (.year t.year)
    else if t.month < 1 || 12 < t.month then some .month
    else if t.day < 1 || daysInMonth t.year t.month < t.day then some .day
    else t.clock.bind ofClock
  ofClock (c : Clock) : Option Fault :=
    if 23 < c.hour then some .hour
    else if 59 < c.minute then some .minute
    else if 59 < c.second then some .second
    else none

/-- A timestamp, if there is such a one. -/
def check (t : Timestamp) : Except Fault Timestamp :=
  match t.fault? with
  | some fault => .error fault
  | none => .ok t

/-! ## Sameness -/

/-- The number of a day, counted from the first day of the first year. -/
def dayNumber (t : Timestamp) : Nat := daysBeforeYear t.year + daysBeforeMonth t.year t.month + t.day

/-- The seconds up to a time of day in Greenwich, for a clock that is some minutes ahead of it. -/
def seconds (t : Timestamp) (c : Clock) (zone : Int) : Int :=
  (((t.dayNumber : Int) * 24 + c.hour) * 60 + c.minute - zone) * 60 + c.second

/-- Whether two timestamps are the same. Clocks with known zones are the same when they show one moment. -/
def same (t u : Timestamp) : Bool :=
  match t.clock, u.clock with
  | some c, some d =>
    match c.zone, d.zone with
    | some zone, some zone' => t.seconds c zone == u.seconds d zone' && c.microsecond == d.microsecond
    | _, _ => t == u
  | _, _ => t == u

end Timestamp

end ApiDocs.Calendar
