import ApiDocs.Calendar.Basic

/-!
# Days and times as text

* `Timestamp.text`: year, month and day, then the time of day and its zone;
* `Timestamp.shown`: a timestamp inside a list or a map, by its parts.
-/

namespace ApiDocs.Calendar

/-- A number with zeros in front up to a width. -/
def padded (width n : Nat) : String :=
  let digits := toString n
  "".pushn '0' (width - digits.length) ++ digits

namespace Clock

/-- The hours and minutes by which a clock is ahead of Greenwich, with a sign. -/
def zoneText (zone : Int) : String :=
  (if zone < 0 then "-" else "+") ++ padded 2 (zone.natAbs / 60) ++ ":" ++ padded 2 (zone.natAbs % 60)

/-- The text of a time of day. Microseconds are left out when there are none. -/
def text (c : Clock) : String :=
  padded 2 c.hour ++ ":" ++ padded 2 c.minute ++ ":" ++ padded 2 c.second
    ++ (if c.microsecond == 0 then "" else "." ++ padded 6 c.microsecond)
    ++ (c.zone.map zoneText).getD ""

end Clock

/-- A distance of some minutes, as days and seconds; the seconds are never negative. -/
def distanceShown (minutes : Int) : String :=
  let days := Int.fdiv minutes minutesPerDay
  let seconds := Int.fmod minutes minutesPerDay * 60
  "datetime.timedelta(" ++ ", ".intercalate
    ((if days == 0 then [] else ["days=" ++ toString days])
      ++ (if seconds == 0 then [] else ["seconds=" ++ toString seconds])) ++ ")"

namespace Clock

/-- A zone by its distance. -/
def zoneShown (zone : Int) : String :=
  if zone == 0 then "datetime.timezone.utc" else "datetime.timezone(" ++ distanceShown zone ++ ")"

/-- The parts of a time of day. Seconds and microseconds that are zero are left out at the end. -/
def parts (c : Clock) : List String :=
  let whole :=
    if c.microsecond != 0 then [c.hour, c.minute, c.second, c.microsecond]
    else if c.second != 0 then [c.hour, c.minute, c.second]
    else [c.hour, c.minute]
  whole.map toString ++ (c.zone.map fun zone => "tzinfo=" ++ zoneShown zone).toList

end Clock

namespace Timestamp

/-- The text of a day. -/
def dayText (t : Timestamp) : String :=
  padded 4 t.year ++ "-" ++ padded 2 t.month ++ "-" ++ padded 2 t.day

/-- The text of a timestamp. -/
def text (t : Timestamp) : String :=
  match t.clock with
  | none => t.dayText
  | some c => t.dayText ++ " " ++ c.text

/-- The name of the kind of a timestamp. -/
def kindName (t : Timestamp) : String := if t.clock.isSome then "datetime" else "date"

/-- The text of a timestamp inside a list or a map. -/
def shown (t : Timestamp) : String :=
  let day := [t.year, t.month, t.day].map toString
  "datetime." ++ t.kindName ++ "("
    ++ ", ".intercalate (day ++ (t.clock.map Clock.parts).getD []) ++ ")"

end Timestamp

/-- The wording of a fault. -/
def Fault.message : Fault → String
  | year n => "year " ++ toString n ++ " is out of range"
  | month => "month must be in 1..12"
  | day => "day is out of range for month"
  | hour => "hour must be in 0..23"
  | minute => "minute must be in 0..59"
  | second => "second must be in 0..59"
  | zone n =>
    "offset must be a timedelta strictly between -timedelta(hours=24) and timedelta(hours=24), not "
      ++ distanceShown n ++ "."

end ApiDocs.Calendar
