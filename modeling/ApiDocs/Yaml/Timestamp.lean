import ApiDocs.Calendar.Basic
import ApiDocs.Text.Hex
import ApiDocs.Text.Letter
import ApiDocs.Yaml.Spot

/-!
# Timestamps as they are written

A day is written by year, month and day between hyphens. Behind it may stand a time of day, behind a `T`
or blanks: hour, minute and second between colons, then a fraction of a second behind a point, then the
zone, which is `Z` for Greenwich or the hours and minutes by which the clock is ahead of it.

Month and day take one or two digits.

* `timestamp?`: the timestamp that a text writes, whether or not there is such a one.
-/

namespace ApiDocs.Yaml

open Calendar (Clock Timestamp)
open Text (isDigit)

/-- The number that digits of a base write. -/
def digitsValue (base : Nat) (cs : List Char) : Nat :=
  cs.foldl (fun n c => base * n + (Text.hexValue? c).getD 0) 0

/-- A number of so many digits that stands next, with what is left behind it. -/
def number? (least most : Nat) (cs : List Char) : Option (Nat × List Char) :=
  let digits := (cs.take most).takeWhile isDigit
  if digits.length < least then none else some (digitsValue 10 digits, cs.drop digits.length)

/-- What is left behind a character that stands next. -/
def behind? (c : Char) : List Char → Option (List Char)
  | [] => none
  | d :: cs => if d == c then some cs else none

/-- The microseconds that the digits of a fraction write. -/
def microseconds (digits : List Char) : Nat :=
  let first := digits.take 6
  digitsValue 10 first * Nat.pow 10 (6 - first.length)

/-- The fraction of a second behind a point, if there is one. -/
def fraction (cs : List Char) : Nat × List Char :=
  match cs with
  | '.' :: cs => (microseconds (cs.takeWhile isDigit), cs.dropWhile isDigit)
  | cs => (0, cs)

/-- The zone at the end of a text, if there is one, in minutes. -/
def zone? (cs : List Char) : Option (Option Int) :=
  match cs, cs.dropWhile isWhite with
  | [], _ => some none
  | _, ['Z'] => some (some 0)
  | _, sign :: cs =>
    if sign == '+' || sign == '-' then do
      let (hours, cs) ← number? 1 2 cs
      let (minutes, cs) ← if cs.isEmpty then some (0, []) else (behind? ':' cs).bind (number? 2 2)
      let distance : Int := 60 * hours + minutes
      if cs.isEmpty then some (some (if sign == '-' then -distance else distance)) else none
    else none
  | _, _ => none

/-- The time of day at the end of a text. -/
def clock? (cs : List Char) : Option Clock := do
  let (hour, cs) ← number? 1 2 cs
  let (minute, cs) ← (behind? ':' cs).bind (number? 2 2)
  let (second, cs) ← (behind? ':' cs).bind (number? 2 2)
  let (microsecond, cs) := fraction cs
  let zone ← zone? cs
  some { hour, minute, second, microsecond, zone }

/-- What is left behind that which parts a day from a time of day. -/
def behindDay? (cs : List Char) : Option (List Char) :=
  match cs with
  | c :: cs =>
    if c == 'T' || c == 't' then some cs
    else if isWhite c then some (cs.dropWhile isWhite)
    else none
  | [] => none

/-- The timestamp that a text writes. -/
def timestamp? (cs : List Char) : Option Timestamp := do
  let (year, left) ← number? 4 4 cs
  let (month, left) ← (behind? '-' left).bind (number? 1 2)
  let (day, left) ← (behind? '-' left).bind (number? 1 2)
  if left.isEmpty then some { year, month, day }
  else
    let clock ← clock? (← behindDay? left)
    some { year, month, day, clock := some clock }

end ApiDocs.Yaml
