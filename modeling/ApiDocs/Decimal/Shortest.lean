import ApiDocs.Decimal.Binary64

/-!
# Shortest decimal text

The fewest decimal digits that read back as a given floating-point number, and of those the ones
nearest to it.

* `Magnitude.shortest`: those digits, as a whole number with the place of the decimal point;
* `Binary64.text`: positional from `0.0001` up to below ten to the sixteenth, with an exponent of
  two digits or more elsewhere.

The decimals that read back as a number form an interval about it. Its ends are the midpoints to
the two neighbouring numbers, and they belong to it when the significand is even, because a reader
sends a tie to the even neighbour.
-/

namespace ApiDocs.Decimal

/-- The decimals `digits * 10 ^ (point - n)` of `n` digits: a number and the place of its point. -/
structure Digits where
  digits : Nat
  point : Int
deriving DecidableEq, Repr

/-- How often a fraction below one is multiplied by ten before it reaches one tenth. -/
def leadingZeros : (bound : Nat) → (numerator denominator : Nat) → Nat
  | 0, _, _ => 0
  | bound + 1, n, d => if d ≤ n * 10 then 0 else leadingZeros bound (n * 10) d + 1

/-- The `point` of a positive fraction: it lies from `10 ^ (point - 1)` up to below `10 ^ point`. -/
def pointOf (numerator denominator : Nat) : Int :=
  if denominator ≤ numerator then ((toString (numerator / denominator)).length : Int)
  else -(leadingZeros 400 numerator denominator : Int)

/-- The fractions that read back as one number; its ends count when `closed`. All parts are over
one denominator. -/
structure Interval where
  low : Nat
  value : Nat
  high : Nat
  denominator : Nat
  closed : Bool

/-- The interval of `m * 2 ^ q`. Just below a power of two the neighbours lie closer together, but
at the least exponent they do not. -/
def Interval.about (m : Nat) (q : Int) : Interval :=
  let scale := if 2 ≤ q then 1 <<< (q - 2).toNat else 1
  let below := if m == 1 <<< 52 && q > -1074 then 1 else 2
  { low := (4 * m - below) * scale
    value := 4 * m * scale
    high := (4 * m + 2) * scale
    denominator := if 2 ≤ q then 1 else 1 <<< (2 - q).toNat
    closed := m % 2 == 0 }

/-- Whether the fraction `numerator / denominator` lies in the interval. -/
def Interval.holds (i : Interval) (numerator denominator : Nat) : Bool :=
  let x := numerator * i.denominator
  if i.closed then i.low * denominator ≤ x && x ≤ i.high * denominator
  else i.low * denominator < x && x < i.high * denominator

/-- The neighbours of the value on the grid of step `10 ^ step` that lie in the interval, the nearer
alone if both do; of two equally near ones the even. -/
def Interval.onGrid? (i : Interval) (step : Int) : Option Nat :=
  let up := if 0 ≤ step then Nat.pow 10 step.toNat else 1
  let down := if 0 ≤ step then 1 else Nat.pow 10 step.natAbs
  let lower := i.value * down / (i.denominator * up)
  let distanceBelow := i.value * down - lower * up * i.denominator
  let distanceAbove := (lower + 1) * up * i.denominator - i.value * down
  match i.holds (lower * up) down, i.holds ((lower + 1) * up) down with
  | true, true =>
    if distanceBelow < distanceAbove || (distanceBelow == distanceAbove && lower % 2 == 0)
    then some lower else some (lower + 1)
  | true, false => some lower
  | false, true => some (lower + 1)
  | false, false => none

/-- Tries grids of more and more digits; seventeen are always enough. -/
def Interval.firstGrid (i : Interval) (point : Int) : (more count : Nat) → Digits
  | 0, count => ⟨i.value * Nat.pow 10 (count - point).toNat / i.denominator, point⟩
  | more + 1, count =>
    match i.onGrid? (point - count) with
    | some digits =>
      -- a grid point at the next power of ten has one digit more
      if digits == Nat.pow 10 count then ⟨digits, point + 1⟩ else ⟨digits, point⟩
    | none => i.firstGrid point more (count + 1)

/-- The fewest digits that read back as `m * 2 ^ q`. -/
def shortest (m : Nat) (q : Int) : Digits :=
  if m == 0 then ⟨0, 1⟩
  else
    let i := Interval.about m q
    i.firstGrid (pointOf i.value i.denominator) 17 1

/-- A text of digits without the zeros it ends with, but for the first digit. -/
def trimZeros (s : String) : String :=
  match (s.toList.reverse.dropWhile (· == '0')).reverse with
  | [] => "0"
  | cs => String.ofList cs

/-- Positional text, with at least one digit on both sides of the point. -/
def positional (digits : String) (point : Int) : String :=
  let n := digits.length
  if point ≤ 0 then "0." ++ "".pushn '0' point.natAbs ++ digits
  else if n ≤ point.toNat then digits ++ "".pushn '0' (point.toNat - n) ++ ".0"
  else String.ofList (digits.toList.take point.toNat) ++ "."
    ++ String.ofList (digits.toList.drop point.toNat)

/-- Text with an exponent, which has a sign and at least two digits. -/
def scientific (digits : String) (point : Int) : String :=
  let e := point - 1
  let exponent := toString e.natAbs
  let padded := if exponent.length < 2 then "0" ++ exponent else exponent
  let mantissa := match digits.toList with
    | c :: c' :: cs => String.ofList (c :: '.' :: c' :: cs)
    | _ => digits
  mantissa ++ "e" ++ (if e < 0 then "-" else "+") ++ padded

/-- The text of a magnitude. -/
def Magnitude.text : Magnitude → String
  | .infinite => "inf"
  | .notANumber => "nan"
  | .finite m q =>
    let d := shortest m q
    let digits := trimZeros (toString d.digits)
    if -4 < d.point && d.point ≤ 16 then positional digits d.point else scientific digits d.point

/-- The shortest text that reads back as the number. -/
def Binary64.text (x : Binary64) : String :=
  match x.magnitude with
  | .notANumber => "nan"
  | a => (if x.isNegative then "-" else "") ++ a.text

end ApiDocs.Decimal
