/-!
# Binary floating-point numbers

A number of 64 bits is a sign and, when it is finite, a whole number times a power of two.

* `Binary64.parts`: the sign and the magnitude that the bits stand for;
* `Binary64.ofFraction`, `Binary64.ofDecimal`: the number nearest to a fraction or to a decimal;
* `Binary64.ofSixtieths`: the sum of parts that count sixty of the next one each.
-/

namespace ApiDocs.Decimal

/-- A floating-point number by its bits: one of sign, eleven of exponent, the rest of fraction. -/
structure Binary64 where
  bits : UInt64
deriving DecidableEq, Inhabited, Repr

/-- What the bits of a number stand for, its sign apart. -/
inductive Magnitude
  /-- The value is `significand * 2 ^ exponent`. -/
  | finite (significand : Nat) (exponent : Int)
  | infinite
  | notANumber
deriving DecidableEq, Repr

namespace Binary64

/-- Whether the sign bit is set. -/
def isNegative (x : Binary64) : Bool := x.bits.toNat >>> 63 == 1

/-- The significand of a normal number has a leading bit that is not stored. -/
def magnitude (x : Binary64) : Magnitude :=
  let stored : Nat := (x.bits.toNat >>> 52) % (1 <<< 11)
  let fraction := x.bits.toNat % (1 <<< 52)
  if stored == 2047 then if fraction == 0 then .infinite else .notANumber
  else if stored == 0 then .finite fraction (-1074)
  else .finite ((1 <<< 52) + fraction) ((stored : Int) - 1075)

/-- Whether the value is zero, of either sign. -/
def isZero (x : Binary64) : Bool :=
  match x.magnitude with
  | .finite 0 _ => true
  | _ => false

/-- Positive and negative infinity. -/
def infinity (negative : Bool) : Binary64 :=
  ⟨if negative then 0xfff0000000000000 else 0x7ff0000000000000⟩

/-- The value that is not a number. -/
def notANumber : Binary64 := ⟨0x7ff8000000000000⟩

/-- A quotient rounded to the nearest whole number, a tie to the even one. -/
def roundedQuotient (numerator denominator : Nat) : Nat :=
  let whole := numerator / denominator
  let twice := 2 * (numerator % denominator)
  if twice < denominator || (twice == denominator && whole % 2 == 0) then whole else whole + 1

/-- The greatest exponent of two that is not above a positive fraction. -/
def exponentOf (numerator denominator : Nat) : Int :=
  let e : Int := (numerator.log2 : Int) - denominator.log2
  let isBelow :=
    if 0 ≤ e then numerator < denominator <<< e.toNat else numerator <<< e.natAbs < denominator
  if isBelow then e - 1 else e

/-- A number with a sign. -/
def signed (negative : Bool) (bits : Nat) : Binary64 :=
  ⟨(if negative then (1 <<< 63) + bits else bits).toUInt64⟩

/-- The number with the other sign. -/
def negated (x : Binary64) : Binary64 := ⟨x.bits ^^^ 0x8000000000000000⟩

/-- The number nearest to a fraction, of two equally near ones the even, with a sign. Where no finite number is
left, it is infinity. -/
def ofFraction (negative : Bool) (numerator denominator : Nat) : Binary64 :=
  if numerator == 0 then signed negative 0
  else
    let q := max (exponentOf numerator denominator - 52) (-1074)
    let significand :=
      if 0 ≤ q then roundedQuotient numerator (denominator <<< q.toNat)
      else roundedQuotient (numerator <<< q.natAbs) denominator
    -- a significand that was rounded up to the next power of two goes over into the exponent
    signed negative (min ((q + 1074).toNat * (1 <<< 52) + significand) 0x7ff0000000000000)

/-- The number nearest to `mantissa * 10 ^ exponent`, with a sign. Numbers far out of range are not worked
out. -/
def ofDecimal (negative : Bool) (mantissa : Nat) (exponent : Int) : Binary64 :=
  let point := exponent + (toString mantissa).length
  if mantissa == 0 || point < -324 then signed negative 0
  else if 310 < point then infinity negative
  else if 0 ≤ exponent then ofFraction negative (mantissa * Nat.pow 10 exponent.toNat) 1
  else ofFraction negative mantissa (Nat.pow 10 exponent.natAbs)

/-- The value of parts that count sixty of the next one each, with a sign. It is summed up from the last
part on, and each step goes to the nearest number. -/
def ofSixtieths (negative : Bool) (parts : List Binary64) : Binary64 :=
  let x := parts.reverse.foldl
    (fun (sum, unit) part =>
      (sum + Float.ofBits part.bits * Float.ofBits (ofFraction false unit 1).bits, 60 * unit))
    (0.0, 1)
  ⟨(if negative then -x.1 else x.1).toBits⟩

/-- How many parts that count sixty each a number may have. The unit of the first one of more parts is
greater than any finite number. -/
def maxSixtieths : Nat := 174

/-- The value as a fraction with a positive denominator, when it is finite. -/
def fraction? (x : Binary64) : Option (Int × Nat) :=
  match x.magnitude with
  | .finite m q =>
    let numerator : Int := if x.isNegative then -(m : Int) else m
    some (if 0 ≤ q then (numerator * (1 <<< q.toNat : Nat), 1) else (numerator, 1 <<< q.natAbs))
  | _ => none

end Binary64

end ApiDocs.Decimal
