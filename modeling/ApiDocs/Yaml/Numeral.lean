import ApiDocs.Fault
import ApiDocs.Text.Digit
import ApiDocs.Yaml.Kind

/-!
# Numbers as they are read

A text that is said to be a number is read more freely than a plain scalar is known as one: blanks may stand
around it, its digits may be of any script, and there may be a second sign. Underscores do not count.

* `readInt`: a whole number; the base is told by how the digits begin;
* `readFloat`: a number with a point.
-/

namespace ApiDocs.Yaml

open Text (isBlank digitValue? hexValue? isDigit)
open Decimal (Binary64)

/-- A text without underscores. -/
def withoutUnderscores (cs : List Char) : List Char := cs.filter (· != '_')

/-- A character as it counts in a number: digits of all scripts and blanks of all kinds are the same. -/
def plainForm (c : Char) : Char :=
  if c.toNat < 0x80 then c
  else if isBlank c then ' '
  else
    match digitValue? c with
    | some d => Char.ofNat (0x30 + d)
    | none => '?'

/-- The blanks of ASCII around a number. -/
def isOuterBlank (c : Char) : Bool := c == ' ' || (0x9 ≤ c.toNat && c.toNat ≤ 0xd)

/-- The characters of a number without the blanks around them. -/
def body (cs : List Char) : List Char :=
  (((cs.map plainForm).dropWhile isOuterBlank).reverse.dropWhile isOuterBlank).reverse

/-! ## Whole numbers -/

/-- What stands behind the mark of a base. -/
def behindBase (base : Nat) : List Char → List Char
  | '0' :: mark :: cs =>
    if (base == 2 && mark ∈ ['b', 'B']) || (base == 8 && mark ∈ ['o', 'O'])
        || (base == 16 && mark ∈ ['x', 'X']) then cs
    else '0' :: mark :: cs
  | cs => cs

/-- The whole number that a text writes in a base. Only decimal numbers may not be too long. -/
def wholeOf (base : Nat) (cs : List Char) : Except Fault Int :=
  let (isNegative, unsigned) := signed (body cs)
  let unsigned := behindBase base unsigned
  let digits := unsigned.takeWhile fun c => (hexValue? c).any (· < base)
  if base == 10 && Decimal.maxDigits < digits.length then .error (.longNumber digits.length)
  else if digits.isEmpty || digits.length != unsigned.length then
    .error (.notWhole base (String.ofList cs))
  else
    let n : Int := digitsValue base digits
    .ok (if isNegative then -n else n)

/-- A whole number without the sign in front of it. -/
def unsignedInt : List Char → Except Fault Int
  | [] => .error .emptyNumber
  | ['0'] => .ok 0
  | '0' :: 'b' :: cs => wholeOf 2 cs
  | '0' :: 'x' :: cs => wholeOf 16 cs
  | '0' :: cs => wholeOf 8 ('0' :: cs)
  | cs => do
    let parts ← (colonParts cs).mapM (wholeOf 10)
    .ok (parts.foldl (fun n part => 60 * n + part) 0)

/-- The whole number that a text writes. -/
def readInt (cs : List Char) : Except Fault Int :=
  let (isNegative, unsigned) := signed (withoutUnderscores cs)
  (unsignedInt unsigned).map fun n => if isNegative then -n else n

/-! ## Numbers with a point -/

/-- An exponent behind its letter. -/
def exponent? : List Char → Option Int
  | [] => some 0
  | e :: cs =>
    let (isNegative, digits) := signed cs
    if (e == 'e' || e == 'E') && !digits.isEmpty && digits.all isDigit then
      let n : Int := digitsValue 10 digits
      some (if isNegative then -n else n)
    else none

/-- The number that a text without a sign writes, which has a digit on one side of its point. -/
def pointed? (isNegative : Bool) (cs : List Char) : Option Binary64 :=
  let whole := cs.takeWhile isDigit
  let rest := cs.dropWhile isDigit
  let fraction := if rest.head? == some '.' then (rest.drop 1).takeWhile isDigit else []
  let rest := if rest.head? == some '.' then (rest.drop 1).dropWhile isDigit else rest
  if whole.isEmpty && fraction.isEmpty then none
  else
    (exponent? rest).map fun e =>
      Binary64.ofDecimal isNegative (digitsValue 10 (whole ++ fraction)) (e - fraction.length)

/-- The number with a point, or without, that a text in lower case writes. -/
def floatOf (cs : List Char) : Except Fault Binary64 :=
  let (isNegative, unsigned) := signed (body cs)
  if String.ofList unsigned ∈ ["inf", "infinity"] then .ok (Binary64.infinity isNegative)
  else if String.ofList unsigned == "nan" then .ok Binary64.notANumber
  else
    match pointed? isNegative unsigned with
    | some x => .ok x
    | none => .error (.notFloat (String.ofList cs))

/-- A number in lower case behind the sign in front of it. -/
def behindSign (isNegative : Bool) (cs : List Char) : Except Fault Binary64 :=
  if String.ofList cs == ".inf" then .ok (Binary64.infinity isNegative)
  else if String.ofList cs == ".nan" then .ok Binary64.notANumber
  else do
    let parts ← (colonParts cs).mapM floatOf
    match parts with
    | [x] => .ok (if isNegative then x.negated else x)
    | parts =>
      if Binary64.maxSixtieths < parts.length then .error .manySixtieths
      else .ok (Binary64.ofSixtieths isNegative parts)

/-- The number with a point that a text writes. -/
def readFloat (cs : List Char) : Except Fault Binary64 :=
  match (Text.lower (String.ofList (withoutUnderscores cs))).toList with
  | [] => .error .emptyNumber
  | cs =>
    let (isNegative, unsigned) := signed cs
    behindSign isNegative unsigned

end ApiDocs.Yaml
