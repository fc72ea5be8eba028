/-!
# How long a number may be

A decimal number of very many digits is neither read nor written, since both take longer than the number
of digits would suggest. Only decimal numbers are concerned; the digits of a base that is a power of two
are the number itself.

* `maxDigits`: how many digits a number may have;
* `isWritable`: whether a whole number has no more digits than that.
-/

namespace ApiDocs.Decimal

/-- How many decimal digits a number may have. -/
def maxDigits : Nat := 4300

/-- Whether a whole number can be written in decimal. -/
def isWritable (i : Int) : Bool := i.natAbs < Nat.pow 10 maxDigits

/-- What is said of a number with too many digits to be written. -/
def limitMessage (digits : Option Nat) : String :=
  "Exceeds the limit (" ++ toString maxDigits ++ " digits) for integer string conversion"
    ++ (match digits with
      | some n => ": value has " ++ toString n ++ " digits"
      | none => "")
    ++ "; use sys.set_int_max_str_digits() to increase the limit"

end ApiDocs.Decimal
