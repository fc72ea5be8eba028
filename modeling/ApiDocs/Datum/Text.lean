import ApiDocs.Datum.Knot
import ApiDocs.Decimal.Limit
import ApiDocs.Decimal.Shortest
import ApiDocs.Text.Blank
import ApiDocs.Text.Quoted

/-!
# Data as text

* `Datum.shown`: the text of a datum, in which texts inside of other data are quoted;
* `Datum.toText`: a text or a timestamp is itself, anything else is shown;
* `Datum.isWritable`: whether no whole number in a datum is too long to be written.
-/

namespace ApiDocs

open Text

namespace Datum

/-- One byte inside quotes: an ASCII character, or two hexadecimal digits. -/
def escapeByte (quote : Char) (b : UInt8) : List Char :=
  if b < 0x80 then escapeQuoted quote (.char (Char.ofNat b.toNat)) else escapeNumber b.toNat

/-- Bytes between quotes. -/
def shownBytes (values : List UInt8) : String :=
  let quote := quoteFor (values.map fun b => Char.ofNat b.toNat)
  String.ofList ('b' :: quote :: values.flatMap (escapeByte quote) ++ [quote])

/-- What stands for a list, pair or map where it lies within itself. -/
def leftOut : Datum → String
  | pair .. => "(...)"
  | d => if d.isMap then "\x7b...\x7d" else "[...]"

mutual
/-- The text of a datum as it stands inside of another one, within lists and maps with some marks. What lies
within itself is left out there. -/
def shownWithin (marks : List Nat) : Datum → String
  | null => "None"
  | bool b => if b then "True" else "False"
  | int i => toString i
  | float x => x.text
  | text s => quoted s
  | time t => t.shown
  | bytes values => shownBytes values
  | list xs => "[" ++ ", ".intercalate (shownItems marks xs) ++ "]"
  | pair a b => "(" ++ a.shownWithin marks ++ ", " ++ b.shownWithin marks ++ ")"
  | set [] => "set()"
  | set (x :: xs) => "\x7b" ++ ", ".intercalate (shownItems marks (x :: xs)) ++ "\x7d"
  | map es => "\x7b" ++ ", ".intercalate (shownEntries marks es) ++ "\x7d"
  | knot mark whole => if mark ∈ marks then whole.leftOut else whole.shownWithin (mark :: marks)
  | again mark isMap => (again mark isMap).leftOut
/-- The texts of some data. -/
def shownItems (marks : List Nat) : List Datum → List String
  | [] => []
  | x :: xs => x.shownWithin marks :: shownItems marks xs
/-- The texts of the entries of a map. -/
def shownEntries (marks : List Nat) : List (Datum × Datum) → List String
  | [] => []
  | (k, v) :: es => (k.shownWithin marks ++ ": " ++ v.shownWithin marks) :: shownEntries marks es
end

/-- The text of a datum as it stands inside of another one. -/
def shown (d : Datum) : String := d.shownWithin []

/-- The text of a datum that stands alone. -/
def toText : Datum → String
  | text s => s
  | time t => t.text
  | d => d.shown

mutual
/-- Whether every whole number in a datum can be written. -/
def isWritable : Datum → Bool
  | int i => Decimal.isWritable i
  | list xs => areWritable xs
  | pair a b => a.isWritable && b.isWritable
  | set xs => areWritable xs
  | map es => entriesAreWritable es
  | knot _ whole => whole.isWritable
  | _ => true
/-- Whether every datum can be written. -/
def areWritable : List Datum → Bool
  | [] => true
  | x :: xs => x.isWritable && areWritable xs
/-- Whether every entry of a map can be written. -/
def entriesAreWritable : List (Datum × Datum) → Bool
  | [] => true
  | (k, v) :: es => k.isWritable && v.isWritable && entriesAreWritable es
end

end Datum

end ApiDocs
