import ApiDocs.Datum.Text
import ApiDocs.Text.Symbol

/-!
# Data as JSON text

Lists and maps are written over several lines, two spaces deeper at each level; empty ones on one
line. Characters outside printable ASCII are escaped by their UTF-16 units, and halves of pairs by
themselves.
-/

namespace ApiDocs

open Text

namespace Json

/-- The UTF-16 units of the number of a symbol. -/
def units16 (n : Nat) : List Nat :=
  if n < 0x10000 then [n]
  else [0xd800 + (n - 0x10000) / 0x400, 0xdc00 + (n - 0x10000) % 0x400]

/-- A symbol by its UTF-16 units. -/
def escapeUnits (x : Symbol) : List Char :=
  (units16 x.number).flatMap fun u => '\\' :: 'u' :: hexDigits 4 u

/-- One symbol inside a JSON text. -/
def escape : Symbol → List Char
  | .half place => escapeUnits (.half place)
  | .char c =>
    if c == '"' || c == '\\' then ['\\', c]
    else if c == '\n' then ['\\', 'n']
    else if c == '\r' then ['\\', 'r']
    else if c == '\t' then ['\\', 't']
    else if c == Char.ofNat 0x8 then ['\\', 'b']
    else if c == Char.ofNat 0xc then ['\\', 'f']
    else if ' ' ≤ c && c ≤ '~' then [c]
    else escapeUnits (.char c)

/-- A JSON string. -/
def string (s : String) : String :=
  String.ofList ('"' :: (symbols s.toList).flatMap escape ++ ['"'])

/-- A line break and the indentation of a level. -/
def newLine (depth : Nat) : String := "\n" ++ "".pushn ' ' (2 * depth)

/-- Items between brackets, each on a line of its own. -/
def block (opening closing : String) (depth : Nat) (items : List String) : String :=
  if items.isEmpty then opening ++ closing
  else
    opening ++ newLine (depth + 1) ++ ("," ++ newLine (depth + 1)).intercalate items
      ++ newLine depth ++ closing

end Json

namespace Datum

mutual
/-- The JSON text of a datum at a level. A key that is no text is written as its text. -/
def json (depth : Nat) : Datum → String
  | null => "null"
  | bool b => if b then "true" else "false"
  | text s => Json.string s
  | list xs => Json.block "[" "]" depth (jsonItems (depth + 1) xs)
  | map es => Json.block "\x7b" "\x7d" depth (jsonEntries (depth + 1) es)
  | d => d.shown
/-- The JSON texts of the items of a list. -/
def jsonItems (depth : Nat) : List Datum → List String
  | [] => []
  | x :: xs => x.json depth :: jsonItems depth xs
/-- The JSON texts of the entries of a map. -/
def jsonEntries (depth : Nat) : List (Datum × Datum) → List String
  | [] => []
  | (k, v) :: es =>
    (Json.string k.toText ++ ": " ++ v.json depth) :: jsonEntries depth es
end

end Datum

end ApiDocs
