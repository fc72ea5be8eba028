import ApiDocs.Datum.Text
import ApiDocs.Yaml.Kind

/-!
# Data as documents

Lists and maps are written as blocks, empty ones between brackets. A list under a key stands at the
column of the key. A text is written plain when it is a word and stands for nothing else, between single
quotes when its line breaks allow that, and between double quotes with escapes otherwise.

* `Yaml.Style.ofText`: how a text is written;
* `Yaml.write`: the text of a document.
-/

namespace ApiDocs.Yaml

open Text (singleQuote doubleQuote Symbol symbols)

/-! ## Texts -/

/-- How a text is written. -/
inductive Style
  | plain
  | single
  | double
deriving DecidableEq, Repr

/-- The characters that a plain text begins with. -/
def isWordStart (c : Char) : Bool := c.isAlpha || c == '_'

/-- The characters that a plain text goes on with. -/
def isWordRest (c : Char) : Bool := c.isAlphanum || c ∈ ['_', '-', '.']

/-- Whether a text is a word. -/
def isWord : List Char → Bool
  | [] => false
  | c :: cs => isWordStart c && cs.all isWordRest

/-- The characters that are written as they are, apart from the ends of lines. -/
def writtenRanges : List (Nat × Nat) := [
  (0x20, 0x7e), (0xa0, 0xd7ff), (0xe000, 0xfefe), (0xff00, 0xfffd), (0x10000, 0x10fffe)]

/-- Whether a symbol can stand between single quotes. -/
def isWritten (x : Symbol) : Bool := x.passes isBreak || Text.inRanges writtenRanges x.number

/-- Whether a space stands beside a line break, where it would be lost. -/
def hasSpaceAtBreak : List Char → Bool
  | c :: d :: cs =>
    (c == ' ' && isBreak d) || (isBreak c && d == ' ') || hasSpaceAtBreak (d :: cs)
  | _ => false

namespace Style

/-- How a text is written. -/
def ofText (s : String) : Style :=
  if Kind.ofSpelling s == .text && isWord s.toList then plain
  else if (symbols s.toList).all isWritten && !hasSpaceAtBreak s.toList then single
  else double

end Style

/-- Characters between single quotes. A line feed that begins some line breaks is written twice, and the
line behind them is indented. -/
def singleQuotedRest (indent : Nat) (inBreaks : Bool) : List Char → List Char
  | [] => if inBreaks then List.replicate indent ' ' else []
  | c :: cs =>
    if isBreak c then
      (if !inBreaks && c == '\n' then ['\n', c] else [c]) ++ singleQuotedRest indent true cs
    else
      (if inBreaks then List.replicate indent ' ' else [])
        ++ (if c == singleQuote then [c, c] else [c]) ++ singleQuotedRest indent false cs

/-- One symbol between double quotes. -/
def escape (x : Symbol) : List Char :=
  if x.passes fun c => c == doubleQuote || c == '\\' then '\\' :: x.chars
  else if x.passes (· == '\n') then ['\\', 'n']
  else if !x.passes isBreak && isWritten x then x.chars
  else Text.escapeNumber x.number

/-- A text between double quotes. -/
def doubleQuoted (s : String) : String :=
  String.ofList (doubleQuote :: (symbols s.toList).flatMap escape ++ [doubleQuote])

/-- A text whose lines are indented. -/
def writtenText (indent : Nat) (s : String) : String :=
  match Style.ofText s with
  | .plain => s
  | .single =>
    String.ofList (singleQuote :: singleQuotedRest indent false s.toList ++ [singleQuote])
  | .double => doubleQuoted s

/-! ## Other scalars -/

/-- The text of a number, which needs a point. -/
def writtenFloat (x : Decimal.Binary64) : String :=
  let sign := if x.isNegative then "-" else ""
  match x.magnitude with
  | .notANumber => ".nan"
  | .infinite => sign ++ ".inf"
  | a =>
    let whole := a.text.toList.takeWhile (· != 'e')
    let rest := a.text.toList.dropWhile (· != 'e')
    sign ++ String.ofList (whole ++ (if whole.contains '.' then [] else ['.', '0']) ++ rest)

/-- A scalar, or an empty list or map. -/
def writtenScalar (indent : Nat) : Datum → String
  | .null => "null"
  | .bool b => if b then "true" else "false"
  | .int i => toString i
  | .float x => writtenFloat x
  | .text s => writtenText indent s
  | .time t => t.text
  | .list _ => "[]"
  | .map _ => "\x7b\x7d"
  | d => writtenText indent d.toText

/-- A key, which takes one line. -/
def writtenKey : Datum → String
  | .text s => if (Style.ofText s) = .plain then s else doubleQuoted s
  | d => if d.isScalar then writtenScalar 0 d else doubleQuoted d.toText

/-! ## Blocks -/

/-- The spaces in front of a line. -/
def spaces (indent : Nat) : String := "".pushn ' ' indent

/-- The pieces of a block, of which the first goes on with a line that has begun. -/
def joinPieces (indent : Nat) (pieces : List String) : String := (spaces indent).intercalate pieces

mutual
/-- What follows a key at a column. -/
def afterKey (indent : Nat) : Datum → String
  | .list (x :: xs) => "\n" ++ spaces indent ++ joinPieces indent (itemPieces indent (x :: xs))
  | .map (e :: es) =>
    "\n" ++ spaces (indent + 2) ++ joinPieces (indent + 2) (entryPieces (indent + 2) (e :: es))
  | d => " " ++ writtenScalar (indent + 2) d ++ "\n"
/-- What follows a hyphen at a column. -/
def afterHyphen (indent : Nat) : Datum → String
  | .list (x :: xs) => " " ++ joinPieces (indent + 2) (itemPieces (indent + 2) (x :: xs))
  | .map (e :: es) => " " ++ joinPieces (indent + 2) (entryPieces (indent + 2) (e :: es))
  | d => " " ++ writtenScalar (indent + 2) d ++ "\n"
/-- The items of a list at a column. -/
def itemPieces (indent : Nat) : List Datum → List String
  | [] => []
  | x :: xs => ("-" ++ afterHyphen indent x) :: itemPieces indent xs
/-- The entries of a map at a column. -/
def entryPieces (indent : Nat) : List (Datum × Datum) → List String
  | [] => []
  | (k, v) :: es => (writtenKey k ++ ":" ++ afterKey indent v) :: entryPieces indent es
end

/-- The text of a document. -/
def write : Datum → String
  | .list (x :: xs) => String.join (itemPieces 0 (x :: xs))
  | .map (e :: es) => String.join (entryPieces 0 (e :: es))
  | d => writtenScalar 2 d ++ "\n"

end ApiDocs.Yaml
