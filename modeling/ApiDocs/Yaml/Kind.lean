import ApiDocs.Yaml.Timestamp

/-!
# Kinds of nodes

The kind of a node says what becomes of what is written there. It is given by a tag, or else by what is
written: a list or a map is one, and a plain scalar is null, a truth value, a number or a timestamp when it is
spelled like one, and a text otherwise. One line feed behind such a spelling does not count.

* `Kind.ofTag`: the kind that a tag stands for;
* `Kind.ofSpelling`: the kind of a plain scalar.
-/

namespace ApiDocs.Yaml

open Text (isDigit)

/-- What becomes of a node. -/
inductive Kind
  | null
  | bool
  | int
  | float
  | time
  | bytes
  | text
  | list
  | pairs
  | set
  | map
  /-- The mark of a key that brings the entries of other maps. -/
  | merge
  /-- The mark of the key under which the scalar stands that a map may be taken for. -/
  | value
  /-- Nothing. -/
  | unknown
deriving DecidableEq, Repr, Inhabited

namespace Kind

/-- The beginning of the tags that mean something. -/
def standardBeginning : String := "tag:yaml.org,2002:"

/-- What the tags that mean something end with. -/
def names : List (String × Kind) := [
  ("null", null), ("bool", bool), ("int", int), ("float", float), ("timestamp", time), ("binary", bytes),
  ("str", text), ("seq", list), ("omap", pairs), ("pairs", pairs), ("set", set), ("map", map),
  ("merge", merge), ("value", value)]

/-- The kind that a tag stands for. -/
def ofTag (tag : String) : Kind :=
  ((names.find? fun n => standardBeginning ++ n.1 == tag).map (·.2)).getD unknown

/-- Whether what is of a kind can hold other nodes. -/
def isCollection : Kind → Bool
  | list | pairs | set | map => true
  | _ => false

end Kind

/-! ## Parts of numbers -/

/-- A sign and what is left behind it. -/
def signed : List Char → Bool × List Char
  | '-' :: cs => (true, cs)
  | '+' :: cs => (false, cs)
  | cs => (false, cs)

/-- Whether a text holds only characters of a class and underscores. -/
def isMadeOf (p : Char → Bool) (cs : List Char) : Bool := cs.all fun c => p c || c == '_'

/-- Whether a text is digits and underscores, of which a digit comes first. -/
def isWhole : List Char → Bool
  | [] => false
  | c :: cs => isDigit c && isMadeOf isDigit cs

/-- The parts of a text between colons. -/
def colonParts : List Char → List (List Char)
  | [] => [[]]
  | c :: cs =>
    match colonParts cs with
    | part :: parts => if c == ':' then [] :: part :: parts else (c :: part) :: parts
    | [] => [[c]]

/-- Whether a part behind a colon is below sixty, in one or two digits. -/
def isSixtieth : List Char → Bool
  | [c] => isDigit c
  | [c, d] => ('0' ≤ c && c ≤ '5') && isDigit d
  | _ => false

/-! ## Spellings -/

/-- The spellings of null. -/
def nullWords : List String := ["", "~", "null", "Null", "NULL"]

/-- The spellings of truth values. -/
def boolWords : List String :=
  ["yes", "Yes", "YES", "no", "No", "NO", "true", "True", "TRUE", "false", "False", "FALSE", "on", "On",
    "ON", "off", "Off", "OFF"]

/-- The spellings of infinity, its sign apart. -/
def infinityWords : List String := [".inf", ".Inf", ".INF"]

/-- The spellings of what is not a number. -/
def notANumberWords : List String := [".nan", ".NaN", ".NAN"]

/-- Whether a text is spelled like a whole number, its sign apart: decimal, or binary behind `0b`, octal
behind `0`, hexadecimal behind `0x`. Parts behind colons count sixty each. -/
def isIntSpelling : List Char → Bool
  | ['0'] => true
  | '0' :: 'b' :: cs => !cs.isEmpty && isMadeOf (fun c => c == '0' || c == '1') cs
  | '0' :: 'x' :: cs => !cs.isEmpty && isMadeOf (fun c => (Text.hexValue? c).isSome) cs
  | '0' :: cs => isMadeOf (fun c => '0' ≤ c && c ≤ '7') cs
  | cs =>
    match colonParts cs with
    | [] => false
    | whole :: parts => isWhole whole && parts.all isSixtieth

/-- Whether a text is an exponent, which has a sign, or nothing. -/
def isExponent : List Char → Bool
  | [] => true
  | e :: sign :: cs =>
    (e == 'e' || e == 'E') && (sign == '+' || sign == '-') && !cs.isEmpty && cs.all isDigit
  | _ => false

/-- Whether a text is spelled like a number with a point, its sign apart. Behind colons it has no
exponent. -/
def isPointed (hasSign : Bool) (cs : List Char) : Bool :=
  match cs.dropWhile (· != '.') with
  | '.' :: rest =>
    let isPart (c : Char) : Bool := isDigit c || c == '_'
    let behind := rest.dropWhile isPart
    match colonParts (cs.takeWhile (· != '.')) with
    | [whole] =>
      (isWhole whole || (whole.isEmpty && !hasSign && isWhole (rest.takeWhile isPart)))
        && isExponent behind
    | whole :: parts => isWhole whole && parts.all isSixtieth && behind.isEmpty
    | [] => false
  | _ => false

/-- Whether a text is spelled like a timestamp. A day alone has two digits for month and day. -/
def isTimestamp (cs : List Char) : Bool :=
  match timestamp? cs with
  | some t => t.clock.isSome || cs.length == "0000-00-00".length
  | none => false

/-- A text without a line feed at its end, unless it is nothing else. -/
def withoutLineFeed (cs : List Char) : List Char :=
  match cs.reverse with
  | '\n' :: c :: rest => (c :: rest).reverse
  | _ => cs

/-- The mark that stands for a value as a key. -/
def valueMark : String := "="

/-- The mark that merges other maps as a key. -/
def mergeMark : String := "<<"

/-- The signs of tags and names, which alone are nothing. A plain scalar does not begin with them. -/
def nodeSigns : List String := ["!", "&", "*"]

/-- The kind of a plain scalar. -/
def Kind.ofSpelling (text : String) : Kind :=
  let cs := withoutLineFeed text.toList
  let s := String.ofList cs
  let (_, behindSign) := signed cs
  let hasSign := behindSign.length != cs.length
  if s ∈ nullWords then .null
  else if s ∈ boolWords then .bool
  else if isIntSpelling behindSign then .int
  else if isPointed hasSign behindSign || String.ofList behindSign ∈ infinityWords || s ∈ notANumberWords then
    .float
  else if isTimestamp cs then .time
  else if s == mergeMark then .merge
  else if s == valueMark then .value
  else if s ∈ nodeSigns then .unknown
  else .text

end ApiDocs.Yaml
