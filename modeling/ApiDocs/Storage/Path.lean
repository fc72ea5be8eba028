import ApiDocs.Text.Symbol

/-!
# Paths

A path is a root, if it has one, and parts between slashes. Empty parts and single dots say nothing and
are left out; double dots stay, since what they lead to depends on the files.

* `Path.ofText`, `Path.text`: a path from its text, and the text it is shown by;
* `Path.precedes`: paths are in order part by part, so that a directory stays together;
* `Path.steps`, `Path.normalized`: the directories on the way to a path, and the path without detours;
* `Path.stem`, `Path.suffix`: the last part up to its last dot, and from there on;
* `Path.isTooLong`, `Path.aboveLongPart?`: how long a path and its parts may be;
* `Path.nameless?`: what in a path no file can be named by.
-/

namespace ApiDocs

open Text (Symbol symbols)

/-- A path, absolute or within the working directory. -/
structure Path where
  /-- Empty, one slash, or two slashes that begin a path. -/
  root : String := ""
  parts : List String := []
deriving DecidableEq, Repr, Inhabited

namespace Path

/-! ## Texts -/

/-- The pieces of a text between slashes. -/
def pieces : List Char → List (List Char)
  | [] => [[]]
  | c :: cs =>
    if c == '/' then [] :: pieces cs
    else
      match pieces cs with
      | piece :: rest => (c :: piece) :: rest
      | [] => [[c]]

/-- The root that a text begins with. Exactly two slashes are a root of their own. -/
def rootOf : List Char → String
  | '/' :: '/' :: '/' :: _ => "/"
  | '/' :: '/' :: _ => "//"
  | '/' :: _ => "/"
  | _ => ""

/-- The path that a text writes. -/
def ofText (s : String) : Path where
  root := rootOf s.toList
  parts := ((pieces s.toList).map String.ofList).filter fun part => part != "" && part != "."

/-- The text of a path; a dot when there is neither root nor part. -/
def text (p : Path) : String :=
  match p.root ++ "/".intercalate p.parts with
  | "" => "."
  | s => s

/-! ## Order -/

/-- The parts by which paths are put in order, of which a root is the first. -/
def sortKey (p : Path) : List String := if p.root.isEmpty then p.parts else p.root :: p.parts

/-- Whether parts do not come behind others. What is shorter comes first. -/
def partsPrecede : List String → List String → Bool
  | [], _ => true
  | _ :: _, [] => false
  | a :: as, b :: bs => a < b || (a == b && partsPrecede as bs)

/-- Whether a path does not come behind another one. -/
def precedes (p q : Path) : Bool := partsPrecede p.sortKey q.sortKey

/-- Paths in ascending order. -/
def sorted (paths : List Path) : List Path := paths.mergeSort precedes

/-! ## Directory and name -/

/-- The directory that holds a path; without a part, the path itself. -/
def parent (p : Path) : Path := { p with parts := p.parts.dropLast }

/-- The last part. -/
def name (p : Path) : String := p.parts.getLast?.getD ""

/-- The directories on the way to a path, from the outermost on, the last of which is the path itself. -/
def steps (p : Path) : List Path :=
  (List.range p.parts.length).map fun n => { p with parts := p.parts.take (n + 1) }

/-- Parts with one more behind them, where double dots take back the part before them. The parts are in
reverse order. -/
def follow (isRooted : Bool) (done : List String) (part : String) : List String :=
  if part == ".." then
    match done with
    | [] => if isRooted then [] else [part]
    | above :: rest => if above == ".." then part :: done else rest
  else part :: done

/-- A path in which double dots come first, if there are any left. It leads to the same place when all
directories on the way are there. -/
def normalized (p : Path) : Path :=
  { p with parts := (p.parts.foldl (follow (p.root != "")) []).reverse }

/-- What follows the last dot of a text, if it has one, and what stands before the dot. -/
def splitLastDot : List Char → Option (List Char × List Char)
  | [] => none
  | c :: cs =>
    match splitLastDot cs with
    | some (before, behind) => some (c :: before, behind)
    | none => if c == '.' then some ([], cs) else none

/-- The last part without its suffix. A dot at either end of it begins no suffix. -/
def stem (p : Path) : String :=
  match splitLastDot p.name.toList with
  | some (b :: before, _ :: _) => String.ofList (b :: before)
  | _ => p.name

/-- The last part from its last dot on. -/
def suffix (p : Path) : String :=
  match splitLastDot p.name.toList with
  | some (_ :: _, c :: behind) => String.ofList ('.' :: c :: behind)
  | _ => ""

/-! ## Limits -/

/-- How many bytes a part may have. -/
def maxPartBytes : Nat := 255

/-- How many bytes a path may have. -/
def maxBytes : Nat := 4095

/-- How many bytes a symbol takes in a path. A half stands for one byte when it is among those by which
bytes that are no text are written; any other half takes none. -/
def bytesOf : Symbol → Nat
  | .char c => c.utf8Size
  | .half place => if 0x480 ≤ place.val && place.val < 0x500 then 1 else 0

/-- How many bytes a text takes in a path. -/
def byteSize (s : String) : Nat := (symbols s.toList).foldl (fun n x => n + bytesOf x) 0

/-- Whether a part has more bytes than a part may have. -/
def isLongPart (part : String) : Bool := maxPartBytes < byteSize part

/-- Whether a path has more bytes than a path may have. -/
def isTooLong (p : Path) : Bool := maxBytes < byteSize p.text

/-- The directory in which the first part that is too long would stand, if there is such a part. -/
def aboveLongPart? (p : Path) : Option Path :=
  if p.parts.any isLongPart then some { p with parts := p.parts.takeWhile fun part => !isLongPart part }
  else none

/-- Whether a null character stands in a path. No file has such a path. -/
def hasNull (p : Path) : Bool := p.text.toList.contains (Char.ofNat 0)

/-- The first half in a path that takes no bytes, with its place and the place behind the halves that begin
there. No file has such a path. -/
def nameless? (p : Path) : Option (Symbol × Nat × Nat) :=
  let hasBytes (x : Symbol) : Bool := bytesOf x != 0
  let xs := symbols p.text.toList
  let start := (xs.takeWhile hasBytes).length
  match xs.dropWhile hasBytes with
  | [] => none
  | x :: rest => some (x, start, start + 1 + (rest.takeWhile fun y => !y.passes fun _ => true).length)

end Path

end ApiDocs
