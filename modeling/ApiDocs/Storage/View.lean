import ApiDocs.Fault
import ApiDocs.Storage.Path

/-!
# What can be seen of files

A view says what is found under a path. A program that reads only through a view can be run on the
files of a disk as well as on a table of texts.

A path is followed part by part, up to the first part that leads to nothing. A part that is too long for
a name is a fault where it is looked for in a directory, and a path that is too long is one at once.

* `View.ofLookup`: the view of those who know what stands under the paths within the limits;
* `View.read`: the text of a file;
* `View.checkWritable`: whether a file can be written, with the directories that it needs.
-/

namespace ApiDocs

/-- What is found under a path. -/
inductive Entry
  | file (content : String)
  | directory
deriving DecidableEq, Repr

/-- What is found under each path, if anything, unless the path goes beyond the limits. -/
abbrev View := Path → Except Fault (Option Entry)

namespace View

/-- The view of those who know what stands under the paths within the limits. -/
def ofLookup (lookup : Path → Option Entry) : View := fun path =>
  if path.hasNull || path.nameless?.isSome then .ok none
  else if path.isTooLong then .error (.longName path.text)
  else
    match path.aboveLongPart? with
    | none => .ok (lookup path)
    | some above => if lookup above = some .directory then .error (.longName path.text) else .ok none

/-- The text of a file. -/
def read (view : View) (path : Path) : Except Fault String := do
  match ← view path with
  | some (.file content) => .ok content
  | some .directory => .error (.isDirectory path.text)
  | none => .error (.noFile path.text)

/-- Whether the directories at some paths can be made one after another. -/
def checkMakable (view : View) : List Path → Except Fault Unit
  | [] => .ok ()
  | path :: rest => do
    match ← view path.normalized with
    | some (.file _) => .error .fileExists
    | some .directory => checkMakable view rest
    | none => if Path.isLongPart path.name then .error (.longName path.text) else checkMakable view rest

/-- Whether the directories at some paths, each in the one before it, are there or can be made. -/
def checkSteps (view : View) : List Path → Except Fault Unit
  | [] => .ok ()
  | path :: rest => do
    match ← view path with
    | some (.file _) => .error .notDirectory
    | some .directory => checkSteps view rest
    | none => checkMakable view (path :: rest)

/-- Whether a path can be the path of a file. -/
def checkName (path : Path) : Except Fault Unit :=
  match path.nameless? with
  | some (half, start, stop) => .error (.nameless half start stop)
  | none => if path.hasNull then .error .nullInPath else .ok ()

/-- Whether a directory is there or can be made, with those on the way to it. -/
def checkDirectory (view : View) (path : Path) : Except Fault Unit := do
  checkName path
  match ← view path with
  | some .directory => .ok ()
  | some (.file _) => .error .fileExists
  | none => checkSteps view path.steps

/-- Whether a file can be written, once the directories on the way to it are made. -/
def checkWritable (view : View) (path : Path) : Except Fault Unit := do
  checkDirectory view path.parent
  checkName path
  discard (view path)
  let isMade := path.normalized ∈ path.parent.steps.map Path.normalized
  match ← view path.normalized with
  | some .directory => .error (.isDirectory path.text)
  | _ =>
    if isMade then .error (.isDirectory path.text)
    else if Path.isLongPart path.name then .error (.longName path.text)
    else .ok ()

end View

end ApiDocs
