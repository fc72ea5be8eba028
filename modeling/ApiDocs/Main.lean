import ApiDocs.CommandLine.Run

/-!
# The program

Reads the files that a command line names, runs on what was found, and does what the run asks for.
-/

namespace ApiDocs.CommandLine

/-- A text from outside, where every character stands for itself. -/
def ofOutside (s : String) : String := Text.ofSymbols (s.toList.map .char)

/-- A text as it goes outside. Halves, which have no characters, are escaped. -/
def toOutside (s : String) : String :=
  String.ofList ((Text.symbols s.toList).flatMap fun x =>
    match x with
    | .char c => [c]
    | .half _ => Text.escapeNumber x.number)

/-- What is found on the disk under a path. What is there and cannot be read counts as a directory. -/
def look (path : Path) : IO (Option Entry) := do
  try
    return some (.file (ofOutside (← IO.FS.readFile (toOutside path.text))))
  catch _ =>
    try
      discard (IO.FS.realPath (toOutside path.text))
      return some .directory
    catch _ => return none

/-- The paths at which a run looks. -/
def pathsOf (a : Arguments) : List Path :=
  let found := (.ofText a.config :: a.files ++ a.out.toList).flatMap fun path =>
    { path with parts := [] } :: path.steps
  found ++ found.map Path.normalized

/-- What is found on the disk under the paths at which a run looks. -/
def viewOfDisk (words : List String) : IO View := do
  match Request.parse words with
  | .ok (.reconcile a) =>
    let found ← (pathsOf a).mapM fun path => return (path, ← look path)
    return .ofLookup fun path => (found.lookup path).join
  | _ => return .ofLookup fun _ => none

/-- Does what a run asks for. -/
def Effect.perform : Effect → IO Unit
  | .print text => IO.print (toOutside text)
  | .report text => IO.eprint (toOutside text)
  | .write path document => do
    IO.FS.createDirAll (toOutside path.parent.text)
    IO.FS.writeFile (toOutside path.text) (toOutside document.text)

end ApiDocs.CommandLine

open ApiDocs.CommandLine in
/-- Runs on the words of a command line. -/
def main (words : List String) : IO UInt32 := do
  let words := words.map ofOutside
  let work := run (← viewOfDisk words) words
  work.log.forM Effect.perform
  match work.outcome with
  | .ok (.status code) => return code.toUInt32
  | .ok (.message text) =>
    IO.eprintln (toOutside text)
    return 1
  | .error fault =>
    IO.eprintln (toOutside fault.message)
    return 1
