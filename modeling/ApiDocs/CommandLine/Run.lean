import ApiDocs.Catalog.Document
import ApiDocs.CommandLine.Usage
import ApiDocs.Source.Load
import ApiDocs.Source.RecordFile

/-!
# Running the program

A run reads the settings and every file of records, loads the sources, reports what came of them, and
writes the catalog when it is asked to. It sees files only through a view, and what it does is a list of
effects, so that a run is a value.

* `reconcile`: a run on given arguments;
* `run`: a run on a command line.
-/

namespace ApiDocs.CommandLine

/-- What a run does. -/
inductive Effect
  /-- Text on the standard output. -/
  | print (text : String)
  /-- Text on the standard error output. -/
  | report (text : String)
  | write (path : Path) (document : Document)

/-- How a run ends. -/
inductive Exit
  | status (code : Nat)
  /-- Without success, with a last message. -/
  | message (text : String)
deriving DecidableEq, Repr

/-- Why a run ends early. -/
inductive Stop
  | exit (exit : Exit)
  /-- The first failure ends the run, as the settings ask. -/
  | source (error : SourceError)
  | fault (fault : Fault)

/-- A computation that has effects and may end the run. -/
abbrev Run := Logged Stop Effect

/-! ## Logging -/

/-- The levels that the settings may name, with their weights. -/
def levelWeights : List (String × Nat) := [
  ("CRITICAL", 50), ("FATAL", 50), ("ERROR", 40), ("WARN", 30), ("WARNING", 30), ("INFO", 20),
  ("DEBUG", 10), ("NOTSET", 0)]

/-- The least weight of the entries that are logged. -/
def threshold (settings : Settings) (verbose : Bool) : Except Fault Nat :=
  if verbose then .ok LogLevel.debug.weight
  else do
    let name ← settings.levelName
    match levelWeights.lookup name with
    | some weight => .ok weight
    | none => .error (.unknownLevel name)

/-- The line for an entry. -/
def logLine (entry : LogEntry) : Effect :=
  .report (entry.level.label ++ " " ++ programName ++ "." ++ entry.origin ++ ": " ++ entry.message
    ++ "\n")

/-- The lines for the entries that weigh enough. -/
def logLines (least : Nat) (entries : List LogEntry) : List Effect :=
  (entries.filter fun e => least ≤ e.level.weight).map logLine

/-- A computation with its entries logged. -/
def logged {ε α : Type} (least : Nat) (stop : ε → Stop) (x : Logged ε LogEntry α) : Run α :=
  ⟨logLines least x.log, x.outcome.mapError stop⟩

/-! ## Steps -/

/-- Prints a line. -/
def printLine (text : String) : Run Unit := Logged.emit (.print (text ++ "\n"))

/-- A fault that ends the run. -/
def orFault {α : Type} (x : Except Fault α) : Run α := Logged.ofExcept (x.mapError .fault)

/-- Reads the settings. Nothing is known about levels yet, so entries are reported by their words. -/
def loadSettings (view : View) (path : String) : Run Settings :=
  let work := Settings.load view path
  ⟨work.log.map fun e => .report (e.message ++ "\n"), work.outcome.mapError .fault⟩

/-- Why loading ends the run. -/
def Stop.ofLoadError : LoadError → Stop
  | .source e => .source e
  | .other f => .fault f

/-- Reads files of records one after another, and gives the sources and the failures. -/
def readSources (view : View) (least : Nat) (failFast : Bool) :
    List Path → Run (List Source × List SourceError)
  | [] => pure ([], [])
  | path :: rest =>
    match Source.ofFile view path with
    | .ok source => do
      let (sources, failures) ← readSources view least failFast rest
      pure (source :: sources, failures)
    | .error (.other fault) => throw (.fault fault)
    | .error (.source e) => do
      Logged.emitAll (logLines least [.fileFailed path.text e.message])
      if failFast then throw (.source e)
      else
        let (sources, failures) ← readSources view least failFast rest
        pure (sources, e :: failures)

/-- What is kept of the structural records. Without a source nobody asks for the prefixes. -/
def loadOptions (settings : Settings) (sources : List Source) : Except Fault LoadOptions := do
  let visibilities ← settings.visibilities
  let prefixes ← if sources.isEmpty then .ok [] else settings.prefixes
  .ok { visibilities, skipCompilerGenerated := settings.skipsCompilerGenerated, prefixes }

/-- What came of loading. -/
def summary (result : LoadResult) : List String :=
  ("Reconciled " ++ toString result.catalog.size ++ " types with "
      ++ toString result.catalog.memberCount ++ " members")
    :: result.failures.map fun e => "  FAILED " ++ e.message

/-- Writes a catalog. -/
def writeCatalog (view : View) (path : Path) (c : Catalog) : Run Unit := do
  orFault (view.checkWritable path)
  Logged.emit (.write path (c.document path))
  printLine ("Wrote " ++ toString c.size ++ " types into: " ++ path.text)

/-- The files in ascending order, when there are some and all of them are found. -/
def findFiles (view : View) (files : List Path) : Run (List Path) := do
  let files := Path.sorted files
  if files.isEmpty then throw (.exit (.message "No record files given"))
  let missing ← orFault (files.filterM fun f => Option.isNone <$> view f)
  if !missing.isEmpty then
    throw (.exit (.message
      ("Record file(s) not found: " ++ ", ".intercalate (missing.map Path.text))))
  pure files

/-! ## Runs -/

/-- A run up to its failures, if it gets that far. -/
def reconcileFiles (view : View) (a : Arguments) : Run (List SourceError) := do
  let settings ← loadSettings view a.config
  let least ← orFault (threshold settings a.verbose)
  let files ← findFiles view a.files
  let (sources, unread) ← readSources view least settings.failsFast files
  let options ← orFault (loadOptions settings sources)
  let result ← logged least Stop.ofLoadError (loadSources options settings.failsFast sources)
  (summary result).forM printLine
  match a.out with
  | some path => if !a.dryRun then writeCatalog view path result.catalog
  | none => pure ()
  pure (unread ++ result.failures)

/-- A run on given arguments. -/
def reconcile (view : View) (a : Arguments) : Logged Fault Effect Exit :=
  let work := reconcileFiles view a
  match work.outcome with
  | .ok [] => ⟨work.log, .ok (.status 0)⟩
  | .ok failures =>
    ⟨work.log ++ [.print (SourceError.aggregate failures ++ "\n")], .ok (.status 1)⟩
  | .error (.source e) => ⟨work.log ++ [.print ("Error: " ++ e.message ++ "\n")], .ok (.status 1)⟩
  | .error (.exit exit) => ⟨work.log, .ok exit⟩
  | .error (.fault fault) => ⟨work.log, .error fault⟩

/-- A run on a command line. -/
def run (view : View) (words : List String) : Logged Fault Effect Exit :=
  match Request.parse words with
  | .ok (.reconcile a) => reconcile view a
  | .ok .help => ⟨[.print helpText], .ok (.status 0)⟩
  | .error fault => ⟨[.report fault.report], .ok (.status 2)⟩

end ApiDocs.CommandLine
