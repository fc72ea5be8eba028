import ApiDocs.Catalog.Connect
import ApiDocs.Entity.Basic

/-!
# Failures of sources

A fault in a record condemns its source; other sources go on without it.

* `SourceError.message`: source, identifier if one is to blame, and cause in one line;
* `LoadError.ofRecord`, `LoadError.ofSource`: which faults condemn a source and which stop
  everything.
-/

namespace ApiDocs

open Text

/-- What is wrong with a source. -/
inductive SourceProblem
  /-- A record cannot be turned into an entity. -/
  | record (identifier : String) (cause : Fault)
  /-- The entities do not go together. -/
  | assembly (cause : Fault)
  /-- A type is in an earlier source already. -/
  | clash (key : String)
  /-- The file of the source cannot be read. -/
  | unreadable (cause : Fault)
  | notMapping
  /-- A record of the file has not the shape of one. -/
  | malformed (cause : Fault)

namespace SourceProblem

/-- The text that is to blame, if there is one. -/
def identifier? : SourceProblem → Option String
  | record identifier _ => some identifier
  | clash key => some key
  | _ => none

/-- The fault behind a problem, if there is one. -/
def cause? : SourceProblem → Option Fault
  | record _ cause => some cause
  | assembly cause => some cause
  | clash key => some (.duplicate key)
  | unreadable cause => some cause
  | notMapping => none
  | malformed cause => some cause

/-- The words for a problem, source and identifier apart. -/
def message : SourceProblem → String
  | record _ cause => cause.message
  | assembly cause => cause.message
  | clash key => (Fault.duplicate key).message
  | unreadable cause => "Cannot read record file: " ++ cause.message
  | notMapping => "Record file must contain a mapping at the top level"
  | malformed cause => "Malformed record: " ++ cause.message

end SourceProblem

/-- A source that failed, and why. -/
structure SourceError where
  source : String
  problem : SourceProblem

namespace SourceError

/-- The source, the text to blame in quotes, and the words for the problem. -/
def message (e : SourceError) : String :=
  match e.problem.identifier?.getD "" with
  | "" => e.source ++ ": " ++ e.problem.message
  | identifier => e.source ++ ": " ++ quoted identifier ++ ": " ++ e.problem.message

/-- Several failures as one message. -/
def aggregate (failures : List SourceError) : String :=
  "\n".intercalate ((toString failures.length ++ " source(s) failed to load:")
    :: failures.map fun e => "  - " ++ e.message)

end SourceError

/-- Why loading stops: for one source, or altogether. -/
inductive LoadError
  | source (error : SourceError)
  | other (fault : Fault)

namespace LoadError

/-- A fault on the way from a record to its entity. -/
def ofRecord (source identifier : String) (fault : Fault) : LoadError :=
  if fault.isOfRecord then .source ⟨source, .record identifier fault⟩ else .other fault

/-- A fault on putting the entities of a source together. -/
def ofSource (source : String) (fault : Fault) : LoadError :=
  if fault.isOfRecord then .source ⟨source, .assembly fault⟩ else .other fault

end LoadError

/-- A computation that may fail for a source or altogether. -/
abbrev LoadWork := Logged LoadError LogEntry

end ApiDocs
