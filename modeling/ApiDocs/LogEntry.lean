/-!
# Log entries

What happens while sources are read and merged. An entry is a cause; its level, the part of the
program it comes from and its words follow from that.
-/

namespace ApiDocs

/-- The levels of entries, by weight. -/
inductive LogLevel
  | debug
  | info
  | warning
  | error
deriving DecidableEq, Repr

namespace LogLevel

/-- The name of a level. -/
def label : LogLevel → String
  | debug => "DEBUG"
  | info => "INFO"
  | warning => "WARNING"
  | error => "ERROR"

/-- The weight of a level. -/
def weight : LogLevel → Nat
  | debug => 10
  | info => 20
  | warning => 30
  | error => 40

end LogLevel

/-- Something worth noting. Declarations are given by their texts. -/
inductive LogEntry
  | merged (total matched structuralOnly documentationOnly unmatchedMembers : Nat)
  | unmatchedMember (member : String)
  | implicitType (owner member : String)
  | skippedRecords (source : String) (count : Nat)
  | documented (source : String) (types members : Nat)
  | skippedException (record cref : String)
  | sourceFailed (source reason : String)
  | sourceLoaded (source : String) (types : Nat)
  | fileFailed (path reason : String)
  | noConfig (path : String)
deriving DecidableEq, Repr

namespace LogEntry

/-- How much an entry matters. -/
def level : LogEntry → LogLevel
  | merged .. | sourceLoaded .. => .info
  | unmatchedMember _ | implicitType .. | skippedRecords .. | documented .. => .debug
  | skippedException .. | noConfig _ => .warning
  | sourceFailed .. | fileFailed .. => .error

/-- The part of the program that an entry names as its origin. -/
def origin : LogEntry → String
  | merged .. | unmatchedMember _ => "merge"
  | implicitType .. => "connect_members"
  | skippedRecords .. => "build_structural"
  | documented .. | skippedException .. => "build_documentation"
  | sourceFailed .. | sourceLoaded .. => "load_sources"
  | fileFailed .. => "reconcile_cli"
  | noConfig _ => "load_config"

/-- The words of an entry. -/
def message : LogEntry → String
  | merged total matched structuralOnly documentationOnly unmatchedMembers =>
    "Merged " ++ toString total ++ " types: " ++ toString matched ++ " matched, "
      ++ toString structuralOnly ++ " structural only, " ++ toString documentationOnly
      ++ " documentation only, " ++ toString unmatchedMembers
      ++ " documented members without structural match"
  | unmatchedMember member => "Documented member without structural match: " ++ member
  | implicitType owner member =>
    "Creating implicit type " ++ owner ++ " for member " ++ member
  | skippedRecords source count =>
    source ++ ": skipped " ++ toString count ++ " compiler-generated records"
  | documented source types members =>
    source ++ ": " ++ toString types ++ " documented types, " ++ toString members
      ++ " documented members"
  | skippedException record cref =>
    record ++ ": skipping exception reference " ++ cref ++ ", not a type"
  | sourceFailed source reason => "Failed to load source " ++ source ++ ": " ++ reason
  | sourceLoaded source types => "Loaded source " ++ source ++ ": " ++ toString types ++ " types"
  | fileFailed path reason => "Failed to read " ++ path ++ ": " ++ reason
  | noConfig path => "Config file " ++ path ++ " not found, using defaults"

/-- Level, origin and words in one line. -/
def line (entry : LogEntry) : String :=
  entry.level.label ++ " " ++ entry.origin ++ ": " ++ entry.message

end LogEntry

end ApiDocs
