import ApiDocs.Record.Reader
import ApiDocs.Settings.Merge
import ApiDocs.Source.Structural

/-!
# Settings

Settings say what is kept of the structural records, whether the first failure ends a run, and how much
is logged. Keys that mean nothing here are kept.

* `Settings.default`: the settings without a file;
* `Settings.updateWith`: the settings that a document gives, over others.
-/

namespace ApiDocs

/-- Settings by their keys. -/
structure Settings where
  entries : List (Datum × Datum)

namespace Settings

/-- The settings unless a file says otherwise. -/
def default : Settings := ⟨[
  (.text "include_visibility",
    .list [.text "internal", .text "private", .text "protected", .text "public"]),
  (.text "skip_compiler_generated", .bool true),
  (.text Datum.prefixesKey, .list Prefixes.default),
  (.text "fail_fast", .bool false),
  (.text "log_level", .text "INFO")]⟩

/-- The settings that a document gives, over others. -/
def updateWith (base : Settings) (d : Datum) : Except Fault Settings :=
  match d.opened with
  | .map update => Settings.mk <$> Datum.mergeEntries base.entries update
  | d => if d.isGiven then .error .noField else .ok base

/-- The value under a key, null when there is none. -/
def get (s : Settings) (key : String) : Datum := (Datum.find? key s.entries).getD .null

/-- The visibilities that are kept. -/
def visibilities (s : Settings) : Except Fault NameFlags :=
  let d := s.get "include_visibility"
  if d.isGiven then NameFlags.ofDatum d else .ok .none

/-- Whether names that a compiler made are skipped. -/
def skipsCompilerGenerated (s : Settings) : Bool := (s.get "skip_compiler_generated").isGiven

/-- The prefixes by which names are known to be made by a compiler. -/
def prefixes (s : Settings) : Except Fault Prefixes := (s.get Datum.prefixesKey).optionalElements

/-- Whether the first failure ends a run. -/
def failsFast (s : Settings) : Bool := (s.get "fail_fast").isGiven

/-- The name of the level from which on entries are logged. -/
def levelName (s : Settings) : Except Fault String := Text.upper <$> (s.get "log_level").written

end Settings

end ApiDocs
