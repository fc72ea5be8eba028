import ApiDocs.Record.Reader
import ApiDocs.Settings.Load
import ApiDocs.Source.Error

/-!
# Files of records

A file of records is a map with a name, a list of structural records and a list of documentation
records, each of which may be left out. A file without a name is named after its path.

* `Source.ofDatum`: the source that a document describes;
* `Source.ofFile`: the source in a file.
-/

namespace ApiDocs

namespace LoadError

/-- A fault in a record of a file. What is no map where one is needed stops everything. -/
def ofShape (source : String) : Fault → LoadError
  | .noField => .other .noField
  | .endless => .other .endless
  | fault => .source ⟨source, .malformed fault⟩

/-- A fault on reading the text of a file. -/
def ofReading (source : String) (fault : Fault) : LoadError := .source ⟨source, .unreadable fault⟩

/-- A fault in the document of a file. A scalar that stands for nothing stops everything. -/
def ofDocument (source : String) : Fault → LoadError
  | .malformedDocument => .ofReading source .malformedDocument
  | fault => .other fault

end LoadError

namespace Source

/-- The records that a map describes under a key. -/
def recordsUnder {α : Type} (key : String) (read : Datum → Except Fault α) (d : Datum) :
    Except Fault (List α) := do
  (← (← d.field key).optionalElements).mapM read

/-- Both lists of records that a map describes. -/
def recordsOfDatum (d : Datum) :
    Except Fault (List StructuralRecord × List DocumentationRecord) := do
  let structural ← recordsUnder "structural" StructuralRecord.ofDatum d
  let documentation ← recordsUnder "documentation" DocumentationRecord.ofDatum d
  .ok (structural, documentation)

/-- The name that a map gives; one that is left out is that of the file. -/
def nameOfDatum (path : Path) (entries : List (Datum × Datum)) : Except Fault String :=
  let name := (Datum.find? "name" entries).getD .null
  if name.isGiven then name.written else .ok path.stem

/-- The source that a document describes. An empty document describes a source without records. -/
def ofDatum (path : Path) (document : Datum) : Except LoadError Source :=
  match if document.isGiven then document.opened else .map [] with
  | .map entries => do
    let (structural, documentation) ←
      (recordsOfDatum (.map entries)).mapError (.ofShape path.text)
    let name ← (nameOfDatum path entries).mapError .other
    .ok { name, structural, documentation }
  | _ => .error (.source ⟨path.text, .notMapping⟩)

/-- The source in a file. -/
def ofFile (view : View) (path : Path) : Except LoadError Source := do
  let content ← (view.read path).mapError (.ofReading path.text)
  let document ← (Datum.ofYaml content).mapError (.ofDocument path.text)
  ofDatum path document

end Source

end ApiDocs
