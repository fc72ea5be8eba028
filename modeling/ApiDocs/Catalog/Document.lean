import ApiDocs.Catalog.Export
import ApiDocs.Datum.Json
import ApiDocs.Storage.Path
import ApiDocs.Text.Case
import ApiDocs.Yaml.Writer

/-!
# Catalogs as documents

* `Format.ofPath`: the format that the suffix of a path asks for;
* `Document.text`: the text of a document in its format.
-/

namespace ApiDocs

/-- The formats in which a catalog is written. -/
inductive Format
  | json
  | yaml
deriving DecidableEq, Repr

/-- The format that the suffix of a path asks for, in either case. -/
def Format.ofPath (path : Path) : Format :=
  if Text.lower path.suffix == ".json" then .json else .yaml

/-- Plain data in a format. -/
structure Document where
  format : Format
  content : Datum

/-- The text of a document. -/
def Document.text (d : Document) : String :=
  match d.format with
  | .json => d.content.json 0
  | .yaml => Yaml.write d.content

/-- The document to be written under a path. -/
def Catalog.document (c : Catalog) (path : Path) : Document := ⟨.ofPath path, c.toDatum⟩

end ApiDocs
