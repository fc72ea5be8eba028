import ApiDocs.Catalog.Basic
import ApiDocs.Datum.Basic

/-!
# Catalogs as plain data

What a renderer of documentation gets to see: types in the order of their keys, each with its members
class by class.

* `TypeDoc.toDatum`, `AnyMember.toDatum`: one type, one member;
* `Catalog.toDatum`: a whole catalog.
-/

namespace ApiDocs

namespace Datum

/-- A text, or null for none. -/
def ofOption (s : Option String) : Datum := (s.map .text).getD null

/-- A list of texts. -/
def ofTexts (texts : List String) : Datum := list (texts.map .text)

/-- A map with text keys. -/
def record (fields : List (String × Datum)) : Datum := map (fields.map fun f => (.text f.1, f.2))

end Datum

open Datum

/-- The texts that are there, by their names. -/
def Metadata.toDatum (m : Option Metadata) : Datum :=
  match m with
  | none => record []
  | some m => record (m.fields.filterMap fun f => f.2.map fun s => (f.1, .text s))

/-- A type and what is said about it. -/
def ExceptionDoc.toDatum (e : ExceptionDoc) : Datum :=
  record [("cref", .text e.cref.text), ("description", ofOption e.description)]

/-- A field for the exceptions, if there are any. -/
def exceptionFields (es : List ExceptionDoc) : List (String × Datum) :=
  if es.isEmpty then [] else [("exceptions", list (es.map ExceptionDoc.toDatum))]

/-- A name and what is said about it. -/
def TypeParameterDoc.toDatum (p : TypeParameterDoc) : Datum :=
  record [("name", .text p.name), ("description", ofOption p.description)]

/-- A name, its type, how it is passed, and what is said about it. -/
def ParameterDoc.toDatum (p : ParameterDoc) : Datum :=
  record [
    ("name", .text p.name), ("type", ofOption (p.type.map TypeRef.text)),
    ("kind", ofTexts p.kind.labels), ("description", ofOption p.description)]

/-- The fields that members of one class have and others do not. -/
def Member.detailFields : (c : MemberClass) → c.Detail → List (String × Datum)
  | .method, d => [
    ("type_parameters", list (d.typeParameters.map TypeParameterDoc.toDatum)),
    ("parameters", list (d.parameters.map ParameterDoc.toDatum))]
  | .field, _ => []
  | .property, d => [("getter", ofTexts d.first.labels), ("setter", ofTexts d.second.labels)]
  | .event, d => [("adder", ofTexts d.first.labels), ("remover", ofTexts d.second.labels)]

/-- The name under which a member is listed. -/
def Member.listedName : {c : MemberClass} → Member c → String
  | .method, m => m.shortName
  | .field, m | .property, m | .event, m => m.identifier.displayName

/-- A member as plain data. -/
def Member.toDatum {c : MemberClass} (m : Member c) : Datum :=
  record ([
    ("id", .text m.identifier.text), ("name", .text m.listedName),
    ("flags", ofTexts m.identifier.flags.labels), ("metadata", Metadata.toDatum m.metadata)]
    ++ exceptionFields m.exceptions ++ Member.detailFields c m.detail)

/-- The name of the list of the members of a class. -/
def MemberClass.listName : MemberClass → String
  | .method => "methods"
  | .field => "fields"
  | .property => "properties"
  | .event => "events"

/-- A type and its members as plain data. -/
def TypeDoc.toDatum (t : TypeDoc) : Datum :=
  record ([
    ("id", .text t.identifier.text), ("name", .text t.identifier.displayName),
    ("container", .text t.identifier.container), ("flags", ofTexts t.identifier.flags.labels),
    ("metadata", Metadata.toDatum t.metadata),
    ("type_parameters", list (t.typeParameters.map TypeParameterDoc.toDatum))]
    ++ exceptionFields t.exceptions
    ++ MemberClass.all.map fun c =>
      (c.listName, list ((t.members.get c).values.map Member.toDatum)))

/-- A catalog as plain data. -/
def Catalog.toDatum (c : Catalog) : Datum := record [("types", list (c.types.map TypeDoc.toDatum))]

end ApiDocs
