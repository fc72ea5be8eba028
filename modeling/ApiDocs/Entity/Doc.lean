import ApiDocs.Identifier.Text

/-!
# Documentation of a declaration

Free text, and the documentation of generic parameters, parameters and exceptions.

* `mergeByName`: entries of the documentation are folded into the structural entries of the same
  name, the last one if there are several; the others follow behind.
-/

namespace ApiDocs

/-- The free texts on a declaration. -/
structure Metadata where
  summary : Option String := none
  remarks : Option String := none
  exampleText : Option String := none
  see : Option String := none
  seeAlso : Option String := none
deriving DecidableEq, Repr

namespace Metadata

/-- The texts in the order in which they are written. -/
def fields (m : Metadata) : List (String × Option String) := [
  ("summary", m.summary), ("remarks", m.remarks), ("example", m.exampleText), ("see", m.see),
  ("see_also", m.seeAlso)]

/-- Whether no text says anything. -/
def isEmpty (m : Metadata) : Bool := m.fields.all fun f => (f.2.getD "").isEmpty

end Metadata

/-- A generic parameter by its name. -/
structure TypeParameterDoc where
  name : String
  description : Option String := none
deriving DecidableEq, Repr

/-- A parameter: its name, its type if that is known, and how it is passed. -/
structure ParameterDoc where
  name : String
  type : Option TypeRef := none
  kind : ParameterKind := .none
  description : Option String := none

/-- Type and name in one text. -/
def ParameterDoc.text (p : ParameterDoc) : String :=
  match p.type with
  | some type => type.text ++ " " ++ p.name
  | none => p.name

instance : BEq ParameterDoc where
  beq a b := a.name == b.name && a.type == b.type && a.kind == b.kind
    && a.description == b.description

/-- An exception by the type that is thrown. -/
structure ExceptionDoc where
  cref : Identifier
  description : Option String := none

instance : BEq ExceptionDoc where
  beq a b := a.cref == b.cref && a.description == b.description

/-! ## Merging by name -/

/-- The position of the last item that passes a test. -/
def lastIndex? {α : Type} (p : α → Bool) : List α → Option Nat
  | [] => none
  | x :: xs =>
    match lastIndex? p xs with
    | some i => some (i + 1)
    | none => if p x then some 0 else none

/-- Takes one documented entry into the result: the last structural entry of its name is combined
with it, at its position, and an entry of another name is put behind. -/
def mergeEntry {α : Type} (nameOf : α → String) (combine : α → α → α) (structural result : List α)
    (d : α) : List α :=
  match lastIndex? (fun s => nameOf s == nameOf d) structural with
  | none => result ++ [d]
  | some i => result.modify i (combine · d)

/-- Takes documented entries one by one into the structural ones. -/
def mergeByName {α : Type} (nameOf : α → String) (combine : α → α → α)
    (structural documented : List α) : List α :=
  documented.foldl (mergeEntry nameOf combine structural) structural

/-- A documented generic parameter replaces the structural one. -/
def TypeParameterDoc.merge (structural documented : List TypeParameterDoc) :
    List TypeParameterDoc :=
  mergeByName (·.name) (fun _ d => d) structural documented

/-- A documented parameter gives its description to the structural one. -/
def ParameterDoc.merge (structural documented : List ParameterDoc) : List ParameterDoc :=
  mergeByName (·.name) (fun s d => { s with description := d.description }) structural documented

end ApiDocs
