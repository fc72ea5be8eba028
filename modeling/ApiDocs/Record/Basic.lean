import ApiDocs.Datum.Basic
import ApiDocs.Flags

/-!
# Records

What producers say about declarations: a structural record about the shape of one in compiled code,
a documentation record about the text on one.
-/

namespace ApiDocs

/-- A parameter of a structural record: the text of its type, its name and how it is passed. -/
structure ParameterShape where
  type : String
  /-- The name as the producer gave it, whatever that is. -/
  name : Datum := .null
  kind : ParameterKind := .none
deriving Inhabited

/-- A type or member as compiled code declares it. -/
structure StructuralRecord where
  kind : String
  identifier : String
  /-- The generic names of every declaration in the identifier, outermost level first. -/
  genericNames : List String := []
  flags : NameFlags := .none
  parameters : List ParameterShape := []
  /-- The flags of getter and setter, or of adder and remover. -/
  accessors : NameFlags × NameFlags := (.none, .none)
deriving Inhabited

/-- The text on the declaration that a member id names. -/
structure DocumentationRecord where
  identifier : String
  summary : Option String := none
  remarks : Option String := none
  exampleText : Option String := none
  see : Option String := none
  seeAlso : Option String := none
  parameters : List (String × Option String) := []
  typeParameters : List (String × Option String) := []
  exceptions : List (String × Option String) := []
deriving Inhabited

/-- What producers say about one body of code. -/
structure Source where
  name : String
  structural : List StructuralRecord := []
  documentation : List DocumentationRecord := []
deriving Inhabited

end ApiDocs
