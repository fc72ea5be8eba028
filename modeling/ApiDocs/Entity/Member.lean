import ApiDocs.Entity.Doc
import ApiDocs.Identifier.Canonical

/-!
# Members

A member of a type is a method, a field, a property or an event. All have an identifier, free text
and exceptions; what else they have is their `Detail`.

* `Member.key`: the key of a member within its type;
* `Member.merge`: structure keeps its signature, documentation gives its text.
-/

namespace ApiDocs

/-- The classes of members. -/
inductive MemberClass
  | method
  | field
  | property
  | event
deriving DecidableEq, Repr

/-- All classes, in the order in which the members of a type are listed. -/
def MemberClass.all : List MemberClass := [.method, .field, .property, .event]

/-- The generic parameters and parameters of a method. -/
structure MethodParts where
  typeParameters : List TypeParameterDoc := []
  parameters : List ParameterDoc := []

instance : BEq MethodParts where
  beq a b := a.typeParameters == b.typeParameters && a.parameters == b.parameters

/-- The flags of the two accessors: getter and setter, or adder and remover. -/
structure Accessors where
  first : NameFlags := .none
  second : NameFlags := .none
deriving DecidableEq, Repr

/-- What the members of one class have and others do not. -/
@[reducible] def MemberClass.Detail : MemberClass → Type
  | .method => MethodParts
  | .field => Unit
  | .property => Accessors
  | .event => Accessors

instance : (c : MemberClass) → BEq c.Detail
  | .method => inferInstanceAs (BEq MethodParts)
  | .field => inferInstanceAs (BEq Unit)
  | .property => inferInstanceAs (BEq Accessors)
  | .event => inferInstanceAs (BEq Accessors)

/-- A member of one class. -/
structure Member (c : MemberClass) where
  identifier : Identifier
  metadata : Option Metadata := none
  exceptions : List ExceptionDoc := []
  detail : c.Detail

namespace Member

variable {c : MemberClass}

instance : BEq (Member c) where
  beq a b := a.identifier == b.identifier && a.metadata == b.metadata
    && a.exceptions == b.exceptions && a.detail == b.detail

/-- The key of the member within its type. -/
def key (m : Member c) : String := m.identifier.signatureKey

/-- Joins what a class has of its own: documentation describes the parameters of a method, and has
no say on accessors. -/
def mergeDetail : (c : MemberClass) → (structural documented : c.Detail) → c.Detail
  | .method, s, d =>
    { typeParameters := TypeParameterDoc.merge s.typeParameters d.typeParameters
      parameters := ParameterDoc.merge s.parameters d.parameters }
  | .field, s, _ => s
  | .property, s, _ => s
  | .event, s, _ => s

/-- Takes text and exceptions of the documentation, when it has them. -/
def merge (structural documented : Member c) : Member c where
  identifier := structural.identifier
  metadata := documented.metadata <|> structural.metadata
  exceptions :=
    if documented.exceptions.isEmpty then structural.exceptions else documented.exceptions
  detail := mergeDetail c structural.detail documented.detail

/-- A method's name with its generic parameters and the names of its parameters. -/
def shortName (m : Member .method) : String :=
  m.identifier.displayName
    ++ angled (m.detail.typeParameters.map (·.name))
    ++ "(" ++ ", ".intercalate (m.detail.parameters.map (·.name)) ++ ")"
    ++ (if m.identifier.flags.overlaps .staticBit then " [static]" else "")

end Member

/-- A member of any class. -/
structure AnyMember where
  cls : MemberClass
  member : Member cls

namespace AnyMember

/-- The identifier of the member. -/
def identifier (m : AnyMember) : Identifier := m.member.identifier

instance : BEq AnyMember where
  beq a b := if h : b.cls = a.cls then a.member == h ▸ b.member else false

end AnyMember

end ApiDocs
