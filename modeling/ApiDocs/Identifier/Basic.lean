import ApiDocs.Flags
import ApiDocs.TypeRef

/-!
# Identifiers of types and members

An identifier names a declaration: the path of what contains it, its name, its own generic
parameters, the parameters of a callable, and flags.

* `Identifier.parent?`: the declaration that the last level of the path names;
* `Identifier.genericNames`: every declared generic name, outermost level first;
* `Identifier.rename`: declared and referenced generic names replaced, all at once.
-/

namespace ApiDocs

/-- One level of a path: a namespace or a type with the names of its generic parameters. -/
structure Segment where
  name : String
  typeParameters : List String := []
  flags : NameFlags := .none
deriving DecidableEq, Inhabited, Repr

/-- A parameter of a callable: its type, a name for display, and how it is passed. -/
structure Parameter where
  type : TypeRef
  name : Option String := none
  kind : ParameterKind := .none

/-- The name of a type or member. -/
structure Identifier where
  classPath : List Segment := []
  name : String := ""
  typeParameters : List String := []
  parameters : List Parameter := []
  flags : NameFlags := .none

namespace Segment

/-- Replaces the names of the generic parameters. -/
def rename (f : String → String) (s : Segment) : Segment :=
  { s with typeParameters := s.typeParameters.map f }

end Segment

namespace Parameter

/-- Replaces the names in the type. -/
def rename (f : String → String) (p : Parameter) : Parameter := { p with type := p.type.rename f }

end Parameter

namespace Identifier

/-- Methods and constructors are callable. -/
def isCallable (x : Identifier) : Bool := x.flags.overlaps .callable

/-- The identifier of the enclosing declaration; there is none at the top. -/
def parent? (x : Identifier) : Option Identifier :=
  x.classPath.getLast?.map fun last =>
    { classPath := x.classPath.dropLast, name := last.name, typeParameters := last.typeParameters
      parameters := [], flags := last.flags }

/-- The path of a child of this declaration. -/
def asClassPath (x : Identifier) : List Segment :=
  x.classPath ++ [⟨x.name, x.typeParameters, x.flags⟩]

/-- A child of this declaration by its bare name. -/
def child (x : Identifier) (name : String) : Identifier :=
  { classPath := x.asClassPath, name := name }

/-- The generic names that the path declares, outermost level first. -/
def pathGenericNames (x : Identifier) : List String := x.classPath.flatMap (·.typeParameters)

/-- Every declared generic name, outermost level first. -/
def genericNames (x : Identifier) : List String := x.pathGenericNames ++ x.typeParameters

/-- Replaces the declared generic names and every name in the types of the parameters. -/
def rename (f : String → String) (x : Identifier) : Identifier :=
  { x with
    classPath := x.classPath.map (·.rename f)
    typeParameters := x.typeParameters.map f
    parameters := x.parameters.map (·.rename f) }

end Identifier

end ApiDocs
