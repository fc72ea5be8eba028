import ApiDocs.Identifier.Basic

/-!
# Texts of identifiers

* `Identifier.render`: the text of an identifier, with parts left out or added by a `Style`;
* `Identifier.text`: the text with path and parameters, the sole basis of `==` and of the order;
* `Identifier.signature`: name and parameters without the path, constructors by their raw name;
* `Identifier.metadataName`: the name with its number of generic parameters behind a mark.
-/

namespace ApiDocs

/-! ## Parts -/

/-- The text of a level: its name and its generic parameters. -/
def Segment.text (s : Segment) : String := s.name ++ angled s.typeParameters

/-- The name of a level with its number of generic parameters. -/
def Segment.metadataName (s : Segment) : String :=
  if s.typeParameters.isEmpty then s.name else s.name ++ "`" ++ toString s.typeParameters.length

/-- The text of a parameter: how it is passed, its type and its name. -/
def Parameter.text (p : Parameter) : String :=
  (if p.kind.overlaps .outBit then "out " else if p.kind.overlaps .refBit then "ref " else "")
    ++ p.type.text
    ++ match p.name with
      | some name => if name.isEmpty then "" else " " ++ name
      | none => ""

instance : BEq Segment := ⟨fun a b => a.text == b.text⟩

instance : BEq Parameter := ⟨fun a b => a.text == b.text⟩

namespace Identifier

/-- Which parts of an identifier are written. -/
structure Style where
  path : Bool := true
  modifiers : Bool := false
  parameters : Bool := true
  /-- Constructors go by the name of their class. -/
  constructorClassName : Bool := true

/-- The name for display: a constructor goes by the name of its class. -/
def displayName (x : Identifier) : String :=
  match x.classPath.getLast? with
  | some last => if x.flags.overlaps .anyConstructor then last.name else x.name
  | none => x.name

/-- The words for the flags, each followed by a space. -/
def modifierText (x : Identifier) : String :=
  String.join ((NameFlags.modifierWords.filter fun w => x.flags.overlaps w.1).map (·.2 ++ " "))

/-- The levels of the path, each followed by a period. -/
def pathText (x : Identifier) : String :=
  if x.classPath.isEmpty then "" else ".".intercalate (x.classPath.map Segment.text) ++ "."

/-- The parameters in parentheses. An indexed property has some without being callable. -/
def parameterText (x : Identifier) : String :=
  if x.isCallable || !x.parameters.isEmpty then
    "(" ++ ", ".intercalate (x.parameters.map Parameter.text) ++ ")"
  else ""

/-- The text of an identifier in a style. -/
def render (style : Style) (x : Identifier) : String :=
  (if style.modifiers then x.modifierText else "")
    ++ (if style.path then x.pathText else "")
    ++ (if style.constructorClassName then x.displayName else x.name)
    ++ angled x.typeParameters
    ++ (if style.parameters then x.parameterText else "")

/-- The text with path and parameters. -/
def text (x : Identifier) : String := x.render {}

instance : BEq Identifier := ⟨fun a b => a.text == b.text⟩

/-- The text without the path. -/
def nameWithParameters (x : Identifier) : String := x.render { path := false }

/-- The text without the path, with the raw name of a constructor. -/
def signature (x : Identifier) : String :=
  x.render { path := false, constructorClassName := false }

/-- The text with the words for the flags in front. -/
def textWithModifiers (x : Identifier) : String := x.render { modifiers := true }

/-- The text of the enclosing declaration, empty at the top. -/
def container (x : Identifier) : String := (x.parent?.map text).getD ""

/-- The name with its number of generic parameters, behind a doubled mark for a method. -/
def metadataName (x : Identifier) : String :=
  if x.typeParameters.isEmpty then x.name
  else
    x.name ++ (if x.flags.overlaps .methodBit then "``" else "`") ++ toString x.typeParameters.length

end Identifier

end ApiDocs
