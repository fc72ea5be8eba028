import ApiDocs.Identifier.Text

/-!
# Canonical identifiers

Two spellings of the generic names of one declaration are the same name. The canonical form numbers
the declared names `T1`, `T2`, … from the outermost level inwards, makes the references follow, and
drops the names and kinds of the parameters.

* `Identifier.declare`: the numbered levels, and what each declared name has become; an inner
  declaration hides an outer one of the same name;
* `Identifier.canonical`: the canonical form, and `Identifier.canonicalKey`, its text.
-/

namespace ApiDocs

/-- The generic name with a number. -/
def numberedName (n : Nat) : String := "T" ++ toString n

/-- What declared names have become, the latest declaration first. -/
abbrev Numbering := List (String × String)

/-- A declared name's new name; any other name stays. -/
def Numbering.apply (r : Numbering) (name : String) : String := (r.lookup name).getD name

namespace Identifier

/-- Numbers a list of declared names behind `count` others. -/
def numberNames (count : Nat) (names : List String) : List String :=
  (List.range names.length).map fun i => numberedName (count + i + 1)

/-- Numbers the declared names level by level, behind `count` others. -/
def numberPath (count : Nat) : List Segment → List Segment
  | [] => []
  | s :: rest =>
    { s with typeParameters := numberNames count s.typeParameters }
      :: numberPath (count + s.typeParameters.length) rest

/-- What every declared name becomes; the declaration furthest inside counts. -/
def numbering (x : Identifier) : Numbering :=
  (x.genericNames.zip (numberNames 0 x.genericNames)).reverse

/-- The canonical form of an identifier. -/
def canonical (x : Identifier) : Identifier :=
  { classPath := numberPath 0 x.classPath
    name := x.name
    typeParameters := numberNames x.pathGenericNames.length x.typeParameters
    parameters := x.parameters.map fun p => { type := p.type.rename x.numbering.apply }
    flags := x.flags }

/-- The text of the canonical form, under which declarations are matched. -/
def canonicalKey (x : Identifier) : String := x.canonical.text

/-- The key of a member within its type. -/
def signatureKey (x : Identifier) : String := x.canonical.signature

end Identifier

end ApiDocs
