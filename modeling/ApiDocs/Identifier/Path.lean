import ApiDocs.Identifier.Canonical
import ApiDocs.Token.Basic

/-!
# Paths as they are written

A member id writes a dotted path of names. A level says how many generic parameters it has, not what
they are called: they are numbered `T1`, `T2`, … over the whole path. A single mark stands for the
parameters of a type, a double one for those of a method, and a reference behind a mark counts among
the parameters declared behind the same mark.

* `SegmentName.flags`: what the spelling of a name says about it;
* `Scope.ofPath`: the generic names that references may mean;
* `Identifier.ofPath`: the identifier that a path and its parameters make up.
-/

namespace ApiDocs

/-- The mark of a generic parameter: of a type or of a method. -/
inductive Mark
  | ofType
  | ofMethod
deriving DecidableEq, Repr

/-- How a mark is written. -/
def Mark.text : Mark → String
  | .ofType => "`"
  | .ofMethod => "``"

/-- The mark that a kind of token is. -/
def TokenKind.mark? : TokenKind → Option Mark
  | .backtick => some .ofType
  | .doubleBacktick => some .ofMethod
  | _ => none

/-- The spellings of a name. -/
inductive SegmentName
  /-- A name, or the parts of an interface and the name of the member that implements it. -/
  | hashed (first : String) (more : List String)
  | special (name : String)
  | classSpecial (name : String)
deriving DecidableEq, Repr

namespace SegmentName

/-- The name as it is written. -/
def text : SegmentName → String
  | hashed first more => "#".intercalate (first :: more)
  | special name => "#" ++ name
  | classSpecial name => "##" ++ name

/-- The name of constructors. -/
def constructorName : String := "ctor"

/-- What the spelling says about the declaration. -/
def flags : SegmentName → NameFlags
  | hashed _ [] => .none
  | hashed _ (_ :: _) => .specialNameBit ||| .explicitBit
  | special name =>
    if name = constructorName then .specialNameBit ||| .constructorBit else .specialNameBit
  | classSpecial name =>
    if name = constructorName then .specialNameBit ||| .classConstructorBit ||| .staticBit
    else .specialNameBit

end SegmentName

/-- A level of a path as it is written, with the mark and number of its generic parameters. -/
structure PathSegment where
  name : SegmentName
  generics : Option (Mark × Nat) := none
deriving DecidableEq, Repr

namespace PathSegment

/-- The number of generic parameters. -/
def arity (s : PathSegment) : Nat := (s.generics.map (·.2)).getD 0

/-- The names of the generic parameters behind `count` others. -/
def declared (count : Nat) (s : PathSegment) : List String :=
  (List.range s.arity).map fun i => numberedName (count + i + 1)

/-- The level with its generic parameters behind `count` others. -/
def toSegment (count : Nat) (s : PathSegment) : Segment :=
  ⟨s.name.text, s.declared count, s.name.flags⟩

/-- The levels of a path with their generic parameters behind `count` others. -/
def toSegments (count : Nat) : List PathSegment → List Segment
  | [] => []
  | s :: rest => s.toSegment count :: toSegments (count + s.arity) rest

/-- How many generic parameters a path declares. -/
def totalArity (path : List PathSegment) : Nat := path.foldr (fun s n => s.arity + n) 0

end PathSegment

/-- The generic names that a reference may mean, by the mark of the reference. -/
structure Scope where
  ofType : List String := []
  ofMethod : List String := []
deriving Repr

namespace Scope

/-- The names behind a mark. -/
def names (scope : Scope) : Mark → List String
  | .ofType => scope.ofType
  | .ofMethod => scope.ofMethod

/-- The names that the levels of a path declare behind a mark, numbered behind `count` others. -/
def declaredWith (mark : Mark) (count : Nat) : List PathSegment → List String
  | [] => []
  | s :: rest =>
    (if s.generics.map (·.1) = some mark then s.declared count else [])
      ++ declaredWith mark (count + s.arity) rest

/-- The generic names that a path declares. -/
def ofPath (path : List PathSegment) : Scope :=
  ⟨declaredWith .ofType 0 path, declaredWith .ofMethod 0 path⟩

end Scope

/-- The identifier of a path: its last level is the name proper. -/
def Identifier.ofPath (isMethod : Bool) (outer : List PathSegment) (last : PathSegment)
    (parameters : List Parameter) : Identifier :=
  { classPath := PathSegment.toSegments 0 outer
    name := last.name.text
    typeParameters := last.declared (PathSegment.totalArity outer)
    parameters := parameters
    flags := if isMethod then last.name.flags ||| .methodBit else last.name.flags }

end ApiDocs
