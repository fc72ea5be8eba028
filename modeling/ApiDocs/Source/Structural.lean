import ApiDocs.Catalog.Connect
import ApiDocs.Catalog.Visibility
import ApiDocs.Record.Basic
import ApiDocs.Source.Error

/-!
# Structural records as entities

* `StructuralRecord.toIdentifier`: the identifier with the real generic names and parameters;
* `StructuralRecord.toEntity`: the type or member that a record declares;
* `Catalog.ofStructural`: the catalog of what a source declares, as far as it is asked for.
-/

namespace ApiDocs

/-- Prefixes by which names are known to be made by a compiler, as the settings give them. -/
abbrev Prefixes := List Datum

/-- The prefixes unless the settings say otherwise. -/
def Prefixes.default : Prefixes := [.text "<"]

/-- Whether a text begins with one of the prefixes, of which the first that is no text is a fault. -/
def Prefixes.matches (prefixes : Prefixes) (part : List Char) : Except Fault Bool :=
  match prefixes with
  | [] => .ok false
  | .text p :: rest => if p.toList.isPrefixOf part then .ok true else Prefixes.matches rest part
  | _ :: _ => .error .notText

/-- The dotted parts of a text. -/
def dottedParts : List Char → List (List Char)
  | [] => [[]]
  | c :: cs =>
    if c == '.' then [] :: dottedParts cs
    else
      match dottedParts cs with
      | part :: parts => (c :: part) :: parts
      | [] => [[c]]

/-- Whether one of the parts begins with one of the prefixes. -/
def anyPartMatches (prefixes : Prefixes) : List (List Char) → Except Fault Bool
  | [] => .ok false
  | part :: parts =>
    match prefixes.matches part with
    | .ok false => anyPartMatches prefixes parts
    | decided => decided

/-- Whether a compiler made the name, to judge by how its dotted parts begin. -/
def isCompilerGenerated (prefixes : Prefixes) (identifier : String) : Except Fault Bool :=
  anyPartMatches prefixes (dottedParts identifier.toList)

namespace ParameterShape

/-- The name for display. What does not count as given is no name; else only a text can be one. -/
def displayName (p : ParameterShape) : Except Fault (Option String) :=
  match p.name with
  | .text s => .ok (some s)
  | d => if d.isGiven then .error .notText else .ok none

/-- The parameter that a shape describes, with the generic names of a scope. -/
def toParameter (scope : Scope) (p : ParameterShape) : Except Fault Parameter := do
  let type ← (TypeRef.parse p.type scope).mapError .parse
  let name ← p.displayName
  .ok { type, name, kind := p.kind }

end ParameterShape

namespace StructuralRecord

/-- Gives the declared generic parameters their real names, of which there have to be as many. -/
def applyGenericNames (names : List String) (x : Identifier) : Except Fault Identifier :=
  let declared := x.genericNames
  if names.isEmpty then .ok x
  else if declared.length ≠ names.length then
    .error (.genericCount names.length declared.length)
  else .ok (x.rename (Numbering.apply (declared.zip names)))

/-- The identifier of a record with its real generic names and parameters. -/
def toIdentifier (r : StructuralRecord) : Except Fault Identifier := do
  let kind ← MemberKind.ofLabel r.kind
  let x ← (Identifier.parse r.identifier (kind == .method)).mapError .parse
  let x ← applyGenericNames r.genericNames { x with flags := x.flags ||| r.flags }
  if r.parameters.isEmpty then .ok x
  else
    let scope : Scope := ⟨x.pathGenericNames, x.typeParameters⟩
    let parameters ← r.parameters.mapM (·.toParameter scope)
    .ok { x with parameters }

/-- The documentation slots of the parameters of an identifier. -/
def parameterDocs (x : Identifier) : List ParameterDoc :=
  x.parameters.map fun p => { name := p.name.getD "", type := some p.type, kind := p.kind }

/-- The type or member that a record declares. -/
def toEntity (r : StructuralRecord) : Except Fault Entity := do
  let kind ← MemberKind.ofLabel r.kind
  let x ← r.toIdentifier
  let typeParameters : List TypeParameterDoc := x.typeParameters.map ({ name := · })
  let accessors : Accessors := ⟨r.accessors.1, r.accessors.2⟩
  .ok <| match kind with
  | .type => .type { identifier := x, typeParameters }
  | .method =>
    .member ⟨.method, { identifier := x, detail := ⟨typeParameters, parameterDocs x⟩ }⟩
  | .property => .member ⟨.property, { identifier := x, detail := accessors }⟩
  | .event => .member ⟨.event, { identifier := x, detail := accessors }⟩
  | .field => .member ⟨.field, { identifier := x, detail := () }⟩

end StructuralRecord

/-- What is kept of a structural source. -/
structure LoadOptions where
  visibilities : NameFlags := .allVisibilities
  skipCompilerGenerated : Bool := true
  prefixes : Prefixes := .default

namespace LoadOptions

/-- Whether a record is passed over. -/
def skips (options : LoadOptions) (r : StructuralRecord) : Except Fault Bool :=
  if options.skipCompilerGenerated then isCompilerGenerated options.prefixes r.identifier
  else .ok false

end LoadOptions

/-- The entities of some records, types apart from members, and the number of records skipped. -/
structure Entities where
  types : List TypeDoc := []
  members : List AnyMember := []
  skipped : Nat := 0

namespace Entities

/-- Puts an entity in front of its like. -/
def cons (e : Entity) (rest : Entities) : Entities :=
  match e with
  | .type t => { rest with types := t :: rest.types }
  | .member m => { rest with members := m :: rest.members }

/-- The entities of structural records that are not skipped. -/
def ofStructural (source : String) (options : LoadOptions) :
    List StructuralRecord → Except LoadError Entities
  | [] => .ok {}
  | r :: rest => do
    if ← (options.skips r).mapError .other then
      let entities ← ofStructural source options rest
      .ok { entities with skipped := entities.skipped + 1 }
    else
      let e ← r.toEntity.mapError (.ofRecord source r.identifier)
      .ok (cons e (← ofStructural source options rest))

end Entities

/-- The catalog of what a source declares. -/
def Catalog.ofStructural (source : String) (options : LoadOptions)
    (records : List StructuralRecord) : LoadWork Catalog := do
  let entities ← Logged.ofExcept (Entities.ofStructural source options records)
  if entities.skipped > 0 then Logged.emit (.skippedRecords source entities.skipped)
  let c ← (connect entities.types entities.members).mapError (.ofSource source)
  pure (c.filterVisibility options.visibilities)

end ApiDocs
