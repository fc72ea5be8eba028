import ApiDocs.Record.Basic
import ApiDocs.Source.Error

/-!
# Documentation records as entities

* `exceptionIdentifier`: the type that a reference to an exception names;
* `DocumentationRecord.toEntity`: the type or member that a record is about, with its text;
* `Catalog.ofDocumentation`: the catalog of what a source documents.
-/

namespace ApiDocs

open Text

/-! ## References to exceptions -/

/-- The type that a reference names; the prefix for types may be left out. -/
def exceptionIdentifier (cref : String) : Except ParseFault Identifier :=
  match (strip cref).toList with
  | 'T' :: ':' :: body => Identifier.parse (String.ofList body)
  | _ => Identifier.parse (strip cref)

/-- Whether a reference is to a type: it has the prefix for types, or none. -/
def isTypeCref (cref : String) : Bool :=
  match symbols (strip cref).toList with
  | letter :: .char ':' :: _ => letter == .char 'T'
  | _ => true

namespace DocumentationRecord

/-- The documented exceptions. What refers to no type is logged and left out. -/
def exceptionDocs (r : DocumentationRecord) :
    List (String × Option String) → Work (List ExceptionDoc)
  | [] => pure []
  | (cref, description) :: rest =>
    if isTypeCref cref then do
      let cref ← Logged.ofExcept ((exceptionIdentifier cref).mapError .parse)
      let more ← r.exceptionDocs rest
      pure ({ cref, description } :: more)
    else do
      Logged.emit (.skippedException r.identifier cref)
      r.exceptionDocs rest

/-- The free text of a record, or none when it says nothing. -/
def metadata? (r : DocumentationRecord) : Option Metadata :=
  let m : Metadata := {
    summary := r.summary, remarks := r.remarks, exampleText := r.exampleText, see := r.see
    seeAlso := r.seeAlso }
  if m.isEmpty then none else some m

/-- The type or member that a record is about. -/
def toEntity (r : DocumentationRecord) : Work Entity := do
  let id ← Logged.ofExcept ((MemberId.parse r.identifier).mapError .parse)
  let identifier := id.identifier
  let metadata := r.metadata?
  let typeParameters : List TypeParameterDoc :=
    r.typeParameters.map fun p => { name := p.1, description := p.2 }
  let exceptions ← r.exceptionDocs r.exceptions
  let parameters : List ParameterDoc :=
    r.parameters.map fun p => { name := p.1, description := p.2 }
  pure <| match id.kind with
  | .type => .type { identifier, metadata, exceptions, typeParameters }
  | .method =>
    .member ⟨.method, { identifier, metadata, exceptions, detail := { typeParameters, parameters } }⟩
  | .property => .member ⟨.property, { identifier, metadata, exceptions, detail := {} }⟩
  | .event => .member ⟨.event, { identifier, metadata, exceptions, detail := {} }⟩
  | .field => .member ⟨.field, { identifier, metadata, exceptions, detail := () }⟩

end DocumentationRecord

/-- The entities of documentation records, types apart from members. -/
def documentedEntities (source : String) :
    List DocumentationRecord → LoadWork (List TypeDoc × List AnyMember)
  | [] => pure ([], [])
  | r :: rest => do
    let e ← r.toEntity.mapError (.ofRecord source r.identifier)
    let (types, members) ← documentedEntities source rest
    pure <| match e with
    | .type t => (t :: types, members)
    | .member m => (types, m :: members)

/-- The catalog of what a source documents. -/
def Catalog.ofDocumentation (source : String) (records : List DocumentationRecord) :
    LoadWork Catalog := do
  let (types, members) ← documentedEntities source records
  Logged.emit (.documented source types.length members.length)
  (connect types members).mapError (.ofSource source)

end ApiDocs
