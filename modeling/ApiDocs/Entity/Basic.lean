import ApiDocs.Entity.TypeDoc

/-!
# Entities

An entity is a type or a member of one. What some entities do not have cannot be asked of them.

* `Entity.merge`: the entity with the text of another;
* `Entity.addMember`: a type with one more member.
-/

namespace ApiDocs

/-- A type, or a member of a type. -/
inductive Entity
  | type (type : TypeDoc)
  | member (member : AnyMember)

namespace AnyMember

/-- The member with the text of any entity. Only a method describes the parameters of a method. -/
def merge (m : AnyMember) (documented : Entity) : Except Fault AnyMember :=
  match m, documented with
  | ⟨.method, s⟩, .member ⟨.method, d⟩ => .ok ⟨.method, s.merge d⟩
  | ⟨.method, _⟩, _ => .error .noField
  | ⟨c, s⟩, .type d => .ok ⟨c, { s with
      metadata := d.metadata <|> s.metadata
      exceptions := if d.exceptions.isEmpty then s.exceptions else d.exceptions }⟩
  | ⟨c, s⟩, .member ⟨_, d⟩ => .ok ⟨c, { s with
      metadata := d.metadata <|> s.metadata
      exceptions := if d.exceptions.isEmpty then s.exceptions else d.exceptions }⟩

end AnyMember

namespace Entity

/-- The identifier of an entity. -/
def identifier : Entity → Identifier
  | type t => t.identifier
  | member m => m.identifier

/-- The text of an entity is that of its identifier. -/
def text (e : Entity) : String := e.identifier.text

/-- The free text of an entity. -/
def metadata : Entity → Option Metadata
  | type t => t.metadata
  | member m => m.member.metadata

/-- The documented exceptions of an entity. -/
def exceptions : Entity → List ExceptionDoc
  | type t => t.exceptions
  | member m => m.member.exceptions

instance : BEq Entity where
  beq
    | type t, type u => t == u
    | member m, member n => m == n
    | _, _ => false

/-- Another free text. -/
def withMetadata (metadata : Option Metadata) : Entity → Entity
  | type t => type { t with metadata }
  | member ⟨c, m⟩ => member ⟨c, { m with metadata }⟩

/-- Other exceptions. -/
def withExceptions (exceptions : List ExceptionDoc) : Entity → Entity
  | type t => type { t with exceptions }
  | member ⟨c, m⟩ => member ⟨c, { m with exceptions }⟩

/-- Other generic parameters, which types and methods have. -/
def withTypeParameters (typeParameters : List TypeParameterDoc) : Entity → Except Fault Entity
  | type t => .ok (type { t with typeParameters })
  | member ⟨.method, m⟩ =>
    .ok (member ⟨.method, { m with detail := { m.detail with typeParameters } }⟩)
  | _ => .error .noField

/-- Other parameters, which methods have. -/
def withParameters (parameters : List ParameterDoc) : Entity → Except Fault Entity
  | member ⟨.method, m⟩ =>
    .ok (member ⟨.method, { m with detail := { m.detail with parameters } }⟩)
  | _ => .error .noField

/-- The members of a type in the order of listing. -/
def allMembers : Entity → Except Fault (List AnyMember)
  | type t => .ok t.allMembers
  | member _ => .error .noField

/-- A type with one more member; a type is no member of another. -/
def addMember (e added : Entity) : Except Fault Entity :=
  match e, added with
  | type t, member m => (t.addMember m).map type
  | type _, type _ => .error .notMember
  | member _, _ => .error .noField

/-- The entity with the text of another. Types describe types. -/
def merge (e documented : Entity) : Except Fault Entity :=
  match e, documented with
  | type s, type d => .ok (type (s.merge d))
  | type _, member _ => .error .noField
  | member m, d => (m.merge d).map member

end Entity

end ApiDocs
