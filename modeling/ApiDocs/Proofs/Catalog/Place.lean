import ApiDocs.Catalog.Basic
import ApiDocs.Proofs.Catalog.Keyed
import ApiDocs.Proofs.Entity.Signature

/-!
# Places in a catalog

A type stands under its key. A member stands in the type that its path names, in the table of its
class, under its own key. The place of a declaration is told from its kind and its identifier, so it
can be asked what a catalog has there.

* `Place.of?`: the place of a declaration;
* `Catalog.entityAt`: what stands at a place, where the members of a type stand at places of their
  own;
* `Catalog.IsPlaced`: everything stands at its own place, and so the types stand under their keys.
-/

namespace ApiDocs

/-- A place in a catalog. -/
inductive Place
  /-- The place of a type. -/
  | type (key : String)
  /-- The place of a member in the type with the key `owner`. -/
  | member (cls : MemberClass) (owner key : String)
deriving DecidableEq, Repr

/-- The key of the type at a place or around it. -/
def Place.typeKey : Place → String
  | .type key => key
  | .member _ owner _ => owner

/-- Whether a place is another one, or that of a member in the type there. -/
def Place.IsIn (place outer : Place) : Prop := place = outer ∨ outer = .type place.typeKey

/-- The place of the declaration that has a kind and an identifier. A member with nothing around it
has none. -/
def Place.of? (kind : MemberKind) (x : Identifier) : Option Place :=
  match kind.class? with
  | none => some (.type x.canonicalKey)
  | some c => x.parent?.map fun parent => .member c parent.canonicalKey x.signatureKey

namespace Entity

/-- The place of an entity. -/
def place? (e : Entity) : Option Place := Place.of? e.kind e.identifier

theorem place?_type (t : TypeDoc) : (type t).place? = some (.type t.key) := rfl

theorem place?_member (m : AnyMember) : (member m).place? =
    m.identifier.parent?.map fun parent =>
      .member m.cls parent.canonicalKey m.identifier.signatureKey := by
  rw [place?, Place.of?, kind, MemberClass.class?_kind]
  rfl

/-- What declares the same has the same place. -/
theorem Keeps.place?_eq {e e' : Entity} (h : e.Keeps e') : e'.place? = e.place? := by
  rw [place?, place?, h.kind, h.identifier]

end Entity

namespace TypeDoc

/-- A type without its members. -/
def bare (t : TypeDoc) : TypeDoc := { t with members := {} }

/-- The member of a class under a key. -/
def member? (t : TypeDoc) (cls : MemberClass) (key : String) : Option Entity :=
  ((t.members.get cls).get? key).map fun m => .member ⟨cls, m⟩

theorem member?_of_members {t : TypeDoc} (h : t.members = {}) (cls : MemberClass) (key : String) :
    t.member? cls key = none := by
  rw [member?, h]
  cases cls <;> rfl

end TypeDoc

namespace Catalog

/-- What stands at a place. Members have places of their own, so a type comes without them. -/
def entityAt (c : Catalog) : Place → Option Entity
  | .type key => (c.table.get? key).map fun t => .type t.bare
  | .member cls owner key => (c.table.get? owner).bind (·.member? cls key)

theorem entityAt_member (c : Catalog) (cls : MemberClass) (owner key : String) :
    c.entityAt (.member cls owner key) = (c.table.get? owner).bind (·.member? cls key) := rfl

/-- Where a member stands, its type does. -/
theorem isSome_entityAt_of_isIn {c : Catalog} {place outer : Place} (h : place.IsIn outer)
    (hsome : (c.entityAt place).isSome) : (c.entityAt outer).isSome := by
  obtain rfl | rfl := h
  · exact hsome
  · cases place with
    | type key => exact hsome
    | member cls owner key =>
      rw [entityAt_member] at hsome
      rw [entityAt]
      cases hget : c.table.get? owner with
      | some t => rw [Place.typeKey, hget, Option.map_some, Option.isSome_some]
      | none =>
        rw [hget] at hsome
        cases hsome

/-- What stands at a place is seen in the type that is there or around it. -/
theorem entityAt_congr {c d : Catalog} {place : Place}
    (h : c.table.get? place.typeKey = d.table.get? place.typeKey) :
    c.entityAt place = d.entityAt place := by
  cases place with
  | type key => exact congrArg (Option.map fun t => Entity.type t.bare) h
  | member cls owner key => exact congrArg (·.bind (·.member? cls key)) h

/-- Everything stands at its own place. -/
def IsPlaced (c : Catalog) : Prop := ∀ place e, c.entityAt place = some e → e.place? = some place

/-- When everything stands at its own place, the types do. -/
theorem IsPlaced.isKeyed {c : Catalog} (h : c.IsPlaced) : c.IsKeyed := by
  intro key t ht
  have hentity : c.entityAt (.type key) = some (.type t.bare) := by rw [entityAt, ht, Option.map_some]
  have hplace := h _ _ hentity
  rw [Entity.place?_type, Option.some.injEq, Place.type.injEq] at hplace
  exact hplace

/-- When everything stands at its own place, the members of a type stand under their own keys and name
that type. -/
theorem IsPlaced.member_key {c : Catalog} (h : c.IsPlaced) {key : String} {t : TypeDoc}
    (ht : c.table.get? key = some t) {cls : MemberClass} {k : String} {m : Member cls}
    (hm : (t.members.get cls).get? k = some m) :
    m.key = k ∧ ∃ parent, m.identifier.parent? = some parent ∧ parent.canonicalKey = key := by
  have hentity : c.entityAt (.member cls key k) = some (.member ⟨cls, m⟩) := by
    rw [entityAt_member, ht, Option.bind_some, TypeDoc.member?, hm, Option.map_some]
  have hplace := h _ _ hentity
  rw [Entity.place?_member, Option.map_eq_some_iff] at hplace
  obtain ⟨parent, hparent, hplace⟩ := hplace
  rw [Place.member.injEq] at hplace
  exact ⟨hplace.2.2, parent, hparent, hplace.2.1⟩

end Catalog

end ApiDocs
