import ApiDocs.Catalog.Basic
import ApiDocs.LogEntry
import ApiDocs.Logged

/-!
# Members and their types

`Catalog.connect` makes a catalog of types and loose members. Each member goes to the type that its
path names; where no such type is listed, an empty one is made for it.
-/

namespace ApiDocs

/-- A computation of the library: it may fail, and it logs. -/
abbrev Work := Logged Fault LogEntry

namespace Catalog

/-- The type that a member belongs to, made if it is not there. -/
def ownerOf (c : Catalog) (parent : Identifier) (m : AnyMember) : Work TypeDoc :=
  match c.find? parent with
  | some owner => pure owner
  | none => do
    Logged.emit (.implicitType parent.text m.identifier.text)
    pure { identifier := parent }

/-- Puts a member into the type that its path names. -/
def attach (c : Catalog) (m : AnyMember) : Work Catalog :=
  match m.identifier.parent? with
  | none => throw (.orphan m.identifier.text)
  | some parent => do
    let owner ← c.ownerOf parent m
    let owner ← Logged.ofExcept (owner.addMember m)
    pure ⟨c.table.insert parent.canonicalKey owner⟩

/-- Puts members into their types one after another. -/
def attachAll (c : Catalog) : List AnyMember → Work Catalog
  | [] => pure c
  | m :: rest => do
    let c ← c.attach m
    c.attachAll rest

/-- A catalog of types and of the members that belong to them. -/
def connect (types : List TypeDoc) (members : List AnyMember) : Work Catalog := do
  let c ← Logged.ofExcept (ofTypes types)
  c.attachAll members

end Catalog

end ApiDocs
