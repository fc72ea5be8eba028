import ApiDocs.Entity.TypeDoc

/-!
# Catalogs of types

A catalog holds types under the texts of their canonical identifiers and goes through them in the
order of those texts, whatever the order in which they came.

* `Catalog.addTypes`: a second type with one canonical identity is refused;
* `Catalog.find?`: any spelling of an identifier finds its type;
* `Catalog.union`: the types of two catalogs that have no key in common.
-/

namespace ApiDocs

/-- Types under their canonical keys. -/
structure Catalog where
  table : KeyTable TypeDoc

namespace Catalog

/-- The catalog without types. -/
def empty : Catalog := ⟨.empty⟩

instance : Inhabited Catalog := ⟨empty⟩

instance : BEq Catalog := ⟨fun a b => a.table == b.table⟩

/-- The types in the order of their keys. -/
def types (c : Catalog) : List TypeDoc := c.table.values

/-- The keys in ascending order. -/
def keys (c : Catalog) : List String := c.table.keys

/-- The number of types. -/
def size (c : Catalog) : Nat := c.table.size

/-- The number of members of all types. -/
def memberCount (c : Catalog) : Nat := c.types.foldr (fun t n => t.memberCount + n) 0

/-- A catalog in a few words. -/
def describe (c : Catalog) : String := "TypeCollection of " ++ toString c.size ++ " types"

/-- All keys in one text. -/
def fingerprint (c : Catalog) : String := ",".intercalate c.keys

/-- The type that an identifier names in any spelling. -/
def find? (c : Catalog) (x : Identifier) : Option TypeDoc := c.table.get? x.canonicalKey

/-- Whether there is a type that an identifier names. -/
def contains (c : Catalog) (x : Identifier) : Bool := (c.find? x).isSome

/-- The type that an identifier names, which has to be there. -/
def lookup (c : Catalog) (x : Identifier) : Except Fault TypeDoc :=
  match c.find? x with
  | some t => .ok t
  | none => .error (.noEntry x.text)

/-- Adds a type under its canonical key, which must be new. -/
def addType (c : Catalog) (t : TypeDoc) : Except Fault Catalog :=
  if c.table.contains t.key then .error (.duplicate t.key) else .ok ⟨c.table.insert t.key t⟩

/-- Adds types one after another. -/
def addTypes (c : Catalog) : List TypeDoc → Except Fault Catalog
  | [] => .ok c
  | t :: rest =>
    match c.addType t with
    | .error e => .error e
    | .ok c => c.addTypes rest

/-- A catalog of given types. -/
def ofTypes (types : List TypeDoc) : Except Fault Catalog := empty.addTypes types

/-- The types of both catalogs, which must not share a key. -/
def union (c other : Catalog) : Except Fault Catalog := c.addTypes other.types

/-- A catalog never changes: asking it to change in place is refused. -/
def changeInPlace (_ : Catalog) : Except Fault Catalog := .error .readOnly

end Catalog

end ApiDocs
