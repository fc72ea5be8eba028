import ApiDocs.Entity.Member
import ApiDocs.Fault
import ApiDocs.KeyTable

/-!
# Types

A type has free text, exceptions, documented generic parameters, and for each class of members a
table by their keys.

* `TypeDoc.addMember`: a second member under one key is refused;
* `TypeDoc.merge`: the members of both sides are joined, table by table;
* `TypeDoc.allMembers`: every member, class by class in the order of the keys.
-/

namespace ApiDocs

/-- A table of members for each class. -/
structure MemberTables where
  methods : KeyTable (Member .method) := .empty
  fields : KeyTable (Member .field) := .empty
  properties : KeyTable (Member .property) := .empty
  events : KeyTable (Member .event) := .empty

namespace MemberTables

/-- The table of one class. -/
def get (t : MemberTables) : (c : MemberClass) → KeyTable (Member c)
  | .method => t.methods
  | .field => t.fields
  | .property => t.properties
  | .event => t.events

/-- A table for each class. -/
def ofFn (f : (c : MemberClass) → KeyTable (Member c)) : MemberTables :=
  ⟨f .method, f .field, f .property, f .event⟩

/-- Another table for one class. -/
def set (t : MemberTables) : (c : MemberClass) → KeyTable (Member c) → MemberTables
  | .method, table => { t with methods := table }
  | .field, table => { t with fields := table }
  | .property, table => { t with properties := table }
  | .event, table => { t with events := table }

@[simp] theorem get_ofFn (f : (c : MemberClass) → KeyTable (Member c)) (c : MemberClass) :
    (ofFn f).get c = f c := by cases c <;> rfl

@[ext] theorem ext {t u : MemberTables} (h : ∀ c, t.get c = u.get c) : t = u := by
  cases t; cases u
  have := h .method; have := h .field; have := h .property; have := h .event
  simp_all [get]

@[simp] theorem get_set_self (t : MemberTables) (c : MemberClass) (table : KeyTable (Member c)) :
    (t.set c table).get c = table := by cases c <;> rfl

theorem get_set_of_ne (t : MemberTables) {c c' : MemberClass} (h : c' ≠ c)
    (table : KeyTable (Member c)) : (t.set c table).get c' = t.get c' := by
  cases c <;> cases c' <;> first | rfl | exact absurd rfl h

/-- The number of members of all classes. -/
def size (t : MemberTables) : Nat := MemberClass.all.foldr (fun c n => (t.get c).size + n) 0

instance : BEq MemberTables where
  beq t u := MemberClass.all.all fun c => t.get c == u.get c

end MemberTables

/-- A type with its documentation and members. -/
structure TypeDoc where
  identifier : Identifier
  metadata : Option Metadata := none
  exceptions : List ExceptionDoc := []
  typeParameters : List TypeParameterDoc := []
  members : MemberTables := {}

namespace TypeDoc

instance : BEq TypeDoc where
  beq a b := a.identifier == b.identifier && a.metadata == b.metadata
    && a.exceptions == b.exceptions && a.typeParameters == b.typeParameters
    && a.members == b.members

/-- The key of the type in a catalog. -/
def key (t : TypeDoc) : String := t.identifier.canonicalKey

/-- Every member, class by class in the order of the keys. -/
def allMembers (t : TypeDoc) : List AnyMember :=
  MemberClass.all.flatMap fun c => (t.members.get c).values.map fun m => ⟨c, m⟩

/-- The number of members. -/
def memberCount (t : TypeDoc) : Nat := t.members.size

/-- Adds a member to the table of its class; its key must be new there. -/
def addMember (t : TypeDoc) (m : AnyMember) : Except Fault TypeDoc :=
  let table := t.members.get m.cls
  if table.contains m.member.key then .error (.duplicate m.identifier.text)
  else .ok { t with members := t.members.set m.cls (table.insert m.member.key m.member) }

/-- Takes text and exceptions of the documentation, when it has them, and joins the members. -/
def merge (structural documented : TypeDoc) : TypeDoc where
  identifier := structural.identifier
  metadata := documented.metadata <|> structural.metadata
  exceptions :=
    if documented.exceptions.isEmpty then structural.exceptions else documented.exceptions
  typeParameters := TypeParameterDoc.merge structural.typeParameters documented.typeParameters
  members := .ofFn fun c =>
    (structural.members.get c).outerJoin Member.merge (documented.members.get c)

/-- The documented members that have no structural counterpart, in the order of listing. -/
def unmatched (structural documented : TypeDoc) : List AnyMember :=
  MemberClass.all.flatMap fun c =>
    ((documented.members.get c).entries.filter fun e =>
      !(structural.members.get c).contains e.1).map fun e => ⟨c, e.2⟩

end TypeDoc

end ApiDocs
