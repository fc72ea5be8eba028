import ApiDocs.Catalog.Basic

/-!
# Visibility

A declaration that carries visibilities is shown when one of them is asked for; one that carries
none is always shown.

* `Catalog.filterVisibility`: the types that are shown, with those of their members that are shown.
-/

namespace ApiDocs

namespace Member

/-- Whether the member is shown. -/
def isShown {c : MemberClass} (visibilities : NameFlags) (m : Member c) : Bool :=
  m.identifier.flags.isVisible visibilities

end Member

namespace TypeDoc

/-- Whether the type is shown. -/
def isShown (visibilities : NameFlags) (t : TypeDoc) : Bool :=
  t.identifier.flags.isVisible visibilities

/-- The type with those of its members that are shown. -/
def filterMembers (visibilities : NameFlags) (t : TypeDoc) : TypeDoc :=
  { t with members := .ofFn fun c => (t.members.get c).filter (·.isShown visibilities) }

end TypeDoc

/-- The types that are shown, with those of their members that are shown. -/
def Catalog.filterVisibility (visibilities : NameFlags) (c : Catalog) : Catalog :=
  ⟨(c.table.filter (·.isShown visibilities)).map (·.filterMembers visibilities)⟩

end ApiDocs
