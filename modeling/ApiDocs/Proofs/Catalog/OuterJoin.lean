import ApiDocs.Proofs.Catalog.Merge

/-!
# A merge is an outer join

A merge takes its types from two catalogs and, of a type that both have, its members from both types.
Nothing is lost on either level and nothing else comes in.

* `KeyTable.IsJoin`: a table that holds what either of two tables holds;
* `TypeDoc.IsJoin`: a type that has the members of two types;
* `Catalog.merge_isJoin`: a merge never fails, and it is a join on both levels.
-/

namespace ApiDocs

/-- A table holds what either of two tables holds: what only one of them has is as it was there, and
of what both have there is one value that is made of the two. -/
structure KeyTable.IsJoin {α : Type} (isMadeOf : α → α → α → Prop) (t u v : KeyTable α) : Prop where
  keys : ∀ key, key ∈ v.keys ↔ key ∈ t.keys ∨ key ∈ u.keys
  left : ∀ key a, t.get? key = some a → u.get? key = none → v.get? key = some a
  right : ∀ key b, t.get? key = none → u.get? key = some b → v.get? key = some b
  both : ∀ key a b, t.get? key = some a → u.get? key = some b →
    ∃ c, v.get? key = some c ∧ isMadeOf c a b

theorem KeyTable.isJoin_outerJoin {α : Type} {isMadeOf : α → α → α → Prop} {both : α → α → α}
    (h : ∀ a b, isMadeOf (both a b) a b) (t u : KeyTable α) :
    IsJoin isMadeOf t u (outerJoin both t u) where
  keys _ := mem_keys_outerJoin
  left key a ht hu := by rw [get?_outerJoin, ht, hu]
  right key b ht hu := by rw [get?_outerJoin, ht, hu]
  both key a b ht hu := ⟨both a b, by rw [get?_outerJoin, ht, hu], h a b⟩

/-- A type keeps the identifier of structure and has the members of both sides, class by class; a
member that both sides have is the structural one with the text of the documented one. -/
structure TypeDoc.IsJoin (merged structural documented : TypeDoc) : Prop where
  identifier : merged.identifier = structural.identifier
  members : ∀ cls, KeyTable.IsJoin (fun m s d => m = s.merge d) (structural.members.get cls)
    (documented.members.get cls) (merged.members.get cls)

theorem TypeDoc.isJoin_merge (structural documented : TypeDoc) :
    (structural.merge documented).IsJoin structural documented := by
  refine ⟨rfl, fun cls => ?_⟩
  rw [merge, MemberTables.get_ofFn]
  exact KeyTable.isJoin_outerJoin (fun _ _ => rfl) _ _

namespace Catalog

/-- A merge of catalogs that are made of types never fails, and it is a join of their types and, where
both have a type, of its members. -/
theorem merge_isJoin {structural documentation : Catalog} (hs : structural.IsKeyed)
    (hd : documentation.IsKeyed) : ∃ merged, (structural.merge documentation).outcome = .ok merged ∧
      KeyTable.IsJoin TypeDoc.IsJoin structural.table documentation.table merged.table :=
  ⟨_, merge_outcome hs hd, KeyTable.isJoin_outerJoin TypeDoc.isJoin_merge _ _⟩

/-- A type `A` with some methods, and another type beside it. -/
def pairOfTypes (methods : List String) (other : String) : Catalog :=
  let table := methods.foldl (fun table name => table.insert name {
    identifier := { classPath := [⟨"A", [], .none⟩], name, flags := .methodBit }
    detail := {} }) KeyTable.empty
  (ofType { identifier := { name := "A" }, members := { methods := table } }).withType
    { identifier := { name := other } }

theorem isKeyed_pairOfTypes (methods : List String) (other : String) :
    (pairOfTypes methods other).IsKeyed :=
  (isKeyed_ofType _).withType _

/-- Each side has a type of its own, and a method of its own in the type that both have. -/
theorem merge_isJoin_of_overlap :
    ∃ merged, ((pairOfTypes ["f", "g"] "B").merge (pairOfTypes ["f", "h"] "C")).outcome = .ok merged ∧
      KeyTable.IsJoin TypeDoc.IsJoin (pairOfTypes ["f", "g"] "B").table
        (pairOfTypes ["f", "h"] "C").table merged.table :=
  merge_isJoin (isKeyed_pairOfTypes _ _) (isKeyed_pairOfTypes _ _)

end Catalog

end ApiDocs
