import ApiDocs.Proofs.Catalog.Merge
import ApiDocs.Proofs.Catalog.Place

/-!
# Merging place by place

A merge of catalogs is a join of their tables, and of the tables of members in them.  Seen from a
place this is simple: what one side has there stays as it is, and what both sides have there is
merged.

* `Catalog.entityAt_merge`: what stands at a place of a merged catalog.
-/

namespace ApiDocs

theorem TypeDoc.member?_merge (s d : TypeDoc) (cls : MemberClass) (key : String) :
    Entity.Joined (s.member? cls key) (d.member? cls key) ((s.merge d).member? cls key) := by
  rw [member?, member?, member?, merge, MemberTables.get_ofFn, KeyTable.get?_outerJoin]
  cases (s.members.get cls).get? key with
  | none => cases (d.members.get cls).get? key <;> exact .right _
  | some m =>
    cases (d.members.get cls).get? key with
    | none => exact .left _
    | some m' => exact .both (Entity.merge_member m m')

/-- What stands at a place of a merged catalog. -/
theorem Catalog.entityAt_merge {structural documentation merged : Catalog}
    (hs : structural.IsKeyed) (hd : documentation.IsKeyed)
    (h : (structural.merge documentation).outcome = .ok merged) (place : Place) :
    Entity.Joined (structural.entityAt place) (documentation.entityAt place)
      (merged.entityAt place) := by
  rw [merge_outcome hs hd, Except.ok.injEq] at h
  subst h
  cases place with
  | type key =>
    rw [entityAt, entityAt, entityAt, KeyTable.get?_outerJoin]
    cases structural.table.get? key with
    | none => cases documentation.table.get? key <;> exact .right _
    | some s =>
      cases documentation.table.get? key with
      | none => exact .left _
      | some d => exact .both rfl
  | member cls owner key =>
    rw [entityAt_member, entityAt_member, entityAt_member, KeyTable.get?_outerJoin]
    cases structural.table.get? owner with
    | none => cases documentation.table.get? owner <;> exact .right _
    | some s =>
      cases documentation.table.get? owner with
      | none => exact .left _
      | some d => exact s.member?_merge d cls key

end ApiDocs
