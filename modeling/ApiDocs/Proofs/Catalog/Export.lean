import ApiDocs.Catalog.Export
import ApiDocs.Proofs.Datum.KeyPath
import ApiDocs.Record.Reader

/-!
# What is exported

Exported data has an entry for each type, and that one has an entry for each member of the type, in the
order of the tables.  Each entry has the text of the identifier that it is about.

* `Catalog.IsExport`, `TypeDoc.IsExport`: such data;
* `Catalog.isExport_toDatum`, `TypeDoc.isExport_toDatum`: what is exported is such data.
-/

namespace ApiDocs

/-! ## Fields -/

namespace Datum

/-- A record has the fields of which it is made, and the first of a name counts. -/
theorem field_record (key : String) (fields : List (String × Datum)) :
    (record fields).field key = .ok ((fields.lookup key).getD .null) := by
  have hfind : find? key (fields.map fun f => (.text f.1, f.2)) = fields.lookup key := by
    induction fields with
    | nil => rfl
    | cons f fields ih =>
      obtain ⟨k, v⟩ := f
      rw [find?, lookup] at ih ⊢
      rw [List.map_cons, List.find?_cons, same_text, List.lookup_cons]
      by_cases hk : key = k
      · subst hk
        rw [beq_self_eq_true]
        rfl
      · rw [beq_false_of_ne hk, beq_false_of_ne (Ne.symm hk)]
        exact ih
  exact congrArg (fun v => Except.ok (v.getD null)) hfind

end Datum

/-! ## Entries -/

/-- Data is about a declaration: it has the text of the identifier. -/
def Datum.IsAbout (x : Identifier) (d : Datum) : Prop := d.field "id" = .ok (.text x.text)

/-- Data of a type is about it, and has a list for each class in which each entry is about one of the
members, in the order of the table. -/
structure TypeDoc.IsExport (t : TypeDoc) (d : Datum) : Prop where
  about : d.IsAbout t.identifier
  members : ∀ cls : MemberClass, ∃ items, d.field cls.listName = .ok (.list items) ∧
    List.Forall₂ (fun m item => Datum.IsAbout m.identifier item) (t.members.get cls).values items

/-- Data of a catalog has a list in which each entry is that of one of the types, in the order of the
table. -/
def Catalog.IsExport (c : Catalog) (d : Datum) : Prop :=
  ∃ items, d.field "types" = .ok (.list items) ∧ List.Forall₂ TypeDoc.IsExport c.types items

theorem Member.isAbout_toDatum {cls : MemberClass} (m : Member cls) :
    m.toDatum.IsAbout m.identifier := by
  rw [Datum.IsAbout, toDatum, Datum.field_record]
  rfl

theorem TypeDoc.field_toDatum (t : TypeDoc) (cls : MemberClass) : t.toDatum.field cls.listName =
    .ok (.list ((t.members.get cls).values.map Member.toDatum)) := by
  rw [toDatum, exceptionFields, Datum.field_record]
  cases t.exceptions.isEmpty <;> cases cls <;> rfl

theorem TypeDoc.isExport_toDatum (t : TypeDoc) : t.IsExport t.toDatum where
  about := by
    rw [Datum.IsAbout, toDatum, Datum.field_record]
    rfl
  members cls := by
    refine ⟨_, t.field_toDatum cls, List.forall₂_map_right_iff.mpr ?_⟩
    exact List.forall₂_same.mpr fun m _ => m.isAbout_toDatum

theorem Catalog.isExport_toDatum (c : Catalog) : c.IsExport c.toDatum := by
  refine ⟨_, Datum.field_record _ _, List.forall₂_map_right_iff.mpr ?_⟩
  exact List.forall₂_same.mpr fun t _ => t.isExport_toDatum

end ApiDocs
