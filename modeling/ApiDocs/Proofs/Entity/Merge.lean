import Mathlib.Data.List.Monad
import ApiDocs.Entity.TypeDoc
import ApiDocs.Proofs.Entity.MergeByName
import ApiDocs.Proofs.KeyTable

/-!
# Merging entities associates

Structure keeps its identifier and accessors, documentation gives its text when it has some, entries
are merged by name and members table by table.  Each of these associates and leaves what is merged
with itself as it is, and so does all of it.

* `Member.merge_assoc`, `TypeDoc.merge_assoc`: for members of one class and for types;
* `Member.merge_self`, `TypeDoc.merge_self`: an entity merged with itself.
-/

namespace ApiDocs

theorem TypeParameterDoc.merge_assoc (a b c : List TypeParameterDoc) :
    TypeParameterDoc.merge (TypeParameterDoc.merge a b) c =
      TypeParameterDoc.merge a (TypeParameterDoc.merge b c) :=
  MergeByName.mergeByName_assoc (fun _ _ hsame => hsame.symm) (fun _ _ _ => rfl) a b c

theorem ParameterDoc.merge_assoc (a b c : List ParameterDoc) :
    ParameterDoc.merge (ParameterDoc.merge a b) c =
      ParameterDoc.merge a (ParameterDoc.merge b c) :=
  @MergeByName.mergeByName_assoc ParameterDoc (·.name)
    (fun s d => { s with description := d.description }) (fun _ _ _ => rfl) (fun _ _ _ => rfl) a b c

/-- The last list that is not empty is the same in either grouping. -/
theorem ite_isEmpty_assoc {α : Type} (a b c : List α) :
    (if c.isEmpty then if b.isEmpty then a else b else c) =
      if (if c.isEmpty then b else c).isEmpty then a else if c.isEmpty then b else c := by
  cases c with
  | nil => rfl
  | cons _ _ => rfl

theorem Member.mergeDetail_assoc : ∀ (c : MemberClass) (x y z : c.Detail),
    mergeDetail c (mergeDetail c x y) z = mergeDetail c x (mergeDetail c y z)
  | .method, x, y, z => by
    rw [mergeDetail, mergeDetail, mergeDetail, mergeDetail, TypeParameterDoc.merge_assoc,
      ParameterDoc.merge_assoc]
  | .field, _, _, _ => rfl
  | .property, _, _, _ => rfl
  | .event, _, _, _ => rfl

/-- Merging members of one class associates. -/
theorem Member.merge_assoc {c : MemberClass} (x y z : Member c) :
    (x.merge y).merge z = x.merge (y.merge z) := by
  simp only [merge, orElse_assoc, ite_isEmpty_assoc, mergeDetail_assoc]
  rfl

/-- Merging types associates. -/
theorem TypeDoc.merge_assoc (x y z : TypeDoc) : (x.merge y).merge z = x.merge (y.merge z) := by
  simp only [merge, orElse_assoc, ite_isEmpty_assoc, TypeParameterDoc.merge_assoc,
    MemberTables.get_ofFn, KeyTable.outerJoin_assoc Member.merge_assoc]
  rfl

/-! ## One entity on both sides -/

theorem TypeParameterDoc.merge_self (xs : List TypeParameterDoc) :
    TypeParameterDoc.merge xs xs = xs :=
  @MergeByName.mergeByName_self TypeParameterDoc (·.name) (fun _ d => d) (fun _ _ _ => rfl)
    (fun _ => rfl) xs

theorem ParameterDoc.merge_self (xs : List ParameterDoc) : ParameterDoc.merge xs xs = xs :=
  @MergeByName.mergeByName_self ParameterDoc (·.name)
    (fun s d => { s with description := d.description }) (fun _ _ _ => rfl) (fun _ => rfl) xs

theorem Member.mergeDetail_self : ∀ (c : MemberClass) (x : c.Detail), mergeDetail c x x = x
  | .method, x => by rw [mergeDetail, TypeParameterDoc.merge_self, ParameterDoc.merge_self]
  | .field, _ => rfl
  | .property, _ => rfl
  | .event, _ => rfl

/-- A member merged with itself stays as it is. -/
theorem Member.merge_self {c : MemberClass} (x : Member c) : x.merge x = x := by
  rw [merge, Option.orElse_eq_orElse, Option.orElse_eq_or, Option.or_self, ite_self, mergeDetail_self]

/-- A type merged with itself stays as it is. -/
theorem TypeDoc.merge_self (x : TypeDoc) : x.merge x = x := by
  have hmembers : (MemberTables.ofFn fun c =>
      (x.members.get c).outerJoin Member.merge (x.members.get c)) = x.members := by
    refine MemberTables.ext fun c => ?_
    rw [MemberTables.get_ofFn, KeyTable.outerJoin_self Member.merge_self]
  rw [merge, Option.orElse_eq_orElse, Option.orElse_eq_or, Option.or_self, ite_self,
    TypeParameterDoc.merge_self, hmembers]

end ApiDocs
