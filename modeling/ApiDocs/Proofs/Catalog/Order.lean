import Mathlib
import ApiDocs.Proofs.Catalog.Equality
import ApiDocs.Proofs.Catalog.Visibility
import ApiDocs.Proofs.Source.Halves

/-!
# Connecting in any order

Types and members can be connected exactly when each of them has a place and no two have the same.
That says nothing about their order.  What is made of them hardly depends on it either: a type that is
made for a member shows which member came first, and everything else is the same.

* `Catalog.exists_connect`: entities with places of their own can be connected;
* `Catalog.Connects.rel_get?`: two catalogs of the same entities have the same members and, but for the
  types that are made for members, the same types;
* `Catalog.Connects.eq_of_owned`: they are the same when no types are made for members;
* `Catalog.Connects.beq_of_made`, `Catalog.Connects.map_members_filterVisibility`: what two such
  catalogs have in common when types are made.
-/

namespace ApiDocs

namespace TypeDoc

theorem members_eq_of_member? {t u : TypeDoc}
    (h : ∀ cls key, t.member? cls key = u.member? cls key) : t.members = u.members := by
  refine MemberTables.ext fun cls => KeyTable.ext_get? fun key => ?_
  refine Option.map_injective (fun m n heq => ?_) (h cls key)
  cases heq
  rfl

theorem eq_of_bare_eq {t u : TypeDoc} (hbare : t.bare = u.bare) (hmembers : t.members = u.members) :
    t = u := by
  obtain ⟨_, _, _, _, _⟩ := t
  obtain ⟨_, _, _, _, _⟩ := u
  cases hbare
  cases hmembers
  rfl

end TypeDoc

namespace Catalog

/-! ## Entities that can be connected -/

/-- Types with keys of their own that are new can be added. -/
theorem exists_addTypes {c : Catalog} {types : List TypeDoc} (hnodup : (types.map (·.key)).Nodup)
    (hfree : ∀ t ∈ types, c.table.get? t.key = none) : ∃ c', c.addTypes types = .ok c' := by
  induction types generalizing c with
  | nil => exact ⟨c, rfl⟩
  | cons t types ih =>
    rw [List.map_cons, List.nodup_cons] at hnodup
    obtain ⟨ht, htypes⟩ := List.forall_mem_cons.mp hfree
    have hstill : ∀ u ∈ types, (c.table.insert t.key t).get? u.key = none := by
      intro u hu
      have hne : t.key ≠ u.key := fun heq => hnodup.1 (List.mem_map.mpr ⟨u, hu, heq.symm⟩)
      rw [KeyTable.get?_insert, if_neg hne, htypes u hu]
    obtain ⟨c', hc'⟩ := ih (c := c.withType t) hnodup.2 hstill
    exact ⟨c', addTypes_cons_eq_ok_iff.mpr ⟨ht, hc'⟩⟩

/-- A member whose place is free can be attached. -/
theorem exists_attach {c : Catalog} {m : AnyMember} {place : Place}
    (hplace : (Entity.member m).place? = some place) (hfree : c.entityAt place = none) :
    ∃ c', (c.attach m).outcome = .ok c' := by
  rw [Entity.place?_member, Option.map_eq_some_iff] at hplace
  obtain ⟨parent, hparent, rfl⟩ := hplace
  rw [entityAt_member_owner, TypeDoc.member?, Option.map_eq_none_iff] at hfree
  exact ⟨_, attach_eq_ok_iff.mpr
    ⟨parent, _, hparent, TypeDoc.addMember_eq_ok_iff.mpr ⟨hfree, rfl⟩, rfl⟩⟩

namespace Connects

variable {entities : List Entity} {c d : Catalog}

/-- What stands at the place of a member is one of the entities. -/
theorem mem_of_entityAt_member (hc : Connects entities c) {cls : MemberClass} {owner key : String}
    {e : Entity} (h : c.entityAt (.member cls owner key) = some e) : e ∈ entities := by
  obtain ⟨hplace, hmem | ⟨m, parent, -, -, rfl⟩⟩ := hc.origin _ e h
  · exact hmem
  · cases hplace

/-- The place of a member is free when no entity has it. -/
theorem entityAt_eq_none (hc : Connects entities c) {m : AnyMember} {place : Place}
    (hplace : (Entity.member m).place? = some place)
    (hnew : some place ∉ entities.map (·.place?)) : c.entityAt place = none := by
  rw [Entity.place?_member, Option.map_eq_some_iff] at hplace
  obtain ⟨parent, -, rfl⟩ := hplace
  refine Option.eq_none_iff_forall_ne_some.mpr fun e he => hnew (List.mem_map.mpr ⟨e, ?_, ?_⟩)
  · exact hc.mem_of_entityAt_member he
  · exact (hc.origin _ e he).1

/-- Members with places of their own that are free can be attached one after another. -/
theorem exists_attachAll (hc : Connects entities c) {members : List AnyMember}
    (hplaces : ∀ m ∈ members, ∃ place, (Entity.member m).place? = some place)
    (hapart : ((entities ++ members.map Entity.member).map (·.place?)).Nodup) :
    ∃ c', (c.attachAll members).outcome = .ok c' := by
  induction members generalizing entities c with
  | nil => exact ⟨c, rfl⟩
  | cons m members ih =>
    obtain ⟨⟨place, hplace⟩, hrest⟩ := List.forall_mem_cons.mp hplaces
    have hnew : some place ∉ entities.map (·.place?) := by
      rw [List.map_append, List.nodup_append] at hapart
      intro hmem
      refine hapart.2.2 _ hmem _ ?_ hplace.symm
      exact List.mem_map.mpr ⟨.member m, List.mem_cons_self, rfl⟩
    obtain ⟨c', hstep⟩ := exists_attach hplace (hc.entityAt_eq_none hplace hnew)
    have hapart' :
        (((entities ++ [Entity.member m]) ++ members.map Entity.member).map (·.place?)).Nodup := by
      rw [List.append_assoc]
      exact hapart
    obtain ⟨c'', hattach⟩ := ih (hc.attach hstep) hrest hapart'
    exact ⟨c'', Logged.bind_eq_ok_iff.mpr ⟨c', hstep, hattach⟩⟩

end Connects

/-- Entities with places of their own can be connected. -/
theorem exists_connect {types : List TypeDoc} {members : List AnyMember}
    (hmembers : ∀ t ∈ types, t.members = {})
    (hplaces : ∀ e ∈ entitiesOf types members, ∃ place, e.place? = some place)
    (hapart : ((entitiesOf types members).map (·.place?)).Nodup) :
    ∃ c, (connect types members).outcome = .ok c := by
  have hkeys : (types.map (·.key)).Nodup := by
    rw [entitiesOf, List.map_append, List.nodup_append, List.map_map] at hapart
    have htypes : types.map ((·.place?) ∘ Entity.type) =
        (types.map (·.key)).map fun key => some (Place.type key) := by
      rw [List.map_map]
      rfl
    rw [htypes] at hapart
    exact hapart.1.of_map
  obtain ⟨c₀, hc₀⟩ := exists_addTypes (c := empty) hkeys fun _ _ => rfl
  have hloose : ∀ m ∈ members, ∃ place, (Entity.member m).place? = some place := fun m hm =>
    hplaces _ (List.mem_append_right _ (List.mem_map.mpr ⟨m, hm, rfl⟩))
  obtain ⟨c, hc⟩ := (connects_of_ofTypes hmembers hc₀).exists_attachAll hloose hapart
  exact ⟨c, Logged.bind_eq_ok_iff.mpr ⟨c₀, hc₀, hc⟩⟩

/-! ## Two catalogs of the same entities -/

/-- A type is made for a member of some entities. -/
def IsMade (entities : List Entity) (t : TypeDoc) : Prop :=
  ∃ m parent, Entity.member m ∈ entities ∧ m.identifier.parent? = some parent ∧
    t = { identifier := parent }

/-- Two types have the same members.  Apart from these they are the same, or both are made for members
and have the same key. -/
structure IsTwin (entities : List Entity) (t u : TypeDoc) : Prop where
  members : t.members = u.members
  bare : t.bare = u.bare ∨ IsMade entities t.bare ∧ IsMade entities u.bare ∧ t.key = u.key

namespace IsTwin

variable {entities : List Entity} {t u : TypeDoc}

/-- Types with the same members are equal when their identifiers are, if both are made. -/
theorem beq (h : IsTwin entities t u)
    (hmade : ∀ t u, IsMade entities t → IsMade entities u → t.key = u.key →
      (t.identifier == u.identifier) = true) : (t == u) = true := by
  rcases h.bare with hbare | ⟨ht, hu, hkey⟩
  · rw [TypeDoc.eq_of_bare_eq hbare h.members, beq_self_eq_true]
  · have hidentifier : (t.identifier == u.identifier) = true := hmade t.bare u.bare ht hu hkey
    obtain ⟨_, _, -, -, ht⟩ := ht
    obtain ⟨_, _, -, -, hu⟩ := hu
    have hmetadata : t.metadata = u.metadata :=
      (congrArg TypeDoc.metadata ht).trans (congrArg TypeDoc.metadata hu).symm
    have hexceptions : t.exceptions = u.exceptions :=
      (congrArg TypeDoc.exceptions ht).trans (congrArg TypeDoc.exceptions hu).symm
    have hparameters : t.typeParameters = u.typeParameters :=
      (congrArg TypeDoc.typeParameters ht).trans (congrArg TypeDoc.typeParameters hu).symm
    show (t.identifier == u.identifier && t.metadata == u.metadata && t.exceptions == u.exceptions
      && t.typeParameters == u.typeParameters && t.members == u.members) = true
    rw [hidentifier, hmetadata, hexceptions, hparameters, h.members]
    simp only [beq_self_eq_true, Bool.and_self]

theorem isShown_eq (h : IsTwin entities t u) {v : NameFlags}
    (hmade : ∀ t, IsMade entities t → t.isShown v = true) : t.isShown v = u.isShown v := by
  rcases h.bare with hbare | ⟨ht, hu, -⟩
  · show t.bare.isShown v = u.bare.isShown v
    rw [hbare]
  · exact (hmade t.bare ht).trans (hmade u.bare hu).symm

theorem members_filterMembers (h : IsTwin entities t u) (v : NameFlags) :
    (t.filterMembers v).members = (u.filterMembers v).members := by
  rw [TypeDoc.filterMembers, TypeDoc.filterMembers, h.members]

end IsTwin

namespace Connects

variable {entities : List Entity} {c d : Catalog}

theorem entityAt_of_mem (hc : Connects entities c) (hd : Connects entities d) {place : Place}
    {e : Entity} (he : e ∈ entities) (h : c.entityAt place = some e) : d.entityAt place = some e := by
  obtain ⟨other, hplace, hat⟩ := hd.present e he
  rw [(hc.origin place e h).1, Option.some.injEq] at hplace
  rw [hplace, hat]

/-- At the place of a member both catalogs have the same. -/
theorem entityAt_member_eq (hc : Connects entities c) (hd : Connects entities d) (cls : MemberClass)
    (owner key : String) :
    c.entityAt (.member cls owner key) = d.entityAt (.member cls owner key) := by
  refine Option.ext fun e => ⟨fun h => ?_, fun h => ?_⟩
  · exact hc.entityAt_of_mem hd (hc.mem_of_entityAt_member h) h
  · exact hd.entityAt_of_mem hc (hd.mem_of_entityAt_member h) h

/-- What stands at the place of a type is one of the entities or made for one. -/
theorem mem_or_isMade (hc : Connects entities c) {key : String} {t : TypeDoc}
    (h : c.table.get? key = some t) : Entity.type t.bare ∈ entities ∨ IsMade entities t.bare := by
  have hat : c.entityAt (.type key) = some (.type t.bare) := by rw [entityAt, h, Option.map_some]
  obtain ⟨-, hmem | ⟨m, parent, hm, hparent, heq⟩⟩ := hc.origin _ _ hat
  · exact .inl hmem
  · exact .inr ⟨m, parent, hm, hparent, Entity.type.inj heq⟩

/-- A type that is one of the entities stands in both catalogs. -/
theorem bare_eq_of_mem (hc : Connects entities c) (hd : Connects entities d) {key : String}
    {t u : TypeDoc} (ht : c.table.get? key = some t) (hu : d.table.get? key = some u)
    (hmem : Entity.type t.bare ∈ entities) : t.bare = u.bare := by
  have hat : c.entityAt (.type key) = some (.type t.bare) := by rw [entityAt, ht, Option.map_some]
  have hother := hc.entityAt_of_mem hd hmem hat
  rw [entityAt, hu, Option.map_some, Option.some.injEq] at hother
  exact (Entity.type.inj hother).symm

/-- Two catalogs of the same entities have the same members and, but for the types that are made for
members, the same types. -/
theorem rel_get? (hc : Connects entities c) (hd : Connects entities d) (key : String) :
    Option.Rel (IsTwin entities) (c.table.get? key) (d.table.get? key) := by
  have hsome : (c.entityAt (.type key)).isSome ↔ (d.entityAt (.type key)).isSome :=
    hc.isSome_entityAt_iff.trans hd.isSome_entityAt_iff.symm
  rw [entityAt, entityAt, Option.isSome_map, Option.isSome_map] at hsome
  refine rel_of_isSome hsome fun t u ht hu => ⟨?_, ?_⟩
  · refine TypeDoc.members_eq_of_member? fun cls k => ?_
    have heq := hc.entityAt_member_eq hd cls key k
    rw [entityAt_member, entityAt_member, ht, hu] at heq
    exact heq
  · rcases hc.mem_or_isMade ht with hmem | hmade
    · exact .inl (hc.bare_eq_of_mem hd ht hu hmem)
    · rcases hd.mem_or_isMade hu with hmem | hmade'
      · exact .inl (hd.bare_eq_of_mem hc hu ht hmem).symm
      · refine .inr ⟨hmade, hmade', ?_⟩
        rw [hc.isPlaced.isKeyed key t ht, hd.isPlaced.isKeyed key u hu]

/-- No type is made when the types around all members are among the entities. -/
theorem mem_of_owned (hc : Connects entities c)
    (howned : ∀ cls owner key, some (Place.member cls owner key) ∈ entities.map (·.place?) →
      some (Place.type owner) ∈ entities.map (·.place?))
    {key : String} {t : TypeDoc} (ht : c.table.get? key = some t) : .type t.bare ∈ entities := by
  rcases hc.mem_or_isMade ht with hmem | ⟨m, parent, hm, hparent, hbare⟩
  · exact hmem
  · have hplace : (Entity.member m).place? =
        some (.member m.cls parent.canonicalKey m.identifier.signatureKey) := by
      rw [Entity.place?_member, hparent, Option.map_some]
    have hkey : parent.canonicalKey = key := by
      rw [← hc.isPlaced.isKeyed key t ht]
      exact (congrArg TypeDoc.key hbare).symm
    obtain ⟨e, he, howner⟩ :=
      List.mem_map.mp (howned _ _ _ (List.mem_map.mpr ⟨.member m, hm, hplace⟩))
    obtain ⟨place, hat, hentity⟩ := hc.present e he
    rw [howner, Option.some.injEq] at hat
    rw [← hat, hkey, entityAt, ht, Option.map_some, Option.some.injEq] at hentity
    exact hentity ▸ he

/-- Two catalogs of the same entities are the same when the types around all members are among these. -/
theorem eq_of_owned (hc : Connects entities c) (hd : Connects entities d)
    (howned : ∀ cls owner key, some (Place.member cls owner key) ∈ entities.map (·.place?) →
      some (Place.type owner) ∈ entities.map (·.place?)) : c = d := by
  have htables : c.table = d.table := by
    refine KeyTable.ext_get? fun key => eq_of_rel (hc.rel_get? hd key) fun t u ht hu htwin => ?_
    exact TypeDoc.eq_of_bare_eq (hc.bare_eq_of_mem hd ht hu (hc.mem_of_owned howned ht)) htwin.members
  exact congrArg Catalog.mk htables

/-- Two catalogs of the same entities are equal when types that are made for members are equal as soon as
they have the same key. -/
theorem beq_of_made (hc : Connects entities c) (hd : Connects entities d)
    (hmade : ∀ t u, IsMade entities t → IsMade entities u → t.key = u.key →
      (t.identifier == u.identifier) = true) : (c == d) = true := by
  refine KeyTable.beq_of_rel fun key => ?_
  have hrel := hc.rel_get? hd key
  refine rel_of_isSome (by rw [isSome_eq_of_rel hrel]) fun t u ht hu => ?_
  rw [ht, hu] at hrel
  cases hrel with
  | some htwin => exact htwin.beq hmade

/-- What is shown of two catalogs of the same entities has the same members when types that are made for
members are shown. -/
theorem map_members_filterVisibility (hc : Connects entities c) (hd : Connects entities d)
    {v : NameFlags} (hmade : ∀ t, IsMade entities t → t.isShown v = true) (key : String) :
    ((c.filterVisibility v).table.get? key).map (·.members) =
      ((d.filterVisibility v).table.get? key).map (·.members) := by
  have hrel := hc.rel_get? hd key
  rw [filterVisibility, filterVisibility, KeyTable.get?_map, KeyTable.get?_map, KeyTable.get?_filter,
    KeyTable.get?_filter]
  generalize c.table.get? key = t, d.table.get? key = u at hrel
  cases hrel with
  | none => rfl
  | @some t u htwin =>
    rw [Option.filter_some, Option.filter_some, htwin.isShown_eq hmade]
    split
    · exact congrArg some (htwin.members_filterMembers v)
    · rfl

end Connects

end Catalog

end ApiDocs
