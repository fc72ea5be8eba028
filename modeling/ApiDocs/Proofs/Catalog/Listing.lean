import ApiDocs.Proofs.Catalog.Export
import ApiDocs.Proofs.Catalog.Order
import ApiDocs.Proofs.Text.Order

/-!
# Listings show no order of insertion

Types go into a catalog and members into a type one after another, and are listed by their keys.  What
is written under a new key is one entry more (`Entries.insert_perm`), so after any number of insertions
the entries are those that were inserted, up to their order; and entries whose keys ascend are
determined by what they are (`KeyTable.eq_of_perm`).

* `Catalog.isListing_of_ofTypes`, `TypeDoc.isListing_of_addMembers`: what is listed, how often and in
  which order;
* `listing_eq_of_perm`: types, and members of a type, that come in another order make the same.
-/

namespace ApiDocs

/-! ## Entries -/

theorem Entries.insert_perm {α : Type} {key : String} {value : α} {es : List (String × α)}
    (h : find? key es = none) : (insert key value es).Perm ((key, value) :: es) := by
  induction es with
  | nil => exact .refl _
  | cons e es ih =>
    obtain ⟨k, v⟩ := e
    rw [find?] at h
    split at h
    · cases h
    · next hne =>
      rw [insert]
      split
      · exact .refl _
      · rw [if_neg (Ne.symm hne)]
        exact ((ih h).cons _).trans (.swap _ _ _)

/-- Tables with the same entries are equal: the keys leave no choice of their order. -/
theorem KeyTable.eq_of_perm {α : Type} {t u : KeyTable α} (h : t.entries.Perm u.entries) : t = u := by
  refine ext_get? fun key => Option.ext fun v => ?_
  rw [get?_eq_some_iff, get?_eq_some_iff, h.mem_iff]

theorem KeyTable.pairwise_keys {α : Type} (t : KeyTable α) : t.keys.Pairwise (· < ·) :=
  List.pairwise_map.mpr t.sorted

/-! ## Types in a catalog -/

namespace Catalog

/-- What a catalog of some types lists. -/
structure IsListing (types : List TypeDoc) (c : Catalog) : Prop where
  /-- Each type is listed once. -/
  perm : c.types.Perm types
  ascending : (c.types.map (·.key)).Pairwise (· < ·)
  /-- That one text comes before another goes by the numbers of their symbols. -/
  byNumbers : (c.types.map (·.key)).Pairwise fun key key' => ∀ xs ys, key = Text.ofSymbols xs →
    key' = Text.ofSymbols ys → Text.SymbolsLt xs ys
  keys : c.keys = c.types.map (·.key)
  exported : c.toDatum.field "types" = .ok (.list (c.types.map TypeDoc.toDatum))
  /-- Each type is exported in its place, and its members in theirs. -/
  isExport : c.IsExport c.toDatum

theorem entries_addTypes {c c' : Catalog} {types : List TypeDoc} (h : c.addTypes types = .ok c') :
    c'.table.entries.Perm (types.map (fun t => (t.key, t)) ++ c.table.entries) := by
  induction types generalizing c with
  | nil =>
    cases h
    exact .refl _
  | cons t types ih =>
    obtain ⟨hnone, h⟩ := addTypes_cons_eq_ok_iff.mp h
    refine (ih h).trans (.trans (.append_left _ (Entries.insert_perm hnone)) ?_)
    exact List.perm_middle

theorem entries_ofTypes {c : Catalog} {types : List TypeDoc} (h : ofTypes types = .ok c) :
    c.table.entries.Perm (types.map fun t => (t.key, t)) :=
  (entries_addTypes h).trans (.of_eq (List.append_nil _))

theorem isListing_of_ofTypes {c : Catalog} {types : List TypeDoc} (h : ofTypes types = .ok c) :
    c.IsListing types := by
  have hkeyed := isKeyed_of_ofTypes h
  have hascending : (c.types.map (·.key)).Pairwise (· < ·) := by
    rw [hkeyed.map_key_types]
    exact c.table.pairwise_keys
  refine ⟨?_, hascending, hascending.imp ?_, hkeyed.map_key_types.symm, Datum.field_record _ _,
    c.isExport_toDatum⟩
  · have hvalues := (entries_ofTypes h).map (·.2)
    rw [List.map_map] at hvalues
    exact hvalues.trans (.of_eq (List.map_id types))
  · rintro _ _ hlt xs ys rfl rfl
    exact Text.ofSymbols_lt_iff.mp hlt

theorem exists_ofTypes {types : List TypeDoc} (h : (types.map (·.key)).Nodup) :
    ∃ c, ofTypes types = .ok c :=
  exists_addTypes h fun _ _ => rfl

theorem ofTypes_eq_of_perm {types types' : List TypeDoc} (hnodup : (types.map (·.key)).Nodup)
    (hperm : types'.Perm types) : ofTypes types' = ofTypes types := by
  obtain ⟨c, hc⟩ := exists_ofTypes hnodup
  obtain ⟨c', hc'⟩ := exists_ofTypes ((hperm.map (·.key)).nodup_iff.mpr hnodup)
  have htable : c'.table = c.table := by
    refine KeyTable.eq_of_perm ?_
    exact (entries_ofTypes hc').trans ((hperm.map _).trans (entries_ofTypes hc).symm)
  rw [hc, hc']
  exact congrArg (Except.ok ∘ Catalog.mk) htable

end Catalog

/-! ## Members of a type -/

theorem MemberClass.mem_all (cls : MemberClass) : cls ∈ all := by
  cases cls <;> decide

theorem MemberClass.nodup_all : all.Nodup := by decide

/-- The member as one of a class, if it is of that class. -/
def AnyMember.ofClass? (cls : MemberClass) (m : AnyMember) : Option (Member cls) :=
  if h : m.cls = cls then some (h ▸ m.member) else none

/-- The entries of some members in the table of a class. -/
def AnyMember.entriesOf (cls : MemberClass) (members : List AnyMember) :
    List (String × Member cls) :=
  (members.filterMap (ofClass? cls)).map fun m => (m.key, m)

namespace TypeDoc

/-- Adds members one after another. -/
def addMembers (t : TypeDoc) (members : List AnyMember) : Except Fault TypeDoc :=
  members.foldlM addMember t

/-- No two members, and none of them and one that is there, have a class and a key in common. -/
structure HasRoom (t : TypeDoc) (members : List AnyMember) : Prop where
  apart : (members.map fun m => (m.cls, m.member.key)).Nodup
  free : ∀ m ∈ members, t.member? m.cls m.member.key = none

/-- What is listed of a type `t` with some more members. -/
structure IsListing (t : TypeDoc) (members : List AnyMember) (u : TypeDoc) : Prop where
  bare : u.bare = t.bare
  /-- In the table of each class each member stands once, under its key. -/
  entries : ∀ cls, (u.members.get cls).entries.Perm
    (AnyMember.entriesOf cls members ++ (t.members.get cls).entries)
  ascending : ∀ cls, (u.members.get cls).keys.Pairwise (· < ·)
  /-- Each member is listed once. -/
  perm : u.allMembers.Perm (members ++ t.allMembers)
  exported : ∀ cls, u.toDatum.field cls.listName =
    .ok (.list ((u.members.get cls).values.map Member.toDatum))
  /-- Each member is exported in its place. -/
  isExport : u.IsExport u.toDatum

/-! ### One member more -/

theorem entriesOf_cons (cls : MemberClass) (m : AnyMember) (members : List AnyMember) :
    AnyMember.entriesOf cls (m :: members) =
      AnyMember.entriesOf cls [m] ++ AnyMember.entriesOf cls members := by
  rw [AnyMember.entriesOf, AnyMember.entriesOf, AnyMember.entriesOf, ← List.map_append,
    ← List.filterMap_append, List.singleton_append]

theorem entries_withMember {t : TypeDoc} {m : AnyMember}
    (h : (t.members.get m.cls).get? m.member.key = none) (cls : MemberClass) :
    ((t.withMember m).members.get cls).entries.Perm
      (AnyMember.entriesOf cls [m] ++ (t.members.get cls).entries) := by
  obtain ⟨c, m⟩ := m
  rw [withMember, AnyMember.entriesOf, List.filterMap_cons, AnyMember.ofClass?]
  by_cases hcls : c = cls
  · subst hcls
    rw [MemberTables.get_set_self, dif_pos rfl]
    exact Entries.insert_perm h
  · rw [MemberTables.get_set_of_ne _ (Ne.symm hcls), dif_neg hcls]
    exact .refl _

/-- Lists that differ by an item in one class differ by it when they are put together. -/
theorem flatMap_perm_cons {β : Type} {classes : List MemberClass} {c : MemberClass}
    (hnodup : classes.Nodup) (hmem : c ∈ classes) {f g : MemberClass → List β} {b : β}
    (hself : (g c).Perm (b :: f c)) (hother : ∀ c', c' ≠ c → g c' = f c') :
    (classes.flatMap g).Perm (b :: classes.flatMap f) := by
  induction classes with
  | nil => cases hmem
  | cons c' classes ih =>
    rw [List.nodup_cons] at hnodup
    rw [List.flatMap_cons, List.flatMap_cons]
    by_cases hc : c' = c
    · subst hc
      have hrest : classes.flatMap g = classes.flatMap f := by
        refine List.flatMap_congr fun d hd => hother d ?_
        rintro rfl
        exact hnodup.1 hd
      rw [hrest]
      exact hself.append_right _
    · rw [hother c' hc]
      have htail := ih hnodup.2 ((List.mem_cons.mp hmem).resolve_left (Ne.symm hc))
      exact (htail.append_left _).trans List.perm_middle

theorem allMembers_withMember {t : TypeDoc} {m : AnyMember}
    (h : (t.members.get m.cls).get? m.member.key = none) :
    (t.withMember m).allMembers.Perm (m :: t.allMembers) := by
  obtain ⟨c, m⟩ := m
  refine flatMap_perm_cons MemberClass.nodup_all (MemberClass.mem_all c) ?_ fun c' hc' => ?_
  · rw [withMember, MemberTables.get_set_self, KeyTable.values, KeyTable.values, List.map_map,
      List.map_map]
    exact (Entries.insert_perm h).map _
  · rw [withMember, MemberTables.get_set_of_ne _ hc']

/-! ### Any number of members -/

theorem addMembers_cons_eq_ok_iff {t u : TypeDoc} {m : AnyMember} {members : List AnyMember} :
    t.addMembers (m :: members) = .ok u ↔
      (t.members.get m.cls).get? m.member.key = none ∧
        (t.withMember m).addMembers members = .ok u := by
  rw [addMembers, List.foldlM_cons, bind_eq_ok_iff]
  constructor
  · rintro ⟨t', hadd, hrest⟩
    obtain ⟨hfree, rfl⟩ := addMember_eq_ok_iff.mp hadd
    exact ⟨hfree, hrest⟩
  · rintro ⟨hfree, hrest⟩
    exact ⟨_, addMember_eq_ok_iff.mpr ⟨hfree, rfl⟩, hrest⟩

theorem exists_addMembers {t : TypeDoc} {members : List AnyMember} (h : t.HasRoom members) :
    ∃ u, t.addMembers members = .ok u := by
  induction members generalizing t with
  | nil => exact ⟨t, rfl⟩
  | cons m members ih =>
    obtain ⟨hapart, hfree⟩ := h
    rw [List.map_cons, List.nodup_cons] at hapart
    have hm := hfree m List.mem_cons_self
    rw [member?, Option.map_eq_none_iff] at hm
    obtain ⟨-, -, hmembers⟩ := addMember_outcome (addMember_eq_ok_iff.mpr ⟨hm, rfl⟩)
    have hroom : (t.withMember m).HasRoom members := by
      refine ⟨hapart.2, fun m' hm' => ?_⟩
      rw [hmembers, if_neg, hfree m' (List.mem_cons_of_mem _ hm')]
      rintro ⟨hcls, hkey⟩
      exact hapart.1 (List.mem_map.mpr ⟨m', hm', Prod.ext hcls hkey⟩)
    obtain ⟨u, hu⟩ := ih hroom
    exact ⟨u, addMembers_cons_eq_ok_iff.mpr ⟨hm, hu⟩⟩

theorem isListing_of_addMembers {t u : TypeDoc} {members : List AnyMember}
    (h : t.addMembers members = .ok u) : t.IsListing members u := by
  induction members generalizing t with
  | nil =>
    cases h
    exact ⟨rfl, fun _ => .refl _, fun cls => (u.members.get cls).pairwise_keys, .refl _,
      u.field_toDatum, u.isExport_toDatum⟩
  | cons m members ih =>
    obtain ⟨hfree, hrest⟩ := addMembers_cons_eq_ok_iff.mp h
    have hlist := ih hrest
    refine ⟨hlist.bare, fun cls => ?_, hlist.ascending, ?_, hlist.exported, hlist.isExport⟩
    · rw [entriesOf_cons]
      refine (hlist.entries cls).trans (((entries_withMember hfree cls).append_left _).trans ?_)
      rw [← List.append_assoc]
      exact List.perm_append_comm.append_right _
    · exact hlist.perm.trans (((allMembers_withMember hfree).append_left _).trans List.perm_middle)

theorem addMembers_eq_of_perm {t : TypeDoc} {members members' : List AnyMember}
    (hroom : t.HasRoom members) (hperm : members'.Perm members) :
    t.addMembers members' = t.addMembers members := by
  have hroom' : t.HasRoom members' :=
    ⟨(hperm.map _).nodup_iff.mpr hroom.apart, fun m hm => hroom.free m (hperm.mem_iff.mp hm)⟩
  obtain ⟨u, hu⟩ := exists_addMembers hroom
  obtain ⟨u', hu'⟩ := exists_addMembers hroom'
  have hlist := isListing_of_addMembers hu
  have hlist' := isListing_of_addMembers hu'
  rw [hu, hu']
  refine congrArg _ (eq_of_bare_eq (hlist'.bare.trans hlist.bare.symm) ?_)
  refine MemberTables.ext fun cls => KeyTable.eq_of_perm ((hlist'.entries cls).trans ?_)
  exact (((hperm.filterMap _).map _).append_right _).trans (hlist.entries cls).symm

end TypeDoc

/-! ## Both -/

/-- Types with keys of their own, and members of a type with keys of their own, may come in any order:
the same is made of them, and all of it is listed in the order of the keys. -/
theorem listing_eq_of_perm {types types' : List TypeDoc} (htypes : (types.map (·.key)).Nodup)
    (hperm : types'.Perm types) {t : TypeDoc} {members members' : List AnyMember}
    (hmembers : t.HasRoom members) (hperm' : members'.Perm members) :
    (∃ c, Catalog.ofTypes types = .ok c ∧ Catalog.ofTypes types' = .ok c ∧ c.IsListing types) ∧
      ∃ u, t.addMembers members = .ok u ∧ t.addMembers members' = .ok u ∧
        t.IsListing members u := by
  obtain ⟨c, hc⟩ := Catalog.exists_ofTypes htypes
  obtain ⟨u, hu⟩ := TypeDoc.exists_addMembers hmembers
  refine ⟨⟨c, hc, ?_, Catalog.isListing_of_ofTypes hc⟩, u, hu, ?_,
    TypeDoc.isListing_of_addMembers hu⟩
  · rw [Catalog.ofTypes_eq_of_perm htypes hperm, hc]
  · rw [TypeDoc.addMembers_eq_of_perm hmembers hperm', hu]

/-- A type `A` with generic parameters. -/
def typeOfParameters (typeParameters : List String) : TypeDoc :=
  { identifier := { name := "A", typeParameters } }

/-- A member of `A`. -/
def memberOfA (cls : MemberClass) (name : String) (detail : cls.Detail) : AnyMember :=
  ⟨cls, { identifier := { classPath := [⟨"A", [], .none⟩], name }, detail }⟩

/-- `A<A>` is displayed before `A<B, C>` and has the later key; a method and an event share a key. -/
theorem listing_eq_of_perm_of_generics :
    (typeOfParameters ["A"]).identifier.text < (typeOfParameters ["B", "C"]).identifier.text ∧
    (typeOfParameters ["B", "C"]).key < (typeOfParameters ["A"]).key ∧
    (∃ c, Catalog.ofTypes [typeOfParameters ["A"], typeOfParameters ["B", "C"]] = .ok c ∧
      Catalog.ofTypes [typeOfParameters ["B", "C"], typeOfParameters ["A"]] = .ok c ∧
      c.IsListing [typeOfParameters ["A"], typeOfParameters ["B", "C"]]) ∧
    ∃ u, (typeOfParameters []).addMembers
        [memberOfA .method "g" {}, memberOfA .method "f" {}, memberOfA .event "f" {}] = .ok u ∧
      (typeOfParameters []).addMembers
        [memberOfA .event "f" {}, memberOfA .method "g" {}, memberOfA .method "f" {}] = .ok u ∧
      (typeOfParameters []).IsListing
        [memberOfA .method "g" {}, memberOfA .method "f" {}, memberOfA .event "f" {}] u :=
  ⟨by decide, by decide, listing_eq_of_perm (by decide) (.swap _ _ _) ⟨by decide, by decide⟩
    (@List.perm_append_comm _ [_] [_, _])⟩

end ApiDocs
