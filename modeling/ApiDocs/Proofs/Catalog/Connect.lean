import ApiDocs.Catalog.Connect
import ApiDocs.Proofs.Catalog.Place
import ApiDocs.Proofs.Logged

/-!
# What connecting makes

Types and loose members become a catalog one by one. What one member does to a catalog is said place
by place: its own place, which was free, is taken, the place of its type is taken if it was free, and
all other places stay as they are. So everything that is connected keeps its place to the end, and
what is at a place in the end was connected or made for a member.

* `Catalog.attach_outcome`: what one member does to a catalog;
* `Catalog.Connects`: what a catalog has of some entities, kept by every member (`Connects.attach`);
* `Catalog.connects_of_connect`: what connecting makes.
-/

namespace ApiDocs

namespace TypeDoc

/-- A type with a member written under its key. -/
def withMember (t : TypeDoc) (m : AnyMember) : TypeDoc :=
  let table := (t.members.get m.cls).insert m.member.key m.member
  { t with members := t.members.set m.cls table }

theorem addMember_eq_ok_iff {t t' : TypeDoc} {m : AnyMember} : t.addMember m = .ok t' ↔
    (t.members.get m.cls).get? m.member.key = none ∧ t.withMember m = t' := by
  rw [addMember, KeyTable.contains]
  cases (t.members.get m.cls).get? m.member.key with
  | none =>
    rw [Option.isSome_none, if_neg Bool.false_ne_true, Except.ok.injEq]
    exact (and_iff_right rfl).symm
  | some _ =>
    rw [Option.isSome_some, if_pos rfl]
    constructor
    · intro h
      cases h
    · rintro ⟨h, -⟩
      cases h

/-- What a type has after a member is added. -/
theorem addMember_outcome {t t' : TypeDoc} {m : AnyMember} (h : t.addMember m = .ok t') :
    t'.bare = t.bare ∧ t.member? m.cls m.identifier.signatureKey = none ∧
      ∀ cls key, t'.member? cls key =
        if cls = m.cls ∧ key = m.identifier.signatureKey then some (.member m)
        else t.member? cls key := by
  obtain ⟨hfree, rfl⟩ := addMember_eq_ok_iff.mp h
  obtain ⟨c, m⟩ := m
  refine ⟨rfl, by rw [member?]; exact congrArg _ hfree, fun cls key => ?_⟩
  rw [member?, member?]
  by_cases hcls : cls = c
  · subst hcls
    show Option.map _ (((t.members.set cls ((t.members.get cls).insert m.key m)).get cls).get? key) = _
    rw [MemberTables.get_set_self, KeyTable.get?_insert]
    by_cases hkey : m.key = key
    · rw [if_pos hkey, if_pos ⟨rfl, hkey.symm⟩]
      rfl
    · rw [if_neg hkey, if_neg fun hand => hkey hand.2.symm]
  · show Option.map _ (((t.members.set c _).get cls).get? key) = _
    rw [MemberTables.get_set_of_ne _ hcls, if_neg fun hand => hcls hand.1]

end TypeDoc

namespace Catalog

/-! ## One member -/

/-- The type that a member goes to. -/
def owner (c : Catalog) (parent : Identifier) : TypeDoc :=
  (c.find? parent).getD { identifier := parent }

theorem ownerOf_outcome (c : Catalog) (parent : Identifier) (m : AnyMember) :
    (c.ownerOf parent m).outcome = .ok (c.owner parent) := by
  rw [ownerOf, owner]
  cases c.find? parent <;> rfl

theorem entityAt_type_owner (c : Catalog) (parent : Identifier) :
    some (Entity.type (c.owner parent).bare) =
      (c.entityAt (.type parent.canonicalKey)).or (some (.type { identifier := parent })) := by
  rw [owner, find?, entityAt]
  cases c.table.get? parent.canonicalKey <;> rfl

theorem entityAt_member_owner (c : Catalog) (parent : Identifier) (cls : MemberClass)
    (key : String) :
    c.entityAt (.member cls parent.canonicalKey key) = (c.owner parent).member? cls key := by
  rw [owner, find?, entityAt_member]
  cases c.table.get? parent.canonicalKey with
  | none => exact (TypeDoc.member?_of_members rfl cls key).symm
  | some t => rfl

theorem attach_eq_ok_iff {c c' : Catalog} {m : AnyMember} : (c.attach m).outcome = .ok c' ↔
    ∃ parent t, m.identifier.parent? = some parent ∧ (c.owner parent).addMember m = .ok t ∧
      ⟨c.table.insert parent.canonicalKey t⟩ = c' := by
  rw [attach]
  cases m.identifier.parent? with
  | none =>
    constructor
    · intro h
      cases h
    · rintro ⟨parent, t, h, -⟩
      cases h
  | some parent =>
    simp only [Logged.bind_eq_ok_iff, ownerOf_outcome, Logged.outcome_ofExcept,
      Logged.outcome_pure, Except.ok.injEq]
    constructor
    · rintro ⟨_, rfl, t, hadd, h⟩
      exact ⟨parent, t, rfl, hadd, h⟩
    · rintro ⟨_, t, hparent, hadd, h⟩
      cases hparent
      exact ⟨_, rfl, t, hadd, h⟩

/-- What one member does to a catalog. -/
theorem attach_outcome {c c' : Catalog} {m : AnyMember} (h : (c.attach m).outcome = .ok c') :
    ∃ parent place, m.identifier.parent? = some parent ∧ (Entity.member m).place? = some place ∧
      c.entityAt place = none ∧ c'.entityAt place = some (.member m) ∧
      c'.entityAt (.type parent.canonicalKey) =
        (c.entityAt (.type parent.canonicalKey)).or (some (.type { identifier := parent })) ∧
      ∀ other, other ≠ place → other ≠ .type parent.canonicalKey →
        c'.entityAt other = c.entityAt other := by
  obtain ⟨parent, t, hparent, hadd, rfl⟩ := attach_eq_ok_iff.mp h
  obtain ⟨hbare, hfree, hmembers⟩ := TypeDoc.addMember_outcome hadd
  have hself : (c.table.insert parent.canonicalKey t).get? parent.canonicalKey = some t := by
    rw [KeyTable.get?_insert, if_pos rfl]
  refine ⟨parent, .member m.cls parent.canonicalKey m.identifier.signatureKey, hparent, ?_, ?_, ?_,
    ?_, fun other hplace htype => ?_⟩
  · rw [Entity.place?_member, hparent, Option.map_some]
  · rw [entityAt_member_owner, hfree]
  · rw [entityAt_member, hself, Option.bind_some, hmembers, if_pos ⟨rfl, rfl⟩]
  · rw [← entityAt_type_owner, entityAt, hself, Option.map_some, hbare]
  · cases other with
    | type key =>
      have hne : parent.canonicalKey ≠ key := fun heq => htype (by rw [heq])
      rw [entityAt, KeyTable.get?_insert, if_neg hne]
      rfl
    | member cls ownerKey key =>
      by_cases howner : ownerKey = parent.canonicalKey
      · subst howner
        rw [entityAt_member, hself, Option.bind_some, hmembers, if_neg, entityAt_member_owner]
        rintro ⟨rfl, rfl⟩
        exact hplace rfl
      · rw [entityAt_member, KeyTable.get?_insert, if_neg (Ne.symm howner)]
        rfl

/-! ## All members -/

/-- An entity is one of some entities, or a type that is made for a member among them. -/
def ComesFrom (entities : List Entity) (e : Entity) : Prop :=
  e ∈ entities ∨ ∃ m parent, .member m ∈ entities ∧ m.identifier.parent? = some parent ∧
    e = .type { identifier := parent }

theorem ComesFrom.mono {entities entities' : List Entity} {e : Entity}
    (h : ComesFrom entities e) (hsub : ∀ e ∈ entities, e ∈ entities') : ComesFrom entities' e := by
  rcases h with he | ⟨m, parent, hm, hfacts⟩
  · exact .inl (hsub e he)
  · exact .inr ⟨m, parent, hsub _ hm, hfacts⟩

/-- What a catalog has of some entities: each at its place, no two at one, and besides them only
types that are made for members. -/
structure Connects (entities : List Entity) (c : Catalog) : Prop where
  present : ∀ e ∈ entities, ∃ place, e.place? = some place ∧ c.entityAt place = some e
  apart : (entities.map (·.place?)).Nodup
  origin : ∀ place e, c.entityAt place = some e → e.place? = some place ∧ ComesFrom entities e

theorem Connects.isPlaced {entities : List Entity} {c : Catalog} (hc : Connects entities c) :
    c.IsPlaced :=
  fun place e hat => (hc.origin place e hat).1

/-- A free place is the place of none of the entities. -/
theorem Connects.place?_ne {entities : List Entity} {c : Catalog} (hc : Connects entities c)
    {place : Place} (hfree : c.entityAt place = none) : ∀ e ∈ entities, e.place? ≠ some place := by
  intro e he hat
  obtain ⟨other, hother, hentity⟩ := hc.present e he
  rw [hat, Option.some.injEq] at hother
  subst hother
  rw [hfree] at hentity
  cases hentity

/-- A member that is attached joins what the catalog has. -/
theorem Connects.attach {entities : List Entity} {c c' : Catalog} {m : AnyMember}
    (hc : Connects entities c) (h : (c.attach m).outcome = .ok c') :
    Connects (entities ++ [.member m]) c' := by
  obtain ⟨parent, place, hparent, hplace, hfree, hself, htype, hother⟩ := attach_outcome h
  have hold := hc.place?_ne hfree
  have hlast : .member m ∈ entities ++ [.member m] := List.mem_append_right _ List.mem_cons_self
  refine ⟨?_, ?_, ?_⟩
  · intro e he
    rcases List.mem_append.mp he with he | he
    · obtain ⟨other, hat, hentity⟩ := hc.present e he
      refine ⟨other, hat, ?_⟩
      by_cases htop : other = .type parent.canonicalKey
      · subst htop
        rw [htype, hentity, Option.some_or]
      · have hapart : other ≠ place := by
          rintro rfl
          exact hold e he hat
        rw [hother other hapart htop, hentity]
    · rw [List.mem_singleton.mp he]
      exact ⟨place, hplace, hself⟩
  · rw [List.map_append, List.nodup_append]
    refine ⟨hc.apart, List.nodup_cons.mpr ⟨List.not_mem_nil, List.nodup_nil⟩, ?_⟩
    intro p hp q hq heq
    obtain ⟨e, he, rfl⟩ := List.mem_map.mp hp
    rw [List.map_singleton, List.mem_singleton, hplace] at hq
    exact hold e he (heq.trans hq)
  · -- What is at a place after the step was put there by it or was there before.
    intro other e hat
    have hbefore : c.entityAt other = some e →
        e.place? = some other ∧ ComesFrom (entities ++ [.member m]) e := by
      intro hentity
      obtain ⟨hpos, hcomes⟩ := hc.origin other e hentity
      exact ⟨hpos, hcomes.mono fun _ => List.mem_append_left _⟩
    by_cases hmember : other = place
    · subst hmember
      rw [hself, Option.some.injEq] at hat
      subst hat
      exact ⟨hplace, .inl hlast⟩
    · by_cases htop : other = .type parent.canonicalKey
      · subst htop
        rw [htype] at hat
        cases hentity : c.entityAt (.type parent.canonicalKey) with
        | some e' =>
          rw [hentity, Option.some_or] at hat
          exact hbefore (hentity.trans hat)
        | none =>
          rw [hentity, Option.none_or, Option.some.injEq] at hat
          subst hat
          exact ⟨rfl, .inr ⟨m, parent, hlast, hparent, rfl⟩⟩
      · rw [hother other hmember htop] at hat
        exact hbefore hat

theorem Connects.attachAll {entities : List Entity} {c c' : Catalog} {members : List AnyMember}
    (hc : Connects entities c) (h : (c.attachAll members).outcome = .ok c') :
    Connects (entities ++ members.map .member) c' := by
  induction members generalizing entities c with
  | nil =>
    cases h
    rw [List.map_nil, List.append_nil]
    exact hc
  | cons m members ih =>
    rw [Catalog.attachAll, Logged.bind_eq_ok_iff] at h
    obtain ⟨c₁, hstep, hrest⟩ := h
    have hall := ih (hc.attach hstep) hrest
    rw [List.append_assoc] at hall
    exact hall

/-- The catalog of some types without members has these. -/
theorem connects_of_ofTypes {types : List TypeDoc} {c : Catalog}
    (hmembers : ∀ t ∈ types, t.members = {}) (h : ofTypes types = .ok c) :
    Connects (types.map .type) c := by
  obtain ⟨hnodup, hget⟩ := ofTypes_eq_ok_iff.mp h
  have hbare : ∀ t ∈ types, t.bare = t := by
    intro t ht
    rw [TypeDoc.bare, ← hmembers t ht]
  refine ⟨fun e he => ?_, ?_, fun place e hat => ?_⟩
  · obtain ⟨t, ht, rfl⟩ := List.mem_map.mp he
    refine ⟨.type t.key, rfl, ?_⟩
    rw [entityAt, hget, (firstOf_eq_some_iff hnodup).mpr ⟨ht, rfl⟩, Option.map_some, hbare t ht]
  · have hplaces : (types.map Entity.type).map (·.place?) =
        (types.map (·.key)).map fun key => some (Place.type key) := by
      rw [List.map_map, List.map_map]
      rfl
    rw [hplaces]
    refine List.pairwise_map.mpr (hnodup.imp fun hne heq => ?_)
    cases heq
    exact hne rfl
  · cases place with
    | type key =>
      rw [entityAt, hget, Option.map_eq_some_iff] at hat
      obtain ⟨t, ht, rfl⟩ := hat
      obtain ⟨hmem, rfl⟩ := (firstOf_eq_some_iff hnodup).mp ht
      rw [hbare t hmem]
      exact ⟨rfl, .inl (List.mem_map.mpr ⟨t, hmem, rfl⟩)⟩
    | member cls owner key =>
      rw [entityAt_member, hget, Option.bind_eq_some_iff] at hat
      obtain ⟨t, ht, hmember⟩ := hat
      obtain ⟨hmem, -⟩ := (firstOf_eq_some_iff hnodup).mp ht
      rw [TypeDoc.member?_of_members (hmembers t hmem)] at hmember
      cases hmember

/-- What connecting makes of types without members and of loose members. -/
theorem connects_of_connect {types : List TypeDoc} {members : List AnyMember} {c : Catalog}
    (hmembers : ∀ t ∈ types, t.members = {}) (h : (connect types members).outcome = .ok c) :
    Connects (types.map .type ++ members.map .member) c := by
  rw [connect, Logged.bind_eq_ok_iff] at h
  obtain ⟨c₀, htypes, hattach⟩ := h
  exact (connects_of_ofTypes hmembers htypes).attachAll hattach

end Catalog

end ApiDocs
