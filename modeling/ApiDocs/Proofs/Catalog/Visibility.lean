import ApiDocs.Catalog.Visibility
import ApiDocs.Proofs.Catalog.Place
import ApiDocs.Proofs.Flags
import ApiDocs.Proofs.KeyTable

/-!
# What is shown

Showing what some visibilities ask for keeps the types and the members whose flags pass a test.
Tests are passed one after the other in any order, so filters commute.  Two of them are not the filter
of the visibilities that they have in common, since a declaration may pass each by another one.

* `Catalog.keeping`: what passes a test of the flags, of which `Catalog.filterVisibility` is a case;
* `Catalog.keeping_keeping`: two tests, one after the other, are one;
* `Catalog.entityAt_keeping_iff`: what is kept was there before, and passes with the type around it;
* `Catalog.union_keeping`: a union is filtered by filtering its two sides;
* `Catalog.filterVisibility_laws`: filters by visibility.
-/

namespace ApiDocs

variable {p q : NameFlags → Bool}

/-! ## Types -/

namespace TypeDoc

/-- The type with those of its members whose flags pass a test. -/
def keeping (p : NameFlags → Bool) (t : TypeDoc) : TypeDoc :=
  { t with members := .ofFn fun cls => (t.members.get cls).filter fun m => p m.identifier.flags }

theorem keeping_eq_self (hp : ∀ f, p f = true) (t : TypeDoc) : t.keeping p = t := by
  have hmembers : (MemberTables.ofFn fun cls =>
      (t.members.get cls).filter fun m => p m.identifier.flags) = t.members := by
    refine MemberTables.ext fun cls => ?_
    rw [MemberTables.get_ofFn]
    exact (t.members.get cls).filter_eq_self fun m => hp m.identifier.flags
  rw [keeping, hmembers]

theorem keeping_keeping (p q : NameFlags → Bool) (t : TypeDoc) :
    (t.keeping p).keeping q = t.keeping fun f => p f && q f := by
  have hmembers : (MemberTables.ofFn fun cls =>
      ((t.keeping p).members.get cls).filter fun m => q m.identifier.flags) =
      .ofFn fun cls => (t.members.get cls).filter fun m =>
        p m.identifier.flags && q m.identifier.flags := by
    refine MemberTables.ext fun cls => ?_
    rw [MemberTables.get_ofFn, MemberTables.get_ofFn, keeping, MemberTables.get_ofFn,
      KeyTable.filter_filter]
  rw [keeping, hmembers]
  rfl

theorem member?_keeping (p : NameFlags → Bool) (t : TypeDoc) (cls : MemberClass) (key : String) :
    (t.keeping p).member? cls key = (t.member? cls key).filter fun e => p e.identifier.flags := by
  rw [member?, member?, keeping, MemberTables.get_ofFn, KeyTable.get?_filter, Option.filter_map]
  rfl

end TypeDoc

/-! ## Catalogs -/

namespace Catalog

/-- The types whose flags pass a test, with those of their members whose flags do. -/
def keeping (p : NameFlags → Bool) (c : Catalog) : Catalog :=
  ⟨(c.table.filter fun t => p t.identifier.flags).map (·.keeping p)⟩

theorem filterVisibility_eq_keeping (v : NameFlags) (c : Catalog) :
    c.filterVisibility v = c.keeping (·.isVisible v) := rfl

theorem get?_keeping (p : NameFlags → Bool) (c : Catalog) (key : String) :
    (c.keeping p).table.get? key =
      ((c.table.get? key).filter fun t => p t.identifier.flags).map (·.keeping p) := by
  rw [keeping, KeyTable.get?_map, KeyTable.get?_filter]

theorem keeping_eq_self (hp : ∀ f, p f = true) (c : Catalog) : c.keeping p = c := by
  have hkept : (c.table.filter fun t => p t.identifier.flags) = c.table :=
    c.table.filter_eq_self fun t => hp t.identifier.flags
  rw [keeping, hkept, c.table.map_eq_self (TypeDoc.keeping_eq_self hp)]

/-- Two tests, one after the other, are one. -/
theorem keeping_keeping (p q : NameFlags → Bool) (c : Catalog) :
    (c.keeping p).keeping q = c.keeping fun f => p f && q f := by
  have htables : ((c.keeping p).keeping q).table = (c.keeping fun f => p f && q f).table := by
    refine KeyTable.ext_get? fun key => ?_
    rw [get?_keeping, get?_keeping, get?_keeping]
    cases c.table.get? key with
    | none => rfl
    | some t =>
      rw [Option.filter_some, Option.filter_some]
      cases hp : p t.identifier.flags with
      | false => rfl
      | true =>
        have hflags : (t.keeping p).identifier.flags = t.identifier.flags := rfl
        rw [if_pos rfl, Option.map_some, Option.filter_some, hflags, Bool.true_and]
        cases q t.identifier.flags with
        | false => rfl
        | true => exact congrArg some (TypeDoc.keeping_keeping p q t)
  exact congrArg Catalog.mk htables

/-! ## Place by place -/

/-- What is kept was there before, and passes with the type around it. -/
theorem entityAt_keeping_iff {c : Catalog} {place : Place} {e : Entity} :
    (c.keeping p).entityAt place = some e ↔ c.entityAt place = some e ∧
      p e.identifier.flags = true ∧
      ∃ t, c.table.get? place.typeKey = some t ∧ p t.identifier.flags = true := by
  cases place with
  | type key =>
    rw [entityAt, entityAt, get?_keeping, Place.typeKey]
    constructor
    · intro h
      obtain ⟨_, hkept, rfl⟩ := Option.map_eq_some_iff.mp h
      obtain ⟨t, ht, rfl⟩ := Option.map_eq_some_iff.mp hkept
      obtain ⟨ht, hpass⟩ := Option.filter_eq_some_iff.mp ht
      exact ⟨Option.map_eq_some_iff.mpr ⟨t, ht, rfl⟩, hpass, t, ht, hpass⟩
    · rintro ⟨h, -, t, ht, hpass⟩
      rw [ht, Option.map_some, Option.some.injEq] at h
      rw [ht, Option.filter_some, if_pos hpass, ← h]
      rfl
  | member cls owner key =>
    rw [entityAt_member, entityAt_member, get?_keeping, Place.typeKey]
    constructor
    · intro h
      obtain ⟨_, hkept, hm⟩ := Option.bind_eq_some_iff.mp h
      obtain ⟨t, ht, rfl⟩ := Option.map_eq_some_iff.mp hkept
      obtain ⟨ht, hpass⟩ := Option.filter_eq_some_iff.mp ht
      rw [TypeDoc.member?_keeping] at hm
      obtain ⟨hm, hpass'⟩ := Option.filter_eq_some_iff.mp hm
      exact ⟨Option.bind_eq_some_iff.mpr ⟨t, ht, hm⟩, hpass', t, ht, hpass⟩
    · rintro ⟨h, hpass', t, ht, hpass⟩
      rw [ht, Option.bind_some] at h
      rw [ht, Option.filter_some, if_pos hpass, Option.map_some, Option.bind_some,
        TypeDoc.member?_keeping, h, Option.filter_some, if_pos hpass']

/-- What is shown was there before, and its own flags show it. -/
theorem entityAt_of_filterVisibility {v : NameFlags} {c : Catalog} {place : Place} {e : Entity}
    (h : (c.filterVisibility v).entityAt place = some e) :
    c.entityAt place = some e ∧ e.identifier.flags.isVisible v = true := by
  rw [filterVisibility_eq_keeping] at h
  obtain ⟨hbefore, hshown, -⟩ := entityAt_keeping_iff.mp h
  exact ⟨hbefore, hshown⟩

/-! ## Unions -/

/-- A type under a new key is kept when it passes. -/
theorem keeping_withType {c : Catalog} {t : TypeDoc} (h : c.table.get? t.key = none) :
    (c.withType t).keeping p =
      if p t.identifier.flags then (c.keeping p).withType (t.keeping p) else c.keeping p := by
  have htables : ((c.withType t).keeping p).table =
      (if p t.identifier.flags then (c.keeping p).withType (t.keeping p) else c.keeping p).table := by
    refine KeyTable.ext_get? fun key => ?_
    rw [get?_keeping, withType, KeyTable.get?_insert]
    cases hpass : p t.identifier.flags with
    | true =>
      have hkey : (t.keeping p).key = t.key := rfl
      rw [if_pos rfl, withType, KeyTable.get?_insert, get?_keeping, hkey]
      split
      · rw [Option.filter_some, if_pos hpass, Option.map_some]
      · rfl
    | false =>
      rw [if_neg Bool.false_ne_true, get?_keeping]
      split
      · next hkey => rw [Option.filter_some, hpass, ← hkey, h]; rfl
      · rfl
  exact congrArg Catalog.mk htables

/-- Of types that are added, those that pass are kept. -/
theorem addTypes_keeping {c u : Catalog} {types : List TypeDoc} (h : c.addTypes types = .ok u) :
    (c.keeping p).addTypes ((types.filter fun t => p t.identifier.flags).map (·.keeping p)) =
      .ok (u.keeping p) := by
  induction types generalizing c with
  | nil =>
    cases h
    rfl
  | cons t types ih =>
    obtain ⟨hnone, h⟩ := addTypes_cons_eq_ok_iff.mp h
    have hrest := ih h
    have hkept := keeping_withType (p := p) hnone
    rw [withType] at hkept
    rw [hkept] at hrest
    cases hpass : p t.identifier.flags with
    | true =>
      have hnone' : (c.keeping p).table.get? (t.keeping p).key = none := by
        rw [get?_keeping, show (t.keeping p).key = t.key from rfl, hnone]
        rfl
      rw [hpass, if_pos rfl] at hrest
      rw [List.filter_cons, if_pos hpass, List.map_cons]
      exact addTypes_cons_eq_ok_iff.mpr ⟨hnone', hrest⟩
    | false =>
      rw [hpass, if_neg Bool.false_ne_true] at hrest
      rw [List.filter_cons, hpass]
      exact hrest

/-- A union is filtered by filtering its two sides. -/
theorem union_keeping {c d u : Catalog} (h : c.union d = .ok u) :
    (c.keeping p).union (d.keeping p) = .ok (u.keeping p) := by
  have htypes : (d.keeping p).types =
      (d.types.filter fun t => p t.identifier.flags).map (·.keeping p) := by
    rw [types, keeping, KeyTable.values_map, KeyTable.values_filter, types]
  rw [union, htypes]
  exact addTypes_keeping h

/-! ## Filters by visibility -/

/-- All visibilities show everything. -/
theorem filterVisibility_allVisibilities (c : Catalog) :
    c.filterVisibility .allVisibilities = c :=
  keeping_eq_self NameFlags.isVisible_allVisibilities c

/-- What is shown is what was there and is visible, in a type that is visible, and nothing but
members that are not shown is missing from it.  Filters commute, a second time a filter does nothing,
and all visibilities show everything.  More visibilities show more, and what is shown of a union is
the union of what is shown. -/
theorem filterVisibility_laws (c d : Catalog) (v w : NameFlags) :
    (∀ place e, (c.filterVisibility v).entityAt place = some e ↔ c.entityAt place = some e ∧
      e.identifier.flags.isVisible v = true ∧
      ∃ t, c.table.get? place.typeKey = some t ∧ t.identifier.flags.isVisible v = true) ∧
    (c.filterVisibility v).filterVisibility w = (c.filterVisibility w).filterVisibility v ∧
    (c.filterVisibility v).filterVisibility v = c.filterVisibility v ∧
    c.filterVisibility .allVisibilities = c ∧
    ((∀ b ∈ NameFlags.visibilities, v.overlaps b = true → w.overlaps b = true) →
      ∀ place e, (c.filterVisibility v).entityAt place = some e →
        (c.filterVisibility w).entityAt place = some e) ∧
    ∀ u, c.union d = .ok u →
      (c.filterVisibility v).union (d.filterVisibility v) = .ok (u.filterVisibility v) := by
  have hall := filterVisibility_allVisibilities c
  simp only [filterVisibility_eq_keeping] at hall ⊢
  refine ⟨fun _ _ => entityAt_keeping_iff, ?_, ?_, hall, ?_, fun _ => union_keeping⟩
  · rw [keeping_keeping, keeping_keeping]
    simp only [Bool.and_comm]
  · rw [keeping_keeping]
    simp only [Bool.and_self]
  · intro hmore place e h
    obtain ⟨hbefore, hshown, t, ht, hshown'⟩ := entityAt_keeping_iff.mp h
    exact entityAt_keeping_iff.mpr ⟨hbefore, NameFlags.isVisible_mono hmore hshown, t, ht,
      NameFlags.isVisible_mono hmore hshown'⟩

/-- A type `A` that is public and internal, with a method that is private, one that is protected and
public, and one that does not say. -/
def layeredType : Catalog :=
  let method (name : String) (flags : NameFlags) : Member .method := {
    identifier := { classPath := [⟨"A", [], .none⟩], name, flags := .methodBit ||| flags }
    detail := {} }
  ofType {
    identifier := { name := "A", flags := .publicBit ||| .internalBit }
    members := { methods := ((KeyTable.empty.insert "f" (method "f" .privateBit)).insert "g"
      (method "g" (.protectedBit ||| .publicBit))).insert "h" (method "h" .none) } }

/-- A type that two visibilities show, one after the other, which have none in common. -/
theorem filterVisibility_laws_of_layers :
    ((layeredType.filterVisibility .publicBit).filterVisibility .internalBit).keys = ["A"] ∧
    (layeredType.filterVisibility .publicBit).filterVisibility .internalBit =
      (layeredType.filterVisibility .internalBit).filterVisibility .publicBit ∧
    (∀ b ∈ NameFlags.visibilities, NameFlags.publicBit.overlaps b = true →
      (NameFlags.publicBit ||| .privateBit).overlaps b = true) ∧
    ∃ u, layeredType.union (ofType { identifier := { name := "B", flags := .privateBit } }) = .ok u ∧
      (layeredType.filterVisibility .publicBit).union ((ofType {
        identifier := { name := "B", flags := .privateBit } }).filterVisibility .publicBit) =
        .ok (u.filterVisibility .publicBit) ∧
      ∃ e, (layeredType.filterVisibility .publicBit).entityAt (.member .method "A" "g") = some e ∧
        (layeredType.filterVisibility (.publicBit ||| .privateBit)).entityAt
          (.member .method "A" "g") = some e := by
  obtain ⟨-, -, -, -, hmore, hunion⟩ := filterVisibility_laws layeredType
    (ofType { identifier := { name := "B", flags := .privateBit } }) .publicBit
    (.publicBit ||| .privateBit)
  obtain ⟨-, hcomm, -⟩ := filterVisibility_laws layeredType empty .publicBit .internalBit
  have hsubset : ∀ b ∈ NameFlags.visibilities, NameFlags.publicBit.overlaps b = true →
      (NameFlags.publicBit ||| .privateBit).overlaps b = true := by decide
  exact ⟨by decide, hcomm, hsubset, _, rfl, hunion _ rfl, _, rfl, hmore hsubset _ _ rfl⟩

end Catalog

end ApiDocs
