import Mathlib
import ApiDocs.Proofs.Catalog.Keyed

/-!
# Unions of catalogs

Uniting a catalog with another one succeeds when they have no key in common, and then nothing is lost
and nothing is changed.  What a union of several catalogs holds does not depend on how they are united.

* `Catalog.union_eq_ok_iff`: when two catalogs are united, and what is held then;
* `Catalog.union_eq_error_iff_find?`: what is to blame when they are not;
* `Catalog.IsUnion`: what the union of several catalogs holds, whatever their order
  (`Catalog.IsUnion.perm`, `Catalog.IsUnion.eq`);
* `Catalog.IsUnion.of_union`, `Catalog.IsUnion.exists_union`: one catalog more.
-/

namespace ApiDocs.Catalog

variable {c d c' : Catalog}

theorem mem_keys_iff {key : String} : key ∈ c.keys ↔ ∃ t, c.table.get? key = some t :=
  KeyTable.mem_keys_iff

theorem not_mem_keys_iff {key : String} : key ∉ c.keys ↔ c.table.get? key = none := by
  rw [mem_keys_iff, ← Option.isSome_iff_exists, Option.not_isSome_iff_eq_none]

/-! ## Two catalogs -/

/-- When two catalogs are united, and what is held then. -/
theorem union_eq_ok_iff (hd : d.IsKeyed) : c.union d = .ok c' ↔ c.keys.Disjoint d.keys ∧
    ∀ key, c'.table.get? key = (d.table.get? key).or (c.table.get? key) := by
  have hnodup : (d.types.map (·.key)).Nodup := by
    rw [hd.map_key_types]
    exact d.table.nodup_keys
  have hapart : (∀ t ∈ d.types, c.table.get? t.key = none) ↔ c.keys.Disjoint d.keys := by
    rw [List.disjoint_right]
    show _ ↔ ∀ key ∈ d.table.keys, _
    rw [← hd.map_key_types, List.forall_mem_map]
    simp only [not_mem_keys_iff]
  rw [union, addTypes_eq_ok_iff, and_iff_right hnodup, hapart]
  simp only [hd.firstOf_types]

/-- A union holds what either side holds. -/
theorem get?_eq_some_iff_of_union (hd : d.IsKeyed) (h : c.union d = .ok c') {key : String}
    {t : TypeDoc} : c'.table.get? key = some t ↔
      d.table.get? key = some t ∨ c.table.get? key = some t := by
  obtain ⟨hapart, hget⟩ := (union_eq_ok_iff hd).mp h
  rw [hget, Option.or_eq_some_iff]
  refine or_congr_right (and_iff_right_of_imp fun ht => ?_)
  exact not_mem_keys_iff.mp (List.disjoint_left.mp hapart (mem_keys_iff.mpr ⟨t, ht⟩))

/-- Catalogs without a common key have a union. -/
theorem exists_union (hd : d.IsKeyed) (hapart : c.keys.Disjoint d.keys) :
    ∃ c', c.union d = .ok c' := by
  refine ⟨⟨KeyTable.outerJoin (fun s _ => s) d.table c.table⟩, (union_eq_ok_iff hd).mpr ⟨hapart, ?_⟩⟩
  intro key
  rw [KeyTable.get?_outerJoin]
  cases d.table.get? key <;> cases c.table.get? key <;> rfl

/-- When types with keys of their own cannot be added, the first key that is taken is in the way. -/
theorem addTypes_eq_error_iff {types : List TypeDoc} {f : Fault}
    (hnodup : (types.map (·.key)).Nodup) : c.addTypes types = .error f ↔
      ∃ key, (types.map (·.key)).find? c.table.contains = some key ∧ f = .duplicate key := by
  induction types generalizing c with
  | nil =>
    constructor
    · intro h
      cases h
    · rintro ⟨_, h, -⟩
      cases h
  | cons t types ih =>
    rw [List.map_cons, List.nodup_cons] at hnodup
    rw [addTypes, addType, List.map_cons, List.find?_cons]
    cases hthere : c.table.contains t.key with
    | true =>
      rw [if_pos rfl]
      constructor
      · intro h
        cases h
        exact ⟨t.key, rfl, rfl⟩
      · rintro ⟨_, h, rfl⟩
        cases h
        rfl
    | false =>
      -- The type that is added is none of those behind it.
      have hsame : (types.map (·.key)).find? (c.table.insert t.key t).contains =
          (types.map (·.key)).find? c.table.contains := by
        refine List.find?_congr fun key hkey => ?_
        have hne : t.key ≠ key := fun heq => hnodup.1 (heq ▸ hkey)
        rw [KeyTable.contains, KeyTable.get?_insert, if_neg hne, KeyTable.contains]
      rw [if_neg Bool.false_ne_true, ← hsame]
      exact ih hnodup.2

/-- When two catalogs cannot be united, the first key that they have in common is to blame. -/
theorem union_eq_error_iff_find? {f : Fault} (hd : d.IsKeyed) : c.union d = .error f ↔
    ∃ key, d.keys.find? c.table.contains = some key ∧ f = .duplicate key := by
  have hkeys := hd.map_key_types
  have herror := addTypes_eq_error_iff (c := c) (f := f) (hkeys ▸ d.table.nodup_keys)
  rw [hkeys] at herror
  exact herror

theorem union_eq_error {f : Fault} (hd : d.IsKeyed) (h : c.union d = .error f) :
    ∃ key, f = .duplicate key ∧ key ∈ c.keys ∧ key ∈ d.keys := by
  obtain ⟨key, hfind, rfl⟩ := (union_eq_error_iff_find? hd).mp h
  exact ⟨key, rfl, KeyTable.contains_iff_mem_keys.mp (List.find?_some hfind),
    List.mem_of_find?_eq_some hfind⟩

/-! ## Several catalogs -/

/-- A catalog holds every type of some catalogs, of which no two have a key in common, under its key,
and nothing else. -/
structure IsUnion (catalogs : List Catalog) (c : Catalog) : Prop where
  apart : catalogs.Pairwise fun a b => a.keys.Disjoint b.keys
  holds : ∀ key t, c.table.get? key = some t ↔ ∃ d ∈ catalogs, d.table.get? key = some t

theorem isUnion_nil : IsUnion [] empty :=
  ⟨.nil, fun _ _ => ⟨nofun, nofun⟩⟩

namespace IsUnion

variable {catalogs others : List Catalog}

theorem perm (h : IsUnion catalogs c) (hperm : catalogs.Perm others) : IsUnion others c := by
  refine ⟨hperm.pairwise h.apart fun hab => hab.symm, fun key t => ?_⟩
  rw [h.holds]
  simp only [hperm.mem_iff]

/-- Some catalogs have one union only. -/
theorem eq (h : IsUnion catalogs c) (h' : IsUnion catalogs c') : c = c' := by
  have htables : c.table = c'.table := by
    refine KeyTable.ext_get? fun key => Option.ext fun t => ?_
    rw [h.holds, h'.holds]
  exact congrArg Catalog.mk htables

theorem mem_keys_iff (h : IsUnion catalogs c) {key : String} :
    key ∈ c.keys ↔ ∃ d ∈ catalogs, key ∈ d.keys := by
  simp only [Catalog.mem_keys_iff, h.holds]
  exact ⟨fun ⟨t, d, hd, ht⟩ => ⟨d, hd, t, ht⟩, fun ⟨d, hd, t, ht⟩ => ⟨t, d, hd, ht⟩⟩

/-- One catalog more is apart from all before it when it is apart from their union. -/
theorem disjoint_keys_iff (h : IsUnion catalogs c) :
    c.keys.Disjoint d.keys ↔ ∀ a ∈ catalogs, d.keys.Disjoint a.keys := by
  simp only [List.disjoint_left, h.mem_keys_iff]
  constructor
  · intro hd a ha key hkey hmem
    exact hd ⟨a, ha, hmem⟩ hkey
  · rintro ha key ⟨a, hmem, hkey⟩ hkey'
    exact ha a hmem hkey' hkey

theorem of_union (h : IsUnion catalogs c) (hd : d.IsKeyed) (hunion : c.union d = .ok c') :
    IsUnion (d :: catalogs) c' := by
  have hapart := ((union_eq_ok_iff hd).mp hunion).1
  refine ⟨List.pairwise_cons.mpr ⟨h.disjoint_keys_iff.mp hapart, h.apart⟩, fun key t => ?_⟩
  rw [get?_eq_some_iff_of_union hd hunion, h.holds, List.exists_mem_cons_iff]

/-- A catalog can be united with those before it if all of them have a union. -/
theorem exists_union (h : IsUnion catalogs c) (hd : d.IsKeyed)
    (hall : (d :: catalogs).Pairwise fun a b => a.keys.Disjoint b.keys) :
    ∃ c', c.union d = .ok c' ∧ IsUnion (d :: catalogs) c' := by
  have hapart := h.disjoint_keys_iff.mpr (List.pairwise_cons.mp hall).1
  obtain ⟨c', hunion⟩ := Catalog.exists_union hd hapart
  exact ⟨c', hunion, h.of_union hd hunion⟩

end IsUnion

end ApiDocs.Catalog
