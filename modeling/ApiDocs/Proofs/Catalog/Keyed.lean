import ApiDocs.Catalog.Basic
import ApiDocs.Proofs.KeyTable

/-!
# Catalogs by their keys

* `Catalog.addTypes_eq_ok_iff`: types are added when no two of them, and none of them and one that is
  there, have a key in common, and what is held afterwards;
* `Catalog.IsKeyed`: every type stands under its own key;
* `Catalog.isKeyed_iff_ofTypes`: these are the catalogs that are made of types.
-/

namespace ApiDocs

namespace Catalog

theorem addType_eq_ok_iff {c c' : Catalog} {t : TypeDoc} : c.addType t = .ok c' ↔
    c.table.get? t.key = none ∧ ⟨c.table.insert t.key t⟩ = c' := by
  rw [addType, KeyTable.contains]
  cases c.table.get? t.key with
  | none =>
    rw [Option.isSome_none, if_neg Bool.false_ne_true, Except.ok.injEq]
    exact (and_iff_right rfl).symm
  | some _ =>
    rw [Option.isSome_some, if_pos rfl]
    exact ⟨nofun, nofun⟩

/-- The first of some types that has a key. -/
def firstOf (key : String) (types : List TypeDoc) : Option TypeDoc :=
  types.find? fun t => t.key == key

theorem firstOf_cons (key : String) (t : TypeDoc) (types : List TypeDoc) :
    firstOf key (t :: types) = if t.key = key then some t else firstOf key types := by
  rw [firstOf, List.find?_cons]
  by_cases h : t.key = key
  · rw [if_pos h, h, beq_self_eq_true]
  · rw [if_neg h, beq_eq_false_iff_ne.mpr h]
    rfl

theorem firstOf_eq_none_iff {key : String} {types : List TypeDoc} :
    firstOf key types = none ↔ ∀ t ∈ types, t.key ≠ key := by
  rw [firstOf, List.find?_eq_none]
  simp only [beq_iff_eq]

theorem firstOf_eq_some_iff {key : String} {types : List TypeDoc} {t : TypeDoc}
    (hnodup : (types.map (·.key)).Nodup) : firstOf key types = some t ↔ t ∈ types ∧ t.key = key := by
  induction types with
  | nil => exact ⟨nofun, nofun⟩
  | cons t' types ih =>
    rw [List.map_cons, List.nodup_cons] at hnodup
    rw [firstOf_cons, List.mem_cons]
    by_cases h : t'.key = key
    · rw [if_pos h, Option.some.injEq]
      constructor
      · rintro rfl
        exact ⟨.inl rfl, h⟩
      · rintro ⟨rfl | hmem, hkey⟩
        · rfl
        · rw [h, ← hkey] at hnodup
          exact absurd (List.mem_map.mpr ⟨t, hmem, rfl⟩) hnodup.1
    · rw [if_neg h, ih hnodup.2]
      constructor
      · rintro ⟨hmem, hkey⟩
        exact ⟨.inr hmem, hkey⟩
      · rintro ⟨rfl | hmem, hkey⟩
        · exact absurd hkey h
        · exact ⟨hmem, hkey⟩

theorem addTypes_cons_eq_ok_iff {c c' : Catalog} {t : TypeDoc} {types : List TypeDoc} :
    c.addTypes (t :: types) = .ok c' ↔ c.table.get? t.key = none ∧
      Catalog.addTypes ⟨c.table.insert t.key t⟩ types = .ok c' := by
  rw [addTypes]
  constructor
  · intro h
    split at h
    · cases h
    · next c'' hadd =>
      obtain ⟨hnone, rfl⟩ := addType_eq_ok_iff.mp hadd
      exact ⟨hnone, h⟩
  · rintro ⟨hnone, h⟩
    rw [addType_eq_ok_iff.mpr ⟨hnone, rfl⟩]
    exact h

/-- A type whose key is not among others' is held whether it is added before them or with them. -/
theorem firstOf_or_get?_insert {t : TypeDoc} {types : List TypeDoc}
    (hfresh : t.key ∉ types.map (·.key)) (table : KeyTable TypeDoc) (key : String) :
    (firstOf key types).or ((table.insert t.key t).get? key) =
      (firstOf key (t :: types)).or (table.get? key) := by
  rw [firstOf_cons, KeyTable.get?_insert]
  by_cases h : t.key = key
  · subst h
    have hnone : firstOf t.key types = none := by
      refine firstOf_eq_none_iff.mpr ?_
      intro t' ht' heq
      exact hfresh (List.mem_map.mpr ⟨t', ht', heq⟩)
    rw [if_pos rfl, if_pos rfl, hnone]
    rfl
  · rw [if_neg h, if_neg h]

/-- When types are added, and what is held then. -/
theorem addTypes_eq_ok_iff {c c' : Catalog} {types : List TypeDoc} : c.addTypes types = .ok c' ↔
    (types.map (·.key)).Nodup ∧ (∀ t ∈ types, c.table.get? t.key = none) ∧
      ∀ key, c'.table.get? key = (firstOf key types).or (c.table.get? key) := by
  induction types generalizing c with
  | nil =>
    rw [addTypes, Except.ok.injEq]
    constructor
    · rintro rfl
      exact ⟨List.nodup_nil, nofun, fun _ => rfl⟩
    · rintro ⟨-, -, hget⟩
      obtain ⟨table⟩ := c
      obtain ⟨table'⟩ := c'
      exact congrArg Catalog.mk (KeyTable.ext_get? fun key => (hget key).symm)
  | cons t types ih =>
    have hinsert := c.table.get?_insert t.key t
    rw [addTypes_cons_eq_ok_iff, ih, List.map_cons, List.nodup_cons, List.forall_mem_cons]
    constructor
    · rintro ⟨hnone, hnodup, hfree, hget⟩
      have hfresh : t.key ∉ types.map (·.key) := by
        intro hmem
        obtain ⟨t', ht', heq⟩ := List.mem_map.mp hmem
        have hnone' := hfree t' ht'
        rw [hinsert, if_pos heq.symm] at hnone'
        cases hnone'
      refine ⟨⟨hfresh, hnodup⟩, ⟨hnone, ?_⟩, ?_⟩
      · intro t' ht'
        have hne : t.key ≠ t'.key := fun heq => hfresh (List.mem_map.mpr ⟨t', ht', heq.symm⟩)
        have hnone' := hfree t' ht'
        rw [hinsert, if_neg hne] at hnone'
        exact hnone'
      · intro key
        rw [hget, firstOf_or_get?_insert hfresh]
    · rintro ⟨⟨hfresh, hnodup⟩, ⟨hnone, hfree⟩, hget⟩
      refine ⟨hnone, hnodup, ?_, ?_⟩
      · intro t' ht'
        have hne : t.key ≠ t'.key := fun heq => hfresh (List.mem_map.mpr ⟨t', ht', heq.symm⟩)
        rw [hinsert, if_neg hne]
        exact hfree t' ht'
      · intro key
        rw [hget, firstOf_or_get?_insert hfresh]

theorem ofTypes_eq_ok_iff {c : Catalog} {types : List TypeDoc} : ofTypes types = .ok c ↔
    (types.map (·.key)).Nodup ∧ ∀ key, c.table.get? key = firstOf key types := by
  rw [ofTypes, addTypes_eq_ok_iff]
  constructor
  · rintro ⟨hnodup, -, hget⟩
    exact ⟨hnodup, fun key => (hget key).trans Option.or_none⟩
  · rintro ⟨hnodup, hget⟩
    exact ⟨hnodup, fun _ _ => rfl, fun key => (hget key).trans Option.or_none.symm⟩

/-! ## Types under their own keys -/

/-- Every type stands under its own key. -/
def IsKeyed (c : Catalog) : Prop := ∀ key t, c.table.get? key = some t → t.key = key

theorem isKeyed_empty : IsKeyed empty := nofun

theorem isKeyed_of_ofTypes {c : Catalog} {types : List TypeDoc} (h : ofTypes types = .ok c) :
    c.IsKeyed := by
  obtain ⟨hnodup, hget⟩ := ofTypes_eq_ok_iff.mp h
  intro key t ht
  rw [hget] at ht
  exact ((firstOf_eq_some_iff hnodup).mp ht).2

/-- A catalog with a type written under its key. -/
def withType (c : Catalog) (t : TypeDoc) : Catalog := ⟨c.table.insert t.key t⟩

theorem IsKeyed.withType {c : Catalog} (h : c.IsKeyed) (t : TypeDoc) : (c.withType t).IsKeyed := by
  intro key u hu
  rw [Catalog.withType, KeyTable.get?_insert] at hu
  split at hu
  · next hkey =>
    cases hu
    exact hkey
  · exact h key u hu

/-- The catalog of one type. -/
def ofType (t : TypeDoc) : Catalog := ⟨KeyTable.empty.insert t.key t⟩

theorem isKeyed_ofType (t : TypeDoc) : (ofType t).IsKeyed := isKeyed_empty.withType t

theorem IsKeyed.map_key_types {c : Catalog} (h : c.IsKeyed) :
    c.types.map (·.key) = c.table.keys := by
  rw [types, KeyTable.values, KeyTable.keys, List.map_map]
  refine List.map_congr_left fun e he => ?_
  exact h e.1 e.2 (KeyTable.get?_eq_some_iff.mpr he)

theorem IsKeyed.firstOf_types {c : Catalog} (h : c.IsKeyed) (key : String) :
    firstOf key c.types = c.table.get? key := by
  have hnodup : (c.types.map (·.key)).Nodup := by
    rw [h.map_key_types]
    exact c.table.nodup_keys
  cases hget : c.table.get? key with
  | none =>
    refine firstOf_eq_none_iff.mpr fun t ht heq => ?_
    obtain ⟨key', hkey'⟩ := KeyTable.mem_values_iff.mp ht
    rw [← h key' t hkey', heq, hget] at hkey'
    cases hkey'
  | some t =>
    exact (firstOf_eq_some_iff hnodup).mpr ⟨KeyTable.mem_values_iff.mpr ⟨key, hget⟩, h key t hget⟩

theorem IsKeyed.exists_mem_types_iff {c : Catalog} (h : c.IsKeyed) {key : String} :
    (∃ t ∈ c.types, t.key = key) ↔ (c.table.get? key).isSome := by
  constructor
  · rintro ⟨t, ht, rfl⟩
    obtain ⟨key, hkey⟩ := KeyTable.mem_values_iff.mp ht
    rw [h key t hkey, hkey]
    rfl
  · intro hsome
    obtain ⟨t, ht⟩ := Option.isSome_iff_exists.mp hsome
    exact ⟨t, KeyTable.mem_values_iff.mpr ⟨key, ht⟩, h key t ht⟩

/-- The catalogs whose types stand under their own keys are those that are made of types. -/
theorem isKeyed_iff_ofTypes {c : Catalog} : c.IsKeyed ↔ ∃ types, ofTypes types = .ok c := by
  constructor
  · intro h
    refine ⟨c.types, ofTypes_eq_ok_iff.mpr ⟨?_, fun key => (h.firstOf_types key).symm⟩⟩
    rw [h.map_key_types]
    exact c.table.nodup_keys
  · rintro ⟨types, h⟩
    exact isKeyed_of_ofTypes h

end Catalog

end ApiDocs
