import ApiDocs.Catalog.Merge
import ApiDocs.Proofs.Catalog.Keyed
import ApiDocs.Proofs.Entity.Merge

/-!
# Merging catalogs

A merge goes through the structural types, claims the documented type of each, and lets the documented
types that nobody claimed follow.  On catalogs that are made of types this is a join of the two
tables, so whatever joins do merges do as well.

* `Catalog.merge_outcome`: a merge succeeds and is the join of the tables;
* `Catalog.merge_assoc_and_empty`: merging associates, and the empty catalog adds nothing on either
  side;
* `Catalog.outcome_merge_self`: a catalog adds nothing to itself.
-/

namespace ApiDocs

namespace MergeContext

/-- A structural type with its documentation, if there is some. -/
def documentedType (documentation : Catalog) (t : TypeDoc) : TypeDoc :=
  match documentation.table.get? t.key with
  | some d => t.merge d
  | none => t

theorem key_documentedType (documentation : Catalog) (t : TypeDoc) :
    (documentedType documentation t).key = t.key := by
  rw [documentedType]
  split <;> rfl

/-- What one structural type does to a merge. -/
theorem mergeType_outcome (ctx : MergeContext) (t : TypeDoc) : ∃ ctx',
    (ctx.mergeType t).outcome = .ok (documentedType ctx.documentation t, ctx') ∧
    ctx'.documentation = ctx.documentation ∧
    ∀ key, key ∈ ctx'.applied ↔ key ∈ ctx.applied ∨
      (t.key = key ∧ (ctx.documentation.table.get? key).isSome) := by
  have hfind : ctx.documentation.find? t.identifier = ctx.documentation.table.get? t.key := rfl
  rw [mergeType, claim, hfind, documentedType]
  cases hget : ctx.documentation.table.get? t.key with
  | none =>
    refine ⟨_, rfl, rfl, fun key => ⟨.inl, ?_⟩⟩
    rintro (h | ⟨rfl, h⟩)
    · exact h
    · rw [hget] at h
      cases h
  | some d =>
    refine ⟨_, rfl, rfl, fun key => ?_⟩
    show key ∈ t.key :: ctx.applied.erase t.key ↔ _
    rw [List.mem_cons]
    by_cases h : key = t.key
    · subst h
      exact ⟨fun _ => .inr ⟨rfl, by rw [hget]; rfl⟩, fun _ => .inl rfl⟩
    · rw [List.mem_erase_of_ne h]
      exact ⟨fun hmem => .inl (hmem.resolve_left h),
        fun hmem => .inr (hmem.resolve_right fun heq => h heq.1.symm)⟩

/-- What the structural types do to a merge one after another. -/
theorem mergeTypes_outcome (ctx : MergeContext) (types : List TypeDoc) : ∃ ctx',
    (ctx.mergeTypes types).outcome = .ok (types.map (documentedType ctx.documentation), ctx') ∧
    ctx'.documentation = ctx.documentation ∧
    ∀ key, key ∈ ctx'.applied ↔ key ∈ ctx.applied ∨
      ((∃ t ∈ types, t.key = key) ∧ (ctx.documentation.table.get? key).isSome) := by
  induction types generalizing ctx with
  | nil =>
    refine ⟨ctx, rfl, rfl, fun key => ⟨.inl, ?_⟩⟩
    rintro (h | ⟨⟨t, ht, -⟩, -⟩)
    · exact h
    · cases ht
  | cons t types ih =>
    obtain ⟨ctx₁, hstep, hdoc₁, happlied₁⟩ := ctx.mergeType_outcome t
    obtain ⟨ctx₂, hrest, hdoc₂, happlied₂⟩ := ih ctx₁
    rw [hdoc₁] at hrest hdoc₂ happlied₂
    refine ⟨ctx₂, ?_, hdoc₂, fun key => ?_⟩
    · rw [mergeTypes, Logged.outcome_bind, hstep]
      show (ctx₁.mergeTypes types >>= _).outcome = _
      rw [Logged.outcome_bind, hrest]
      rfl
    · have hcons : (∃ t' ∈ t :: types, t'.key = key) ↔
          t.key = key ∨ ∃ t' ∈ types, t'.key = key := by
        simp only [List.mem_cons, exists_eq_or_imp]
      rw [happlied₂, happlied₁, hcons, or_and_right, or_assoc]

end MergeContext

namespace Catalog

open MergeContext

/-- The types that documentation adds. -/
def addedTypes (structural documentation : Catalog) : List TypeDoc :=
  (documentation.table.entries.filter fun e => (structural.table.get? e.1).isNone).map (·.2)

/-- What a merge makes of two catalogs before it collects it. -/
theorem mergedTypes_outcome {structural : Catalog} (h : structural.IsKeyed)
    (documentation : Catalog) :
    ∃ ctx, (mergedTypes structural documentation).outcome =
      .ok (structural.types.map (documentedType documentation) ++
        addedTypes structural documentation, ctx) := by
  obtain ⟨ctx, htypes, hdoc, happlied⟩ :=
    MergeContext.mergeTypes_outcome { documentation } structural.types
  have hleft : ctx.leftovers = addedTypes structural documentation := by
    rw [leftovers, hdoc, addedTypes]
    refine congrArg _ (List.filter_congr fun e he => ?_)
    have hsome : (documentation.table.get? e.1).isSome := by
      rw [KeyTable.get?_eq_some_iff.mpr he]
      rfl
    rw [Bool.eq_iff_iff, Bool.not_eq_true', ← Bool.not_eq_true, List.contains_iff_mem, happlied,
      h.exists_mem_types_iff]
    simp only [List.not_mem_nil, false_or, hsome, and_true, Option.isNone_iff_eq_none,
      Option.not_isSome_iff_eq_none]
  refine ⟨{ ctx with documentationOnly := (addedTypes structural documentation).length }, ?_⟩
  rw [mergedTypes, Logged.outcome_bind, htypes]
  show Except.ok (_ ++ ctx.leftovers, _) = _
  rw [hleft]

theorem mem_addedTypes_iff {structural documentation : Catalog} {t : TypeDoc} :
    t ∈ addedTypes structural documentation ↔ ∃ key, documentation.table.get? key = some t ∧
      structural.table.get? key = none := by
  rw [addedTypes, List.mem_map]
  constructor
  · rintro ⟨⟨key, t⟩, hmem, rfl⟩
    obtain ⟨hmem, hnone⟩ := List.mem_filter.mp hmem
    exact ⟨key, KeyTable.get?_eq_some_iff.mpr hmem, Option.isNone_iff_eq_none.mp hnone⟩
  · rintro ⟨key, hget, hnone⟩
    exact ⟨(key, t), List.mem_filter.mpr
      ⟨KeyTable.get?_eq_some_iff.mp hget, Option.isNone_iff_eq_none.mpr hnone⟩, rfl⟩

theorem nodup_map_key_mergedTypes {structural documentation : Catalog} (h : structural.IsKeyed)
    (h' : documentation.IsKeyed) : ((structural.types.map (documentedType documentation) ++
      addedTypes structural documentation).map (·.key)).Nodup := by
  have hfront : (structural.types.map (documentedType documentation)).map (·.key) =
      structural.table.keys := by
    rw [List.map_map, ← h.map_key_types]
    exact List.map_congr_left fun t _ => key_documentedType documentation t
  have hback : ((addedTypes structural documentation).map (·.key)).Nodup := by
    have hsub : ((addedTypes structural documentation).map (·.key)).Sublist
        (documentation.types.map (·.key)) :=
      (List.filter_sublist.map _).map _
    rw [h'.map_key_types] at hsub
    exact hsub.nodup documentation.table.nodup_keys
  rw [List.map_append, hfront, List.nodup_append]
  refine ⟨structural.table.nodup_keys, hback, fun key hkey key' hkey' heq => ?_⟩
  subst heq
  obtain ⟨t, ht, rfl⟩ := List.mem_map.mp hkey'
  obtain ⟨key, hget, hnone⟩ := mem_addedTypes_iff.mp ht
  rw [h' key t hget] at hkey
  obtain ⟨e, he, rfl⟩ := List.mem_map.mp hkey
  rw [KeyTable.get?_eq_some_iff.mpr he] at hnone
  cases hnone

/-- A merge of catalogs that are made of types succeeds and is the join of their tables. -/
theorem merge_outcome {structural documentation : Catalog} (h : structural.IsKeyed)
    (h' : documentation.IsKeyed) : (structural.merge documentation).outcome =
      .ok ⟨structural.table.outerJoin TypeDoc.merge documentation.table⟩ := by
  obtain ⟨ctx, hmerged⟩ := mergedTypes_outcome h documentation
  have hnodup := nodup_map_key_mergedTypes h h'
  have hcollect : ofTypes (structural.types.map (documentedType documentation) ++
      addedTypes structural documentation) =
        .ok ⟨structural.table.outerJoin TypeDoc.merge documentation.table⟩ := by
    refine ofTypes_eq_ok_iff.mpr ⟨hnodup, fun key => ?_⟩
    rw [KeyTable.get?_outerJoin]
    cases hs : structural.table.get? key with
    | some t =>
      have hkey := h key t hs
      have hmem : documentedType documentation t ∈
          structural.types.map (documentedType documentation) ++
            addedTypes structural documentation :=
        List.mem_append_left _ (List.mem_map.mpr ⟨t, KeyTable.mem_values_iff.mpr ⟨key, hs⟩, rfl⟩)
      rw [(firstOf_eq_some_iff hnodup).mpr
        ⟨hmem, (key_documentedType documentation t).trans hkey⟩, documentedType, hkey]
      cases documentation.table.get? key <;> rfl
    | none =>
      cases hd : documentation.table.get? key with
      | some d =>
        have hmem : d ∈ structural.types.map (documentedType documentation) ++
            addedTypes structural documentation :=
          List.mem_append_right _ (mem_addedTypes_iff.mpr ⟨key, hd, hs⟩)
        exact ((firstOf_eq_some_iff hnodup).mpr ⟨hmem, h' key d hd⟩).symm
      | none =>
        refine (firstOf_eq_none_iff.mpr fun t ht heq => ?_).symm
        rcases List.mem_append.mp ht with ht | ht
        · obtain ⟨s, hmem, rfl⟩ := List.mem_map.mp ht
          rw [key_documentedType] at heq
          have hsome := h.exists_mem_types_iff.mp ⟨s, hmem, heq⟩
          rw [hs] at hsome
          cases hsome
        · obtain ⟨key', hget, -⟩ := mem_addedTypes_iff.mp ht
          rw [← h' key' t hget, heq, hd] at hget
          cases hget
  rw [merge, Logged.outcome_bind, hmerged]
  exact hcollect

/-- What comes of a merge is made of types again. -/
theorem isKeyed_of_merge {structural documentation merged : Catalog} (h : structural.IsKeyed)
    (h' : documentation.IsKeyed) (hmerge : (structural.merge documentation).outcome = .ok merged) :
    merged.IsKeyed := by
  rw [merge_outcome h h'] at hmerge
  cases hmerge
  intro key t ht
  rw [KeyTable.get?_outerJoin] at ht
  cases hs : structural.table.get? key with
  | some s =>
    rw [hs] at ht
    cases hd : documentation.table.get? key with
    | some d =>
      rw [hd] at ht
      cases ht
      exact h key s hs
    | none =>
      rw [hd] at ht
      cases ht
      exact h key t hs
  | none =>
    rw [hs] at ht
    exact h' key t ht

/-- Merging catalogs associates, and the empty catalog adds nothing on either side. -/
theorem merge_assoc_and_empty {a b c : Catalog} (ha : a.IsKeyed) (hb : b.IsKeyed)
    (hc : c.IsKeyed) :
    (∃ ab bc abc, (a.merge b).outcome = .ok ab ∧ (b.merge c).outcome = .ok bc ∧
      (ab.merge c).outcome = .ok abc ∧ (a.merge bc).outcome = .ok abc) ∧
    (a.merge .empty).outcome = .ok a ∧ (Catalog.empty.merge a).outcome = .ok a := by
  have hab := isKeyed_of_merge ha hb (merge_outcome ha hb)
  have hbc := isKeyed_of_merge hb hc (merge_outcome hb hc)
  refine ⟨⟨_, _, _, merge_outcome ha hb, merge_outcome hb hc, merge_outcome hab hc, ?_⟩, ?_, ?_⟩
  · rw [merge_outcome ha hbc, KeyTable.outerJoin_assoc TypeDoc.merge_assoc]
  · rw [merge_outcome ha isKeyed_empty, empty, KeyTable.outerJoin_empty]
  · rw [merge_outcome isKeyed_empty ha, empty, KeyTable.empty_outerJoin]

/-- A type `C` with a method `f` whose parameters are described under some names. -/
def describedType (names : List String) (description : String) : TypeDoc where
  identifier := { name := "C" }
  members := {
    methods := KeyTable.empty.insert "f" {
      identifier := { classPath := [⟨"C", [], .none⟩], name := "f" }
      detail := { parameters := names.map fun name => { name, description := some description } } } }

/-- Names that are repeated on either side, and names that structure does not know, do no harm. -/
theorem merge_assoc_and_empty_of_repeated_names :
    (∃ ab bc abc,
      ((ofType (describedType ["x", "x"] "a")).merge
        (ofType (describedType ["y", "x"] "b"))).outcome = .ok ab ∧
      ((ofType (describedType ["y", "x"] "b")).merge
        (ofType (describedType ["x", "y", "x"] "c"))).outcome = .ok bc ∧
      (ab.merge (ofType (describedType ["x", "y", "x"] "c"))).outcome = .ok abc ∧
      ((ofType (describedType ["x", "x"] "a")).merge bc).outcome = .ok abc) ∧
    ((ofType (describedType ["x", "x"] "a")).merge .empty).outcome =
      .ok (ofType (describedType ["x", "x"] "a")) ∧
    (Catalog.empty.merge (ofType (describedType ["x", "x"] "a"))).outcome =
      .ok (ofType (describedType ["x", "x"] "a")) :=
  merge_assoc_and_empty (isKeyed_ofType _) (isKeyed_ofType _) (isKeyed_ofType _)

/-- A catalog adds nothing to itself: everything in it stays as it is, in the same order, also where
names are repeated. -/
theorem outcome_merge_self {c : Catalog} (h : c.IsKeyed) : (c.merge c).outcome = .ok c := by
  rw [merge_outcome h h, KeyTable.outerJoin_self TypeDoc.merge_self]

/-- A type `C` whose generic parameter is described twice, with a method `f` of which two parameters
have no name. -/
def unnamedType : TypeDoc where
  identifier := { name := "C", typeParameters := ["T"], flags := .publicBit }
  exceptions := [{ cref := { name := "E" }, description := some "Thrown." }]
  typeParameters := [{ name := "T", description := some "first" }, { name := "T" }]
  members := {
    methods := KeyTable.empty.insert "f" {
      identifier := { classPath := [⟨"C", ["T"], .none⟩], name := "f", flags := .methodBit }
      detail := { parameters := [
        { name := "", kind := .outBit, description := some "first" },
        { name := "x", description := some "second" },
        { name := "", type := some (.mk [.mk "T" []] []), description := some "third" }] } } }

theorem outcome_merge_self_of_unnamed :
    ((ofType unnamedType).merge (ofType unnamedType)).outcome = .ok (ofType unnamedType) :=
  outcome_merge_self (isKeyed_ofType _)

end Catalog

end ApiDocs
