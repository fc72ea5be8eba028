import Mathlib
import ApiDocs.Proofs.Catalog.Listing
import ApiDocs.Proofs.Catalog.OuterJoin

/-!
# The counts of a merge

A merge counts while it goes through the structural types, and what it counts are the sizes of the
parts of which its result is made.

* `MergeContext.Counts`: what the counts stand at after some types; one type more
  (`MergeContext.Counts.mergeType`) and any number of types more (`MergeContext.Counts.mergeTypes`);
* `TypeDoc.memberCount_merge`, `Catalog.memberCount_mergedTypes`: the members of what is merged;
* `Catalog.newPlaces`: the places of the members that documentation adds to structural types;
* `Catalog.exists_tally`: the counts at the end of a merge, and the entry about them in the log.
-/

namespace ApiDocs

/-! ## Counting -/

namespace MergeContext

/-- The members that documentation adds to a type. -/
def addedMembers (documentation : Catalog) (t : TypeDoc) : List AnyMember :=
  match documentation.find? t.identifier with
  | some d => t.unmatched d
  | none => []

/-- The counts stand at what is found in some structural types. -/
structure Counts (ctx : MergeContext) (types : List TypeDoc) : Prop where
  matched : ctx.matched = types.countP fun t => ctx.documentation.contains t.identifier
  structuralOnly : ctx.structuralOnly = types.countP fun t => !ctx.documentation.contains t.identifier
  unmatchedMembers : ctx.unmatchedMembers =
    (types.map fun t => (addedMembers ctx.documentation t).length).sum

theorem counts_nil (documentation : Catalog) : Counts { documentation } [] := ⟨rfl, rfl, rfl⟩

variable {ctx ctx' : MergeContext} {types : List TypeDoc}

/-- One structural type more. -/
theorem Counts.mergeType {t t' : TypeDoc} (h : ctx.Counts types)
    (hstep : (ctx.mergeType t).outcome = .ok (t', ctx')) :
    ctx'.documentation = ctx.documentation ∧ ctx'.Counts (types ++ [t]) := by
  obtain ⟨hmatched, hstructural, hmembers⟩ := h
  rw [MergeContext.mergeType, claim] at hstep
  cases hfind : ctx.documentation.find? t.identifier with
  | none =>
    rw [hfind] at hstep
    cases hstep
    refine ⟨rfl, ?_, ?_, ?_⟩
    · simp [hmatched, Catalog.contains, hfind]
    · simp [hstructural, Catalog.contains, hfind]
    · simp [hmembers, addedMembers, hfind]
  | some d =>
    rw [hfind] at hstep
    cases hstep
    refine ⟨rfl, ?_, ?_, ?_⟩
    · simp [hmatched, Catalog.contains, hfind]
    · simp [hstructural, Catalog.contains, hfind]
    · simp [hmembers, addedMembers, hfind]

/-- Any number of structural types more. -/
theorem Counts.mergeTypes {more merged : List TypeDoc} (h : ctx.Counts types)
    (hrun : (ctx.mergeTypes more).outcome = .ok (merged, ctx')) :
    ctx'.documentation = ctx.documentation ∧ ctx'.Counts (types ++ more) := by
  induction more generalizing ctx types merged with
  | nil =>
    cases hrun
    rw [List.append_nil]
    exact ⟨rfl, h⟩
  | cons t more ih =>
    rw [MergeContext.mergeTypes, Logged.bind_eq_ok_iff] at hrun
    obtain ⟨⟨t', ctx₁⟩, hstep, hrun⟩ := hrun
    rw [Logged.bind_eq_ok_iff] at hrun
    obtain ⟨⟨merged', ctx₂⟩, hrest, hrun⟩ := hrun
    cases hrun
    obtain ⟨hdoc, hcounts⟩ := h.mergeType hstep
    obtain ⟨hdoc', hcounts'⟩ := ih hcounts hrest
    rw [List.append_assoc, List.singleton_append] at hcounts'
    exact ⟨hdoc'.trans hdoc, hcounts'⟩

end MergeContext

/-! ## Members -/

/-- A merge adds the members that have no counterpart. -/
theorem TypeDoc.memberCount_merge (s d : TypeDoc) :
    (s.merge d).memberCount = s.memberCount + (s.unmatched d).length := by
  simp only [memberCount, MemberTables.size, unmatched, merge, MemberTables.get_ofFn,
    KeyTable.size_outerJoin, MemberClass.all, List.foldr_cons, List.foldr_nil, List.flatMap_cons,
    List.flatMap_nil, List.length_append, List.length_map, List.length_nil]
  omega

theorem MergeContext.memberCount_documentedType (documentation : Catalog) (t : TypeDoc) :
    (documentedType documentation t).memberCount =
      t.memberCount + (addedMembers documentation t).length := by
  have hfind : documentation.find? t.identifier = documentation.table.get? t.key := rfl
  rw [documentedType, addedMembers, hfind]
  cases documentation.table.get? t.key with
  | none => rfl
  | some d => exact t.memberCount_merge d

namespace Catalog

open MergeContext

theorem memberCount_eq_sum (c : Catalog) : c.memberCount = (c.types.map (·.memberCount)).sum := by
  rw [memberCount, List.sum_eq_foldr, List.foldr_map]

/-! ### Places -/

/-- The places of the members that have no counterpart in a structural type, whose key is `owner`. -/
def unmatchedPlaces (owner : String) (s d : TypeDoc) : List Place :=
  MemberClass.all.flatMap fun cls =>
    ((d.members.get cls).entries.filter fun e => !(s.members.get cls).contains e.1).map
      fun e => .member cls owner e.1

theorem length_unmatchedPlaces (owner : String) (s d : TypeDoc) :
    (unmatchedPlaces owner s d).length = (s.unmatched d).length := by
  simp only [unmatchedPlaces, TypeDoc.unmatched, List.length_flatMap, List.length_map]

theorem mem_unmatchedPlaces_iff {owner : String} {s d : TypeDoc} {place : Place} :
    place ∈ unmatchedPlaces owner s d ↔ ∃ cls key, place = .member cls owner key ∧
      (d.member? cls key).isSome ∧ s.member? cls key = none := by
  simp only [unmatchedPlaces, List.mem_flatMap, List.mem_map, List.mem_filter, MemberClass.mem_all,
    true_and]
  refine exists_congr fun cls => ⟨?_, ?_⟩
  · rintro ⟨⟨key, m⟩, ⟨hmem, hnone⟩, rfl⟩
    refine ⟨key, rfl, ?_, ?_⟩
    · rw [TypeDoc.member?, KeyTable.get?_eq_some_iff.mpr hmem]
      rfl
    · simpa [TypeDoc.member?, KeyTable.contains] using hnone
  · rintro ⟨key, rfl, hsome, hnone⟩
    rw [TypeDoc.member?, Option.isSome_map, Option.isSome_iff_exists] at hsome
    obtain ⟨m, hm⟩ := hsome
    refine ⟨(key, m), ⟨KeyTable.get?_eq_some_iff.mp hm, ?_⟩, rfl⟩
    simpa [TypeDoc.member?, KeyTable.contains] using hnone

theorem nodup_unmatchedPlaces (owner : String) (s d : TypeDoc) :
    (unmatchedPlaces owner s d).Nodup := by
  refine List.nodup_flatMap.mpr ⟨fun cls _ => ?_, ?_⟩
  · have hkeys := (d.members.get cls).nodup_keys
    refine ((List.pairwise_map.mp hkeys).filter _).map _ fun e e' hne heq => hne ?_
    exact (Place.member.inj heq).2.2
  · refine MemberClass.nodup_all.imp fun hne place hplace hplace' => hne ?_
    obtain ⟨e, -, rfl⟩ := List.mem_map.mp hplace
    obtain ⟨e', -, heq⟩ := List.mem_map.mp hplace'
    exact (Place.member.inj heq).1.symm

/-- Documentation has a member at a place, in a type that structure has without that member. -/
def AddsMemberAt (structural documentation : Catalog) : Place → Prop
  | .type _ => False
  | .member cls owner key => (structural.entityAt (.type owner)).isSome ∧
    (documentation.entityAt (.member cls owner key)).isSome ∧
    structural.entityAt (.member cls owner key) = none

/-- The places of the members that documentation adds to structural types. -/
def newPlaces (structural documentation : Catalog) : List Place :=
  structural.table.entries.flatMap fun e =>
    match documentation.table.get? e.1 with
    | some d => unmatchedPlaces e.1 e.2 d
    | none => []

theorem mem_newPlaces_iff {structural documentation : Catalog} {place : Place} :
    place ∈ structural.newPlaces documentation ↔ structural.AddsMemberAt documentation place := by
  rw [newPlaces, List.mem_flatMap]
  constructor
  · rintro ⟨⟨owner, s⟩, hmem, hplace⟩
    have hs := KeyTable.get?_eq_some_iff.mpr hmem
    cases hd : documentation.table.get? owner with
    | none => simp [hd] at hplace
    | some d =>
      rw [hd] at hplace
      obtain ⟨cls, key, rfl, hsome, hnone⟩ := mem_unmatchedPlaces_iff.mp hplace
      simp [AddsMemberAt, entityAt, hs, hd, hsome, hnone]
  · intro h
    cases place with
    | type key => cases h
    | member cls owner key =>
      obtain ⟨htype, hsome, hnone⟩ := h
      simp only [entityAt, Option.isSome_map, Option.isSome_iff_exists] at htype
      obtain ⟨s, hs⟩ := htype
      cases hd : documentation.table.get? owner with
      | none => simp [entityAt, hd] at hsome
      | some d =>
        rw [entityAt, hd, Option.bind_some] at hsome
        rw [entityAt, hs, Option.bind_some] at hnone
        refine ⟨(owner, s), KeyTable.get?_eq_some_iff.mp hs, ?_⟩
        rw [hd]
        exact mem_unmatchedPlaces_iff.mpr ⟨cls, key, rfl, hsome, hnone⟩

theorem nodup_newPlaces (structural documentation : Catalog) :
    (structural.newPlaces documentation).Nodup := by
  refine List.nodup_flatMap.mpr ⟨fun e _ => ?_, ?_⟩
  · cases documentation.table.get? e.1 with
    | none => exact List.nodup_nil
    | some d => exact nodup_unmatchedPlaces e.1 e.2 d
  · have howner : ∀ (e : String × TypeDoc) (place : Place),
        place ∈ (match documentation.table.get? e.1 with
          | some d => unmatchedPlaces e.1 e.2 d
          | none => []) → place.typeKey = e.1 := by
      intro e place hplace
      cases hd : documentation.table.get? e.1 with
      | none => simp [hd] at hplace
      | some d =>
        rw [hd] at hplace
        obtain ⟨cls, key, rfl, -⟩ := mem_unmatchedPlaces_iff.mp hplace
        rfl
    have hkeys := structural.table.nodup_keys
    refine (List.pairwise_map.mp hkeys).imp fun {e e'} hne place hplace hplace' => hne ?_
    exact (howner e place hplace).symm.trans (howner e' place hplace')

theorem length_newPlaces {structural : Catalog} (h : structural.IsKeyed) (documentation : Catalog) :
    (structural.newPlaces documentation).length =
      (structural.types.map fun t => (addedMembers documentation t).length).sum := by
  rw [newPlaces, List.length_flatMap, types, KeyTable.values, List.map_map]
  refine congrArg List.sum (List.map_congr_left fun e he => ?_)
  have hfind : documentation.find? e.2.identifier = documentation.table.get? e.1 := by
    rw [← h e.1 e.2 (KeyTable.get?_eq_some_iff.mpr he)]
    rfl
  rw [Function.comp_apply, addedMembers, hfind]
  cases documentation.table.get? e.1 with
  | none => rfl
  | some d => exact length_unmatchedPlaces e.1 e.2 d

/-! ## The end of a merge -/

/-- What the counts at the end of a merge say about its result and the catalogs it is made of. -/
structure IsTally (structural documentation merged : Catalog) (ctx : MergeContext) : Prop where
  ofStructural : ctx.matched + ctx.structuralOnly = structural.size
  ofDocumentation : ctx.matched + ctx.documentationOnly = documentation.size
  total : merged.size = ctx.matched + ctx.structuralOnly + ctx.documentationOnly
  members : merged.memberCount = structural.memberCount + ctx.unmatchedMembers +
    ((documentation.types.filter fun t => !structural.contains t.identifier).map (·.memberCount)).sum
  unmatched : {place | structural.AddsMemberAt documentation place}.encard = ctx.unmatchedMembers

section
variable {structural documentation : Catalog} {types : List TypeDoc} {ctx : MergeContext}

theorem mergedTypes_counts (h : structural.IsKeyed)
    (hrun : (mergedTypes structural documentation).outcome = .ok (types, ctx)) :
    types = structural.types.map (documentedType documentation) ++
        addedTypes structural documentation ∧
      ctx.documentation = documentation ∧ ctx.Counts structural.types ∧
      ctx.documentationOnly = (addedTypes structural documentation).length := by
  obtain ⟨ctx', hctx'⟩ := mergedTypes_outcome h documentation
  rw [hctx', Except.ok.injEq, Prod.mk.injEq] at hrun
  obtain ⟨rfl, rfl⟩ := hrun
  refine ⟨rfl, ?_⟩
  obtain ⟨ctx₁, htypes, -, -⟩ := MergeContext.mergeTypes_outcome { documentation } structural.types
  obtain ⟨hdoc, hcounts⟩ := (counts_nil documentation).mergeTypes htypes
  rw [mergedTypes, Logged.outcome_bind, htypes] at hctx'
  have heq : (structural.types.map (documentedType documentation) ++ ctx₁.leftovers,
      { ctx₁ with documentationOnly := ctx₁.leftovers.length }) =
        (structural.types.map (documentedType documentation) ++
          addedTypes structural documentation, ctx') := Except.ok.inj hctx'
  rw [Prod.mk.injEq, List.append_cancel_left_eq] at heq
  obtain ⟨hleft, rfl⟩ := heq
  exact ⟨hdoc, ⟨hcounts.matched, hcounts.structuralOnly, hcounts.unmatchedMembers⟩,
    congrArg List.length hleft⟩

/-- The types that documentation adds are those whose identifiers structure does not have. -/
theorem addedTypes_eq_filter (h : documentation.IsKeyed) (structural : Catalog) :
    addedTypes structural documentation =
      documentation.types.filter fun t => !structural.contains t.identifier := by
  rw [addedTypes, types, KeyTable.values, List.filter_map]
  refine congrArg (List.map _) (List.filter_congr fun e he => ?_)
  have hfind : structural.find? e.2.identifier = structural.table.get? e.1 := by
    rw [← h e.1 e.2 (KeyTable.get?_eq_some_iff.mpr he)]
    rfl
  rw [Function.comp_apply, contains, hfind, Option.not_isSome]

/-- The types that two catalogs share are as many in the one as in the other. -/
theorem countP_contains_comm (hs : structural.IsKeyed) (hd : documentation.IsKeyed) :
    (structural.types.countP fun t => documentation.contains t.identifier) =
      documentation.types.countP fun t => structural.contains t.identifier := by
  have hkeys := structural.table.countP_contains_comm documentation.table
  rw [← hs.map_key_types, ← hd.map_key_types, List.countP_map, List.countP_map] at hkeys
  exact hkeys

theorem countP_add_countP_not (p : TypeDoc → Bool) (types : List TypeDoc) :
    types.countP p + (types.countP fun t => !p t) = types.length := by
  rw [types.length_eq_countP_add_countP p]
  simp only [Bool.not_eq_true, Bool.decide_eq_false]

theorem length_types (c : Catalog) : c.types.length = c.size := List.length_map _

theorem memberCount_mergedTypes (structural documentation : Catalog) :
    ((structural.types.map (documentedType documentation) ++
        addedTypes structural documentation).map (·.memberCount)).sum =
      structural.memberCount +
        (structural.types.map fun t => (addedMembers documentation t).length).sum +
        ((addedTypes structural documentation).map (·.memberCount)).sum := by
  have hmerged : structural.types.map ((·.memberCount) ∘ documentedType documentation) =
      structural.types.map fun t => t.memberCount + (addedMembers documentation t).length :=
    List.map_congr_left fun t _ => memberCount_documentedType documentation t
  rw [List.map_append, List.sum_append, List.map_map, hmerged, List.sum_map_add,
    memberCount_eq_sum]

theorem isTally_of_mergedTypes (hs : structural.IsKeyed) (hd : documentation.IsKeyed)
    {merged : Catalog} (hrun : (mergedTypes structural documentation).outcome = .ok (types, ctx))
    (hcollect : ofTypes types = .ok merged) : structural.IsTally documentation merged ctx := by
  obtain ⟨htypes, hdoc, ⟨hmatched, hstructural, hmembers⟩, hadded⟩ := mergedTypes_counts hs hrun
  rw [hdoc] at hmatched hstructural hmembers
  have hlist := (isListing_of_ofTypes hcollect).perm
  have haddedTypes := addedTypes_eq_filter hd structural
  have hofStructural : ctx.matched + ctx.structuralOnly = structural.size := by
    rw [hmatched, hstructural, countP_add_countP_not, length_types]
  refine ⟨hofStructural, ?_, ?_, ?_, ?_⟩
  · rw [hmatched, countP_contains_comm hs hd, hadded, haddedTypes, ← List.countP_eq_length_filter,
      countP_add_countP_not, length_types]
  · rw [hofStructural, hadded, ← length_types, hlist.length_eq, htypes, List.length_append,
      List.length_map, length_types]
  · rw [memberCount_eq_sum, (hlist.map _).sum_eq, htypes, memberCount_mergedTypes, hmembers,
      haddedTypes]
  · have hset : {place | structural.AddsMemberAt documentation place} =
        ((structural.newPlaces documentation).toFinset : Set Place) := by
      ext place
      simp only [Set.mem_ofPred_eq, List.coe_toFinset, mem_newPlaces_iff]
    rw [hset, Set.encard_coe_eq_coe_finsetCard,
      List.toFinset_card_of_nodup (nodup_newPlaces structural documentation),
      length_newPlaces hs, hmembers]

/-- A merge of catalogs that are made of types ends with counts that add up, and with an entry about
them in the log. -/
theorem exists_tally (hs : structural.IsKeyed) (hd : documentation.IsKeyed) :
    ∃ types ctx merged, (mergedTypes structural documentation).outcome = .ok (types, ctx) ∧
      (structural.merge documentation).outcome = .ok merged ∧
      structural.IsTally documentation merged ctx ∧
      (structural.merge documentation).log.getLast? = some (.merged merged.size ctx.matched
        ctx.structuralOnly ctx.documentationOnly ctx.unmatchedMembers) := by
  obtain ⟨ctx, hrun⟩ := mergedTypes_outcome hs documentation
  have hmerge := merge_outcome hs hd
  have hcollect := hmerge
  rw [merge, Logged.outcome_bind, hrun] at hcollect
  refine ⟨_, ctx, _, hrun, hmerge, isTally_of_mergedTypes hs hd hrun hcollect, ?_⟩
  have hsize := (isListing_of_ofTypes hcollect).perm.length_eq
  rw [merge, Logged.log_bind hrun, List.getLast?_append, ← length_types, hsize]
  rfl

/-- Each side has a type of its own, and a method of its own in the type that both have. -/
theorem exists_tally_of_overlap :
    ∃ types ctx merged,
      (mergedTypes (pairOfTypes ["f", "g"] "B") (pairOfTypes ["f", "h"] "C")).outcome =
        .ok (types, ctx) ∧
      ((pairOfTypes ["f", "g"] "B").merge (pairOfTypes ["f", "h"] "C")).outcome = .ok merged ∧
      (pairOfTypes ["f", "g"] "B").IsTally (pairOfTypes ["f", "h"] "C") merged ctx ∧
      ((pairOfTypes ["f", "g"] "B").merge (pairOfTypes ["f", "h"] "C")).log.getLast? =
        some (.merged merged.size ctx.matched ctx.structuralOnly ctx.documentationOnly
          ctx.unmatchedMembers) :=
  exists_tally (isKeyed_pairOfTypes _ _) (isKeyed_pairOfTypes _ _)

end

end Catalog

end ApiDocs
