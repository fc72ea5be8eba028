import ApiDocs.Proofs.Entity.Signature

/-!
# Documentation describes, structure declares

What a merge by name does, position by position.  The structural entries stand in front; of those
that share a name only the last one is described, and of the documented entries of that name only the
last one describes it.  The documented entries of other names follow behind.

* `MergeByName.isDescribed_mergeByName`: this, for any way to describe an entry that forgets an
  earlier description;
* `Entity.merge_isDescribed`: what comes of two entities of one kind.
-/

namespace ApiDocs

namespace MergeByName

variable {α : Type} {nameOf : α → String} {combine describe : α → α → α}

/-- What documented entries make of structural ones by describing them. -/
structure IsDescribed (nameOf : α → String) (describe : α → α → α)
    (structural documented merged : List α) : Prop where
  /-- An entry stays as it is when a later one has its name, or no documented one has it. -/
  kept : ∀ i s, structural[i]? = some s →
    occurs nameOf (nameOf s) (structural.drop (i + 1)) = true ∨
      occurs nameOf (nameOf s) documented = false → merged[i]? = some s
  /-- The last entry of a name is described by the last documented entry of that name. -/
  described : ∀ i s d, structural[i]? = some s →
    occurs nameOf (nameOf s) (structural.drop (i + 1)) = false →
      (named nameOf (nameOf s) documented).getLast? = some d → merged[i]? = some (describe s d)
  /-- Behind them stand the documented entries of other names. -/
  behind : merged.drop structural.length =
    documented.filter fun d => !occurs nameOf (nameOf d) structural

theorem IsDescribed.congr {structural documented merged : List α}
    (h : IsDescribed nameOf combine structural documented merged)
    (heq : ∀ s d, nameOf s = nameOf d → combine s d = describe s d) :
    IsDescribed nameOf describe structural documented merged where
  kept := h.kept
  described := by
    intro i s d hs hlast hd
    rw [← heq s d (nameOf_of_mem_named d (List.mem_of_getLast? hd)).symm]
    exact h.described i s d hs hlast hd
  behind := h.behind

theorem length_absorb (ds xs : List α) : (absorb nameOf combine ds xs).length = xs.length := by
  induction xs with
  | nil => rfl
  | cons x xs ih => rw [absorb, List.length_cons, ih, List.length_cons]

/-- What has become of the entry at a position. -/
theorem getElem?_absorb (ds xs : List α) (i : Nat) : (absorb nameOf combine ds xs)[i]? =
    xs[i]?.map fun x => if occurs nameOf (nameOf x) (xs.drop (i + 1)) then x
      else (named nameOf (nameOf x) ds).foldl combine x := by
  induction xs generalizing i with
  | nil => rfl
  | cons x xs ih =>
    cases i with
    | zero => rfl
    | succ i => exact ih i

theorem isDescribed_mergeByName (hlast : ∀ s d e, combine (combine s d) e = combine s e)
    (xs ds : List α) :
    IsDescribed nameOf combine xs ds (mergeByName nameOf combine xs ds) := by
  have hfront : ∀ i s, xs[i]? = some s → (mergeByName nameOf combine xs ds)[i]? =
      some (if occurs nameOf (nameOf s) (xs.drop (i + 1)) then s
        else (named nameOf (nameOf s) ds).foldl combine s) := by
    intro i s hs
    obtain ⟨hi, -⟩ := List.getElem?_eq_some_iff.mp hs
    rw [mergeByName_eq_absorb, List.getElem?_append_left ((length_absorb ds xs).symm ▸ hi),
      getElem?_absorb, hs, Option.map_some]
  refine ⟨?_, ?_, ?_⟩
  · rintro i s hs (hlater | hnone)
    · rw [hfront i s hs, if_pos hlater]
    · rw [hfront i s hs, named_eq_nil hnone, List.foldl_nil, ite_self]
  · intro i s d hs hlater hd
    obtain ⟨front, hfrontEq⟩ := List.getLast?_eq_some_iff.mp hd
    rw [hfront i s hs, if_neg (Bool.eq_false_iff.mp hlater), hfrontEq,
      foldl_append_singleton hlast]
  · rw [mergeByName_eq_absorb]
    exact List.drop_left' (length_absorb ds xs)

end MergeByName

/-! ## Parameters -/

/-- Another description of a generic parameter. -/
def TypeParameterDoc.describe (s d : TypeParameterDoc) : TypeParameterDoc :=
  { s with description := d.description }

/-- Another description of a parameter. -/
def ParameterDoc.describe (s d : ParameterDoc) : ParameterDoc :=
  { s with description := d.description }

theorem TypeParameterDoc.isDescribed_merge (structural documented : List TypeParameterDoc) :
    MergeByName.IsDescribed name describe structural documented (merge structural documented) := by
  have h : MergeByName.IsDescribed name (fun _ d => d) structural documented
      (merge structural documented) :=
    @MergeByName.isDescribed_mergeByName TypeParameterDoc name (fun _ d => d) (fun _ _ _ => rfl)
      structural documented
  refine h.congr fun s d hname => ?_
  rw [describe, hname]

theorem ParameterDoc.isDescribed_merge (structural documented : List ParameterDoc) :
    MergeByName.IsDescribed name describe structural documented (merge structural documented) :=
  @MergeByName.isDescribed_mergeByName ParameterDoc name describe (fun _ _ _ => rfl)
    structural documented

/-! ## Entities -/

namespace Entity

/-- The generic parameters, which types and methods have. -/
def typeParameters? : Entity → Option (List TypeParameterDoc)
  | type t => some t.typeParameters
  | member ⟨.method, m⟩ => some m.detail.typeParameters
  | member _ => none

/-- What the documentation `d` makes of an entity `s`. -/
structure IsDescribed (s d e : Entity) : Prop where
  /-- The kind, the identifier with its flags and the flags of the accessors are those of `s`. -/
  keeps : s.Keeps e
  metadata : e.metadata = d.metadata.or s.metadata
  exceptions : e.exceptions = if d.exceptions = [] then s.exceptions else d.exceptions
  parameters : ∀ ps qs, s.parameters? = some ps → d.parameters? = some qs →
    ∃ rs, e.parameters? = some rs ∧
      MergeByName.IsDescribed ParameterDoc.name ParameterDoc.describe ps qs rs
  typeParameters : ∀ ps qs, s.typeParameters? = some ps → d.typeParameters? = some qs →
    ∃ rs, e.typeParameters? = some rs ∧
      MergeByName.IsDescribed TypeParameterDoc.name TypeParameterDoc.describe ps qs rs

theorem exists_merge_of_kind_eq {s d : Entity} (h : s.kind = d.kind) : ∃ e, s.merge d = .ok e := by
  cases s with
  | type s =>
    cases d with
    | type d => exact ⟨_, rfl⟩
    | member d =>
      obtain ⟨c, d⟩ := d
      cases c <;> cases h
  | member s =>
    obtain ⟨c, s⟩ := s
    cases d with
    | type d => cases c <;> cases h
    | member d =>
      obtain ⟨c', d⟩ := d
      obtain rfl : c = c' := Option.some_inj.mp <| by
        rw [← MemberClass.class?_kind c, ← MemberClass.class?_kind c']
        exact congrArg MemberKind.class? h
      exact ⟨_, merge_member s d⟩

theorem parameters_of_merge {s d e : Entity} (h : s.merge d = .ok e) {ps qs : List ParameterDoc}
    (hs : s.parameters? = some ps) (hd : d.parameters? = some qs) :
    e.parameters? = some (ParameterDoc.merge ps qs) := by
  rcases s with s | ⟨_ | _, s⟩ <;> cases hs
  rcases d with d | ⟨_ | _, d⟩ <;> cases hd
  cases h
  rfl

theorem typeParameters_of_merge {s d e : Entity} (h : s.merge d = .ok e)
    {ps qs : List TypeParameterDoc} (hs : s.typeParameters? = some ps)
    (hd : d.typeParameters? = some qs) :
    e.typeParameters? = some (TypeParameterDoc.merge ps qs) := by
  rcases s with s | ⟨_ | _, s⟩ <;> cases hs <;> rcases d with d | ⟨_ | _, d⟩ <;> cases hd <;>
    cases h <;> rfl

/-- Entities of one kind are merged: documentation describes, structure declares. -/
theorem merge_isDescribed {s d : Entity} (h : s.kind = d.kind) :
    ∃ e, s.merge d = .ok e ∧ s.IsDescribed d e := by
  obtain ⟨e, he⟩ := exists_merge_of_kind_eq h
  obtain ⟨hkeeps, hmetadata, hexceptions⟩ := merge_outcome he
  refine ⟨e, he, ⟨hkeeps, ?_, ?_, fun ps qs hs hd => ?_, fun ps qs hs hd => ?_⟩⟩
  · rw [hmetadata, Option.orElse_eq_orElse, Option.orElse_eq_or]
  · simp only [hexceptions, List.isEmpty_iff]
  · exact ⟨_, parameters_of_merge he hs hd, ParameterDoc.isDescribed_merge ps qs⟩
  · exact ⟨_, typeParameters_of_merge he hs hd, TypeParameterDoc.isDescribed_merge ps qs⟩

/-- A method `C.f` whose generic parameters and parameters have names and one description. -/
def describedMethod (generics names : List String) (description : String) : Entity :=
  member ⟨.method, {
    identifier := { classPath := [⟨"C", [], .none⟩], name := "f" }
    detail := {
      typeParameters := generics.map fun name => { name, description := some description }
      parameters := names.map fun name => { name, description := some description } } }⟩

/-- Names may be repeated on either side. -/
theorem merge_isDescribed_of_repeated_names :
    (describedMethod ["T"] ["x", "y", "x"] "a").kind =
        (describedMethod ["U", "T"] ["z", "x", "x"] "b").kind ∧
      ∃ e, (describedMethod ["T"] ["x", "y", "x"] "a").merge
          (describedMethod ["U", "T"] ["z", "x", "x"] "b") = .ok e ∧
        (describedMethod ["T"] ["x", "y", "x"] "a").IsDescribed
          (describedMethod ["U", "T"] ["z", "x", "x"] "b") e :=
  ⟨rfl, merge_isDescribed rfl⟩

end Entity

end ApiDocs
