import Mathlib.Data.List.Perm.Basic
import ApiDocs.Proofs.Catalog.Connect
import ApiDocs.Proofs.Source.Record

/-!
# The halves of a source

The entities of a half of a source are those of its records, types apart from members, and connecting
gives each of them its place.

* `Entities.ofStructural_outcome`, `documentedEntities_outcome`: the entities of all records;
* `Catalog.ofStructural_outcome`, `Catalog.ofDocumentation_outcome`: what the halves have.
-/

namespace ApiDocs

/-! ## Lists of records -/

section

variable {ε α β γ : Type} {xs : List α} {ys : List β}

theorem exists_eq_of_map_eq {p : α → γ} {q : β → γ} (h : xs.map p = ys.map q) {x : α}
    (hx : x ∈ xs) : ∃ y ∈ ys, q y = p x := by
  have hmem : p x ∈ ys.map q := by
    rw [← h]
    exact List.mem_map.mpr ⟨x, hx, rfl⟩
  exact List.mem_map.mp hmem

/-- What can be told from an item and from what becomes of it is the same for the whole lists. -/
theorem map_eq_map_of_map_eq {f : α → Except ε β} (h : xs.map f = ys.map .ok) {p : α → γ}
    {q : β → γ} (hpq : ∀ x y, f x = .ok y → p x = q y) : xs.map p = ys.map q := by
  induction xs generalizing ys with
  | nil =>
    cases ys with
    | nil => rfl
    | cons y ys => cases h
  | cons x xs ih =>
    cases ys with
    | nil => cases h
    | cons y ys =>
      rw [List.map_cons, List.map_cons, List.cons.injEq] at h
      rw [List.map_cons, List.map_cons, hpq x y h.1, ih h.2]

/-- What becomes of some items becomes of them in any order. -/
theorem exists_perm_of_map_eq {xs' : List α} {p : α → γ} {q : β → γ} (h : xs.map p = ys.map q)
    (hperm : xs'.Perm xs) : ∃ ys' : List β, xs'.map p = ys'.map q ∧ ys'.Perm ys := by
  have hpairs : List.Forall₂ (fun x y => p x = q y) xs ys := by
    rw [← List.forall₂_eq_eq_eq, List.forall₂_map_left_iff, List.forall₂_map_right_iff] at h
    exact h
  obtain ⟨ys', hpairs', hperm'⟩ := List.perm_comp_forall₂ hperm hpairs
  refine ⟨ys', ?_, hperm'⟩
  rw [← List.forall₂_eq_eq_eq, List.forall₂_map_left_iff, List.forall₂_map_right_iff]
  exact hpairs'

end

/-! ## Entities of records -/

/-- The records that are not passed over. -/
def LoadOptions.kept (options : LoadOptions) (records : List StructuralRecord) :
    List StructuralRecord :=
  records.filter fun r =>
    match options.skips r with
    | .ok skipped => !skipped
    | .error _ => false

/-- The entities of some types and members. -/
def entitiesOf (types : List TypeDoc) (members : List AnyMember) : List Entity :=
  types.map .type ++ members.map .member

theorem mem_entitiesOf_of_mem_types {types : List TypeDoc} {t : TypeDoc} (ht : t ∈ types)
    (members : List AnyMember) : .type t ∈ entitiesOf types members :=
  List.mem_append_left _ (List.mem_map.mpr ⟨t, ht, rfl⟩)

theorem perm_entitiesOf_cons_member (types : List TypeDoc) (m : AnyMember)
    (members : List AnyMember) :
    (.member m :: entitiesOf types members).Perm (entitiesOf types (m :: members)) :=
  List.perm_middle.symm

/-- The entities of the structural records that are kept. -/
theorem Entities.ofStructural_outcome {source : String} {options : LoadOptions}
    {records : List StructuralRecord} {es : Entities}
    (h : ofStructural source options records = .ok es) : ∃ l : List Entity,
      (options.kept records).map (·.toEntity) = l.map .ok ∧
        l.Perm (entitiesOf es.types es.members) := by
  induction records generalizing es with
  | nil =>
    cases h
    exact ⟨[], rfl, .refl _⟩
  | cons r rest ih =>
    simp only [ofStructural, bind_eq_ok_iff, mapError_eq_ok_iff] at h
    obtain ⟨skipped, hskip, h⟩ := h
    cases skipped with
    | true =>
      obtain ⟨es', hrest, h⟩ := bind_eq_ok_iff.mp h
      cases h
      obtain ⟨l, hl, hperm⟩ := ih hrest
      refine ⟨l, ?_, hperm⟩
      rw [LoadOptions.kept, List.filter_cons, hskip]
      exact hl
    | false =>
      obtain ⟨e, he, h⟩ := bind_eq_ok_iff.mp h
      obtain ⟨es', hrest, h⟩ := bind_eq_ok_iff.mp h
      cases h
      obtain ⟨l, hl, hperm⟩ := ih hrest
      refine ⟨e :: l, ?_, ?_⟩
      · rw [LoadOptions.kept, List.filter_cons, hskip, List.map_cons,
          ← mapError_eq_ok_iff.mp he, ← hl]
        rfl
      · cases e with
        | type t => exact hperm.cons _
        | member m => exact (hperm.cons _).trans (perm_entitiesOf_cons_member _ m _)

/-- The entities of the documentation records. -/
theorem documentedEntities_outcome {source : String} {records : List DocumentationRecord}
    {types : List TypeDoc} {members : List AnyMember}
    (h : (documentedEntities source records).outcome = .ok (types, members)) : ∃ l : List Entity,
      records.map (·.toEntity.outcome) = l.map .ok ∧ l.Perm (entitiesOf types members) := by
  induction records generalizing types members with
  | nil =>
    cases h
    exact ⟨[], rfl, .refl _⟩
  | cons r rest ih =>
    rw [documentedEntities, Logged.bind_eq_ok_iff] at h
    obtain ⟨e, he, h⟩ := h
    rw [Logged.bind_eq_ok_iff] at h
    obtain ⟨⟨types', members'⟩, hrest, h⟩ := h
    obtain ⟨l, hl, hperm⟩ := ih hrest
    refine ⟨e :: l, ?_, ?_⟩
    · rw [List.map_cons, List.map_cons, mapError_eq_ok_iff.mp he, hl]
    · cases e with
      | type t =>
        cases h
        exact hperm.cons _
      | member m =>
        cases h
        exact (hperm.cons _).trans (perm_entitiesOf_cons_member _ m _)

/-! ## The halves of a source -/

namespace Catalog

theorem Connects.perm {entities entities' : List Entity} {c : Catalog} (hc : Connects entities c)
    (h : entities.Perm entities') : Connects entities' c := by
  refine ⟨?_, (h.map _).nodup_iff.mp hc.apart, ?_⟩
  · intro e he
    exact hc.present e (h.mem_iff.mpr he)
  · intro place e hat
    obtain ⟨hpos, hcomes⟩ := hc.origin place e hat
    exact ⟨hpos, hcomes.mono fun _ => h.mem_iff.mp⟩

theorem Connects.isSome_entityAt {entities : List Entity} {c : Catalog} (hc : Connects entities c)
    {e : Entity} (he : e ∈ entities) {place : Place} (hplace : e.place? = some place) :
    (c.entityAt place).isSome := by
  obtain ⟨other, hother, hat⟩ := hc.present e he
  rw [hplace, Option.some.injEq] at hother
  rw [hother, hat, Option.isSome_some]

/-- What is at a place has it from an entity, or is the type of a member. -/
theorem Connects.exists_place {entities : List Entity} {c : Catalog} (hc : Connects entities c)
    {place : Place} {e : Entity} (h : c.entityAt place = some e) :
    (∃ e' ∈ entities, e'.place? = some place) ∨
      ∃ owner cls key, place = .type owner ∧
        ∃ e' ∈ entities, e'.place? = some (.member cls owner key) := by
  obtain ⟨hplace, hmem | ⟨m, parent, hmem, hparent, rfl⟩⟩ := hc.origin place e h
  · exact .inl ⟨e, hmem, hplace⟩
  · cases hplace
    refine .inr ⟨_, m.cls, m.identifier.signatureKey, rfl, .member m, hmem, ?_⟩
    rw [Entity.place?_member, hparent]
    rfl

/-- Something stands where an entity has its place, and at the type around it. -/
theorem Connects.isSome_entityAt_iff {entities : List Entity} {c : Catalog}
    (hc : Connects entities c) {outer : Place} : (c.entityAt outer).isSome ↔
      ∃ e ∈ entities, ∃ place, e.place? = some place ∧ place.IsIn outer := by
  constructor
  · intro hsome
    obtain ⟨e, hat⟩ := Option.isSome_iff_exists.mp hsome
    obtain ⟨e', he', hplace⟩ | ⟨owner, cls, key, rfl, e', he', hplace⟩ := hc.exists_place hat
    · exact ⟨e', he', outer, hplace, .inl rfl⟩
    · exact ⟨e', he', _, hplace, .inr rfl⟩
  · rintro ⟨e, he, place, hplace, hin⟩
    exact isSome_entityAt_of_isIn hin (hc.isSome_entityAt he hplace)

/-- What the structural half of a source has before something is hidden. -/
theorem ofStructural_outcome {source : String} {options : LoadOptions}
    {records : List StructuralRecord} {c : Catalog}
    (h : (ofStructural source options records).outcome = .ok c) :
    ∃ c₀ l, c = c₀.filterVisibility options.visibilities ∧
      (options.kept records).map (·.toEntity) = l.map .ok ∧ Connects l c₀ := by
  rw [ofStructural, Logged.bind_eq_ok_iff] at h
  obtain ⟨es, hes, h⟩ := h
  -- Whether records were skipped makes a difference to the log only.
  have hrest : ((connect es.types es.members).mapError (LoadError.ofSource source) >>= fun c =>
      pure (c.filterVisibility options.visibilities)).outcome = .ok c := by
    dsimp only at h
    split at h
    · obtain ⟨-, -, h⟩ := Logged.bind_eq_ok_iff.mp h
      exact h
    · exact h
  obtain ⟨c₀, hconnect, hfilter⟩ := Logged.bind_eq_ok_iff.mp hrest
  cases hfilter
  obtain ⟨l, hl, hperm⟩ := Entities.ofStructural_outcome hes
  refine ⟨c₀, l, rfl, hl, ?_⟩
  refine (connects_of_connect (fun t ht => ?_) (mapError_eq_ok_iff.mp hconnect)).perm hperm.symm
  have hmem : Entity.type t ∈ l := hperm.mem_iff.mpr (mem_entitiesOf_of_mem_types ht es.members)
  obtain ⟨r, -, hr⟩ := exists_eq_of_map_eq hl.symm hmem
  exact (StructuralRecord.toEntity_outcome hr).2.2 t rfl

/-- What the documentation half of a source has. -/
theorem ofDocumentation_outcome {source : String} {records : List DocumentationRecord} {c : Catalog}
    (h : (ofDocumentation source records).outcome = .ok c) :
    ∃ l, records.map (·.toEntity.outcome) = l.map .ok ∧ Connects l c := by
  rw [ofDocumentation, Logged.bind_eq_ok_iff] at h
  obtain ⟨⟨types, members⟩, hes, h⟩ := h
  rw [Logged.bind_eq_ok_iff] at h
  obtain ⟨-, -, h⟩ := h
  obtain ⟨l, hl, hperm⟩ := documentedEntities_outcome hes
  refine ⟨l, hl, ?_⟩
  refine (connects_of_connect (fun t ht => ?_) (mapError_eq_ok_iff.mp h)).perm hperm.symm
  have hmem : Entity.type t ∈ l := hperm.mem_iff.mpr (mem_entitiesOf_of_mem_types ht members)
  obtain ⟨r, -, hr⟩ := exists_eq_of_map_eq hl.symm hmem
  exact (DocumentationRecord.toEntity_outcome hr).2.2.2 t rfl

end Catalog

end ApiDocs
